/-
  Highlighting/Proofs/Scan/Candidates.lean
  ========================================
  **The candidates of a region**, and the one that comes first.

  `candidates` lists the terminals that are searched for inside a region, in
  the order in which ties are decided.  `pick` takes the best of their
  matches; it is the least by start of the match and place in the list
  (`pick_isLeast`).

  Whatever the cache holds, a match that is chosen was found by the search for
  a candidate (`nextMatch_inv`): what is known of every search is known of it.
-/
import Mathlib.Data.List.Induction
import Highlighting.Scan.Step

namespace Highlighting.Scan

variable {task : Task} {barred : List Bar} {modes : List Nat} {pos : Nat}

/-! ### The list -/

/-- What is searched for inside regions of these modes, innermost first: terminals, with what
their matches mean. -/
def candidates (task : Task) (modes : List Nat) : List (Nat × Candidate) :=
  openings task.grammar modes ++ limits task modes

theorem mem_candidates_opens {index m : Nat} :
    (index, Candidate.opens m) ∈ candidates task modes ↔
      m ∈ (contentOf task.grammar modes).contains ∧ index = (task.grammar.mode m).opener := by
  simp only [candidates, openings, limits, List.mem_append, List.mem_map, Prod.mk.injEq,
    Candidate.opens.injEq]
  constructor
  · rintro (⟨n, hn, rfl, rfl⟩ | ⟨_, _, _, h⟩ | h)
    · exact ⟨hn, rfl⟩
    · cases h
    · split at h <;> simp at h
  · rintro ⟨hm, rfl⟩
    exact .inl ⟨m, hm, rfl, rfl⟩

theorem mem_candidates_closes {index depth : Nat} :
    (index, Candidate.closes depth) ∈ candidates task modes ↔
      closer? task.grammar modes 0 = some (index, depth) := by
  simp only [candidates, openings, limits, List.mem_append, List.mem_map, Option.mem_toList,
    Prod.mk.injEq, Candidate.closes.injEq]
  constructor
  · rintro (⟨_, _, _, h⟩ | ⟨⟨t, d⟩, hd, rfl, rfl⟩ | h)
    · cases h
    · exact hd
    · split at h <;> simp at h
  · intro h
    exact .inr (.inl ⟨(index, depth), h, rfl, rfl⟩)

theorem mem_candidates_illegal {index : Nat} :
    (index, Candidate.illegal) ∈ candidates task modes ↔
      task.options.ignoreIllegals = false ∧
        (contentOf task.grammar modes).illegal = some index := by
  simp only [candidates, openings, limits, List.mem_append, List.mem_map, Prod.mk.injEq]
  constructor
  · rintro (⟨_, _, _, h⟩ | ⟨_, _, _, h⟩ | h)
    · cases h
    · cases h
    · split at h
      · cases h
      · next hopt =>
        simp only [List.mem_map, Option.mem_toList, Prod.mk.injEq, and_true] at h
        obtain ⟨t, ht, rfl⟩ := h
        exact ⟨by simpa using hopt, ht⟩
  · rintro ⟨hopt, hill⟩
    exact .inr (.inr (by simp [hopt, hill]))

/-! ### Where a region ends -/

/-- The end that counts is declared by a region that is open, at the stated depth. -/
theorem closer?_eq_some {g : Grammar} {t depth start : Nat}
    (h : closer? g modes start = some (t, depth)) :
    start ≤ depth ∧ ∃ m, modes[depth - start]? = some m ∧ (g.mode m).ending = .pattern t := by
  induction modes generalizing start with
  | nil => cases h
  | cons m outer ih =>
    rw [closer?] at h
    split at h
    · next t' hend =>
      obtain ⟨rfl, rfl⟩ : t' = t ∧ start = depth := by simpa using h
      exact ⟨Nat.le_refl _, m, by simp, hend⟩
    · obtain ⟨hle, m', hm', hend⟩ := ih h
      refine ⟨by omega, m', ?_, hend⟩
      rw [show depth - start = depth - (start + 1) + 1 by omega, List.getElem?_cons_succ]
      exact hm'
    · cases h
    · cases h

theorem depth_lt_of_closer? {g : Grammar} {t depth : Nat}
    (h : closer? g modes 0 = some (t, depth)) : depth < modes.length := by
  obtain ⟨-, m, hm, -⟩ := closer?_eq_some h
  exact (List.getElem?_eq_some_iff.mp hm).1

theorem closedWith_pos {g : Grammar} (h : modes ≠ []) : 1 ≤ State.closedWith g modes := by
  cases modes with
  | nil => exact absurd rfl h
  | cons m outer =>
    rw [State.closedWith]
    split <;> omega

/-- An end closes some region at least. -/
theorem closedBy_pos {g : Grammar} {depth : Nat} (h : depth < modes.length) :
    1 ≤ State.closedBy g modes depth := by
  have hne : modes.drop depth ≠ [] := by
    simpa [List.drop_eq_nil_iff] using h
  have := closedWith_pos (g := g) hne
  rw [State.closedBy]
  omega

/-! ### The best match -/

/-- The best among the matches of candidates, when each terminal is searched for with
`find`. -/
def pick (find : Nat → Option Span) (cs : List (Nat × Candidate)) : Option Found :=
  cs.foldl (fun best c => better best c.2 (find c.1)) none

theorem pick_append (find : Nat → Option Span) (cs : List (Nat × Candidate))
    (c : Nat × Candidate) : pick find (cs ++ [c]) = better (pick find cs) c.2 (find c.1) := by
  simp [pick]

/-- Only the searches for candidates matter. -/
theorem pick_congr {find find' : Nat → Option Span} {cs : List (Nat × Candidate)}
    (h : ∀ c ∈ cs, find c.1 = find' c.1) : pick find cs = pick find' cs := by
  induction cs using List.reverseRecOn with
  | nil => rfl
  | append_singleton cs c ih =>
    rw [pick_append, pick_append, ih fun d hd => h d (by simp [hd]), h c (by simp)]

/-- A match is the least of all, by its start and then by the place of its candidate. -/
def IsLeast (find : Nat → Option Span) (cs : List (Nat × Candidate)) (f : Found) : Prop :=
  ∃ (i index : Nat), cs[i]? = some (index, f.candidate) ∧ find index = some f.span ∧
    ∀ j c s, cs[j]? = some c → find c.1 = some s →
      f.span.start < s.start ∨ f.span.start = s.start ∧ i ≤ j

theorem pick_eq_none_iff {find : Nat → Option Span} {cs : List (Nat × Candidate)} :
    pick find cs = none ↔ ∀ c ∈ cs, find c.1 = none := by
  induction cs using List.reverseRecOn with
  | nil => simp [pick]
  | append_singleton cs c ih =>
    rw [pick_append]
    cases hc : find c.1 with
    | none =>
      simp only [better, ih, List.mem_append, List.mem_singleton]
      constructor
      · rintro h d (hd | rfl)
        · exact h d hd
        · exact hc
      · intro h d hd
        exact h d (.inl hd)
    | some s =>
      have hsome : better (pick find cs) c.2 (some s) ≠ none := by
        cases pick find cs <;> simp [better, improves]
        split <;> simp
      simp only [hsome, false_iff]
      intro h
      simpa [hc] using h c (by simp)

/-- **The best match is the least one.** -/
theorem pick_isLeast {find : Nat → Option Span} {cs : List (Nat × Candidate)} {f : Found}
    (h : pick find cs = some f) : IsLeast find cs f := by
  induction cs using List.reverseRecOn generalizing f with
  | nil => cases h
  | append_singleton cs c ih =>
    -- of a longer list, the new candidate only wins with an earlier start
    rw [pick_append] at h
    have hlast : (cs ++ [c])[cs.length]? = some c := by simp
    have hold : ∀ f', pick find cs = some f' →
        (∀ s, find c.1 = some s → f'.span.start ≤ s.start) → IsLeast find (cs ++ [c]) f' := by
      intro f' hf' hle
      obtain ⟨i, index, hi, hfind, hleast⟩ := ih hf'
      have hilt := (List.getElem?_eq_some_iff.mp hi).1
      refine ⟨i, index, by rw [List.getElem?_append_left hilt]; exact hi, hfind, ?_⟩
      intro j d s hj hs
      rcases Nat.lt_trichotomy j cs.length with hlt | rfl | hgt
      · rw [List.getElem?_append_left hlt] at hj
        exact hleast j d s hj hs
      · obtain rfl : c = d := by simpa using hj
        have := hle s hs
        omega
      · rw [List.getElem?_eq_none (by simp; omega)] at hj
        cases hj
    cases hc : find c.1 with
    | none =>
      rw [hc] at h
      exact hold f h fun s hs => by simp [hc] at hs
    | some s =>
      rw [hc, better] at h
      split at h
      · next himp =>
        obtain rfl : (⟨s, c.2⟩ : Found) = f := by simpa using h
        refine ⟨cs.length, c.1, by simp, hc, ?_⟩
        intro j d s' hj hs'
        rcases Nat.lt_trichotomy j cs.length with hlt | rfl | hgt
        · rw [List.getElem?_append_left hlt] at hj
          cases hpick : pick find cs with
          | none =>
            have := pick_eq_none_iff.mp hpick d (List.mem_of_getElem? hj)
            simp [hs'] at this
          | some f' =>
            obtain ⟨_, _, _, _, hleast⟩ := ih hpick
            have hlt' : s.start < f'.span.start := by simpa [improves, hpick] using himp
            have := hleast j d s' hj hs'
            left
            show s.start < s'.start
            omega
        · obtain rfl : c = d := by simpa using hj
          rw [hc, Option.some.injEq] at hs'
          subst hs'
          exact .inr ⟨rfl, Nat.le_refl _⟩
        · rw [List.getElem?_eq_none (by simp; omega)] at hj
          cases hj
      · next himp =>
        refine hold f h fun s' hs' => ?_
        rw [hc, Option.some.injEq] at hs'
        subst hs'
        rw [h] at himp
        simpa [improves] using himp

theorem IsLeast.unique {find : Nat → Option Span} {cs : List (Nat × Candidate)} {f f' : Found}
    (h : IsLeast find cs f) (h' : IsLeast find cs f') : f = f' := by
  obtain ⟨i, index, hi, hfind, hleast⟩ := h
  obtain ⟨i', index', hi', hfind', hleast'⟩ := h'
  have h1 := hleast i' _ _ hi' hfind'
  have h2 := hleast' i _ _ hi hfind
  obtain rfl : i = i' := by omega
  have hindex := Option.some.inj (hi.symm.trans hi')
  rw [Prod.mk.injEq] at hindex
  obtain ⟨rfl, hcandidate⟩ := hindex
  obtain ⟨span, candidate⟩ := f
  obtain ⟨span', candidate'⟩ := f'
  obtain rfl : span = span' := Option.some.inj (hfind.symm.trans hfind')
  obtain rfl : candidate = candidate' := hcandidate
  rfl

theorem pick_eq_some_iff {find : Nat → Option Span} {cs : List (Nat × Candidate)} {f : Found} :
    pick find cs = some f ↔ IsLeast find cs f := by
  constructor
  · exact pick_isLeast
  · intro h
    cases hpick : pick find cs with
    | some f' => rw [(pick_isLeast hpick).unique h]
    | none =>
      obtain ⟨i, index, hi, hfind, -⟩ := h
      have hnone := pick_eq_none_iff.mp hpick _ (List.mem_of_getElem? hi)
      rw [hfind] at hnone
      cases hnone

theorem mem_of_isLeast {find : Nat → Option Span} {cs : List (Nat × Candidate)} {f : Found}
    (h : IsLeast find cs f) :
    ∃ index, (index, f.candidate) ∈ cs ∧ find index = some f.span := by
  obtain ⟨i, index, hi, hfind, -⟩ := h
  exact ⟨index, List.mem_of_getElem? hi, hfind⟩

/-! ### What is chosen was found -/

section Chosen

variable {I : Cache → Prop} {Q : Nat → Span → Prop} {cs : List (Nat × Candidate)}

/-- The best match so far, if there is one, is that of a candidate. -/
def Chosen (cs : List (Nat × Candidate)) (Q : Nat → Span → Prop) (best : Option Found) : Prop :=
  ∀ f, best = some f → ∃ index, (index, f.candidate) ∈ cs ∧ Q index f.span

/-- Every search keeps what is known of the cache, and what it finds is fit. -/
def Searches (task : Task) (barred : List Bar) (pos : Nat) (I : Cache → Prop)
    (Q : Nat → Span → Prop) : Prop :=
  ∀ index cache, I cache → I (search task barred pos index cache).2 ∧
    ∀ s, (search task barred pos index cache).1 = some s → Q index s

theorem Chosen.better {Q : Nat → Span → Prop} {best : Option Found} (hbest : Chosen cs Q best)
    {index : Nat} {candidate : Candidate} (hmem : (index, candidate) ∈ cs)
    {found : Option Span} (hQ : ∀ s, found = some s → Q index s) :
    Chosen cs Q (better best candidate found) := by
  cases found with
  | none => exact hbest
  | some s =>
    rw [Scan.better]
    split
    · intro f hf
      obtain rfl : (⟨s, candidate⟩ : Found) = f := by simpa using hf
      exact ⟨index, hmem, hQ s rfl⟩
    · exact hbest

theorem considerAll_inv (hsearch : Searches task barred pos I Q) (early : Bool)
    {ds : List (Nat × Candidate)} (hsub : ∀ d ∈ ds, d ∈ cs) (choice : Choice)
    (hI : I choice.cache) (hbest : Chosen cs Q choice.best) :
    I (considerAll task barred pos early ds choice).cache ∧
      Chosen cs Q (considerAll task barred pos early ds choice).best := by
  induction ds generalizing choice with
  | nil => exact ⟨hI, hbest⟩
  | cons d ds ih =>
    rw [considerAll]
    split
    · exact ⟨hI, hbest⟩
    · obtain ⟨hI', hQ⟩ := hsearch d.1 choice.cache hI
      exact ih (fun e he => hsub e (by simp [he])) _ hI' (hbest.better (hsub d (by simp)) hQ)

/-- **What is known of every search is known of the next match.** -/
theorem nextMatch_inv (hsearch : Searches task barred pos I Q) (modes : List Nat)
    {cache : Cache} (hI : I cache) :
    I (nextMatch task barred modes pos cache).cache ∧
      Chosen (candidates task modes) Q (nextMatch task barred modes pos cache).best := by
  obtain ⟨hI', hbest⟩ := considerAll_inv hsearch task.shortcuts.stopEarly
    (fun d hd => List.mem_append_left (limits task modes) hd) ⟨none, cache, false⟩ hI
    (fun f hf => by cases hf)
  rw [nextMatch]
  split
  · exact ⟨hI', hbest⟩
  · exact considerAll_inv hsearch false
      (fun d hd => List.mem_append_right (openings task.grammar modes) hd) _ hI' hbest

end Chosen

end Highlighting.Scan
