/-
  Highlighting/Proofs/Text/Search.lean
  ====================================
  **Searches that can be resumed anywhere.**

  A search is *steady* on a text when whether and how a match starts at a
  position does not depend on where the search began: it then finds what
  trying the positions one by one finds (`IsSteady`).  Passing over some
  matches of a steady search leaves it steady (`sift_eq_ofEnds`).

  A search keeps *within* a text when the matches it finds lie between the
  position where it began and the end of the text (`IsWithin`).  Whoever goes
  through its matches comes to an end, with a bound known beforehand or without
  (`exists_sifts`).
-/
import Highlighting.Text.Search

namespace Highlighting.Search

variable {f g : Nat → Option Nat} {search : Search} {size fuel pos q : Nat} {s : Span}

/-! ### Trying one position after the other -/

theorem leftmost_eq_none_iff :
    leftmost f fuel pos = none ↔ ∀ p, pos ≤ p → p < pos + fuel → f p = none := by
  induction fuel generalizing pos with
  | zero =>
    simp only [leftmost, true_iff]
    intro p h1 h2
    omega
  | succ fuel ih =>
    cases hf : f pos with
    | some stop =>
      simp only [leftmost, hf, reduceCtorEq, false_iff]
      intro h
      exact absurd (h pos (Nat.le_refl _) (by omega)) (by simp [hf])
    | none =>
      simp only [leftmost, hf, ih]
      constructor
      · intro h p h1 h2
        rcases Nat.eq_or_lt_of_le h1 with rfl | h1
        · exact hf
        · exact h p h1 (by omega)
      · intro h p h1 h2
        exact h p (by omega) (by omega)

theorem leftmost_eq_some_iff :
    leftmost f fuel pos = some s ↔
      pos ≤ s.start ∧ s.start < pos + fuel ∧ f s.start = some s.stop ∧
        ∀ p, pos ≤ p → p < s.start → f p = none := by
  induction fuel generalizing pos with
  | zero =>
    simp only [leftmost, reduceCtorEq, false_iff]
    rintro ⟨h1, h2, -⟩
    omega
  | succ fuel ih =>
    cases hf : f pos with
    | some stop =>
      simp only [leftmost, hf, Option.some.injEq]
      constructor
      · rintro rfl
        exact ⟨Nat.le_refl _, by simp, hf, fun p h1 h2 => absurd h1 (Nat.not_le.mpr h2)⟩
      · rintro ⟨h1, -, hs, hfirst⟩
        -- nothing lies before the first position, so the match starts there
        rcases Nat.eq_or_lt_of_le h1 with rfl | h1
        · rw [hf, Option.some.injEq] at hs
          subst hs
          rfl
        · exact absurd (hfirst pos (Nat.le_refl _) h1) (by simp [hf])
    | none =>
      simp only [leftmost, hf, ih]
      constructor
      · rintro ⟨h1, h2, hs, hfirst⟩
        refine ⟨by omega, by omega, hs, fun p hp hlt => ?_⟩
        rcases Nat.eq_or_lt_of_le hp with rfl | hp
        · exact hf
        · exact hfirst p hp hlt
      · rintro ⟨h1, h2, hs, hfirst⟩
        have hne : pos ≠ s.start := by
          rintro rfl
          simp [hf] at hs
        exact ⟨by omega, by omega, hs, fun p hp hlt => hfirst p (by omega) hlt⟩

theorem leftmost_congr (h : ∀ p, pos ≤ p → p < pos + fuel → f p = g p) :
    leftmost f fuel pos = leftmost g fuel pos := by
  induction fuel generalizing pos with
  | zero => rfl
  | succ fuel ih =>
    simp only [leftmost, h pos (Nat.le_refl _) (by omega)]
    cases g pos with
    | some stop => rfl
    | none => exact ih fun p h1 h2 => h p (by omega) (by omega)

/-! ### Trying all positions of a text -/

/-- The search that tries all positions of a text of that size. -/
def ofEnds (size : Nat) (endAt? : Nat → Option Nat) : Search :=
  fun pos => leftmost endAt? (size + 1 - pos) pos

theorem ofEnds_eq_none_iff :
    ofEnds size f pos = none ↔ ∀ p, pos ≤ p → p ≤ size → f p = none := by
  rw [ofEnds, leftmost_eq_none_iff]
  constructor
  · intro h p h1 h2
    exact h p h1 (by omega)
  · intro h p h1 h2
    exact h p h1 (by omega)

theorem ofEnds_eq_some_iff :
    ofEnds size f pos = some s ↔
      pos ≤ s.start ∧ s.start ≤ size ∧ f s.start = some s.stop ∧
        ∀ p, pos ≤ p → p < s.start → f p = none := by
  rw [ofEnds, leftmost_eq_some_iff]
  constructor
  · rintro ⟨h1, h2, hs, hfirst⟩
    exact ⟨h1, by omega, hs, hfirst⟩
  · rintro ⟨h1, h2, hs, hfirst⟩
    exact ⟨h1, by omega, hs, hfirst⟩

theorem ofEnds_congr (h : ∀ p, pos ≤ p → p ≤ size → f p = g p) :
    ofEnds size f pos = ofEnds size g pos :=
  leftmost_congr fun p h1 h2 => h p h1 (by omega)

/-- Where nothing starts for a while, the search can as well begin behind that. -/
theorem ofEnds_resume (hle : pos ≤ q) (h : ∀ p, pos ≤ p → p < q → f p = none) :
    ofEnds size f pos = ofEnds size f q := by
  cases hq : ofEnds size f q with
  | none =>
    rw [ofEnds_eq_none_iff] at hq ⊢
    intro p h1 h2
    rcases Nat.lt_or_ge p q with hlt | hge
    · exact h p h1 hlt
    · exact hq p hge h2
  | some s =>
    rw [ofEnds_eq_some_iff] at hq ⊢
    obtain ⟨h1, h2, hs, hfirst⟩ := hq
    refine ⟨by omega, h2, hs, fun p hp hlt => ?_⟩
    rcases Nat.lt_or_ge p q with hpq | hpq
    · exact h p hp hpq
    · exact hfirst p hpq hlt

/-! ### Steady searches -/

/-- The end of the match that the search finds right where it begins, if it finds one
there. -/
def endAt? (search : Search) (pos : Nat) : Option Nat :=
  match search pos with
  | some s => if s.start = pos then some s.stop else none
  | none => none

/-- Whether and how a match starts at a position of the text does not depend on where the
search began. -/
def IsSteady (size : Nat) (search : Search) : Prop :=
  ∀ pos, search pos = ofEnds size (endAt? search) pos

theorem endAt?_ofEnds (hle : pos ≤ size) : endAt? (ofEnds size f) pos = f pos := by
  cases hs : ofEnds size f pos with
  | none => simp [endAt?, hs, (ofEnds_eq_none_iff.mp hs) pos (Nat.le_refl _) hle]
  | some s =>
    obtain ⟨h1, -, hs', hfirst⟩ := ofEnds_eq_some_iff.mp hs
    by_cases heq : s.start = pos
    · subst heq
      simp [endAt?, hs, hs']
    · simp [endAt?, hs, heq, hfirst pos (Nat.le_refl _) (by omega)]

theorem isSteady_ofEnds : IsSteady size (ofEnds size f) :=
  fun _ => ofEnds_congr fun _ _ h => (endAt?_ofEnds h).symm

theorem IsSteady.congr {search' : Search} (h : IsSteady size search)
    (heq : ∀ pos, search' pos = search pos) : IsSteady size search' := by
  rw [show search' = search from funext heq]
  exact h

/-- A search is steady when it could as well begin one character later wherever it finds no
match right away. -/
theorem isSteady_of_succ (hbehind : ∀ pos, size < pos → search pos = none)
    (hsucc : ∀ pos, pos ≤ size → (∀ s, search pos = some s → s.start ≠ pos) →
      search pos = search (pos + 1)) : IsSteady size search := by
  intro pos
  -- by induction on what is left of the text
  generalize hn : size + 1 - pos = n
  induction n generalizing pos with
  | zero =>
    rw [hbehind pos (by omega), eq_comm, ofEnds_eq_none_iff]
    intro p h1 h2
    omega
  | succ n ih =>
    by_cases hhere : ∃ s, search pos = some s ∧ s.start = pos
    · obtain ⟨s, hs, rfl⟩ := hhere
      rw [hs, eq_comm, ofEnds_eq_some_iff]
      refine ⟨Nat.le_refl _, by omega, ?_, fun p h1 h2 => absurd h1 (Nat.not_le.mpr h2)⟩
      rw [endAt?, hs]
      exact if_pos rfl
    · have hne : ∀ s, search pos = some s → s.start ≠ pos :=
        fun s hs heq => hhere ⟨s, hs, heq⟩
      have hend : endAt? search pos = none := by
        rw [endAt?]
        split
        · next s hs => exact if_neg (hne s hs)
        · rfl
      rw [hsucc pos (by omega) hne, ih (pos + 1) (by omega), eq_comm]
      apply ofEnds_resume (Nat.le_succ pos)
      intro p h1 h2
      obtain rfl : p = pos := by omega
      exact hend

/-- The end of what the match at a position is taken for. -/
def siftedEnd? (search : Search) (accept : Span → Option Span) (pos : Nat) : Option Nat :=
  (endAt? search pos).bind fun stop => (accept ⟨pos, stop⟩).map (·.stop)

/-- **Passing over matches keeps a search steady.** -/
theorem sift_eq_ofEnds {accept : Span → Option Span} (hsteady : IsSteady size search)
    (hstart : ∀ s r, accept s = some r → r.start = s.start) (hfuel : size + 1 - pos ≤ fuel) :
    sift search accept fuel pos = ofEnds size (siftedEnd? search accept) pos := by
  induction fuel generalizing pos with
  | zero =>
    rw [sift, eq_comm, ofEnds_eq_none_iff]
    intro p h1 h2
    omega
  | succ fuel ih =>
    cases hfound : search pos with
    | none =>
      simp only [sift, hfound]
      rw [hsteady pos, ofEnds_eq_none_iff] at hfound
      rw [eq_comm, ofEnds_eq_none_iff]
      intro p h1 h2
      simp [siftedEnd?, hfound p h1 h2]
    | some s =>
      have hs := hfound
      rw [hsteady pos, ofEnds_eq_some_iff] at hs
      obtain ⟨h1, h2, hend, hfirst⟩ := hs
      have hbefore : ∀ p, pos ≤ p → p < s.start → siftedEnd? search accept p = none := by
        intro p hp hlt
        simp [siftedEnd?, hfirst p hp hlt]
      cases hacc : accept s with
      | some r =>
        simp only [sift, hfound, hacc]
        have hr := hstart s r hacc
        rw [eq_comm, ofEnds_eq_some_iff]
        refine ⟨by omega, by omega, ?_, fun p hp hlt => hbefore p hp (by omega)⟩
        simp [siftedEnd?, hr, hend, hacc]
      | none =>
        simp only [sift, hfound, hacc]
        rw [ih (by omega), ofEnds_resume (show pos ≤ s.start + 1 by omega)]
        intro p hp hlt
        rcases Nat.lt_succ_iff_lt_or_eq.mp hlt with hlt | rfl
        · exact hbefore p hp hlt
        · simp [siftedEnd?, hend, hacc]

/-! ### Searches within a text -/

/-- Every match that is found lies between the position where the search began and the end of
the text. -/
def IsWithin (size : Nat) (search : Search) : Prop :=
  ∀ pos s, pos ≤ size → search pos = some s → pos ≤ s.start ∧ s.start ≤ s.stop ∧ s.stop ≤ size

theorem IsWithin.congr {search' : Search} (h : IsWithin size search)
    (heq : ∀ pos, search' pos = search pos) : IsWithin size search' :=
  fun pos s hle hs => h pos s hle (heq pos ▸ hs)

/-- What is taken for a match within the text lies where that match does. -/
theorem exists_of_sift {accept : Span → Option Span} {r : Span} (h : IsWithin size search)
    (hend : ∀ pos, size < pos → search pos = none) (hr : sift search accept fuel pos = some r) :
    ∃ p s, search p = some s ∧ accept s = some r ∧
      pos ≤ s.start ∧ s.start ≤ s.stop ∧ s.stop ≤ size := by
  induction fuel generalizing pos with
  | zero => cases hr
  | succ fuel ih =>
    cases hfound : search pos with
    | none => simp [sift, hfound] at hr
    | some s =>
      have hle : pos ≤ size := by
        rcases Nat.lt_or_ge size pos with hlt | hle
        · simp [hend pos hlt] at hfound
        · exact hle
      obtain ⟨h1, h2, h3⟩ := h pos s hle hfound
      cases hacc : accept s with
      | some a =>
        obtain rfl : a = r := by simpa [sift, hfound, hacc] using hr
        exact ⟨pos, s, hfound, hacc, h1, h2, h3⟩
      | none =>
        simp only [sift, hfound, hacc] at hr
        obtain ⟨p, s', hfound', hacc', h1', h2', h3'⟩ := ih hr
        exact ⟨p, s', hfound', hacc', by omega, h2', h3'⟩

/-- **Where fewer matches are accepted, none is found that starts earlier.** -/
theorem exists_sift_of_sift {accept accept' : Span → Option Span} {r : Span}
    (h : IsWithin size search) (hend : ∀ pos, size < pos → search pos = none)
    (hfewer : ∀ s r, accept' s = some r → accept s = some r)
    (hstart : ∀ s r, accept s = some r → r.start = s.start)
    (hr : sift search accept' fuel pos = some r) :
    ∃ r', sift search accept fuel pos = some r' ∧ r'.start ≤ r.start := by
  induction fuel generalizing pos with
  | zero => cases hr
  | succ fuel ih =>
    cases hfound : search pos with
    | none => simp [sift, hfound] at hr
    | some s =>
      cases hacc' : accept' s with
      | some a =>
        obtain rfl : a = r := by simpa [sift, hfound, hacc'] using hr
        exact ⟨a, by simp only [sift, hfound, hfewer s a hacc'], Nat.le_refl _⟩
      | none =>
        simp only [sift, hfound, hacc'] at hr
        cases hacc : accept s with
        | some a =>
          -- the match that is passed over starts before all those behind it
          obtain ⟨_, s', -, hs', hlt, -⟩ := exists_of_sift h hend hr
          refine ⟨a, by simp only [sift, hfound, hacc], ?_⟩
          rw [hstart s a hacc, hstart s' r (hfewer s' r hs')]
          exact Nat.le_of_succ_le hlt
        | none =>
          simp only [sift, hfound, hacc]
          exact ih hr

/-- Going through the matches of a search from a position on, until one is accepted or the text
is over, takes so many searches and comes to the result. -/
inductive Sifts (size : Nat) (search : Search) (accept : Span → Option Span) :
    Nat → Nat → Option Span → Prop where
  | behind {pos : Nat} (hgt : size < pos) : Sifts size search accept pos 0 none
  | nothing {pos : Nat} (hle : pos ≤ size) (hs : search pos = none) :
      Sifts size search accept pos 1 none
  | accepted {pos : Nat} {s r : Span} (hle : pos ≤ size) (hs : search pos = some s)
      (hacc : accept s = some r) : Sifts size search accept pos 1 (some r)
  | passed {pos rounds : Nat} {s : Span} {r : Option Span} (hle : pos ≤ size)
      (hs : search pos = some s) (hacc : accept s = none)
      (hrest : Sifts size search accept (s.start + 1) rounds r) :
      Sifts size search accept pos (rounds + 1) r

/-- **Going through the matches of a search within the text ends**, with the result of `sift`
and with at most one search for each position that is left. -/
theorem exists_sifts (accept : Span → Option Span) (h : IsWithin size search)
    (hend : ∀ pos, size < pos → search pos = none) (hfuel : size + 1 - pos ≤ fuel) :
    ∃ rounds ≤ size + 1 - pos,
      Sifts size search accept pos rounds (sift search accept fuel pos) := by
  induction fuel generalizing pos with
  | zero => exact ⟨0, Nat.zero_le _, .behind (by omega)⟩
  | succ fuel ih =>
    rcases Nat.lt_or_ge size pos with hgt | hle
    · refine ⟨0, Nat.zero_le _, ?_⟩
      simp only [sift, hend pos hgt]
      exact .behind hgt
    · cases hs : search pos with
      | none =>
        refine ⟨1, by omega, ?_⟩
        simp only [sift, hs]
        exact .nothing hle hs
      | some s =>
        cases hacc : accept s with
        | some r =>
          refine ⟨1, by omega, ?_⟩
          simp only [sift, hs, hacc]
          exact .accepted hle hs hacc
        | none =>
          -- the next search begins behind the start of the match, and so further ahead
          obtain ⟨hstart, hlen, hstop⟩ := h pos s hle hs
          have hfuel' : size + 1 - (s.start + 1) ≤ fuel := by omega
          obtain ⟨rounds, hrounds, hrest⟩ := ih hfuel'
          refine ⟨rounds + 1, by omega, ?_⟩
          simp only [sift, hs, hacc]
          exact .passed hle hs hacc hrest

theorem isWithin_ofEnds (h : ∀ p stop, p ≤ size → f p = some stop → p ≤ stop ∧ stop ≤ size) :
    IsWithin size (ofEnds size f) := by
  intro pos s _ hs
  obtain ⟨h1, h2, hend, -⟩ := ofEnds_eq_some_iff.mp hs
  obtain ⟨h3, h4⟩ := h s.start s.stop h2 hend
  exact ⟨h1, h3, h4⟩

end Highlighting.Search
