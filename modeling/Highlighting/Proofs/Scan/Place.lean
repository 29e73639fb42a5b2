/-
  Highlighting/Proofs/Scan/Place.lean
  ===================================
  **Places**, and what comes next there.

  Which match comes next hangs on three things: the position, the modes of the
  open regions, and the matches that are barred (`Place.next?`).  So two scans
  that differ in anything else go on alike.

  Two changes leave the next match what it is.  The position may move over a
  stretch where no match starts that counts (`Quiet`).  And an opening may be
  barred that starts anywhere else (`Place.next?_cons`).
-/
import Highlighting.Proofs.Scan.Cache

namespace Highlighting.Scan

open Search

/-- A builder has accepted the grammar, and its patterns search the text steadily and keep within
it. -/
structure Task.IsSound (task : Task) : Prop where
  inOrder : task.grammar.InOrder
  steady : task.grammar.SearchesSteadily task.source
  within : task.grammar.SearchesWithin task.source

/-- A position in the text, inside regions of some modes, innermost first. -/
structure Place where
  pos : Nat
  modes : List Nat

def Core.place (c : Core) : Place := ⟨c.pos, c.modes⟩

def Place.next? (task : Task) (barred : List Bar) (p : Place) : Option Found :=
  pick (searchFrom task barred · p.pos) (candidates task p.modes)

variable {task : Task} {barred : List Bar} {modes : List Nat} {p : Place} {f : Found}
  {index pos stop a b c : Nat}

/-! ### Content in order -/

theorem contentOf_inOrder {g : Grammar} (h : g.InOrder) (modes : List Nat) :
    (contentOf g modes).InOrder g.modes.size g.terminals := by
  cases modes with
  | nil => exact h.root
  | cons m outer => exact h.content m

/-- The match is the end of a region. -/
def Candidate.isEnd : Candidate → Bool
  | closes _ => true
  | opens _ | illegal => false

/-- The terminal of an end takes empty matches, and that of any other candidate does not. -/
theorem declares_of_mem_candidates (h : task.grammar.InOrder) {candidate : Candidate}
    (hmem : (index, candidate) ∈ candidates task modes) :
    Declares task.grammar.terminals candidate.isEnd index := by
  cases candidate with
  | opens m =>
    obtain ⟨hm, rfl⟩ := mem_candidates_opens.mp hmem
    exact (h.mode ((contentOf_inOrder h modes).contains m hm)).opener
  | closes depth =>
    obtain ⟨-, m, -, hending⟩ := closer?_eq_some (mem_candidates_closes.mp hmem)
    exact h.ending hending
  | illegal => exact (contentOf_inOrder h modes).illegal index (mem_candidates_illegal.mp hmem).2

/-! ### Matches that fit -/

/-- The match is one of a candidate at the place: it begins ahead, and counts. -/
structure Found.Fits (task : Task) (barred : List Bar) (p : Place) (f : Found) : Prop where
  pos_le : p.pos ≤ f.span.start
  admitted : ∃ index, (index, f.candidate) ∈ candidates task p.modes ∧
    Admitted task barred index f.span

namespace Found.Fits

theorem within (h : f.Fits task barred p) :
    p.pos ≤ f.span.start ∧ f.span.start ≤ f.span.stop ∧ f.span.stop ≤ task.source.size := by
  obtain ⟨_, -, hadmitted⟩ := h.admitted
  exact ⟨h.pos_le, hadmitted.le, hadmitted.stop_le⟩

/-- Only an end can be empty. -/
theorem start_lt (h : f.Fits task barred p) (hin : task.grammar.InOrder)
    (hcloses : f.candidate.isEnd = false) : f.span.start < f.span.stop := by
  obtain ⟨index, hmem, hadmitted⟩ := h.admitted
  have hdeclares := declares_of_mem_candidates hin hmem
  rw [hcloses] at hdeclares
  exact hadmitted.start_lt hdeclares

/-- A mode that opens is declared, and its opening is not barred. -/
theorem opens {m : Nat} (h : f.Fits task barred p) (hin : task.grammar.InOrder)
    (hf : f.candidate = .opens m) :
    Declares task.grammar.terminals false (task.grammar.mode m).opener ∧
      ((task.grammar.mode m).opener, f.span.start) ∉ barred := by
  obtain ⟨index, hmem, hadmitted⟩ := h.admitted
  have hdeclares := declares_of_mem_candidates hin hmem
  rw [hf] at hmem hdeclares
  obtain ⟨-, rfl⟩ := mem_candidates_opens.mp hmem
  exact ⟨hdeclares, hadmitted.not_barred⟩

/-- The end of a region is that of one that is open. -/
theorem depth_lt {depth : Nat} (h : f.Fits task barred p) (hf : f.candidate = .closes depth) :
    depth < p.modes.length := by
  obtain ⟨index, hmem, -⟩ := h.admitted
  rw [hf] at hmem
  exact depth_lt_of_closer? (mem_candidates_closes.mp hmem)

end Found.Fits

/-- Whatever is found where all that is kept counts, fits. -/
theorem State.fits_next? {s : State} (hwithin : task.grammar.SearchesWithin task.source)
    (hI : CacheAdmits task s.barred s.cache) (hf : (s.next? task).1 = some f) :
    f.Fits task s.barred s.core.place := by
  obtain ⟨hpos, index, hmem, hadmitted⟩ := next?_admitted hwithin hI hf
  refine ⟨hpos, index, ?_, hadmitted⟩
  rw [Core.place, modes_core]
  exact hmem

theorem admitted_of_admittedEnd? (hsound : task.IsSound)
    (h : admittedEnd? task barred index pos = some stop) :
    Admitted task barred index ⟨pos, stop⟩ := by
  obtain ⟨t, ht, hend, hadmits⟩ := admittedEnd?_eq_some_iff.mp h
  rw [endAt?] at hend
  split at hend
  · next s hs =>
    split at hend
    · next hstart =>
      have hle : pos ≤ task.source.size := by
        rcases Nat.lt_or_ge task.source.size pos with hgt | hle
        · rw [Pattern.find_of_gt hgt] at hs
          cases hs
        · exact hle
      have hwithin := hsound.within t (Array.mem_of_getElem? ht) pos s hle hs
      obtain rfl : s.stop = stop := Option.some.inj hend
      exact ⟨by show pos ≤ s.stop; omega, hwithin.2.2, t, ht, hadmits⟩
    · cases hend
  · cases hend

theorem admittedEnd?_of_cons {b : Bar} (h : admittedEnd? task (b :: barred) index pos = some stop) :
    admittedEnd? task barred index pos = some stop := by
  rw [admittedEnd?_cons] at h
  split at h
  · cases h
  · exact h

/-! ### Quiet stretches -/

/-- No match of a candidate that counts starts in the stretch. -/
def Quiet (task : Task) (barred : List Bar) (modes : List Nat) (a b : Nat) : Prop :=
  ∀ c ∈ candidates task modes, ∀ p, a ≤ p → p < b → admittedEnd? task barred c.1 p = none

namespace Quiet

theorem refl (task : Task) (barred : List Bar) (modes : List Nat) (a : Nat) :
    Quiet task barred modes a a := by
  intro _ _ p h1 h2
  omega

theorem trans (h : Quiet task barred modes a b) (h' : Quiet task barred modes b c) :
    Quiet task barred modes a c := by
  intro d hd p h1 h2
  rcases Nat.lt_or_ge p b with hlt | hge
  · exact h d hd p h1 hlt
  · exact h' d hd p hge h2

theorem mono (h : Quiet task barred modes a b) {a' : Nat} (hle : a ≤ a') :
    Quiet task barred modes a' b :=
  fun d hd p h1 h2 => h d hd p (Nat.le_trans hle h1) h2

/-- Bars only take matches away. -/
theorem cons (h : Quiet task barred modes a b) (bar : Bar) :
    Quiet task (bar :: barred) modes a b := by
  intro d hd p h1 h2
  rw [admittedEnd?_cons]
  split
  · rfl
  · exact h d hd p h1 h2

end Quiet

namespace Place

section Sound

variable (hsound : task.IsSound)
include hsound

/-- **The next match is the least that counts**, by its start and then by the place of its
candidate. -/
theorem next?_eq_some_iff :
    p.next? task barred = some f ↔
      ∃ i index, (candidates task p.modes)[i]? = some (index, f.candidate) ∧
        p.pos ≤ f.span.start ∧ admittedEnd? task barred index f.span.start = some f.span.stop ∧
        ∀ (j : Nat) d q stop, (candidates task p.modes)[j]? = some d → p.pos ≤ q →
          admittedEnd? task barred d.1 q = some stop →
          f.span.start < q ∨ f.span.start = q ∧ i ≤ j := by
  have hfind : (searchFrom task barred · p.pos) =
      fun index => ofEnds task.source.size (admittedEnd? task barred index) p.pos :=
    funext fun index => searchFrom_eq_ofEnds hsound.steady barred index p.pos
  rw [next?, hfind, pick_eq_some_iff, IsLeast]
  simp only [ofEnds_eq_some_iff]
  constructor
  · rintro ⟨i, index, hi, ⟨hpos, -, hend, -⟩, hleast⟩
    refine ⟨i, index, hi, hpos, hend, ?_⟩
    intro j d q stop hj hq hend'
    have hadmitted := admitted_of_admittedEnd? hsound hend'
    -- the search for that candidate finds something there at the latest
    cases hs : ofEnds task.source.size (admittedEnd? task barred d.1) p.pos with
    | none =>
      have hnone := ofEnds_eq_none_iff.mp hs q hq (Nat.le_trans hadmitted.le hadmitted.stop_le)
      rw [hend'] at hnone
      cases hnone
    | some s =>
      have hs' := ofEnds_eq_some_iff.mp hs
      have hle := hleast j d s hj hs'
      rcases Nat.lt_or_ge q s.start with hlt | hge
      · rw [hs'.2.2.2 q hq hlt] at hend'
        cases hend'
      · omega
  · rintro ⟨i, index, hi, hpos, hend, hleast⟩
    have hadmitted := admitted_of_admittedEnd? hsound hend
    have hle := Nat.le_trans hadmitted.le hadmitted.stop_le
    refine ⟨i, index, hi, ⟨hpos, hle, hend, fun q hq hlt => ?_⟩, ?_⟩
    · cases hq' : admittedEnd? task barred index q with
      | none => rfl
      | some stop =>
        have hle := hleast i _ q stop hi hq hq'
        omega
    · intro j d s hj hs
      exact hleast j d s.start s.stop hj hs.1 hs.2.2.1

/-- **A mode opens where its opening matches**, and none of those ahead of it in the list does. -/
theorem next?_of_first {ks ks' : List Nat} {k q : Nat}
    (hcontains : (contentOf task.grammar modes).contains = ks ++ k :: ks')
    (hahead : ∀ m ∈ ks, admittedEnd? task barred (task.grammar.mode m).opener q = none)
    (hend : admittedEnd? task barred (task.grammar.mode k).opener q = some stop) :
    next? task barred ⟨q, modes⟩ = some ⟨⟨q, stop⟩, .opens k⟩ := by
  have hcandidates : candidates task modes =
      ks.map (fun m => ((task.grammar.mode m).opener, Candidate.opens m)) ++
        (((task.grammar.mode k).opener, .opens k) ::
          (ks'.map (fun m => ((task.grammar.mode m).opener, .opens m)) ++ limits task modes)) := by
    rw [candidates, openings, hcontains, List.map_append, List.map_cons, List.append_assoc,
      List.cons_append]
  refine (next?_eq_some_iff hsound).mpr
    ⟨ks.length, (task.grammar.mode k).opener, ?_, Nat.le_refl _, hend, ?_⟩
  · rw [hcandidates, List.getElem?_append_right (by simp)]
    simp
  · intro j d r stop' hj hle hend'
    rcases Nat.eq_or_lt_of_le (show q ≤ r from hle) with rfl | hlt
    · refine .inr ⟨rfl, ?_⟩
      by_contra hnot
      have hjlt : j < (ks.map fun m => ((task.grammar.mode m).opener,
          Candidate.opens m)).length := by
        rw [List.length_map]
        exact Nat.lt_of_not_le hnot
      rw [hcandidates, List.getElem?_append_left hjlt] at hj
      obtain ⟨m, hm, rfl⟩ := List.mem_map.mp (List.mem_of_getElem? hj)
      rw [hahead m hm] at hend'
      cases hend'
    · exact .inl hlt

/-- Nothing comes next where no match starts any more. -/
theorem next?_eq_none_iff :
    p.next? task barred = none ↔ ∀ d ∈ candidates task p.modes, ∀ q, p.pos ≤ q →
      admittedEnd? task barred d.1 q = none := by
  rw [next?, pick_eq_none_iff]
  constructor
  · intro h d hd q hq
    have hnone := h d hd
    rw [searchFrom_eq_ofEnds hsound.steady] at hnone
    cases hend : admittedEnd? task barred d.1 q with
    | none => rfl
    | some stop =>
      have hadmitted := admitted_of_admittedEnd? hsound hend
      rw [ofEnds_eq_none_iff.mp hnone q hq (Nat.le_trans hadmitted.le hadmitted.stop_le)] at hend
      cases hend
  · intro h d hd
    rw [searchFrom_eq_ofEnds hsound.steady]
    exact ofEnds_eq_none_iff.mpr fun q hq _ => h d hd q hq

/-- **Over a quiet stretch the next match stays the same.** -/
theorem next?_of_quiet (hle : a ≤ b) (h : Quiet task barred modes a b) :
    next? task barred ⟨a, modes⟩ = next? task barred ⟨b, modes⟩ := by
  refine pick_congr fun d hd => ?_
  rw [searchFrom_eq_ofEnds hsound.steady, searchFrom_eq_ofEnds hsound.steady]
  exact ofEnds_resume hle (h d hd)

/-- Up to the next match all is quiet. -/
theorem quiet_of_next? (h : p.next? task barred = some f) :
    Quiet task barred p.modes p.pos f.span.start := by
  obtain ⟨i, index, -, -, -, hleast⟩ := (next?_eq_some_iff hsound).mp h
  intro d hd q hq hlt
  obtain ⟨j, hj⟩ := List.getElem?_of_mem hd
  cases hend : admittedEnd? task barred d.1 q with
  | none => rfl
  | some stop =>
    have hle := hleast j d q stop hj hq hend
    omega

/-- The next match is found again right where it starts. -/
theorem next?_at_start (h : p.next? task barred = some f) :
    next? task barred ⟨f.span.start, p.modes⟩ = some f := by
  obtain ⟨_, _, -, hpos, -, -⟩ := (next?_eq_some_iff hsound).mp h
  rw [← next?_of_quiet hsound hpos (quiet_of_next? hsound h)]
  exact h

theorem fits_next? (h : p.next? task barred = some f) : f.Fits task barred p := by
  obtain ⟨i, index, hi, hpos, hend, -⟩ := (next?_eq_some_iff hsound).mp h
  exact ⟨hpos, index, List.mem_of_getElem? hi, admitted_of_admittedEnd? hsound hend⟩

/-- **The next match lies ahead within the text.** -/
theorem next?_within (h : p.next? task barred = some f) :
    p.pos ≤ f.span.start ∧ f.span.start ≤ f.span.stop ∧ f.span.stop ≤ task.source.size :=
  (fits_next? hsound h).within

/-- Only an end can be empty. -/
theorem lt_of_next? (h : p.next? task barred = some f)
    (hcloses : f.candidate.isEnd = false) : f.span.start < f.span.stop :=
  (fits_next? hsound h).start_lt hsound.inOrder hcloses

/-- A mode that opens is declared, and its opening is not barred. -/
theorem opens_of_next? {m : Nat} (h : p.next? task barred = some f)
    (hf : f.candidate = .opens m) :
    Declares task.grammar.terminals false (task.grammar.mode m).opener ∧
      ((task.grammar.mode m).opener, f.span.start) ∉ barred :=
  (fits_next? hsound h).opens hsound.inOrder hf

/-- **A bar for an opening somewhere else leaves the next match what it is**; it takes no end of
a region away in any case. -/
theorem next?_cons {b : Bar} (hb : Declares task.grammar.terminals false b.1)
    (h : p.next? task barred = some f)
    (hne : f.span.start ≠ b.2 ∨ f.candidate.isEnd = true) :
    p.next? task (b :: barred) = some f := by
  rw [next?_eq_some_iff hsound] at h ⊢
  obtain ⟨i, index, hi, hpos, hend, hleast⟩ := h
  refine ⟨i, index, hi, hpos, ?_, ?_⟩
  · rw [admittedEnd?_cons, if_neg]
    · exact hend
    · rintro rfl
      rcases hne with hne | hcloses
      · exact hne rfl
      · have hdeclares := declares_of_mem_candidates hsound.inOrder (List.mem_of_getElem? hi)
        rw [hcloses] at hdeclares
        exact not_declares_both hdeclares hb
  · intro j d q stop hj hq hend'
    exact hleast j d q stop hj hq (admittedEnd?_of_cons hend')

end Sound

end Place

end Highlighting.Scan
