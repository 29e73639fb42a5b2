/-
  Highlighting/Proofs/Scan/Trail.lean
  ===================================
  **What trails tell.**

  A trail is a record of where a region was scanned from.  From each position
  in it, a path inside the region leads to where the scan now is (`Traced`):
  had the region been opened so that it began at that position, it would have
  come to the same place.  When the region around it is reached again the same
  is true there, with the inner region opened on the way (`Traced.around`).

  When the region is abandoned its trail is kept, and each position of it is
  *doomed*: a region of the same mode that begins there comes to the same
  illegal match (`Doomed`).  Bars further back, and those that stand for an
  opening which is skipped, do not change that for positions ahead
  (`Kept.skip`).
-/
import Highlighting.Proofs.Scan.Lookup
import Highlighting.Proofs.Scan.Path

namespace Highlighting.Scan

variable {task : Task} {barred : List Bar} {target target' : Place} {f : Found}
  {gs : List Found} {rs outer : List Region} {r : Region} {s : State} {pos q : Nat} {b : Bar}

/-! ### Tracing a region -/

abbrev modesOf (rs : List Region) : List Nat := rs.map (·.entry.mode)

/-- The position is one that the region was scanned from, `first` being the first one. -/
def Region.IsOrigin (r : Region) (first q : Nat) : Prop :=
  q = first ∨ ∃ span ∈ r.trail, span.start ≤ q ∧ q ≤ span.stop

/-- Each region was opened by the match that comes next where it starts, and all positions that
it was scanned from lead to the target: for the innermost region that is where the scan now is,
for any other where the region inside it starts. -/
def Traced (task : Task) (barred : List Bar) : List Region → Place → Prop
  | [], _ => True
  | r :: outer, target =>
    (∃ first, Place.next? task barred ⟨r.entry.start, modesOf outer⟩ =
        some ⟨⟨r.entry.start, first⟩, .opens r.entry.mode⟩ ∧
      (task.grammar.mode r.entry.mode).ending ≠ .immediate ∧
      ∀ q, r.IsOrigin first q → r.entry.start < q ∧
        ∃ fs, Path task barred (outer.length + 1) ⟨q, modesOf (r :: outer)⟩ fs target) ∧
    Traced task barred outer ⟨r.entry.start, modesOf outer⟩

namespace Traced

/-- Regions that are open start before the target. -/
theorem start_lt (hsound : task.IsSound) (h : Traced task barred (r :: outer) target) :
    r.entry.start < target.pos := by
  obtain ⟨⟨first, -, -, horigin⟩, -⟩ := h
  obtain ⟨hlt, fs, hpath⟩ := horigin first (.inl rfl)
  exact Nat.lt_of_lt_of_le hlt (hpath.le hsound)

section Sound

variable (hsound : task.IsSound)
include hsound

/-- **Traces outlast a bar for an opening ahead.** -/
theorem cons_bar (hb : Declares task.grammar.terminals false b.1)
    (h : Traced task barred rs target) (hle : target.pos ≤ b.2) :
    Traced task (b :: barred) rs target := by
  induction rs generalizing target with
  | nil => trivial
  | cons r outer ih =>
    have hlt := h.start_lt hsound
    obtain ⟨⟨first, hnext, hending, horigin⟩, houter⟩ := h
    refine ⟨⟨first, ?_, hending, fun q hq => ?_⟩, ih houter (by show r.entry.start ≤ _; omega)⟩
    · exact Place.next?_cons hsound hb hnext (.inl (by show r.entry.start ≠ _; omega))
    · obtain ⟨hq', fs, hpath⟩ := horigin q hq
      exact ⟨hq', fs, hpath.cons_bar hsound hb (.inl hle)⟩

/-- Traces follow a path that does not leave the innermost region. -/
theorem extend (h : Traced task barred rs target)
    (hpath : Path task barred rs.length target gs target') : Traced task barred rs target' := by
  cases rs with
  | nil => trivial
  | cons r outer =>
    obtain ⟨⟨first, hnext, hending, horigin⟩, houter⟩ := h
    refine ⟨⟨first, hnext, hending, fun q hq => ?_⟩, houter⟩
    obtain ⟨hlt, fs, hfs⟩ := horigin q hq
    exact ⟨hlt, fs ++ gs, hfs.append hsound hpath⟩

/-- **Through a region the one around it leads to the same place.** -/
theorem around (h : Traced task barred (r :: outer) target) :
    Traced task barred outer target := by
  obtain ⟨⟨first, hnext, hending, horigin⟩, houter⟩ := h
  obtain ⟨-, fs, hfs⟩ := horigin first (.inl rfl)
  have hafter : Place.after task ⟨⟨r.entry.start, first⟩, .opens r.entry.mode⟩
      ⟨r.entry.start, modesOf outer⟩ = ⟨first, modesOf (r :: outer)⟩ := by
    simp only [Place.after, hending, if_false]
    rfl
  have hpath : Path task barred outer.length ⟨r.entry.start, modesOf outer⟩
      (⟨⟨r.entry.start, first⟩, .opens r.entry.mode⟩ :: fs) target := by
    refine ⟨hnext, Found.isOnward_of_ne (by simp), ?_, ?_⟩
    · rw [hafter]
      simp
    · rw [hafter]
      exact hfs.floor_mono (Nat.le_succ _)
  exact houter.extend hsound hpath

theorem drop (h : Traced task barred rs target) (n : Nat) :
    Traced task barred (rs.drop n) target := by
  induction n generalizing rs with
  | zero => exact h
  | succ n ih =>
    cases rs with
    | nil => trivial
    | cons r outer => exact ih (h.around hsound)

end Sound

/-- The stretch in front of the target may be added to the trail. -/
theorem push {modes : List Nat} (h : Traced task barred (r :: outer) ⟨q, modes⟩)
    (hmodes : modes = modesOf (r :: outer)) (hstart : r.entry.start < pos)
    (hquiet : Quiet task barred modes pos q) :
    Traced task barred ({ r with trail := r.trail.push ⟨pos, q⟩ } :: outer) ⟨q, modes⟩ := by
  obtain ⟨⟨first, hnext, hending, horigin⟩, houter⟩ := h
  refine ⟨⟨first, hnext, hending, fun p hp => ?_⟩, houter⟩
  rcases hp with hp | ⟨span, hspan, hle, hge⟩
  · exact horigin p (.inl hp)
  · rcases Array.mem_push.mp hspan with hspan | rfl
    · exact horigin p (.inr ⟨span, hspan, hle, hge⟩)
    · exact ⟨Nat.lt_of_lt_of_le hstart hle, [], hmodes.symm, hge, hquiet.mono hle⟩

end Traced

/-! ### Doomed positions -/

/-- A region of the mode that begins at the position comes to something illegal. -/
def Doomed (task : Task) (barred : List Bar) (outer : List Nat) (mode q : Nat) : Prop :=
  ∃ fs target f, Path task barred (outer.length + 1) ⟨q, mode :: outer⟩ fs target ∧
    target.modes = mode :: outer ∧ target.next? task barred = some f ∧ f.candidate = .illegal

theorem Doomed.cons_bar (hsound : task.IsSound)
    (hb : Declares task.grammar.terminals false b.1) {outer : List Nat} {mode : Nat}
    (h : Doomed task barred outer mode q) (hlt : b.2 < q) :
    Doomed task (b :: barred) outer mode q := by
  obtain ⟨fs, target, f, hpath, hmodes, hnext, hf⟩ := h
  have hle : q ≤ target.pos := hpath.le hsound
  have hstart := (Place.next?_within hsound hnext).1
  refine ⟨fs, target, f, hpath.cons_bar hsound hb (.inr hlt), hmodes, ?_, hf⟩
  exact Place.next?_cons hsound hb hnext (.inl (by omega))

/-! ### Serial numbers -/

/-- Serial numbers are positive, and those of inner regions higher; all are below `next`. -/
def Numbered : Nat → List Region → Prop
  | next, [] => 0 < next
  | next, r :: outer => r.serial < next ∧ Numbered r.serial outer

namespace Numbered

variable {next : Nat}

theorem serialOf_lt (h : Numbered next rs) : serialOf rs < next := by
  cases rs with
  | nil => exact h
  | cons r outer => exact h.1

theorem mono (h : Numbered next rs) {next' : Nat} (hle : next ≤ next') : Numbered next' rs := by
  cases rs with
  | nil => exact Nat.lt_of_lt_of_le h hle
  | cons r outer => exact ⟨Nat.lt_of_lt_of_le h.1 hle, h.2⟩

theorem drop (h : Numbered next rs) (n : Nat) : Numbered next (rs.drop n) := by
  induction n generalizing rs with
  | zero => exact h
  | succ n ih =>
    cases rs with
    | nil => exact h
    | cons r outer => exact ih (h.2.mono (Nat.le_of_lt h.1))

/-- A serial number tells the regions that are open. -/
theorem drop_eq_self (h : Numbered next rs) {n : Nat}
    (heq : serialOf (rs.drop n) = serialOf rs) : rs.drop n = rs := by
  cases n with
  | zero => rfl
  | succ n =>
    cases rs with
    | nil => rfl
    | cons r outer =>
      have hlt := (h.2.drop n).serialOf_lt
      rw [List.drop_succ_cons] at heq
      rw [heq] at hlt
      exact absurd hlt (Nat.lt_irrefl _)

end Numbered

/-! ### What a scan keeps -/

/-- Regions are numbered and traced up to a position, and what is left of the region abandoned
last tells which positions ahead are doomed. -/
structure Kept (task : Task) (barred : List Bar) (pos : Nat) (s : State) : Prop where
  numbered : Numbered s.nextSerial s.regions
  traced : Traced task barred s.regions ⟨pos, s.modes⟩
  parent_lt : ∀ a, s.trails = some a → a.parent < s.nextSerial
  doomed : ∀ a n, s.trails = some a → serialOf (s.regions.drop n) = a.parent →
    ∀ q, pos < q → a.trail.Covers q →
      Doomed task barred (modesOf (s.regions.drop n)) a.mode q

namespace Kept

theorem start (task : Task) (barred : List Bar) :
    Kept task barred 0 (State.startWith task.grammar barred) := by
  refine ⟨Nat.one_pos, trivial, ?_, ?_⟩
  · intro a ha
    cases ha
  · intro a n ha
    cases ha

section Sound

variable (hsound : task.IsSound)
include hsound

/-- The stretch up to the next match is added to the trail of the innermost region. -/
theorem leaveTrail (h : Kept task barred pos s)
    (hnext : Place.next? task barred ⟨pos, s.modes⟩ = some f)
    (hstarts : ∀ r ∈ s.regions, r.entry.start < s.pos)
    (hquiet : Quiet task barred s.modes s.pos f.span.start) :
    Kept task barred f.span.start (s.leaveTrail f.span) := by
  have hle : pos ≤ f.span.start := (Place.next?_within hsound hnext).1
  have htraced : Traced task barred s.regions ⟨f.span.start, s.modes⟩ :=
    h.traced.extend hsound ((Path.refl _).to_start hsound hnext)
  obtain ⟨spos, draft, cache, sbarred, trails, regions, nextSerial⟩ := s
  cases regions with
  | nil =>
    exact ⟨h.numbered, htraced, h.parent_lt,
      fun a n ha hparent q hq => h.doomed a n ha hparent q (by omega)⟩
  | cons r outer =>
    refine ⟨h.numbered, ?_, h.parent_lt, fun a n ha hparent q hq => ?_⟩
    · exact htraced.push rfl (hstarts r (by simp)) hquiet
    · -- neither modes nor serial numbers have changed
      cases n with
      | zero => exact h.doomed a 0 ha hparent q (by omega)
      | succ n => exact h.doomed a (n + 1) ha hparent q (by omega)

/-- A match is passed that leaves the regions as they are. -/
theorem pass (h : Kept task barred pos s) (s' : State) (hregions : s'.regions = s.regions)
    (htrails : s'.trails = s.trails) (hserial : s'.nextSerial = s.nextSerial) {pos' : Nat}
    (hpath : Path task barred s.regions.length ⟨pos, s.modes⟩ gs ⟨pos', s.modes⟩) :
    Kept task barred pos' s' := by
  have hle : pos ≤ pos' := hpath.le hsound
  have hmodes : s'.modes = s.modes := by rw [State.modes, hregions, State.modes]
  refine ⟨?_, ?_, ?_, ?_⟩
  · rw [hserial, hregions]
    exact h.numbered
  · rw [hregions, hmodes]
    exact h.traced.extend hsound hpath
  · rw [htrails, hserial]
    exact h.parent_lt
  · rw [htrails, hregions]
    intro a n ha hparent q hq
    exact h.doomed a n ha hparent q (by omega)

theorem openRegion {m : Nat} {span : Span} (h : Kept task barred span.start s)
    (hnext : Place.next? task barred ⟨span.start, s.modes⟩ = some ⟨span, .opens m⟩)
    (hending : (task.grammar.mode m).ending ≠ .immediate) :
    Kept task barred span.stop (s.openRegion task m (task.grammar.mode m) span) := by
  have hlt : span.start < span.stop := Place.lt_of_next? hsound hnext rfl
  refine ⟨⟨Nat.lt_succ_self _, h.numbered⟩, ⟨⟨span.stop, hnext, hending, ?_⟩, h.traced⟩, ?_, ?_⟩
  · intro q hq
    rcases hq with rfl | ⟨span', hspan', -⟩
    · exact ⟨hlt, [], Path.refl _⟩
    · simp at hspan'
  · intro a ha
    exact Nat.lt_succ_of_lt (h.parent_lt a ha)
  · intro a n ha hparent q hq
    cases n with
    | zero =>
      -- the new region has a serial number of its own
      have hlt := h.parent_lt a ha
      have heq : s.nextSerial = a.parent := hparent
      omega
    | succ n => exact h.doomed a n ha hparent q (by omega)

theorem closes {depth : Nat} {span : Span} (h : Kept task barred span.start s)
    (hnext : Place.next? task barred ⟨span.start, s.modes⟩ = some ⟨span, .closes depth⟩) :
    Kept task barred span.stop (s.closes task depth span) := by
  have hle : span.start ≤ span.stop := (Place.next?_within hsound hnext).2.1
  generalize hcount : State.closedBy task.grammar s.modes depth = count
  have hregions : (s.closes task depth span).regions = s.regions.drop count := by
    rw [← hcount]
    rfl
  have hmodes : (s.closes task depth span).modes = s.modes.drop count := by
    rw [State.modes, hregions, State.modes, List.map_drop]
  refine ⟨?_, ?_, h.parent_lt, ?_⟩
  · rw [hregions]
    exact h.numbered.drop count
  · rw [hregions, hmodes]
    have hafter : Place.after task ⟨span, .closes depth⟩ ⟨span.start, s.modes⟩ =
        ⟨span.stop, s.modes.drop count⟩ := by
      rw [← hcount]
      rfl
    have hpath : Path task barred (s.regions.drop count).length ⟨span.start, s.modes⟩
        [⟨span, .closes depth⟩] ⟨span.stop, s.modes.drop count⟩ := by
      refine ⟨hnext, Found.isOnward_of_ne (by simp), ?_, ?_⟩
      · rw [hafter]
        simp [State.modes]
      · rw [hafter]
        exact Path.refl _
    exact (h.traced.drop hsound count).extend hsound hpath
  · rw [hregions]
    intro a n ha hparent q hq
    rw [List.drop_drop] at hparent ⊢
    exact h.doomed a _ ha hparent q (by omega)

/-- **A region is abandoned**, and its trail tells which positions are doomed. -/
theorem abandon (h : Kept task barred pos s) (hregions : s.regions = r :: outer)
    (hb : Declares task.grammar.terminals false r.entry.opener)
    (hnext : Place.next? task barred ⟨pos, s.modes⟩ = some f) (hf : f.candidate = .illegal) :
    Kept task ((r.entry.opener, r.entry.start) :: barred) r.entry.start (s.abandon r outer) := by
  have hnumbered := h.numbered
  have htraced := h.traced
  have hmodes : s.modes = modesOf (r :: outer) := by rw [State.modes, hregions]
  rw [hregions] at hnumbered htraced
  rw [hmodes] at htraced hnext
  obtain ⟨⟨first, -, -, horigin⟩, houter⟩ := htraced
  refine ⟨hnumbered.2.mono (Nat.le_of_lt hnumbered.1), ?_, ?_, ?_⟩
  · exact houter.cons_bar hsound hb (Nat.le_refl _)
  · intro a ha
    obtain rfl : (⟨serialOf outer, r.entry.mode, r.trail⟩ : Abandoned) = a := Option.some.inj ha
    exact Nat.lt_trans hnumbered.2.serialOf_lt hnumbered.1
  · intro a n ha hparent q _ hq
    obtain rfl : (⟨serialOf outer, r.entry.mode, r.trail⟩ : Abandoned) = a := Option.some.inj ha
    have hdrop : outer.drop n = outer := hnumbered.2.drop_eq_self hparent
    obtain ⟨hlt, fs, hpath⟩ := horigin q (.inr hq)
    have hdoomed : Doomed task barred (modesOf outer) r.entry.mode q := by
      refine ⟨fs, _, f, ?_, rfl, hnext, hf⟩
      simpa using hpath
    show Doomed _ _ (modesOf (outer.drop n)) _ _
    rw [hdrop]
    exact hdoomed.cons_bar hsound hb hlt

/-- An opening is skipped; what is ahead of it is not touched. -/
theorem skip {index start : Nat} (h : Kept task barred start s)
    (hb : Declares task.grammar.terminals false index) :
    Kept task ((index, start) :: barred) start (s.skip task index start) := by
  refine ⟨h.numbered, ?_, h.parent_lt, ?_⟩
  · exact h.traced.cons_bar hsound hb (Nat.le_refl _)
  · intro a n ha hparent q hq hcovers
    exact (h.doomed a n ha hparent q hq hcovers).cons_bar hsound hb hq

end Sound

end Kept

end Highlighting.Scan
