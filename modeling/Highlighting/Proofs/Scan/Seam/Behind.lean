/-
  Highlighting/Proofs/Scan/Seam/Behind.lean
  =========================================
  **A scan behind a seam**: how it goes on in the rest of the text.

  Behind the seam of `u ++ v` the same matches start as in `v`, moved to where
  `v` begins (`Seam.next?_behind`).  So when the scan has come to the seam with
  no region open, it goes on like the scan of `v` from its start
  (`Seam.exists_behind`), and what it shows in the end is what it takes along the
  path of that scan (`Seam.exists_path_behind`).
-/
import Highlighting.Proofs.Scan.Alongside
import Highlighting.Proofs.Scan.Seam.Basic

namespace Highlighting.Scan

open Search

def Place.shift (n : Nat) (p : Place) : Place := ⟨n + p.pos, p.modes⟩

namespace Seam

variable {s : Seam} {barred barred' : List Bar} {c d start : Core} {f : Found} {fs : List Found}
  {q : Place}

/-! ### Matches behind the seam -/

/-- The same matches are barred behind the seam. -/
def BarsAlike (s : Seam) (barred barred' : List Bar) : Prop :=
  ∀ index p, (index, s.size + p) ∈ barred' ↔ (index, p) ∈ barred

theorem admittedEnd?_behind (hbars : s.BarsAlike barred barred') (index p : Nat) :
    admittedEnd? s.wholeTask barred' index (s.size + p) =
      (admittedEnd? s.restTask barred index p).map (s.size + ·) := by
  apply Option.ext
  intro e
  rw [admittedEnd?_eq_some_iff, Option.map_eq_some_iff]
  have hends : ∀ t, s.grammar.terminals[index]? = some t →
      endAt? (t.pattern.find (s.front ++ s.rest) ·) (s.size + p) =
        (endAt? (t.pattern.find s.rest ·) p).map (s.size + ·) := by
    intro t ht
    exact s.behind t (Array.mem_of_getElem? ht) p
  have hadmits : ∀ t stop, admits barred' index t ⟨s.size + p, s.size + stop⟩ =
      admits barred index t ⟨p, stop⟩ := by
    intro t stop
    have hempty : Span.isEmpty ⟨s.size + p, s.size + stop⟩ = Span.isEmpty ⟨p, stop⟩ := by
      simp [Span.isEmpty]
    have hcontains : barred'.contains (index, s.size + p) = barred.contains (index, p) := by
      rw [Bool.eq_iff_iff, List.contains_iff_mem, List.contains_iff_mem]
      exact hbars index p
    simp only [admits, hempty, hcontains]
  constructor
  · rintro ⟨t, ht, hend, hadmitted⟩
    have hend' := (hends t ht).symm.trans hend
    obtain ⟨stop, hstop, rfl⟩ := Option.map_eq_some_iff.mp hend'
    rw [hadmits] at hadmitted
    exact ⟨stop, admittedEnd?_eq_some_iff.mpr ⟨t, ht, hstop, hadmitted⟩, rfl⟩
  · rintro ⟨stop, hstop, rfl⟩
    obtain ⟨t, ht, hend, hadmitted⟩ := admittedEnd?_eq_some_iff.mp hstop
    rw [← hadmits] at hadmitted
    exact ⟨t, ht, (hends t ht).trans (Option.map_eq_some_iff.mpr ⟨stop, hend, rfl⟩), hadmitted⟩

/-- **Behind the seam comes next what comes next in the rest.** -/
theorem next?_behind (hbars : s.BarsAlike barred barred') (p : Place) :
    (p.shift s.size).next? s.wholeTask barred' =
      (p.next? s.restTask barred).map (Found.shift s.size) := by
  cases hnext : p.next? s.restTask barred with
  | none =>
    refine (Place.next?_eq_none_iff s.wholeSound).mpr fun e he q hq => ?_
    obtain ⟨q, rfl⟩ := Nat.exists_eq_add_of_le (Nat.le_trans (Nat.le_add_right _ _) hq)
    have hnone := (Place.next?_eq_none_iff s.restSound).mp hnext e he q
      (Nat.le_of_add_le_add_left hq)
    rw [admittedEnd?_behind hbars, hnone]
    rfl
  | some f =>
    obtain ⟨i, index, hi, hpos, hend, hleast⟩ := (Place.next?_eq_some_iff s.restSound).mp hnext
    refine (Place.next?_eq_some_iff s.wholeSound).mpr
      ⟨i, index, hi, Nat.add_le_add_left hpos _, ?_, ?_⟩
    · show admittedEnd? s.wholeTask barred' index (s.size + f.span.start) = _
      rw [admittedEnd?_behind hbars, hend]
      rfl
    · intro j e q stop hj hq hstop
      obtain ⟨q, rfl⟩ := Nat.exists_eq_add_of_le (Nat.le_trans (Nat.le_add_right _ _) hq)
      rw [admittedEnd?_behind hbars] at hstop
      obtain ⟨stop, hstop', rfl⟩ := Option.map_eq_some_iff.mp hstop
      have hbefore := hleast j e q stop hj (Nat.le_of_add_le_add_left hq) hstop'
      show s.size + f.span.start < s.size + q ∨ s.size + f.span.start = s.size + q ∧ i ≤ j
      omega

/-! ### Cores behind the seam -/

/-- The same region is open behind the seam. -/
structure EntryAlike (s : Seam) (e e' : Entry) : Prop where
  mode : e'.mode = e.mode
  opener : e'.opener = e.opener
  start : e'.start = s.size + e.start
  declares : Declares s.grammar.terminals false e.opener

/-- The second core is behind the seam where the first one is in the rest; what was shown at the
seam survives. -/
structure Continues (s : Seam) (start c d : Core) : Prop where
  pos : d.pos = s.size + c.pos
  entries : List.Forall₂ s.EntryAlike c.entries d.entries
  barred : s.BarsAlike c.barred d.barred
  survives : Survives s.wholeTask d.barred start

namespace Continues

theorem modes (h : s.Continues start c d) : d.modes = c.modes := by
  have hentries := h.entries
  rw [Core.modes, Core.modes]
  generalize c.entries = es at hentries
  generalize d.entries = es' at hentries
  induction hentries with
  | nil => rfl
  | cons halike _ ih => rw [List.map_cons, List.map_cons, halike.mode, ih]

theorem place (h : s.Continues start c d) : d.place = c.place.shift s.size := by
  rw [Core.place, h.pos, h.modes]
  rfl

theorem next? (h : s.Continues start c d) :
    d.next? s.wholeTask = (c.next? s.restTask).map (Found.shift s.size) := by
  rw [Core.next?, h.place, next?_behind h.barred]
  rfl

/-- **The scan goes on alike** with what comes next. -/
theorem take (h : s.Continues start c d) (hstart : start.pos ≤ s.size)
    (hnext : c.next? s.restTask = some f) :
    s.Continues start (c.take s.restTask f) (d.take s.wholeTask (f.shift s.size)) := by
  have hfits := Place.fits_next? s.restSound hnext
  have hshift : (f.shift s.size).candidate = f.candidate := rfl
  cases hf : f.candidate with
  | opens m =>
    by_cases hend : (s.grammar.mode m).ending = .immediate
    · have hc : c.take s.restTask f = c.takeWhole s.restTask (s.grammar.mode m) f.span := by
        rw [Core.take, hf]
        exact if_pos hend
      have hd : d.take s.wholeTask (f.shift s.size) =
          d.takeWhole s.wholeTask (s.grammar.mode m) (f.span.shift s.size) := by
        rw [Core.take, hshift, hf]
        exact if_pos hend
      rw [hc, hd]
      exact ⟨rfl, h.entries, h.barred, h.survives⟩
    · have hc : c.take s.restTask f = c.openRegion s.restTask m f.span := by
        rw [Core.take, hf]
        exact if_neg hend
      have hd : d.take s.wholeTask (f.shift s.size) =
          d.openRegion s.wholeTask m (f.span.shift s.size) := by
        rw [Core.take, hshift, hf]
        exact if_neg hend
      rw [hc, hd]
      exact ⟨rfl, .cons ⟨rfl, rfl, rfl, (hfits.opens s.inOrder hf).1⟩ h.entries, h.barred,
        h.survives⟩
  | closes depth =>
    have hc : c.take s.restTask f = c.closes s.restTask depth f.span := by
      rw [Core.take, hf]
    have hd : d.take s.wholeTask (f.shift s.size) =
        d.closes s.wholeTask depth (f.span.shift s.size) := by
      rw [Core.take, hshift, hf]
      rfl
    rw [hc, hd]
    refine ⟨rfl, ?_, h.barred, h.survives⟩
    show List.Forall₂ s.EntryAlike (c.entries.drop (State.closedBy s.grammar c.modes depth))
      (d.entries.drop (State.closedBy s.grammar d.modes depth))
    rw [h.modes]
    exact List.forall₂_drop _ h.entries
  | illegal =>
    have hlt : f.span.start < f.span.stop :=
      Place.lt_of_next? s.restSound hnext (by rw [hf]; rfl)
    have hlt' : (f.span.shift s.size).start < (f.span.shift s.size).stop :=
      Nat.add_lt_add_left hlt _
    have hentries := h.entries
    cases hcs : c.entries with
    | nil =>
      rw [hcs] at hentries
      have hds : d.entries = [] := List.forall₂_nil_left_iff.mp hentries
      have hc : c.take s.restTask f = c.passOver s.restTask f.span := by
        rw [Core.take, hf, hcs]
      have hd : d.take s.wholeTask (f.shift s.size) =
          d.passOver s.wholeTask (f.span.shift s.size) := by
        rw [Core.take, hshift, hf, hds]
        rfl
      rw [hc, hd]
      refine ⟨?_, h.entries, h.barred, h.survives⟩
      show Draft.passedAt _ (f.span.shift s.size) = s.size + Draft.passedAt _ f.span
      rw [Draft.passedAt_of_lt hlt, Draft.passedAt_of_lt hlt']
      rfl
    | cons e outer =>
      rw [hcs] at hentries
      obtain ⟨e', outer', halike, houter, hds⟩ := List.forall₂_cons_left_iff.mp hentries
      have hc : c.take s.restTask f = c.takeBack e outer := by
        rw [Core.take, hf, hcs]
      have hd : d.take s.wholeTask (f.shift s.size) = d.takeBack e' outer' := by
        rw [Core.take, hshift, hf, hds]
      rw [hc, hd]
      refine ⟨halike.start, houter, ?_, ?_⟩
      · intro index p
        show (index, s.size + p) ∈ (e'.opener, e'.start) :: d.barred ↔
          (index, p) ∈ (e.opener, e.start) :: c.barred
        rw [List.mem_cons, List.mem_cons, h.barred, halike.opener, halike.start]
        simp
      · -- the bar lies behind the seam
        refine h.survives.cons_bar s.wholeSound ?_ ?_
        · show Declares s.grammar.terminals false e'.opener
          rw [halike.opener]
          exact halike.declares
        · show start.pos ≤ e'.start
          rw [halike.start]
          omega

end Continues

/-! ### Past the seam -/

/-- The core with the position moved up to the seam. -/
def atSeam (s : Seam) (c : Core) : Core := { c with pos := s.size }

section

variable {a : Core} (h : s.Arrives a)
include h

theorem Arrives.modes : a.modes = [] := by rw [Core.modes, h.root, List.map_nil]

theorem Arrives.quiet_modes : Quiet s.wholeTask a.barred a.modes a.pos s.size := by
  rw [h.modes]
  exact h.quiet

theorem continues_atSeam : s.Continues (s.atSeam a) (State.start s.grammar).core (s.atSeam a) := by
  refine ⟨rfl, ?_, ?_, ?_⟩
  · show List.Forall₂ s.EntryAlike [] a.entries
    rw [h.root]
    exact .nil
  · intro index p
    constructor
    · intro hmem
      have hlt : s.size + p < s.size := h.barred _ hmem
      omega
    · intro hmem
      cases hmem
  · obtain ⟨fs, hpath, hshows⟩ := (Core.Surviving.of_runs s.wholeSound h.whole).survives
    have hquiet : Path s.wholeTask a.barred 0 a.place [] (s.atSeam a).place :=
      ⟨rfl, h.pos_le, h.quiet_modes⟩
    refine ⟨fs ++ [], hpath.append s.wholeSound hquiet, ?_⟩
    rw [List.append_nil]
    exact ⟨hshows.draft, hshows.entries⟩

theorem next?_atSeam : (s.atSeam a).next? s.wholeTask = a.next? s.wholeTask :=
  (Place.next?_of_quiet s.wholeSound h.pos_le h.quiet_modes).symm

/-- **The scan behind the seam goes on like the scan of the rest.** -/
theorem exists_behind (hc : Runs s.restTask (State.start s.grammar).core c) :
    ∃ d, Runs s.wholeTask (s.atSeam a) d ∧ s.Continues (s.atSeam a) c d := by
  induction hc with
  | refl => exact ⟨s.atSeam a, .refl, continues_atSeam h⟩
  | tail _ hstep ih =>
    obtain ⟨d, hruns, hcontinues⟩ := ih
    obtain ⟨f, hnext, rfl⟩ := hstep
    have hnext' : d.next? s.wholeTask = some (f.shift s.size) := by
      rw [hcontinues.next?, hnext]
      rfl
    exact ⟨d.take s.wholeTask (f.shift s.size), hruns.tail ⟨_, hnext', rfl⟩,
      hcontinues.take (Nat.le_refl _) hnext⟩

/-- Whether it was moved up to the seam does not matter for where the scan ends. -/
theorem exists_runs_of_atSeam (hd : Runs s.wholeTask (s.atSeam a) d)
    (hdend : d.next? s.wholeTask = none) :
    ∃ e, Runs s.wholeTask a e ∧ e.next? s.wholeTask = none ∧ e.Alike d ∧ e.barred = d.barred := by
  rcases hd.cases_head with heq | ⟨b, ⟨f, hnext, rfl⟩, hrest⟩
  · refine ⟨a, .refl, ?_, ?_, ?_⟩
    · rw [← next?_atSeam h, heq]
      exact hdend
    · rw [← heq]
      exact ⟨.refl _, rfl⟩
    · rw [← heq]
      rfl
  · rw [next?_atSeam h] at hnext
    have htake : (s.atSeam a).take s.wholeTask f = a.take s.wholeTask f := by
      rw [Core.take, Core.take]
      rfl
    rw [htake] at hrest
    exact ⟨d, Relation.ReflTransGen.head ⟨f, hnext, rfl⟩ hrest, hdend, .refl _, rfl⟩

end

/-! ### Paths behind the seam -/

theorem after_shift (f : Found) (p : Place)
    (h : f.candidate = .illegal → f.span.start < f.span.stop) :
    (p.shift s.size).after s.wholeTask (f.shift s.size) =
      (p.after s.restTask f).shift s.size := by
  have hshift : (f.shift s.size).candidate = f.candidate := rfl
  rw [Place.after, Place.after, hshift]
  cases hf : f.candidate with
  | opens m => rfl
  | closes depth => rfl
  | illegal =>
    have hlt := h hf
    have hlt' : (f.span.shift s.size).start < (f.span.shift s.size).stop :=
      Nat.add_lt_add_left hlt _
    have hpassed : Draft.passedAt s.wholeTask.source (f.shift s.size).span =
        s.size + Draft.passedAt s.restTask.source f.span := by
      rw [Draft.passedAt_of_lt hlt]
      exact Draft.passedAt_of_lt hlt'
    show (⟨Draft.passedAt s.wholeTask.source (f.shift s.size).span, p.modes⟩ : Place) = _
    rw [hpassed]
    rfl

/-- **A path in the rest is one behind the seam.** -/
theorem path_behind {p : Place} (hbars : s.BarsAlike barred barred')
    (h : Path s.restTask barred 0 p fs q) :
    Path s.wholeTask barred' 0 (p.shift s.size) (fs.map (Found.shift s.size)) (q.shift s.size) := by
  induction fs generalizing p with
  | nil =>
    obtain ⟨hmodes, hle, hquiet⟩ := h
    refine ⟨hmodes, Nat.add_le_add_left hle _, ?_⟩
    intro e he x hx hlt
    obtain ⟨x, rfl⟩ := Nat.exists_eq_add_of_le (Nat.le_trans (Nat.le_add_right _ _) hx)
    rw [admittedEnd?_behind hbars,
      hquiet e he x (Nat.le_of_add_le_add_left hx) (Nat.lt_of_add_lt_add_left hlt)]
    rfl
  | cons f fs ih =>
    obtain ⟨hnext, honward, -, hrest⟩ := h
    refine ⟨?_, honward, Nat.zero_le _, ?_⟩
    · rw [next?_behind hbars, hnext]
      rfl
    · rw [after_shift f p fun hf => Place.lt_of_next? s.restSound hnext (by rw [hf]; rfl)]
      exact ih hrest

end Seam

/-- Two paths with the same bars to where nothing comes next take the same. -/
theorem Path.eq_of_end {task : Task} {barred : List Bar} {floor : Nat} {p q r : Place}
    {fs gs : List Found} (hsound : task.IsSound) (h : Path task barred floor p fs q)
    (h' : Path task barred floor p gs r) (hq : q.next? task barred = none)
    (hr : r.next? task barred = none) : fs = gs := by
  induction fs generalizing p gs with
  | nil =>
    cases gs with
    | nil => rfl
    | cons g gs =>
      have hstuck := h.next?_eq hsound
      rw [hq, h'.1] at hstuck
      cases hstuck
  | cons f fs ih =>
    cases gs with
    | nil =>
      have hstuck := h'.next?_eq hsound
      rw [hr, h.1] at hstuck
      cases hstuck
    | cons g gs =>
      obtain ⟨hnext, -, -, hrest⟩ := h
      obtain ⟨hnext', -, -, hrest'⟩ := h'
      obtain rfl : f = g := Option.some.inj (hnext.symm.trans hnext')
      rw [ih hrest hrest']

theorem Core.Alike.takeAll {task : Task} {c d : Core} (h : c.Alike d) (fs : List Found) :
    (c.takeAll task fs).Alike (d.takeAll task fs) := by
  induction fs generalizing c d with
  | nil => exact h
  | cons f fs ih => exact ih (h.take f)

namespace Seam

variable {s : Seam} {a c : Core}

/-- **The scan of the whole text ends with what the front part shows and what the scan of the rest
takes behind it**: along a path on which that takes nothing back. -/
theorem exists_path_behind (h : s.Arrives a)
    (hc : Runs s.restTask (State.start s.grammar).core c) (hcend : c.next? s.restTask = none) :
    ∃ d fs, Runs s.wholeTask (State.start s.grammar).core d ∧ d.next? s.wholeTask = none ∧
      Path s.restTask c.barred 0 ⟨0, []⟩ fs c.place ∧
      ((State.start s.grammar).core.takeAll s.restTask fs).Alike c ∧
      (a.takeAll s.wholeTask (fs.map (Found.shift s.size))).Alike d := by
  obtain ⟨b, hbruns, hcontinues⟩ := exists_behind h hc
  have hbend : b.next? s.wholeTask = none := by
    rw [hcontinues.next?, hcend]
    rfl
  obtain ⟨d, hdruns, hdend, halike, hbarred⟩ := exists_runs_of_atSeam h hbruns hbend
  have hwhole := h.whole.trans hdruns
  obtain ⟨fs, hpath, hshows⟩ := (Core.Surviving.of_runs s.restSound hc).survives
  refine ⟨d, fs, hwhole, hdend, hpath, hshows, ?_⟩
  obtain ⟨gs, hgs, hgshows⟩ := hcontinues.survives
  obtain ⟨hs, hhs, hhshows⟩ := (Core.Surviving.of_runs s.wholeSound hwhole).survives
  -- with the bars of the end, there is only one path
  have hplace : (s.atSeam a).place = Place.shift s.size ⟨0, []⟩ := by
    show (⟨s.size, a.modes⟩ : Place) = _
    rw [h.modes]
    rfl
  have hboth : Path s.wholeTask b.barred 0 ⟨0, []⟩ (gs ++ fs.map (Found.shift s.size)) b.place := by
    refine hgs.append s.wholeSound ?_
    rw [hplace, hcontinues.place]
    exact path_behind hcontinues.barred hpath
  rw [hbarred] at hhs
  have heq : gs ++ fs.map (Found.shift s.size) = hs := by
    refine hboth.eq_of_end s.wholeSound hhs hbend ?_
    rw [← hbarred]
    exact hdend
  have hall : ((State.start s.grammar).core.takeAll s.wholeTask hs) =
      ((State.start s.grammar).core.takeAll s.wholeTask gs).takeAll s.wholeTask
        (fs.map (Found.shift s.size)) := by
    rw [← heq, Core.takeAll, List.foldl_append]
    rfl
  have hseam : ((State.start s.grammar).core.takeAll s.wholeTask gs).Alike a :=
    ⟨hgshows.draft, hgshows.entries⟩
  refine (hseam.takeAll _).symm.trans ?_
  rw [← hall]
  exact hhshows

end Seam

end Highlighting.Scan
