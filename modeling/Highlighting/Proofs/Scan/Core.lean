/-
  Highlighting/Proofs/Scan/Core.lean
  ==================================
  **The core of a scan**: its state without the records that only save work.

  A match that was found is taken (`Core.take`) or its opening is barred
  (`Core.bar`); there is no third thing that a step can do to the core
  (`core_handle`, `core_turn`).  So what every turn keeps, every run keeps
  (`runFor_inv`).

  Every open region goes back to the core that it was opened in (`Opened`):
  the draft has only been extended since, and taking the region back restores
  it (`Opened.restore`).
-/
import Highlighting.Proofs.Scan.Candidates
import Highlighting.Proofs.Scan.Draft
import Highlighting.Scan.Run

namespace Highlighting.Scan

variable {task : Task} {s : State} {f : Found}

/-! ### Cores -/

/-- What the result of a scan hangs on. -/
structure Core where
  pos : Nat
  draft : Draft
  /-- How the open regions were opened, innermost first. -/
  entries : List Entry
  barred : List Bar

def State.core (s : State) : Core :=
  ⟨s.pos, s.draft, s.regions.map (·.entry), s.barred⟩

namespace Core

def modes (c : Core) : List Nat := c.entries.map (·.mode)

def keywords (g : Grammar) (c : Core) : Option KeywordTable := (contentOf g c.modes).keywords

def takeWhole (task : Task) (m : Mode) (span : Span) (c : Core) : Core :=
  { c with
    draft := c.draft.addWhole task.source (c.keywords task.grammar) m span, pos := span.stop }

def openRegion (task : Task) (index : Nat) (span : Span) (c : Core) : Core :=
  let m := task.grammar.mode index
  { c with
    draft := c.draft.openRegion task.source (c.keywords task.grammar) m span
    entries := ⟨index, m.opener, span.start, c.draft.checkpoint⟩ :: c.entries
    pos := span.stop }

def closes (task : Task) (depth : Nat) (span : Span) (c : Core) : Core :=
  let g := task.grammar
  let count := State.closedBy g c.modes depth
  { c with
    draft := c.draft.closeRegions task.source (c.keywords g) (State.closingEdge g c.modes span)
      ((c.modes.take count).map g.mode)
    entries := c.entries.drop count
    pos := span.stop }

def passOver (task : Task) (span : Span) (c : Core) : Core :=
  { c with
    draft := c.draft.passOver task.source (c.keywords task.grammar) span
    pos := Draft.passedAt task.source span }

/-- A region is taken back that is open inside `outer`. -/
def takeBack (e : Entry) (outer : List Entry) (c : Core) : Core :=
  { pos := e.start, draft := c.draft.restore e.checkpoint, entries := outer
    barred := (e.opener, e.start) :: c.barred }

def take (task : Task) (f : Found) (c : Core) : Core :=
  match f.candidate with
  | .opens index =>
    if (task.grammar.mode index).ending = .immediate then
      c.takeWhole task (task.grammar.mode index) f.span
    else c.openRegion task index f.span
  | .closes depth => c.closes task depth f.span
  | .illegal =>
    match c.entries with
    | [] => c.passOver task f.span
    | e :: outer => c.takeBack e outer

def bar (b : Bar) (c : Core) : Core := { c with barred := b :: c.barred }

@[simp] theorem take_barred_of_ne (h : f.candidate ≠ .illegal) (c : Core) :
    (c.take task f).barred = c.barred := by
  rw [take]
  split
  · split <;> rfl
  · rfl
  · next heq => exact absurd heq h

end Core

/-! ### What a step does to the core -/

/-- The match would open a region that the scan holds for a mere repetition, and so bars. -/
def State.skips (task : Task) (s : State) (f : Found) : Bool :=
  match f.candidate with
  | .opens index =>
    (task.grammar.mode index).ending ≠ .immediate && task.shortcuts.skipRetraced &&
      s.retraces index f.span.stop
  | _ => false

/-- The match takes a region back. -/
def State.takesBack (s : State) (f : Found) : Bool :=
  f.candidate = .illegal && !s.regions.isEmpty

@[simp] theorem modes_core (s : State) : s.core.modes = s.modes := by
  simp [State.core, Core.modes, State.modes]

@[simp] theorem core_next? (task : Task) (s : State) : (s.next? task).2.core = s.core := rfl

@[simp] theorem core_leaveTrail (span : Span) (s : State) : (s.leaveTrail span).core = s.core := by
  rw [State.leaveTrail]
  split
  · rfl
  · next heq => simp [State.core, heq]

theorem serialOf_leaveTrail (span : Span) (s : State) :
    serialOf (s.leaveTrail span).regions = serialOf s.regions := by
  rw [State.leaveTrail]
  split
  · rfl
  · next heq => rw [heq]; rfl

theorem trails_leaveTrail (span : Span) (s : State) : (s.leaveTrail span).trails = s.trails := by
  rw [State.leaveTrail]
  split <;> rfl

theorem retraces_leaveTrail (span : Span) (s : State) (mode pos : Nat) :
    (s.leaveTrail span).retraces mode pos = s.retraces mode pos := by
  simp only [State.retraces, trails_leaveTrail, serialOf_leaveTrail]

theorem core_takeWhole (m : Mode) (span : Span) (s : State) :
    (s.takeWhole task m span).core = s.core.takeWhole task m span := by
  simp only [State.takeWhole, Core.takeWhole, Core.keywords, modes_core]
  rfl

theorem core_openRegion (index : Nat) (span : Span) (s : State) :
    (s.openRegion task index (task.grammar.mode index) span).core =
      s.core.openRegion task index span := by
  simp only [State.openRegion, Core.openRegion, Core.keywords, modes_core]
  rfl

theorem core_closes (depth : Nat) (span : Span) (s : State) :
    (s.closes task depth span).core = s.core.closes task depth span := by
  simp only [State.closes, Core.closes, Core.keywords, modes_core]
  simp [State.core, State.keywords]

theorem core_meetsIllegal (span : Span) (s : State) :
    (s.meetsIllegal task span).core = s.core.take task ⟨span, .illegal⟩ := by
  obtain ⟨pos, draft, cache, barred, trails, regions, nextSerial⟩ := s
  cases regions with
  | nil => rfl
  | cons r outer => rfl

/-- **A step takes the match, or bars it.** -/
theorem core_handle (task : Task) (s : State) (f : Found) :
    (s.handle task f).core =
      match f.candidate, s.skips task f with
      | .opens index, true => s.core.bar ((task.grammar.mode index).opener, f.span.start)
      | _, _ => s.core.take task f := by
  rw [State.handle]
  cases hf : f.candidate with
  | closes depth => simp only [core_closes, core_leaveTrail, Core.take, hf]
  | illegal =>
    simp only [core_meetsIllegal, core_leaveTrail]
    rw [show f = ⟨f.span, .illegal⟩ from by rw [← hf]]
  | opens index =>
    simp only [State.opens, State.skips, hf, retraces_leaveTrail]
    by_cases himm : (task.grammar.mode index).ending = .immediate
    · simp only [himm, if_true, ne_eq, not_true, decide_false, Bool.false_and, core_takeWhole,
        core_leaveTrail, Core.take, hf]
    · simp only [himm, if_false, ne_eq, not_false_eq_true, decide_true, Bool.true_and]
      cases hskip : (task.shortcuts.skipRetraced && s.retraces index f.span.stop) with
      | true =>
        rw [if_pos rfl]
        show ((s.leaveTrail f.span).core).bar _ = _
        rw [core_leaveTrail]
      | false =>
        simp only [Bool.false_eq_true, if_false, core_openRegion, core_leaveTrail, Core.take, hf,
          himm]

/-- What a step can do to the core. -/
inductive Turn (task : Task) (c : Core) (f : Found) : Core → Prop where
  | taken : Turn task c f (c.take task f)
  | barred {index : Nat} (hf : f.candidate = .opens index)
      (hend : (task.grammar.mode index).ending ≠ .immediate) :
      Turn task c f (c.bar ((task.grammar.mode index).opener, f.span.start))

theorem core_turn (task : Task) (s : State) (f : Found) :
    Turn task s.core f (s.handle task f).core := by
  rw [core_handle]
  split
  · next index hf hskip =>
    refine .barred hf ?_
    simp only [State.skips, hf, Bool.and_eq_true, decide_eq_true_eq] at hskip
    exact hskip.1.1
  · exact .taken

theorem core_handle_of_not_skips (h : s.skips task f = false) :
    (s.handle task f).core = s.core.take task f := by
  rw [core_handle, h]
  split
  · next heq => cases heq
  · rfl

/-! ### Runs -/

theorem runFor_stop (h : (s.next? task).1 = none) (n : Nat) :
    runFor task (n + 1) s = (s.next? task).2 := by
  rw [runFor, show s.next? task = (none, (s.next? task).2) from Prod.ext h rfl]

theorem runFor_step (h : (s.next? task).1 = some f) (n : Nat) :
    runFor task (n + 1) s = runFor task n ((s.next? task).2.handle task f) := by
  rw [runFor, show s.next? task = (some f, (s.next? task).2) from Prod.ext h rfl]

/-- **What every step keeps, every run keeps.** -/
theorem runFor_inv {P : State → Prop} (hsearch : ∀ s, P s → P (s.next? task).2)
    (hstep : ∀ s f, P s → (s.next? task).1 = some f → P ((s.next? task).2.handle task f))
    (n : Nat) (hs : P s) : P (runFor task n s) := by
  induction n generalizing s with
  | zero => exact hs
  | succ n ih =>
    cases hf : (s.next? task).1 with
    | none =>
      rw [runFor_stop hf]
      exact hsearch s hs
    | some f =>
      rw [runFor_step hf]
      exact ih (hstep s f hs hf)

/-! ### Regions go back to where they were opened -/

/-- Every open region was opened in a core that is related to it by `R`, and whose draft has
only been extended since. -/
def Opened (R : Entry → Core → Prop) : List Entry → Draft → Prop
  | [], _ => True
  | e :: outer, d =>
    ∃ u : Core, R e u ∧ u.entries = outer ∧ u.draft.Counted ∧
      e.checkpoint = u.draft.checkpoint ∧ u.draft.Extends d ∧ Opened R outer u.draft

namespace Opened

variable {R : Entry → Core → Prop} {es : List Entry} {d d' : Draft}

theorem extend (h : Opened R es d) (hext : d.Extends d') : Opened R es d' := by
  cases es with
  | nil => trivial
  | cons e outer =>
    obtain ⟨u, hR, hu, hc, hcp, hd, hout⟩ := h
    exact ⟨u, hR, hu, hc, hcp, hd.trans hext, hout⟩

theorem tail {e : Entry} (h : Opened R (e :: es) d) : Opened R es d := by
  obtain ⟨u, -, -, -, -, hd, hout⟩ := h
  exact hout.extend hd

theorem drop (h : Opened R es d) (n : Nat) : Opened R (es.drop n) d := by
  induction n generalizing es with
  | zero => exact h
  | succ n ih =>
    cases es with
    | nil => trivial
    | cons e outer => exact ih h.tail

/-- What holds of every region with the core that it was opened in may be replaced by what
follows from that. -/
theorem imp {R' : Entry → Core → Prop} (himp : ∀ e ∈ es, ∀ u, R e u → R' e u)
    (h : Opened R es d) : Opened R' es d := by
  induction es generalizing d with
  | nil => trivial
  | cons e outer ih =>
    obtain ⟨u, hR, hu, hc, hcp, hd, hout⟩ := h
    exact ⟨u, himp e (by simp) u hR, hu, hc, hcp, hd,
      ih (fun e' he' => himp e' (by simp [he'])) hout⟩

/-- **Taking a region back shows the core again that it was opened in.** -/
theorem restore {e : Entry} {outer : List Entry} (h : Opened R (e :: outer) d)
    (hd : d.Counted) :
    ∃ u : Core, R e u ∧ u.entries = outer ∧ u.draft.Counted ∧
      (d.restore e.checkpoint).Alike u.draft ∧ Opened R outer (d.restore e.checkpoint) := by
  obtain ⟨u, hR, hu, hc, hcp, hext, hout⟩ := h
  have halike : (d.restore e.checkpoint).Alike u.draft := by
    rw [hcp]
    exact Draft.restore_alike hext hc hd
  exact ⟨u, hR, hu, hc, halike,
    hout.extend (halike.symm.extends_right (Draft.Extends.refl _))⟩

end Opened

namespace Core

variable {c : Core} {span : Span}

theorem extends_takeWhole (m : Mode) : c.draft.Extends (c.takeWhole task m span).draft :=
  ((Draft.congruent_extends c.draft).addWhole ⟨.refl _, rfl⟩).1

theorem extends_openRegion (index : Nat) :
    c.draft.Extends (c.openRegion task index span).draft :=
  ((Draft.congruent_extends c.draft).openRegion ⟨.refl _, rfl⟩).1

theorem extends_closes (depth : Nat) : c.draft.Extends (c.closes task depth span).draft :=
  ((Draft.congruent_extends c.draft).closeRegions _ ⟨.refl _, rfl⟩).1

theorem counted_take (h : c.draft.Counted) (f : Found) : (c.take task f).draft.Counted := by
  rw [Core.take]
  split
  · split
    · exact (Draft.congruent_counted.addWhole ⟨h, rfl⟩).1
    · exact (Draft.congruent_counted.openRegion ⟨h, rfl⟩).1
  · exact (Draft.congruent_counted.closeRegions _ ⟨h, rfl⟩).1
  · split
    · exact (Draft.congruent_counted.passOver (fun h => ⟨h.1, by rw [h.2]⟩) ⟨h, rfl⟩).1
    · exact h.restore _

/-- Every region goes back to a core related to it, and the counts are right. -/
structure Grounded (R : Entry → Core → Prop) (c : Core) : Prop where
  counted : c.draft.Counted
  opened : Opened R c.entries c.draft

/-- **Grounds are kept**: a region that opens goes back to the core that it is opened in. -/
theorem Grounded.take {R : Entry → Core → Prop} (h : Grounded R c)
    (hnew : ∀ index, f.candidate = .opens index → (task.grammar.mode index).ending ≠ .immediate →
      R ⟨index, (task.grammar.mode index).opener, f.span.start, c.draft.checkpoint⟩ c) :
    Grounded R (c.take task f) := by
  refine ⟨counted_take h.counted f, ?_⟩
  rw [Core.take]
  split
  · next index hf =>
    split
    · exact h.opened.extend (extends_takeWhole _)
    · next hend =>
      exact ⟨c, hnew index hf hend, rfl, h.counted, rfl, extends_openRegion index, h.opened⟩
  · exact (h.opened.drop _).extend (extends_closes _)
  · split
    · next hnil =>
      rw [show (c.passOver task f.span).entries = [] from hnil]
      trivial
    · next e outer hcons =>
      obtain ⟨u, -, -, -, -, hout⟩ := (hcons ▸ h.opened).restore h.counted
      exact hout

/-- The cores show the same, with the same regions open. -/
structure Alike (c d : Core) : Prop where
  draft : c.draft.Alike d.draft
  entries : c.entries = d.entries

namespace Alike

variable {d e : Core}

theorem refl (c : Core) : c.Alike c := ⟨.refl _, rfl⟩

theorem symm (h : c.Alike d) : d.Alike c := ⟨h.draft.symm, h.entries.symm⟩

theorem trans (h : c.Alike d) (h' : d.Alike e) : c.Alike e :=
  ⟨h.draft.trans h'.draft, h.entries.trans h'.entries⟩

theorem modes (h : c.Alike d) : c.modes = d.modes := by rw [Core.modes, h.entries, Core.modes]

theorem keywords (h : c.Alike d) (g : Grammar) : c.keywords g = d.keywords g := by
  rw [Core.keywords, h.modes, Core.keywords]

/-- Where the scan goes on, and what is barred then, does not hang on where it was. -/
theorem take_pos_barred (h : c.Alike d) (hbarred : c.barred = d.barred) (f : Found) :
    (c.take task f).pos = (d.take task f).pos ∧
      (c.take task f).barred = (d.take task f).barred := by
  rw [Core.take, Core.take]
  split
  · split <;> exact ⟨rfl, hbarred⟩
  · exact ⟨rfl, hbarred⟩
  · rw [h.entries]
    split
    · exact ⟨rfl, hbarred⟩
    · exact ⟨rfl, by rw [Core.takeBack, Core.takeBack, hbarred]⟩

/-- **What shows the same goes on to show the same.** -/
theorem take (h : c.Alike d) (f : Found) : (c.take task f).Alike (d.take task f) := by
  rw [Core.take, Core.take]
  split
  · split
    · -- the draft is the only thing that a mode without an end changes
      refine ⟨?_, h.entries⟩
      simp only [Core.takeWhole, h.keywords]
      exact Draft.congruent_alike.addWhole h.draft
    · constructor
      · simp only [Core.openRegion, h.keywords]
        exact Draft.congruent_alike.openRegion h.draft
      · simp only [Core.openRegion, h.entries, h.draft.checkpoint]
  · constructor
    · simp only [Core.closes, h.keywords, h.modes]
      exact Draft.congruent_alike.closeRegions _ h.draft
    · simp only [Core.closes, h.entries, h.modes]
  · rw [h.entries]
    split
    · refine ⟨?_, h.entries⟩
      simp only [Core.passOver, h.keywords]
      exact Draft.congruent_alike.passOver
        (fun h => ⟨h.bufferStart, h.relevance, rfl, h.events, h.hitLog, h.count⟩) h.draft
    · exact ⟨h.draft.restore _, rfl⟩

end Alike

end Core

end Highlighting.Scan
