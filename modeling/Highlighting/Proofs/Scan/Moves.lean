/-
  Highlighting/Proofs/Scan/Moves.lean
  ===================================
  **What a scan has done**, move by move.

  A move is a match together with the state in which it was found.  A scan
  gets from one state to another by a list of moves, latest first (`Ran`); the
  states that it can get to from its start are all that it can be in when it
  looks for the next match.  What each move keeps, all of them keep
  (`Ran.inv`).

  A move does one of six things (`Deed`): it takes a mode as a whole, opens a
  region, skips an opening, closes regions, takes one back, or passes over
  something illegal.  Only a move that opens a region uses up a serial number,
  so that the number tells by which move a region was opened
  (`Ran.nextSerial_lt`).
-/
import Highlighting.Proofs.Scan.Core

namespace Highlighting.Scan

variable {task : Task} {s t u : State} {f : Found}

/-- A match, and the state in which it was found. -/
structure Move where
  state : State
  found : Found

/-- How the open regions were opened, with their serial numbers, innermost first. -/
def State.openings (s : State) : List (Entry × Nat) := s.regions.map fun r => (r.entry, r.serial)

namespace Move

def next (task : Task) (m : Move) : State := m.state.handle task m.found

/-- The match would open a region, and is skipped. -/
def skips (task : Task) (m : Move) : Bool := m.state.skips task m.found

def takesBack (m : Move) : Bool := m.state.takesBack m.found

def opensRegion (task : Task) (m : Move) : Bool :=
  match m.found.candidate with
  | .opens index => (task.grammar.mode index).ending ≠ .immediate && !m.skips task
  | _ => false

/-- The opening that is barred: that of a region taken back, or one that is skipped. -/
def bar? (task : Task) (m : Move) : Option Bar :=
  match m.found.candidate with
  | .opens index =>
    if m.skips task then some ((task.grammar.mode index).opener, m.found.span.start) else none
  | .closes _ => none
  | .illegal => m.state.openings.head?.map fun o => (o.1.opener, o.1.start)

/-- The state in which the match is handled: the innermost region has noted in its trail how far
it was looked for. -/
def noted (m : Move) : State := m.state.leaveTrail m.found.span

end Move

variable {m : Move} {ms ms' : List Move}

/-! ### What a move does -/

theorem leaveTrail_eq (span : Span) (s : State) :
    ∃ regions, s.leaveTrail span = { s with regions } ∧
      regions.map (fun r => (r.entry, r.serial)) = s.openings := by
  obtain ⟨pos, draft, cache, barred, trails, regions, nextSerial⟩ := s
  cases regions with
  | nil => exact ⟨[], rfl, rfl⟩
  | cons r outer => exact ⟨_, rfl, rfl⟩

theorem map_entry_openings (s : State) : s.openings.map (·.1) = s.core.entries := by
  simp [State.openings, State.core]

theorem modes_eq_openings (s : State) : s.modes = s.openings.map (·.1.mode) := by
  simp [State.openings, State.modes]

namespace Move

@[simp] theorem openings_noted (m : Move) : m.noted.openings = m.state.openings := by
  obtain ⟨regions, heq, hopenings⟩ := leaveTrail_eq m.found.span m.state
  rw [noted, heq]
  exact hopenings

@[simp] theorem modes_noted (m : Move) : m.noted.modes = m.state.modes := by
  rw [modes_eq_openings, openings_noted, ← modes_eq_openings]

@[simp] theorem keywords_noted (g : Grammar) (m : Move) :
    m.noted.keywords g = m.state.keywords g := by
  rw [State.keywords, modes_noted, State.keywords]

@[simp] theorem draft_noted (m : Move) : m.noted.draft = m.state.draft := by
  obtain ⟨regions, heq, -⟩ := leaveTrail_eq m.found.span m.state
  rw [noted, heq]

@[simp] theorem barred_noted (m : Move) : m.noted.barred = m.state.barred := by
  obtain ⟨regions, heq, -⟩ := leaveTrail_eq m.found.span m.state
  rw [noted, heq]

@[simp] theorem nextSerial_noted (m : Move) : m.noted.nextSerial = m.state.nextSerial := by
  obtain ⟨regions, heq, -⟩ := leaveTrail_eq m.found.span m.state
  rw [noted, heq]

end Move

/-! ### Drafts and openings after a step -/

section Steps

variable {mode : Mode} {index depth : Nat} {span : Span} {r : Region} {outer : List Region}

@[simp] theorem draft_takeWhole : (s.takeWhole task mode span).draft =
    s.draft.addWhole task.source (s.keywords task.grammar) mode span := rfl

@[simp] theorem openings_takeWhole : (s.takeWhole task mode span).openings = s.openings := rfl

@[simp] theorem draft_skip {start : Nat} : (s.skip task index start).draft = s.draft := rfl

@[simp] theorem openings_skip {start : Nat} :
    (s.skip task index start).openings = s.openings := rfl

@[simp] theorem draft_openRegion : (s.openRegion task index mode span).draft =
    s.draft.openRegion task.source (s.keywords task.grammar) mode span := rfl

@[simp] theorem openings_openRegion : (s.openRegion task index mode span).openings =
    (⟨index, mode.opener, span.start, s.draft.checkpoint⟩, s.nextSerial) :: s.openings := rfl

@[simp] theorem draft_closes : (s.closes task depth span).draft =
    s.draft.closeRegions task.source (s.keywords task.grammar)
      (State.closingEdge task.grammar s.modes span)
      ((s.modes.take (State.closedBy task.grammar s.modes depth)).map task.grammar.mode) := rfl

@[simp] theorem openings_closes : (s.closes task depth span).openings =
    s.openings.drop (State.closedBy task.grammar s.modes depth) := List.map_drop

@[simp] theorem draft_abandon :
    (s.abandon r outer).draft = s.draft.restore r.entry.checkpoint := rfl

theorem draft_passed (h : s.regions = []) : (s.meetsIllegal task span).draft =
    s.draft.passOver task.source task.grammar.root.keywords span := by
  simp only [State.meetsIllegal, h]

theorem openings_passed (h : s.regions = []) : (s.meetsIllegal task span).openings = [] := by
  simp only [State.meetsIllegal, State.openings, h, List.map_nil]

end Steps

/-! ### Deeds -/

/-- What a move does, told apart by what was found and what is open. -/
inductive Deed (task : Task) (m : Move) : State → Prop where
  | whole {index : Nat} (hf : m.found.candidate = .opens index)
      (hend : (task.grammar.mode index).ending = .immediate) :
      Deed task m (m.noted.takeWhole task (task.grammar.mode index) m.found.span)
  | skipped {index : Nat} (hf : m.found.candidate = .opens index)
      (hend : (task.grammar.mode index).ending ≠ .immediate) (hskips : m.skips task = true) :
      Deed task m (m.noted.skip task (task.grammar.mode index).opener m.found.span.start)
  | opened {index : Nat} (hf : m.found.candidate = .opens index)
      (hend : (task.grammar.mode index).ending ≠ .immediate) (hskips : m.skips task = false) :
      Deed task m (m.noted.openRegion task index (task.grammar.mode index) m.found.span)
  | closed {depth : Nat} (hf : m.found.candidate = .closes depth) :
      Deed task m (m.noted.closes task depth m.found.span)
  | tookBack {r : Region} {outer : List Region} (hf : m.found.candidate = .illegal)
      (hback : m.takesBack = true)
      (hopenings : m.state.openings = (r.entry, r.serial) :: (m.noted.abandon r outer).openings) :
      Deed task m (m.noted.abandon r outer)
  | passed (hf : m.found.candidate = .illegal) (hback : m.takesBack = false)
      (hopenings : m.state.openings = []) (hregions : m.noted.regions = []) :
      Deed task m (m.noted.meetsIllegal task m.found.span)

/-- **Every move does one of the six.** -/
theorem Move.deed (task : Task) (m : Move) : Deed task m (m.next task) := by
  have hnext : m.next task = match m.found.candidate with
      | .opens index => m.noted.opens task index m.found.span
      | .closes depth => m.noted.closes task depth m.found.span
      | .illegal => m.noted.meetsIllegal task m.found.span := rfl
  -- the stretch that was just noted has no say in whether a region would be retraced
  have hretraces : ∀ index pos, m.noted.retraces index pos = m.state.retraces index pos :=
    retraces_leaveTrail m.found.span m.state
  rw [hnext]
  cases hf : m.found.candidate with
  | opens index =>
    simp only [State.opens]
    by_cases hend : (task.grammar.mode index).ending = .immediate
    · rw [if_pos hend]
      exact .whole hf hend
    · have hskips : m.skips task =
          (task.shortcuts.skipRetraced && m.noted.retraces index m.found.span.stop) := by
        simp [Move.skips, State.skips, hf, hend, hretraces]
      rw [if_neg hend]
      cases hskip : (task.shortcuts.skipRetraced && m.noted.retraces index m.found.span.stop) with
      | true =>
        rw [if_pos rfl]
        exact .skipped hf hend (hskips.trans hskip)
      | false =>
        rw [if_neg Bool.false_ne_true]
        exact .opened hf hend (hskips.trans hskip)
  | closes depth => exact .closed hf
  | illegal =>
    have hback : m.takesBack = !m.state.openings.isEmpty := by
      simp [Move.takesBack, State.takesBack, State.openings, hf]
    rw [← m.openings_noted] at hback
    cases hregions : m.noted.regions with
    | nil =>
      have hopenings : m.noted.openings = [] := by rw [State.openings, hregions, List.map_nil]
      rw [hopenings] at hback
      exact .passed hf hback (m.openings_noted.symm.trans hopenings) hregions
    | cons r outer =>
      have hopenings : m.noted.openings =
          (r.entry, r.serial) :: (m.noted.abandon r outer).openings := by
        rw [State.openings, hregions]
        rfl
      rw [hopenings] at hback
      simp only [State.meetsIllegal, hregions]
      exact .tookBack hf hback (m.openings_noted.symm.trans hopenings)

theorem exists_of_takesBack (task : Task) (h : m.takesBack = true) :
    ∃ r outer, m.next task = m.noted.abandon r outer ∧
      m.state.openings = (r.entry, r.serial) :: (m.noted.abandon r outer).openings := by
  have hillegal : m.found.candidate = .illegal := by
    simp only [Move.takesBack, State.takesBack, Bool.and_eq_true, decide_eq_true_eq] at h
    exact h.1
  have hdeed := m.deed task
  generalize m.next task = t at hdeed
  cases hdeed with
  | whole hf | skipped hf | opened hf | closed hf => cases hillegal.symm.trans hf
  | tookBack hf hback hopenings => exact ⟨_, _, rfl, hopenings⟩
  | passed hf hback => cases hback.symm.trans h

theorem nextSerial_next (task : Task) (m : Move) :
    (m.next task).nextSerial = m.state.nextSerial + if m.opensRegion task then 1 else 0 := by
  have hserial := m.nextSerial_noted
  have hdeed := m.deed task
  generalize m.next task = t at hdeed
  cases hdeed with
  | whole hf hend =>
    rw [show m.opensRegion task = false by simp [Move.opensRegion, hf, hend]]
    exact hserial
  | skipped hf hend hskips =>
    rw [show m.opensRegion task = false by simp [Move.opensRegion, hf, hskips]]
    exact hserial
  | opened hf hend hskips =>
    rw [show m.opensRegion task = true by simp [Move.opensRegion, hf, hend, hskips]]
    exact congrArg (· + 1) hserial
  | closed hf =>
    rw [show m.opensRegion task = false by simp [Move.opensRegion, hf]]
    exact hserial
  | tookBack hf =>
    rw [show m.opensRegion task = false by simp [Move.opensRegion, hf]]
    exact hserial
  | passed hf hback hopenings hregions =>
    rw [show m.opensRegion task = false by simp [Move.opensRegion, hf]]
    simp only [State.meetsIllegal, hregions]
    exact hserial

/-- **A move bars the opening that it takes back or skips**, and nothing else. -/
theorem barred_next (task : Task) (m : Move) :
    (m.next task).barred = (m.bar? task).toList ++ m.state.barred := by
  have hbarred := m.barred_noted
  have hdeed := m.deed task
  generalize m.next task = t at hdeed
  cases hdeed with
  | @whole index hf hend =>
    have hskips : m.skips task = false := by simp [Move.skips, State.skips, hf, hend]
    simp only [Move.bar?, hf, hskips]
    exact hbarred
  | skipped hf hend hskips =>
    simp only [Move.bar?, hf, hskips, if_true, Option.toList_some, List.singleton_append, ← hbarred]
    rfl
  | opened hf hend hskips =>
    simp only [Move.bar?, hf, hskips]
    exact hbarred
  | closed hf =>
    simp only [Move.bar?, hf]
    exact hbarred
  | tookBack hf hback hopenings =>
    simp only [Move.bar?, hf, hopenings, List.head?_cons, Option.map_some, Option.toList_some,
      List.singleton_append, ← hbarred]
    rfl
  | passed hf hback hopenings hregions =>
    simp only [Move.bar?, hf, hopenings, State.meetsIllegal, hregions]
    exact hbarred

theorem isSome_bar? (task : Task) (m : Move) :
    (m.bar? task).isSome = (m.takesBack || m.skips task) := by
  rw [Move.bar?, Move.takesBack, State.takesBack, Move.skips]
  cases hf : m.found.candidate with
  | opens index => cases hskips : m.state.skips task m.found <;> simp
  | closes depth => simp [State.skips, hf]
  | illegal => cases hregions : m.state.regions <;> simp [State.skips, State.openings, hf, hregions]

/-! ### Getting from state to state -/

def State.move (task : Task) (s : State) (f : Found) : Move := ⟨(s.next? task).2, f⟩

/-- The scan gets from one state to another by these moves, latest first. -/
inductive Ran (task : Task) (s : State) : List Move → State → Prop where
  | refl : Ran task s [] s
  | move {ms : List Move} {t : State} {f : Found} (h : Ran task s ms t)
      (hf : (t.next? task).1 = some f) :
      Ran task s (t.move task f :: ms) ((t.move task f).next task)

namespace Ran

theorem trans (h : Ran task s ms t) (h' : Ran task t ms' u) : Ran task s (ms' ++ ms) u := by
  induction h' with
  | refl => exact h
  | move _ hf ih => exact .move ih hf

/-- **What every move keeps, all moves keep.** -/
theorem inv {P : State → Prop}
    (hstep : ∀ s f, P s → (s.next? task).1 = some f → P ((s.move task f).next task))
    (h : Ran task s ms t) (hs : P s) : P t := by
  induction h with
  | refl => exact hs
  | move _ hf ih => exact hstep _ _ ih hf

theorem exists_of_mem (h : Ran task s ms t) (hm : m ∈ ms) :
    ∃ ms' u f, Ran task s ms' u ∧ (u.next? task).1 = some f ∧ m = u.move task f := by
  induction h with
  | refl => cases hm
  | @move ms t f hran hf ih =>
    rcases List.mem_cons.mp hm with rfl | hm
    · exact ⟨ms, t, f, hran, hf, rfl⟩
    · exact ih hm

theorem nextSerial_le (h : Ran task s ms t) :
    s.nextSerial ≤ t.nextSerial ∧ ∀ m ∈ ms, s.nextSerial ≤ m.state.nextSerial := by
  induction h with
  | refl => exact ⟨Nat.le_refl _, by simp⟩
  | @move ms t f _ hf ih =>
    have hnext := nextSerial_next task (t.move task f)
    have hstate : (t.move task f).state.nextSerial = t.nextSerial := rfl
    refine ⟨by omega, fun m hm => ?_⟩
    rcases List.mem_cons.mp hm with rfl | hm
    · omega
    · exact ih.2 m hm

/-- **A serial number that a region has got is not given again.** -/
theorem nextSerial_lt (h : Ran task s ms t) :
    ∀ m ∈ ms, m.opensRegion task = true → m.state.nextSerial < t.nextSerial := by
  induction h with
  | refl => simp
  | @move ms t f _ hf ih =>
    have hnext := nextSerial_next task (t.move task f)
    have hstate : (t.move task f).state.nextSerial = t.nextSerial := rfl
    intro m hm hopens
    rcases List.mem_cons.mp hm with rfl | hm
    · rw [if_pos hopens] at hnext
      omega
    · have := ih m hm hopens
      omega

/-- **Which move opened a region is told by the serial number**: there is no other one like it
before or after. -/
theorem eq_of_nextSerial_eq (hs : Ran task s ms t)
    (hopens : (t.move task f).opensRegion task = true)
    (hu : Ran task ((t.move task f).next task) ms' u) (hm : m ∈ ms' ++ t.move task f :: ms)
    (hopens' : m.opensRegion task = true) (hserial : m.state.nextSerial = t.nextSerial) :
    m = t.move task f := by
  have hnext := nextSerial_next task (t.move task f)
  have hstate : (t.move task f).state.nextSerial = t.nextSerial := rfl
  rw [if_pos hopens] at hnext
  -- moves behind it have a greater number, and those before it that open a region a smaller one
  rcases List.mem_append.mp hm with hm | hm
  · have hle := hu.nextSerial_le.2 m hm
    omega
  · rcases List.mem_cons.mp hm with rfl | hm
    · rfl
    · have hlt := hs.nextSerial_lt m hm hopens'
      omega

end Ran

/-- A run for a number of turns makes as many moves, unless nothing more is found. -/
theorem exists_ran_runFor (task : Task) (n : Nat) (s : State) :
    ∃ ms t, Ran task s ms t ∧ (ms.length = n ∧ runFor task n s = t ∨
      (t.next? task).1 = none ∧ runFor task n s = (t.next? task).2) := by
  induction n generalizing s with
  | zero => exact ⟨[], s, .refl, .inl ⟨rfl, rfl⟩⟩
  | succ n ih =>
    cases hf : (s.next? task).1 with
    | none => exact ⟨[], s, .refl, .inr ⟨hf, runFor_stop hf n⟩⟩
    | some f =>
      obtain ⟨ms, t, hran, hend⟩ := ih ((s.move task f).next task)
      have hrun : runFor task (n + 1) s = runFor task n ((s.move task f).next task) :=
        runFor_step hf n
      refine ⟨ms ++ [s.move task f], t, (Ran.move .refl hf).trans hran, ?_⟩
      rw [hrun, List.length_append, List.length_singleton]
      exact hend.imp (fun ⟨hlen, heq⟩ => ⟨by rw [hlen], heq⟩) id

theorem exists_ran_core (task : Task) (n : Nat) (s : State) :
    ∃ ms t, Ran task s ms t ∧ t.core = (runFor task n s).core := by
  obtain ⟨ms, t, hran, ⟨-, hrun⟩ | ⟨-, hrun⟩⟩ := exists_ran_runFor task n s
  · exact ⟨ms, t, hran, by rw [hrun]⟩
  · exact ⟨ms, t, hran, by rw [hrun, core_next?]⟩

theorem exists_ran_trails (task : Task) (n : Nat) (s : State) :
    ∃ ms t, Ran task s ms t ∧ t.regions = (runFor task n s).regions ∧
      t.trails = (runFor task n s).trails := by
  obtain ⟨ms, t, hran, ⟨-, hrun⟩ | ⟨-, hrun⟩⟩ := exists_ran_runFor task n s
  · exact ⟨ms, t, hran, by rw [hrun], by rw [hrun]⟩
  · exact ⟨ms, t, hran, by rw [hrun]; rfl, by rw [hrun]; rfl⟩

/-- A text is highlighted as some state shows it that its scan gets to. -/
theorem exists_ran_highlight (g : Grammar) (text : String) (options : Options) :
    let task := Scan.task g (Source.ofString text) options
    ∃ ms t, Ran task (State.start g) ms t ∧ g.highlight text options = result task t := by
  intro task
  obtain ⟨ms, t, hran, hend⟩ :=
    exists_ran_runFor task (stepBound g task.source.size) (State.start g)
  refine ⟨ms, t, hran, ?_⟩
  have hresult : g.highlight text options =
      result task (runFor task (stepBound g task.source.size) (State.start g)) := rfl
  rcases hend with ⟨-, hrun⟩ | ⟨-, hrun⟩
  · rw [hresult, hrun]
  · rw [hresult, hrun]
    rfl

end Highlighting.Scan
