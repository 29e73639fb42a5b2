/-
  Highlighting/Proofs/Scan/Brackets.lean
  ======================================
  **The open regions and the event log agree.**

  Read as brackets, the event log never closes more than it has opened, and what
  it leaves unclosed are the scopes of the open regions (`readEvents`).  Its
  events do not tell whose scope they close; the marks do, and each of them
  closes the scope of its own region (`readMarks`).  At the end none is left.

  How regions were opened is in the order of the text as well.  That the logs
  have only grown from one region to the next holds in any case
  (`Rooted.ordered`).  That their openings start one after the other, and that
  the buffers do, holds as long as matches are not found behind where the search
  began (`Core.Layered`); `exists_openings_backward` has one that is.
-/
import Highlighting.Proofs.Scan.Lossless
import Highlighting.Proofs.Scan.Marks

namespace Highlighting.Scan

variable {task : Task} {start s t : State} {m : Move} {f : Found} {c : Core}
  {ms kept : List Move} {source : Source} {keywords : Option KeywordTable} {span : Span}

/-! ### Reading brackets -/

/-- The scopes that are unclosed after an event, innermost first, unless it closes more than was
opened. -/
def readEvent (scopes : List Scope) : Event → Option (List Scope)
  | .opened scope => some (scope :: scopes)
  | .text _ => some scopes
  | .closed =>
    match scopes with
    | [] => none
    | _ :: outer => some outer

def readEvents (scopes : List Scope) (events : List Event) : Option (List Scope) :=
  events.foldlM readEvent scopes

/-- The same for marks, where a scope can only be closed by its owner. -/
def readMark (scopes : List (Option Nat × Scope)) : Mark → Option (List (Option Nat × Scope))
  | .opened owner scope => some ((owner, scope) :: scopes)
  | .closed owner =>
    match scopes with
    | [] => none
    | (owner', _) :: outer => if owner' = owner then some outer else none
  | .text _ | .keyword _ _ _ => some scopes

def readMarks (scopes : List (Option Nat × Scope)) (marks : List Mark) :
    Option (List (Option Nat × Scope)) :=
  marks.foldlM readMark scopes

theorem readEvents_append {scopes scopes' scopes'' : List Scope} {es es' : List Event}
    (h : readEvents scopes es = some scopes') (h' : readEvents scopes' es' = some scopes'') :
    readEvents scopes (es ++ es') = some scopes'' := by
  rw [readEvents] at h
  rw [readEvents, List.foldlM_append, h]
  exact h'

variable {scopes scopes' scopes'' : List (Option Nat × Scope)} {marks marks' : List Mark}

theorem readMarks_append (h : readMarks scopes marks = some scopes')
    (h' : readMarks scopes' marks' = some scopes'') :
    readMarks scopes (marks ++ marks') = some scopes'' := by
  rw [readMarks] at h
  rw [readMarks, List.foldlM_append, h]
  exact h'

theorem readEvents_textEvents (scopes : List Scope) (s : Span) :
    readEvents scopes (Mark.textEvents s) = some scopes := by
  rw [Mark.textEvents]
  split <;> rfl

theorem readEvents_of_readMark {mark : Mark} (h : readMark scopes mark = some scopes') :
    readEvents (scopes.map (·.2)) mark.events = some (scopes'.map (·.2)) := by
  cases mark with
  | text s =>
    cases h
    exact readEvents_textEvents _ s
  | keyword s c w =>
    cases h
    -- a keyword closes the scope that it opens
    have hopened : readEvents (scopes.map (·.2)) [.opened c.scope] =
        some (c.scope :: scopes.map (·.2)) := rfl
    show readEvents _ ([.opened c.scope] ++ (Mark.textEvents s ++ [.closed])) = _
    exact readEvents_append hopened (readEvents_append (readEvents_textEvents _ s) rfl)
  | opened owner scope =>
    cases h
    rfl
  | closed owner =>
    cases scopes with
    | nil => cases h
    | cons o outer =>
      simp only [readMark] at h
      split at h
      · cases h
        rfl
      · cases h

/-- **Where every scope is closed by its owner, the brackets fit.** -/
theorem readEvents_of_readMarks (h : readMarks scopes marks = some scopes') :
    readEvents (scopes.map (·.2)) (marks.flatMap Mark.events) = some (scopes'.map (·.2)) := by
  induction marks generalizing scopes with
  | nil =>
    cases h
    rfl
  | cons mark marks ih =>
    rw [readMarks, List.foldlM_cons] at h
    obtain ⟨scopes'', hmark, hrest⟩ := Option.bind_eq_some_iff.mp h
    rw [List.flatMap_cons]
    exact readEvents_append (readEvents_of_readMark hmark) (ih hrest)

/-! ### The brackets that a move writes -/

/-- The scopes of open regions, innermost first, with their owners. -/
def scopesOf (g : Grammar) (os : List (Entry × Nat)) : List (Option Nat × Scope) :=
  os.filterMap fun o => (g.mode o.1.mode).scope.map fun scope => (some o.2, scope)

theorem readMarks_stretch (scopes : List (Option Nat × Scope)) (source : Source)
    (keywords : Option KeywordTable) (span : Span) :
    readMarks scopes (stretch source keywords span) = some scopes := by
  have hwith : ∀ ks last, readMarks scopes (withText source span.stop ks last) = some scopes := by
    intro ks
    induction ks with
    | nil => intro last; rfl
    | cons k ks ih => intro last; exact ih k.1.stop
  simp only [stretch]
  split
  · rfl
  · cases keywords with
    | none => rfl
    | some table => exact hwith _ _

theorem readMarks_opening (scopes : List (Option Nat × Scope)) (owner : Option Nat)
    (scope : Option Scope) :
    readMarks scopes (opening owner scope) =
      some ((scope.toList.map fun scope => (owner, scope)) ++ scopes) := by
  cases scope <;> rfl

theorem readMarks_closing (scopes : List (Option Nat × Scope)) (owner : Option Nat)
    (scope : Option Scope) :
    readMarks ((scope.toList.map fun scope => (owner, scope)) ++ scopes) (closing owner scope) =
      some scopes := by
  cases scope with
  | none => rfl
  | some scope => simp [readMarks, readMark, closing]

theorem readMarks_wholeMarks (scopes : List (Option Nat × Scope)) (source : Source)
    (keywords : Option KeywordTable) (mode : Mode) (span : Span) (pos : Nat) :
    readMarks scopes (wholeMarks source keywords mode span pos) = some scopes := by
  rw [wholeMarks]
  split
  · exact readMarks_stretch scopes source keywords _
  · exact readMarks_append (readMarks_stretch scopes source keywords _)
      (readMarks_append (readMarks_opening scopes none mode.scope)
        (readMarks_append (readMarks_stretch _ source mode.content.keywords span)
          (readMarks_closing scopes none mode.scope)))

theorem scopesOf_cons (g : Grammar) (o : Entry × Nat) (os : List (Entry × Nat)) :
    scopesOf g (o :: os) =
      ((g.mode o.1.mode).scope.toList.map fun scope => (some o.2, scope)) ++ scopesOf g os := by
  rw [scopesOf, List.filterMap_cons]
  cases (g.mode o.1.mode).scope <;> rfl

/-- **Regions that close leave the scopes of those around.** -/
theorem readMarks_closingMarks (g : Grammar) (os : List (Entry × Nat)) (n : Nat) :
    readMarks (scopesOf g os) (closingMarks g (os.take n)) = some (scopesOf g (os.drop n)) := by
  induction n generalizing os with
  | zero => rfl
  | succ n ih =>
    cases os with
    | nil => rfl
    | cons o os =>
      rw [scopesOf_cons, List.take_succ_cons, closingMarks, List.flatMap_cons]
      exact readMarks_append (readMarks_closing _ (some o.2) (g.mode o.1.mode).scope) (ih os)

/-- **A move that stands leaves the scopes of the regions that are open then.** -/
theorem readMarks_next (hback : m.takesBack = false) (hskips : m.skips task = false) :
    readMarks (scopesOf task.grammar m.state.openings) (m.marks task) =
      some (scopesOf task.grammar (m.next task).openings) := by
  have hstretch := readMarks_stretch (scopesOf task.grammar m.state.openings) task.source
    (m.state.keywords task.grammar)
  have hdeed := m.deed task
  generalize m.next task = u at hdeed
  cases hdeed with
  | @whole index hf hend =>
    simp only [Move.marks, hf, if_pos hend, openings_takeWhole, Move.openings_noted]
    exact readMarks_wholeMarks _ _ _ _ _ _
  | skipped hf hend hskipped => cases hskips.symm.trans hskipped
  | @opened index hf hend =>
    simp only [Move.marks, hf, if_neg hend, openings_openRegion, Move.openings_noted,
      Move.nextSerial_noted, scopesOf_cons]
    exact readMarks_append (hstretch _) (readMarks_opening _ _ _)
  | @closed depth hf =>
    simp only [Move.marks, hf, openings_closes, Move.openings_noted, Move.modes_noted]
    exact readMarks_append (hstretch _) (readMarks_closingMarks _ _ _)
  | tookBack hf htook => cases hback.symm.trans htook
  | passed hf _ hopenings hregions =>
    simp only [Move.marks, hf, openings_passed hregions]
    rw [hopenings] at hstretch ⊢
    exact readMarks_append (hstretch _) rfl

/-- **What the moves that stand have written leaves the scopes of the open regions.** -/
theorem Shown.readMarks (h : Shown task (State.start task.grammar) kept t) :
    Scan.readMarks [] (written task kept) = some (scopesOf task.grammar t.openings) := by
  induction h with
  | start halike =>
    rw [halike.openings]
    rfl
  | move _ hback hskips halike ih =>
    rw [halike.openings]
    exact readMarks_append ih (readMarks_next hback hskips)

/-! ### Regions in order -/

/-- The logs of the draft are no shorter than they were where the region was opened. -/
def Entry.LogsUpTo (e : Entry) (c : Checkpoint) : Prop :=
  e.checkpoint.events ≤ c.events ∧ e.checkpoint.hits ≤ c.hits

/-- The region was opened no further on than the position, nor with a later buffer. -/
def Entry.StartsUpTo (e : Entry) (pos bufferStart : Nat) : Prop :=
  e.start ≤ pos ∧ e.checkpoint.bufferStart ≤ bufferStart

theorem checkpoint_le_of_extends {d e : Draft} (h : d.Extends e) :
    d.checkpoint.events ≤ e.checkpoint.events ∧ d.checkpoint.hits ≤ e.checkpoint.hits := by
  have hevents := h.events.length_le
  have hhits := h.hitLog.length_le
  simp only [Array.length_toList] at hevents hhits
  exact ⟨hevents, hhits⟩

/-- **From one region to the next the logs have only grown.** -/
theorem Rooted.ordered {os : List (Entry × Nat)} {d : Draft} (h : Rooted task os kept d) :
    (∀ o ∈ os, o.1.LogsUpTo d.checkpoint) ∧
      os.Pairwise fun inner outer => outer.1.LogsUpTo inner.1.checkpoint := by
  induction os generalizing kept d with
  | nil => exact ⟨by simp, .nil⟩
  | cons o outer ih =>
    obtain ⟨_, m, before, -, -, ⟨index, -, -, rfl⟩, -, hext, hrooted⟩ := h
    obtain ⟨hall, hpairwise⟩ := ih hrooted
    have hle := checkpoint_le_of_extends hext
    refine ⟨fun o' ho' => ?_, .cons hall hpairwise⟩
    rcases List.mem_cons.mp ho' with rfl | ho'
    · exact hle
    · exact ⟨Nat.le_trans (hall o' ho').1 hle.1, Nat.le_trans (hall o' ho').2 hle.2⟩

namespace Draft

variable {d : Draft} {mode : Mode} {stop : Nat}

theorem bufferStart_addWhole (d : Draft) :
    (d.addWhole source keywords mode span).bufferStart = span.stop := by
  simp only [addWhole]
  split
  · exact bufferStart_flush source keywords span.stop d
  · rfl

theorem bufferStart_openRegion (d : Draft) (hle : span.start ≤ span.stop) :
    let e := d.openRegion source keywords mode span
    span.start ≤ e.bufferStart ∧ e.bufferStart ≤ span.stop := by
  have hflush := bufferStart_flush source keywords
    (if mode.excludesBegin then span.stop else span.start) d
  simp only [openRegion, openScope]
  rw [hflush]
  split
  · exact ⟨hle, Nat.le_refl _⟩
  · exact ⟨Nat.le_refl _, hle⟩

theorem bufferStart_closeRegions (closed : List Mode) (d : Draft) :
    (d.closeRegions source keywords stop closed).bufferStart = stop := by
  have hclosed : ∀ e : Draft, (closed.foldl closeRegion e).bufferStart = e.bufferStart := by
    induction closed with
    | nil => exact fun e => rfl
    | cons mode closed ih => exact fun e => ih (e.closeRegion mode)
  rw [closeRegions, hclosed]
  exact bufferStart_flush source keywords stop d

end Draft

/-- The regions start one after the other, and so do their buffers; the buffer of a region starts
no later than the region, and that of the draft no later than the position. -/
structure Core.Layered (c : Core) : Prop where
  ordered : c.entries.Pairwise fun inner outer =>
    outer.StartsUpTo inner.start inner.checkpoint.bufferStart
  behind : ∀ e ∈ c.entries, e.StartsUpTo c.pos c.draft.bufferStart
  buffered : ∀ e ∈ c.entries, e.checkpoint.bufferStart ≤ e.start
  buffer_le : c.draft.bufferStart ≤ c.pos

theorem layered_start (g : Grammar) : (State.start g).core.Layered :=
  ⟨.nil, by simp [State.core, State.start, State.startWith],
    by simp [State.core, State.start, State.startWith], Nat.le_refl 0⟩

namespace Core.Layered

/-- Regions may close as the buffer and the position move ahead. -/
theorem onward {c' : Core} (h : c.Layered) (hentries : c'.entries.Sublist c.entries)
    (hbuffer : c.pos ≤ c'.draft.bufferStart) (hpos : c'.draft.bufferStart ≤ c'.pos) :
    c'.Layered := by
  refine ⟨h.ordered.sublist hentries, fun e he => ?_, fun e he => ?_, hpos⟩
  · obtain ⟨hstart, hbuffered⟩ := h.behind e (hentries.subset he)
    exact ⟨Nat.le_trans hstart (Nat.le_trans hbuffer hpos),
      Nat.le_trans hbuffered (Nat.le_trans h.buffer_le hbuffer)⟩
  · exact h.buffered e (hentries.subset he)

/-- A region may open, in front of where the buffer starts then. -/
theorem opened {c' : Core} {e : Entry} (h : c.Layered) (hentries : c'.entries = e :: c.entries)
    (hcheckpoint : e.checkpoint = c.draft.checkpoint) (hstart : c.pos ≤ e.start)
    (hbuffer : e.start ≤ c'.draft.bufferStart) (hpos : c'.draft.bufferStart ≤ c'.pos) :
    c'.Layered := by
  have hbuffered : e.checkpoint.bufferStart = c.draft.bufferStart := by rw [hcheckpoint]; rfl
  have hle := h.buffer_le
  have hmoved : ∀ e' ∈ c.entries, e'.StartsUpTo e.start e.checkpoint.bufferStart := by
    intro e' he'
    obtain ⟨hstart', hbuffer'⟩ := h.behind e' he'
    exact ⟨Nat.le_trans hstart' hstart, by rw [hbuffered]; exact hbuffer'⟩
  refine ⟨hentries ▸ .cons hmoved h.ordered, fun e' he' => ?_, fun e' he' => ?_, hpos⟩
  · rw [hentries] at he'
    rcases List.mem_cons.mp he' with rfl | he'
    · exact ⟨Nat.le_trans hbuffer hpos, by omega⟩
    · obtain ⟨hstart', hbuffer'⟩ := hmoved e' he'
      exact ⟨Nat.le_trans hstart' (Nat.le_trans hbuffer hpos), by omega⟩
  · rw [hentries] at he'
    rcases List.mem_cons.mp he' with rfl | he'
    · omega
    · exact h.buffered e' he'

theorem takeBack {e : Entry} {outer : List Entry} (h : c.Layered)
    (hentries : c.entries = e :: outer) : (c.takeBack e outer).Layered := by
  have hordered := h.ordered
  have hbuffered := h.buffered
  rw [hentries] at hordered hbuffered
  obtain ⟨hall, hordered⟩ := List.pairwise_cons.mp hordered
  exact ⟨hordered, hall, fun e' he' => hbuffered e' (List.mem_cons_of_mem _ he'),
    hbuffered e List.mem_cons_self⟩

/-- **Matches ahead of the position keep the regions in order.** -/
theorem take (h : c.Layered) (hpos : c.pos ≤ f.span.start) (hle : f.span.start ≤ f.span.stop)
    (hsize : f.span.stop ≤ task.source.size) : (c.take task f).Layered := by
  rw [Core.take]
  split
  · next index _ =>
    split
    · have hbuffer : (c.takeWhole task (task.grammar.mode index) f.span).draft.bufferStart =
          f.span.stop := Draft.bufferStart_addWhole _
      exact h.onward (.refl _) (by omega) (Nat.le_of_eq hbuffer)
    · have hbuffer : f.span.start ≤ (c.openRegion task index f.span).draft.bufferStart ∧
          (c.openRegion task index f.span).draft.bufferStart ≤ f.span.stop :=
        Draft.bufferStart_openRegion c.draft hle
      exact h.opened rfl rfl hpos hbuffer.1 hbuffer.2
  · next depth _ =>
    have hbuffer : (c.closes task depth f.span).draft.bufferStart =
        State.closingEdge task.grammar c.modes f.span := Draft.bufferStart_closeRegions _ _
    have hclosed : (c.closes task depth f.span).pos = f.span.stop := rfl
    -- the buffer starts at one of the edges of the match, and both lie ahead
    refine h.onward (List.drop_sublist _ _) ?_ ?_
    · rcases closingEdge_eq task.grammar c.modes f.span with hedge | hedge <;> omega
    · rcases closingEdge_eq task.grammar c.modes f.span with hedge | hedge <;> omega
  · split
    · obtain ⟨hstart, -⟩ := Draft.passedAt_within hle hsize
      exact h.onward (.refl _) (Nat.le_trans hpos hstart) (Nat.le_refl _)
    · next e outer hentries => exact h.takeBack hentries

end Core.Layered

/-- **Where searches keep within the text, the regions are in its order** at every state. -/
theorem Ran.layered (hwithin : task.grammar.SearchesWithin task.source)
    (h : Ran task (State.start task.grammar) ms t) : t.core.Layered := by
  have hall : CacheAdmits task t.barred t.cache ∧ t.core.Layered := by
    refine h.inv (P := fun s => CacheAdmits task s.barred s.cache ∧ s.core.Layered) ?_
      ⟨Cache.All.replicate _, layered_start _⟩
    intro s f hs hf
    obtain ⟨hpos, _, -, hle, hsize, -⟩ := next?_admitted hwithin hs.1 hf
    refine ⟨cacheAdmits_handle hwithin (cacheAdmits_next? hwithin hs.1) f, ?_⟩
    have hturn : Turn task s.core f ((s.move task f).next task).core :=
      core_turn task (s.next? task).2 f
    generalize ((s.move task f).next task).core = c at hturn
    cases hturn with
    | taken => exact hs.2.take hpos hle hsize
    | barred => exact ⟨hs.2.ordered, hs.2.behind, hs.2.buffered, hs.2.buffer_le⟩
  exact hall.2

/-! ### Whatever a scan gets to -/

theorem map_scopesOf (g : Grammar) (s : State) :
    (scopesOf g s.openings).map (·.2) = s.modes.filterMap fun index => (g.mode index).scope := by
  rw [scopesOf, List.map_filterMap, modes_eq_openings, List.filterMap_map]
  refine List.filterMap_congr fun o _ => ?_
  rw [Option.map_map]
  exact Option.map_id'

/-- At the end every scope has been closed by the region that opened it. -/
theorem Ran.readMarks_allMarks (h : Ran task (State.start task.grammar) ms t) :
    readMarks [] (allMarks task ms t) = some [] := by
  have hclosing := readMarks_closingMarks task.grammar t.openings t.openings.length
  rw [List.take_length, List.drop_length] at hclosing
  exact readMarks_append h.standing.shown.readMarks
    (readMarks_append (readMarks_stretch _ _ _ _) hclosing)

/-- **The open regions and the event log agree**, whatever a scan has got to.  The event log
never closes more than it has opened, and leaves the scopes of the open regions unclosed.  From
each region to the one opened next in it, the logs have only grown; and where searches keep
within the text, the openings do not go back, and neither do the buffers.  When the rest is
recorded at the end, every scope has been closed by the region that opened it.

The outermost level is none of the regions, and each of these has an entry, by their types. -/
theorem regions_agree_with_log (task : Task) :
    ∀ ms t, Ran task (State.start task.grammar) ms t →
      readEvents [] t.draft.events.toList =
          some (t.modes.filterMap fun index => (task.grammar.mode index).scope) ∧
        t.core.entries.Pairwise (fun inner outer => outer.LogsUpTo inner.checkpoint) ∧
        (task.grammar.SearchesWithin task.source → t.core.entries.Pairwise fun inner outer =>
          outer.StartsUpTo inner.start inner.checkpoint.bufferStart) ∧
        let marks := allMarks task ms t
        (result task t).nodes = EventLog.nodes (marks.flatMap Mark.events).toArray task.source ∧
          readMarks [] marks = some [] := by
  intro ms t hran
  have hshown := hran.standing.shown
  refine ⟨?_, ?_, fun hwithin => (hran.layered hwithin).ordered, (result_of_ran hran).1,
    hran.readMarks_allMarks⟩
  · rw [hshown.records.events, ← map_scopesOf]
    exact readEvents_of_readMarks hshown.readMarks
  · rw [← map_entry_openings]
    exact List.pairwise_map.mpr hran.standing.rooted.ordered.2

theorem regions_in_quotes_agree_with_log :
    let task := Scan.task Quotes.grammar (Source.ofString "'a\n'b'") ⟨false⟩
    let s := State.start Quotes.grammar
    let f : Found := ⟨⟨0, 1⟩, .opens 0⟩
    let t := (s.move task f).next task
    Ran task s [s.move task f] t ∧ t.modes ≠ [] ∧ Quotes.grammar.SearchesWithin task.source ∧
      readEvents [] t.draft.events.toList =
        some (t.modes.filterMap fun index => (Quotes.grammar.mode index).scope) ∧
      t.core.entries.Pairwise fun inner outer =>
        outer.StartsUpTo inner.start inner.checkpoint.bufferStart := by
  intro task s f t
  have hran : Ran task s [s.move task f] t := .move .refl (by decide +kernel)
  have hwithin := (Quotes.isReliable task.source).searchesWithin
  have hagree := regions_agree_with_log task [s.move task f] t hran
  exact ⟨hran, by decide +kernel, hwithin, hagree.1, hagree.2.2.1 hwithin⟩

/-! ### Where a match is found behind

With `(?<=\Kzxa)b` the `b` is found behind `zxa`, and the match starts there.  A string opened by
`xa` is then around a comment that starts before it does, and the buffer of a title in that
comment before the buffer of the comment. -/

namespace Backward

def title : ModeDecl :=
  { ModeDecl.opening (.literal "c") with scope := some .title, ending := .never }

def comment : ModeDecl :=
  { ModeDecl.opening (.regex ⟨"(?<=\\Kzxa)b", some '!', [], none⟩) with
    scope := some .comment, ending := .never, contains := [0] }

def string : ModeDecl :=
  { ModeDecl.opening (.literal "xa") with scope := some .string, ending := .never, contains := [1] }

def builder : Builder :=
  { Builder.start .native with modes := #[some title, some comment, some string] }

def language : LanguageDecl := ⟨"toy", [], none, [2], none⟩

end Backward

theorem exists_openings_backward :
    ∃ g, Backward.builder.finish Backward.language = .ok g ∧
      ∃ ms t, Ran (Scan.task g (Source.ofString "zxabc") ⟨false⟩) (State.start g) ms t ∧
        ¬ (t.core.entries.Pairwise fun inner outer => outer.start ≤ inner.start) ∧
        ¬ t.core.entries.Pairwise fun inner outer =>
          outer.checkpoint.bufferStart ≤ inner.checkpoint.bufferStart := by
  have hbackward : (Backward.builder.finish Backward.language).toOption.map (fun g =>
      let entries := (runFor (Scan.task g (Source.ofString "zxabc") ⟨false⟩) 3
        (State.start g)).core.entries
      decide (¬ (entries.Pairwise fun inner outer => outer.start ≤ inner.start) ∧
        ¬ entries.Pairwise fun inner outer =>
          outer.checkpoint.bufferStart ≤ inner.checkpoint.bufferStart)) = some true := by
    decide +kernel
  cases hg : Backward.builder.finish Backward.language with
  | error e =>
    rw [hg] at hbackward
    cases hbackward
  | ok g =>
    rw [hg] at hbackward
    obtain ⟨ms, t, hran, hcore⟩ :=
      exists_ran_core (Scan.task g (Source.ofString "zxabc") ⟨false⟩) 3 (State.start g)
    refine ⟨g, rfl, ms, t, hran, ?_⟩
    rw [hcore]
    exact of_decide_eq_true (Option.some.inj hbackward)

end Highlighting.Scan
