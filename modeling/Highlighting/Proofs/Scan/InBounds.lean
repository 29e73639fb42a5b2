/-
  Highlighting/Proofs/Scan/InBounds.lean
  ======================================
  **A scan stays in bounds.**

  At every state that a scan gets to, its numbers are those of modes and terminals,
  its cache has one place for each terminal, its offsets are in order and within the
  text, and what it has recorded lies side by side up to where the buffer starts
  (`State.InBounds`).  A step needs no more than that to have every access in range
  (`Checked.handle_eq`), and keeps it (`State.InBounds.handle`).

  So the scan that has no result once an access goes astray has the result of the
  one that runs (`scan_stays_in_bounds`).
-/
import Highlighting.Proofs.Scan.Checked
import Highlighting.Proofs.Text.Source

namespace Highlighting.Scan

variable {task : Task} {s : State} {f : Found} {c : Core} {span : Span} {index depth : Nat}

/-! ### What a scan keeps -/

/-- The entries name modes and terminals of the grammar. -/
def Core.Numbered (g : Grammar) (c : Core) : Prop :=
  ∀ e ∈ c.entries, e.mode < g.modes.size ∧ e.opener < g.terminals.size

/-- All that the state refers to by number or offset is there. -/
structure State.InBounds (task : Task) (s : State) : Prop where
  numbered : s.core.Numbered task.grammar
  cache : s.cache.size = task.grammar.terminals.size
  admits : CacheAdmits task s.barred s.cache
  layered : s.core.Layered
  within : s.pos ≤ task.source.size
  tiled : s.core.Tiled

/-- The match lies ahead within the text, and means something that is there. -/
structure Found.InBounds (task : Task) (s : State) (f : Found) : Prop where
  ahead : s.pos ≤ f.span.start
  le : f.span.start ≤ f.span.stop
  stop_le : f.span.stop ≤ task.source.size
  opens : ∀ index, f.candidate = .opens index → index < task.grammar.modes.size
  closes : ∀ depth, f.candidate = .closes depth → depth < s.modes.length

theorem inBounds_start (task : Task) : (State.start task.grammar).InBounds task where
  numbered := by simp [Core.Numbered, State.core, State.start, State.startWith]
  cache := Array.size_replicate
  admits := Cache.All.replicate _
  layered := layered_start _
  within := Nat.zero_le _
  tiled := tiled_start _

theorem Core.Numbered.take (h : c.Numbered task.grammar) (hin : task.grammar.InOrder)
    (hopens : ∀ index, f.candidate = .opens index → index < task.grammar.modes.size) :
    (c.take task f).Numbered task.grammar := by
  intro e he
  rw [Core.take] at he
  split at he
  · next index hf =>
    split at he
    · exact h e he
    · rcases List.mem_cons.mp he with rfl | he
      · exact ⟨hopens index hf, lt_size_of_declares (hin.mode (hopens index hf)).opener⟩
      · exact h e he
  · exact h e (List.mem_of_mem_drop he)
  · split at he
    · exact h e he
    · next hcons => exact h e (hcons ▸ List.mem_cons_of_mem _ he)

/-- Whatever a match is taken for, the scan goes on within the text. -/
theorem Core.Layered.pos_take_le (h : c.Layered) (hpos : c.pos ≤ task.source.size)
    (hle : f.span.start ≤ f.span.stop) (hsize : f.span.stop ≤ task.source.size) :
    (c.take task f).pos ≤ task.source.size := by
  rw [Core.take]
  split
  · split
    · exact hsize
    · exact hsize
  · exact hsize
  · split
    · exact (Draft.passedAt_within hle hsize).2
    · next e outer hcons =>
      have hbehind := h.behind e (hcons ▸ List.mem_cons_self)
      exact Nat.le_trans hbehind.1 hpos

theorem size_cache_next? (task : Task) (s : State) :
    (s.next? task).2.cache.size = s.cache.size :=
  (nextMatch_inv (I := fun c => c.size = s.cache.size) (Q := fun _ _ => True)
    (fun i c hc => ⟨(Checked.size_search task s.barred s.pos i c).trans hc, fun _ _ => trivial⟩)
    s.modes rfl).1

theorem size_cache_handle (task : Task) (s : State) (f : Found) :
    (s.handle task f).cache.size = s.cache.size := by
  rcases cache_handle task s f with ⟨hc, -⟩ | ⟨b, -, hc⟩ | ⟨b, c, span, -, -, -, -, -, -, hc⟩
  · rw [hc]
  · rw [hc]
    exact Array.size_setIfInBounds
  · rw [hc]
    exact Array.size_setIfInBounds

namespace State.InBounds

theorem modes_lt (h : s.InBounds task) : ∀ m ∈ s.modes, m < task.grammar.modes.size := by
  intro m hm
  rw [← modes_core, Core.modes] at hm
  obtain ⟨e, he, rfl⟩ := List.mem_map.mp hm
  exact (h.numbered e he).1

theorem next? (h : s.InBounds task) (hwithin : task.grammar.SearchesWithin task.source) :
    (s.next? task).2.InBounds task where
  numbered := h.numbered
  cache := (size_cache_next? task s).trans h.cache
  admits := cacheAdmits_next? hwithin h.admits
  layered := h.layered
  within := h.within
  tiled := h.tiled

theorem found (h : s.InBounds task) (hwithin : task.grammar.SearchesWithin task.source)
    (hin : task.grammar.InOrder) (hf : (s.next? task).1 = some f) :
    f.InBounds task (s.next? task).2 := by
  obtain ⟨hpos, index, hmem, hle, hsize, -⟩ := next?_admitted hwithin h.admits hf
  refine ⟨hpos, hle, hsize, fun m hm => ?_, fun depth hd => ?_⟩
  · rw [hm] at hmem
    exact (contentOf_inOrder hin s.modes).contains m (mem_candidates_opens.mp hmem).1
  · rw [hd] at hmem
    exact depth_lt_of_closer? (mem_candidates_closes.mp hmem)

theorem leaveTrail (h : s.InBounds task) (span : Span) : (s.leaveTrail span).InBounds task := by
  obtain ⟨h1, h2, h3, h4, h5, h6⟩ := h
  have hcore := core_leaveTrail span s
  have hcache : (s.leaveTrail span).cache = s.cache := by rw [State.leaveTrail]; split <;> rfl
  have hbarred : (s.leaveTrail span).barred = s.barred := congrArg Core.barred hcore
  have hpos : (s.leaveTrail span).pos = s.pos := congrArg Core.pos hcore
  exact ⟨hcore ▸ h1, hcache ▸ h2, hcache ▸ hbarred ▸ h3, hcore ▸ h4, hpos ▸ h5, hcore ▸ h6⟩

/-- **A step keeps the scan in bounds.** -/
theorem handle (h : s.InBounds task) (hwithin : task.grammar.SearchesWithin task.source)
    (hin : task.grammar.InOrder) (hf : f.InBounds task s) : (s.handle task f).InBounds task := by
  have hcache := (size_cache_handle task s f).trans h.cache
  have hadmits := cacheAdmits_handle hwithin h.admits f
  have hturn := core_turn task s f
  have hbuffer : s.core.draft.bufferStart ≤ f.span.start :=
    Nat.le_trans h.layered.buffer_le hf.ahead
  suffices hcore : (s.handle task f).core.Numbered task.grammar ∧
      (s.handle task f).core.Layered ∧ (s.handle task f).core.pos ≤ task.source.size ∧
      (s.handle task f).core.Tiled from
    ⟨hcore.1, hcache, hadmits, hcore.2.1, hcore.2.2.1, hcore.2.2.2⟩
  generalize (s.handle task f).core = c at hturn
  cases hturn with
  | taken =>
    exact ⟨h.numbered.take hin hf.opens, h.layered.take hf.ahead hf.le hf.stop_le,
      h.layered.pos_take_le h.within hf.le hf.stop_le, h.tiled.take hbuffer hf.le hf.stop_le⟩
  | barred =>
    exact ⟨h.numbered, ⟨h.layered.ordered, h.layered.behind, h.layered.buffered,
      h.layered.buffer_le⟩, h.within, h.tiled.bar _⟩

end State.InBounds

/-! ### A step with every access checked -/

namespace Checked

theorem keywordsOf_eq (h : s.InBounds task) :
    keywordsOf task s = some (s.keywords task.grammar) := by
  rw [keywordsOf, contentOf_eq h.modes_lt]
  rfl

theorem closedWith_eq {g : Grammar} {modes : List Nat} (hmodes : ∀ m ∈ modes, m < g.modes.size) :
    closedWith g modes = some (State.closedWith g modes) := by
  induction modes with
  | nil => rfl
  | cons m outer ih =>
    obtain ⟨hm, houter⟩ := List.forall_mem_cons.mp hmodes
    simp only [closedWith, State.closedWith, Grammar.mode?_eq hm, ih houter, Option.bind_eq_bind,
      Option.bind_some, Option.pure_def]
    split
    · rfl
    · rfl

theorem closingEdge_eq {g : Grammar} {modes : List Nat} (hmodes : ∀ m ∈ modes, m < g.modes.size) :
    closingEdge g modes span = some (State.closingEdge g modes span) := by
  cases modes with
  | nil => rfl
  | cons m outer =>
    rw [closingEdge, Grammar.mode?_eq (hmodes m List.mem_cons_self)]
    rfl

/-- No more regions close than are open. -/
theorem closedWith_le (g : Grammar) (modes : List Nat) :
    State.closedWith g modes ≤ modes.length := by
  induction modes with
  | nil => exact Nat.le_refl 0
  | cons m outer ih =>
    rw [State.closedWith, List.length_cons]
    split
    · omega
    · omega

section Step

variable (h : s.InBounds task) (hwithin : task.grammar.SearchesWithin task.source)
include h hwithin

theorem next?_eq (hin : task.grammar.InOrder) : next? task s = some (s.next? task) := by
  rw [next?, nextMatch_eq hwithin hin h.modes_lt h.cache]
  rfl

theorem skip_eq {start : Nat} (hindex : index < task.grammar.terminals.size)
    (hstart : start ≤ task.source.size) :
    skip task index start s = some (s.skip task index start) := by
  have hlt : index < s.cache.size := h.cache ▸ hindex
  simp only [skip, State.skip, getElem?_cache hlt, searchFrom_eq hwithin hindex, store_eq hlt,
    if_pos hstart, Option.bind_eq_bind, Option.bind_some, Option.pure_def]
  split
  · rfl
  · rfl

variable (hin : task.grammar.InOrder) (hpos : s.pos ≤ span.start) (hle : span.start ≤ span.stop)
  (hsize : span.stop ≤ task.source.size)
include hpos hle hsize

omit hwithin in
theorem takeWhole_eq (m : Mode) : takeWhole task m span s = some (s.takeWhole task m span) := by
  have hbuffer : s.draft.bufferStart ≤ span.start := Nat.le_trans h.layered.buffer_le hpos
  rw [takeWhole, keywordsOf_eq h, Option.bind_eq_bind, Option.bind_some,
    addWhole_eq hbuffer hle hsize]
  rfl

omit hwithin in
theorem openRegion_eq (m : Mode) :
    openRegion task index m span s = some (s.openRegion task index m span) := by
  have hbuffer : s.draft.bufferStart ≤ span.start := Nat.le_trans h.layered.buffer_le hpos
  rw [openRegion, keywordsOf_eq h, Option.bind_eq_bind, Option.bind_some,
    addOpening_eq hbuffer hle hsize]
  rfl

include hin in
theorem opens_eq (hindex : index < task.grammar.modes.size) :
    opens task index span s = some (s.opens task index span) := by
  have hopener : (task.grammar.mode index).opener < task.grammar.terminals.size :=
    lt_size_of_declares (hin.mode hindex).opener
  rw [opens, State.opens, Grammar.mode?_eq hindex, Option.bind_eq_bind, Option.bind_some]
  split
  · exact takeWhole_eq h hpos hle hsize _
  · split
    · exact skip_eq h hwithin hopener (Nat.le_trans hle hsize)
    · exact openRegion_eq h hpos hle hsize _

omit hwithin in
theorem closes_eq (hdepth : depth < s.modes.length) :
    closes task depth span s = some (s.closes task depth span) := by
  have hbuffer : s.draft.bufferStart ≤ span.start := Nat.le_trans h.layered.buffer_le hpos
  have hlength : s.modes.length = s.regions.length := List.length_map _
  have hinner : ∀ m ∈ s.modes.drop depth, m < task.grammar.modes.size :=
    fun m hm => h.modes_lt m (List.mem_of_mem_drop hm)
  have hcount : depth + State.closedWith task.grammar (s.modes.drop depth) ≤ s.regions.length := by
    have hclosed := closedWith_le task.grammar (s.modes.drop depth)
    rw [List.length_drop] at hclosed
    omega
  have hclosed : ∀ count, (s.modes.take count).mapM (task.grammar.modes[·]?) =
      some ((s.modes.take count).map task.grammar.mode) := fun count =>
    mapM_eq_some_map fun m hm => Grammar.mode?_eq (h.modes_lt m (List.mem_of_mem_take hm))
  simp only [closes, closedWith_eq hinner, hclosed, Option.bind_eq_bind, Option.bind_some]
  rw [if_pos ⟨hlength ▸ hdepth, hcount⟩, keywordsOf_eq h, closingEdge_eq h.modes_lt,
    Option.bind_some, Option.bind_some,
    addClosings_eq hbuffer hle hsize (Scan.closingEdge_eq _ _ _)]
  rfl

omit hwithin in
theorem meetsIllegal_eq : meetsIllegal task span s = some (s.meetsIllegal task span) := by
  have hbuffer : s.draft.bufferStart ≤ span.start := Nat.le_trans h.layered.buffer_le hpos
  rw [meetsIllegal, State.meetsIllegal, Source.extract?_eq hle hsize, Option.bind_eq_bind,
    Option.bind_some]
  cases hregions : s.regions with
  | nil =>
    simp only
    rw [addPassed_eq hbuffer hle hsize]
    rfl
  | cons r outer =>
    have hopener : r.entry.opener < s.cache.size := by
      rw [h.cache]
      exact (h.numbered r.entry (by simp [State.core, hregions])).2
    simp only
    rw [store_eq hopener]
    rfl

end Step

/-- **In bounds, a step has every access in range.** -/
theorem handle_eq (h : s.InBounds task) (hwithin : task.grammar.SearchesWithin task.source)
    (hin : task.grammar.InOrder) (hf : f.InBounds task s) :
    handle task f s = some (s.handle task f) := by
  have hleft := h.leaveTrail f.span
  have hpos : (s.leaveTrail f.span).pos = s.pos :=
    congrArg Core.pos (core_leaveTrail f.span s)
  have hmodes : (s.leaveTrail f.span).modes = s.modes := by
    rw [← modes_core, core_leaveTrail, modes_core]
  have hahead : (s.leaveTrail f.span).pos ≤ f.span.start := hpos ▸ hf.ahead
  rw [handle, State.handle]
  cases hcandidate : f.candidate with
  | opens index =>
    exact opens_eq hleft hwithin hin hahead hf.le hf.stop_le (hf.opens index hcandidate)
  | closes depth =>
    exact closes_eq hleft hahead hf.le hf.stop_le (hmodes ▸ hf.closes depth hcandidate)
  | illegal => exact meetsIllegal_eq hleft hahead hf.le hf.stop_le

/-- **In bounds, a run has every access in range**, and ends in bounds. -/
theorem runFor_eq (h : s.InBounds task) (hwithin : task.grammar.SearchesWithin task.source)
    (hin : task.grammar.InOrder) (n : Nat) :
    runFor task n s = some (Scan.runFor task n s) ∧ (Scan.runFor task n s).InBounds task := by
  induction n generalizing s with
  | zero => exact ⟨rfl, h⟩
  | succ n ih =>
    have hnext := next?_eq h hwithin hin
    cases hf : (s.next? task).1 with
    | none =>
      rw [runFor_stop hf, runFor, hnext, Option.bind_eq_bind, Option.bind_some,
        show s.next? task = (none, (s.next? task).2) from Prod.ext hf rfl]
      exact ⟨rfl, h.next? hwithin⟩
    | some f =>
      have hfound := h.found hwithin hin hf
      have hhandle := handle_eq (h.next? hwithin) hwithin hin hfound
      rw [runFor_step hf, runFor, hnext, Option.bind_eq_bind, Option.bind_some,
        show s.next? task = (some f, (s.next? task).2) from Prod.ext hf rfl]
      simp only [hhandle]
      exact ih ((h.next? hwithin).handle hwithin hin hfound)

/-! ### The result -/

/-- Where all texts of a log lie within the source, its nodes are cut out of it. -/
theorem nodes_eq {log : EventLog} {source : Source}
    (h : ∀ t ∈ log.texts, t.start ≤ t.stop ∧ t.stop ≤ source.size) :
    nodes log source = some (log.nodes source) := by
  have hfold : ∀ (events : List Event) (f : EventLog.Forest),
      (∀ t ∈ events.filterMap Event.text?, t.start ≤ t.stop ∧ t.stop ≤ source.size) →
      events.foldlM (addEvent source) f =
        some (events.foldl (EventLog.Forest.step source) f) := by
    intro events
    induction events with
    | nil => exact fun f _ => rfl
    | cons e events ih =>
      intro f hall
      have hstep : addEvent source f e = some (f.step source e) := by
        cases e with
        | opened scope => rfl
        | closed => rfl
        | text t =>
          obtain ⟨hle, hsize⟩ := hall t (by simp [Event.text?])
          rw [addEvent, Source.extract?_eq hle hsize]
          rfl
      rw [List.foldlM_cons, hstep]
      exact ih _ fun t ht => hall t (by
        rw [List.filterMap_cons]
        split
        · exact ht
        · exact List.mem_cons_of_mem _ ht)
  rw [nodes, hfold _ _ h, EventLog.nodes, Array.foldl_toList]
  rfl

theorem closeScopes_eq {g : Grammar} {modes : List Nat} (hmodes : ∀ m ∈ modes, m < g.modes.size)
    (d : Draft) :
    closeScopes g modes d = some (modes.foldl (fun d m => d.closeScope (g.mode m).scope) d) := by
  induction modes generalizing d with
  | nil => rfl
  | cons m modes ih =>
    obtain ⟨hm, hmodes⟩ := List.forall_mem_cons.mp hmodes
    rw [closeScopes, Grammar.mode?_eq hm]
    exact ih hmodes _

theorem result_eq (h : s.InBounds task) : result task s = some (Scan.result task s) := by
  have hbuffer : s.draft.bufferStart ≤ task.source.size :=
    Nat.le_trans h.layered.buffer_le h.within
  have htiles : s.draft.TiledTo s.draft.bufferStart := h.tiled.tiles
  have hflush : (s.draft.flush task.source (s.keywords task.grammar) task.source.size).TiledTo
      task.source.size := htiles.flush hbuffer (Nat.le_refl _)
  have htiled := hflush.closeScopes task.grammar s.modes
  have hnodes := nodes_eq fun t ht =>
    (Tiles.within htiled ht).2.imp_left Nat.le_of_lt
  simp only [result, keywordsOf_eq h, flush_eq hbuffer (Nat.le_refl _), closeScopes_eq h.modes_lt,
    Option.bind_eq_bind, Option.bind_some]
  rw [hnodes]
  rfl

end Checked

/-! ### Whatever a scan gets to -/

/-- The offsets that a state holds: where it is, where its buffer starts, where the regions were
opened and their buffers started, and where the texts that are recorded start and stop. -/
def State.offsets (s : State) : List Nat :=
  s.pos :: s.draft.bufferStart ::
    (s.regions.flatMap fun r => [r.entry.start, r.entry.checkpoint.bufferStart]) ++
      s.draft.events.texts.flatMap fun t => [t.start, t.stop]

theorem State.InBounds.le_of_mem_offsets (h : s.InBounds task) {p : Nat} (hp : p ∈ s.offsets) :
    p ≤ task.source.size := by
  have hbuffer : s.draft.bufferStart ≤ s.pos := h.layered.buffer_le
  have hpos := h.within
  simp only [State.offsets, List.cons_append, List.mem_cons, List.mem_append, List.mem_flatMap,
    List.not_mem_nil, or_false] at hp
  rcases hp with rfl | rfl | ⟨r, hr, hp⟩ | ⟨t, ht, hp⟩
  · exact hpos
  · exact Nat.le_trans hbuffer hpos
  · have he : r.entry ∈ s.core.entries := List.mem_map_of_mem hr
    have hstart : r.entry.start ≤ s.pos := (h.layered.behind r.entry he).1
    have hbuffered := h.layered.buffered r.entry he
    omega
  · obtain ⟨-, hlt, hstop⟩ := Tiles.within h.tiled.tiles ht
    have hlast : t.stop ≤ s.pos := Nat.le_trans hstop hbuffer
    omega

theorem Ran.inBounds {ms : List Move} {t : State} (hran : Ran task (State.start task.grammar) ms t)
    (hwithin : task.grammar.SearchesWithin task.source) (hin : task.grammar.InOrder) :
    t.InBounds task :=
  hran.inv (fun _ _ hs hf => (hs.next? hwithin).handle hwithin hin (hs.found hwithin hin hf))
    (inBounds_start task)

/-- **A scan stays in bounds**, where a builder has accepted the grammar and its searches keep
within the text.  At every state that it gets to, the buffer starts no later than the position and
that of a region no later than the region; all offsets fall between two characters; what is
recorded lies side by side up to where the buffer starts; and what comes next has every access in
range, as has the step that takes it.  So no access goes astray from the start of the text to the
nodes of the result.

Offsets are in the order of the bytes in front of them. -/
theorem scan_stays_in_bounds {b : Builder} {language : LanguageDecl} {g : Grammar}
    (hg : b.finish language = .ok g) (text : String) (options : Options)
    (hwithin : g.SearchesWithin (Source.ofString text)) :
    let source := Source.ofString text
    let task := Scan.task g source options
    (∀ ms s, Ran task (State.start g) ms s →
      s.draft.bufferStart ≤ s.pos ∧ s.pos ≤ source.size ∧
        (∀ r ∈ s.regions,
          r.entry.checkpoint.bufferStart ≤ r.entry.start ∧ r.entry.start ≤ s.pos) ∧
        (∀ p ∈ s.offsets, Source.IsBoundary text p) ∧
        Tiles 0 s.draft.events.texts s.draft.bufferStart ∧
        Checked.next? task s = some (s.next? task) ∧
        ∀ f, (s.next? task).1 = some f →
          Checked.handle task f (s.next? task).2 = some ((s.next? task).2.handle task f)) ∧
      Checked.highlight g text options = some (g.highlight text options) ∧
      StrictMonoOn source.byteOffset (Set.Iic source.size) ∧
      source.byteOffset source.size = text.utf8ByteSize := by
  intro source task
  have hin := Builder.inOrder_of_finish hg
  refine ⟨fun ms s hran => ?_, ?_, Source.strictMonoOn_byteOffset source,
    Source.byteOffset_size text⟩
  · have h : s.InBounds task := hran.inBounds hwithin hin
    refine ⟨h.layered.buffer_le, h.within, fun r hr => ?_,
      fun p hp => Source.isBoundary_of_le (h.le_of_mem_offsets hp), h.tiled.tiles,
      Checked.next?_eq h hwithin hin, fun f hf => ?_⟩
    · have he : r.entry ∈ s.core.entries := List.mem_map_of_mem hr
      exact ⟨h.layered.buffered r.entry he, (h.layered.behind r.entry he).1⟩
    · exact Checked.handle_eq (h.next? hwithin) hwithin hin (h.found hwithin hin hf)
  · have hstart : (State.start g).InBounds task := inBounds_start task
    obtain ⟨hrun, hend⟩ := Checked.runFor_eq hstart hwithin hin (stepBound g task.source.size)
    show (Checked.runFor task (stepBound g task.source.size) (State.start g)).bind
      (Checked.result task) = _
    rw [hrun, Option.bind_some, Checked.result_eq hend]
    rfl

/-- A string that the end of the line takes back, with a character of two bytes in it. -/
theorem scan_of_quotes_stays_in_bounds :
    let text := "'é\n'b'"
    let task := Scan.task Quotes.grammar (Source.ofString text) ⟨false⟩
    let s := State.start Quotes.grammar
    let f : Found := ⟨⟨0, 1⟩, .opens 0⟩
    let t := (s.move task f).next task
    (Quotes.builder.finish Quotes.language = .ok Quotes.grammar ∧
      Quotes.grammar.SearchesWithin (Source.ofString text)) ∧
      Ran task s [s.move task f] t ∧ t.modes ≠ [] ∧ t.draft.bufferStart ≤ t.pos ∧
      Checked.highlight Quotes.grammar text ⟨false⟩ =
        some (Quotes.grammar.highlight text ⟨false⟩) := by
  intro text task s f t
  have hran : Ran task s [s.move task f] t := .move .refl (by decide +kernel)
  have hwithin := (Quotes.isReliable (Source.ofString text)).searchesWithin
  obtain ⟨hall, hresult, -⟩ :=
    scan_stays_in_bounds Quotes.finish_builder text ⟨false⟩ hwithin
  exact ⟨⟨Quotes.finish_builder, hwithin⟩, hran, by decide +kernel, (hall _ t hran).1, hresult⟩

end Highlighting.Scan
