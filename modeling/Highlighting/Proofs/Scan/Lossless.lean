/-
  Highlighting/Proofs/Scan/Lossless.lean
  ======================================
  **No text is lost.**

  What a draft has recorded is the text up to where its buffer starts, and the
  buffer reaches up to the position of the scan (`Draft.Covers`).  Every
  operation that records something keeps this; taking a region back restores a
  draft of which it was true when the region was opened.

  So, when the rest of the buffer is recorded at the end, all of the text is
  (`Grammar.text_highlight`).
-/
import Highlighting.Proofs.Scan.Cache
import Highlighting.Proofs.Regex.Bounds
import Highlighting.Proofs.Tree
import Highlighting.Registry

namespace Highlighting

namespace Scan

variable {task : Task} {source : Source} {keywords : Option KeywordTable} {d e : Draft}
  {pos stop : Nat} {span : Span} {m : Mode} {c : Core} {f : Found}

/-! ### What is recorded -/

namespace Draft

def text (source : Source) (d : Draft) : String := d.events.text source

theorem text_addText (source : Source) (d : Draft) (span : Span) :
    (d.addText span).text source = d.text source ++ source.slice span :=
  EventLog.text_addText source d.events span

theorem text_addKeyword (d : Draft) (last : Nat) (span : Span) (c : KeywordClass) (w : Word) :
    (d.addKeyword last span c w).text source =
      d.text source ++ source.slice ⟨last, span.start⟩ ++ source.slice span := by
  have hhit : ∀ d : Draft, (d.hit w).text source = d.text source := fun d => rfl
  have hopen : ∀ d : Draft, (d.openScope (some c.scope)).text source = d.text source :=
    fun d => EventLog.text_openScope source d.events (some c.scope)
  have hclose : ∀ d : Draft, (d.closeScope (some c.scope)).text source = d.text source :=
    fun d => EventLog.text_closeScope source d.events (some c.scope)
  rw [addKeyword, hhit, hclose, text_addText, hopen, text_addText]

/-- Keywords are recorded with all of the text in front of them. -/
theorem text_addLexemes (source : Source) (table : KeywordTable) (base : Nat) {size : Nat}
    {ls : List Span} {p last : Nat} (hls : Matcher.Ascending size p ls) (hp : p ≤ size)
    (hlast : last ≤ base + p) (d : Draft) :
    let r := addLexemes source table base ls last d
    last ≤ r.1 ∧ r.1 ≤ base + size ∧
      r.2.text source = d.text source ++ source.slice ⟨last, r.1⟩ := by
  induction ls generalizing p last d with
  | nil =>
    refine ⟨Nat.le_refl _, by show last ≤ base + size; omega, ?_⟩
    simp [addLexemes, Source.slice, Source.chars]
  | cons l ls ih =>
    obtain ⟨h1, h2, h3, hrest⟩ := hls
    simp only [addLexemes]
    split
    · exact ih hrest h3 (by omega) d
    · next c _ =>
      have hstart : last ≤ base + l.start := by omega
      have hstop : base + l.start ≤ base + l.stop := by omega
      obtain ⟨i1, i2, i3⟩ := ih hrest h3 (Nat.le_refl (base + l.stop))
        (d.addKeyword last ⟨base + l.start, base + l.stop⟩ c
          (source.chars ⟨base + l.start, base + l.stop⟩))
      refine ⟨Nat.le_trans hstart (Nat.le_trans hstop i1), i2, ?_⟩
      rw [i3, text_addKeyword, String.append_assoc, String.append_assoc,
        source.slice_append hstop i1, source.slice_append hstart (Nat.le_trans hstop i1)]

theorem bufferStart_classify (d : Draft) :
    (d.classify source keywords span).bufferStart = d.bufferStart := by
  have hlexemes : ∀ table ls last (d : Draft),
      (addLexemes source table span.start ls last d).2.bufferStart = d.bufferStart := by
    intro table ls
    induction ls with
    | nil => intro last d; rfl
    | cons l ls ih =>
      intro last d
      simp only [addLexemes]
      split
      · exact ih last d
      · exact ih _ _
  simp only [classify]
  split
  · rfl
  · cases keywords with
    | none => rfl
    | some table => exact hlexemes table _ _ d

/-- **A stretch with its keywords is recorded as that stretch of text.** -/
theorem text_classify (keywords : Option KeywordTable) (hle : span.start ≤ span.stop)
    (hsize : span.stop ≤ source.size) (d : Draft) :
    (d.classify source keywords span).text source = d.text source ++ source.slice span := by
  simp only [classify]
  split
  · next hempty =>
    have hle' : span.stop ≤ span.start := by simpa [Span.isEmpty] using hempty
    simp [Source.slice, Source.chars, Array.extract_empty_of_stop_le_start hle']
  · cases keywords with
    | none => exact text_addText source d span
    | some table =>
      have hpart : (source.extract span.start span.stop).size = span.stop - span.start := by
        simp only [Array.size_extract]
        omega
      obtain ⟨h1, h2, h3⟩ := text_addLexemes source table span.start
        (table.lexeme.ascending_findAll (source.extract span.start span.stop))
        (Nat.zero_le _) (Nat.le_refl span.start) d
      rw [hpart] at h2
      simp only [text_addText, h3]
      rw [String.append_assoc, source.slice_append h1 (by omega)]

/-- What is recorded is the text up to the buffer, which reaches up to the position. -/
structure Covers (source : Source) (pos : Nat) (d : Draft) : Prop where
  text : d.text source = source.slice ⟨0, d.bufferStart⟩
  le : d.bufferStart ≤ pos

theorem covers_empty : Covers source 0 .empty :=
  ⟨by simp [Draft.text, Draft.empty, EventLog.text, Source.slice, Source.chars], Nat.le_refl 0⟩

theorem Covers.mono (h : d.Covers source pos) (hle : pos ≤ stop) : d.Covers source stop :=
  ⟨h.text, Nat.le_trans h.le hle⟩

theorem Covers.alike (h : d.Covers source pos) (halike : d.Alike e) : e.Covers source pos :=
  ⟨by rw [Draft.text, ← halike.events, ← halike.bufferStart]; exact h.text,
    halike.bufferStart ▸ h.le⟩

/-- What opens and closes scopes, and adds relevance, leaves the text as it is. -/
theorem Covers.of_text_eq (h : d.Covers source pos) (htext : e.text source = d.text source)
    (hbuffer : e.bufferStart = d.bufferStart) : e.Covers source pos :=
  ⟨by rw [htext, hbuffer]; exact h.text, by rw [hbuffer]; exact h.le⟩

theorem Covers.openScope (h : d.Covers source pos) (scope : Option Scope) :
    (d.openScope scope).Covers source pos :=
  h.of_text_eq (EventLog.text_openScope source d.events scope) rfl

theorem Covers.closeScope (h : d.Covers source pos) (scope : Option Scope) :
    (d.closeScope scope).Covers source pos :=
  h.of_text_eq (EventLog.text_closeScope source d.events scope) rfl

/-- **Flushing records all of the buffer.** -/
theorem Covers.flush (h : d.Covers source pos) (keywords : Option KeywordTable)
    (hpos : pos ≤ stop) (hsize : stop ≤ source.size) :
    (d.flush source keywords stop).Covers source stop := by
  have hle : d.bufferStart ≤ stop := Nat.le_trans h.le hpos
  have hbuffer : (d.flush source keywords stop).bufferStart = stop := bufferStart_classify _
  refine ⟨?_, Nat.le_of_eq hbuffer⟩
  rw [hbuffer, Draft.flush, text_classify keywords hle hsize,
    ← source.slice_append (Nat.zero_le _) hle]
  exact congrArg (· ++ source.slice ⟨d.bufferStart, stop⟩) h.text

theorem bufferStart_flush (source : Source) (keywords : Option KeywordTable) (stop : Nat)
    (d : Draft) : (d.flush source keywords stop).bufferStart = stop :=
  bufferStart_classify _

/-- A stretch that is recorded right behind the rest moves the start of the buffer. -/
theorem Covers.setBuffer (h : d.Covers source pos) {start : Nat} (hstart : d.bufferStart = start)
    (hle : start ≤ stop) (htext : e.text source = d.text source ++ source.slice ⟨start, stop⟩) :
    ({ e with bufferStart := stop } : Draft).Covers source stop := by
  refine ⟨?_, Nat.le_refl _⟩
  show e.text source = source.slice ⟨0, stop⟩
  rw [htext, h.text, hstart]
  exact source.slice_append (Nat.zero_le _) hle

theorem passedAt_within (hle : span.start ≤ span.stop) (hsize : span.stop ≤ source.size) :
    span.start ≤ passedAt source span ∧ passedAt source span ≤ source.size := by
  rw [passedAt]
  split
  · omega
  · exact ⟨hle, hsize⟩

section Span

variable (hpos : pos ≤ span.start) (hle : span.start ≤ span.stop)
  (hsize : span.stop ≤ source.size)
include hpos hle hsize

theorem Covers.addWhole (h : d.Covers source pos) :
    (d.addWhole source keywords m span).Covers source span.stop := by
  simp only [Draft.addWhole]
  split
  · exact (h.flush keywords (Nat.le_trans hpos hle) hsize).of_text_eq rfl rfl
  · have hflush := (h.flush keywords hpos (Nat.le_trans hle hsize)).openScope m.scope
    have hbuffer := bufferStart_flush source keywords span.start d
    refine (hflush.setBuffer hbuffer hle ?_).of_text_eq rfl rfl
    rw [← text_classify m.content.keywords hle hsize]
    exact EventLog.text_closeScope source _ m.scope

theorem Covers.openRegion (h : d.Covers source pos) :
    (d.openRegion source keywords m span).Covers source span.stop := by
  rw [Draft.openRegion]
  split
  · exact (h.flush keywords (Nat.le_trans hpos hle) hsize).openScope m.scope
  · exact ((h.flush keywords hpos (Nat.le_trans hle hsize)).mono hle).openScope m.scope

theorem Covers.closeRegions (h : d.Covers source pos) {edge : Nat}
    (hedge : edge = span.start ∨ edge = span.stop) (closed : List Mode) :
    (d.closeRegions source keywords edge closed).Covers source span.stop := by
  have hflush : (d.flush source keywords edge).Covers source span.stop := by
    rcases hedge with rfl | rfl
    · exact (h.flush keywords hpos (Nat.le_trans hle hsize)).mono hle
    · exact h.flush keywords (Nat.le_trans hpos hle) hsize
  rw [Draft.closeRegions]
  generalize d.flush source keywords edge = d' at hflush
  induction closed generalizing d' with
  | nil => exact hflush
  | cons m closed ih => exact ih _ ((hflush.closeScope m.scope).of_text_eq rfl rfl)

theorem Covers.passOver (h : d.Covers source pos) :
    (d.passOver source keywords span).Covers source (passedAt source span) := by
  obtain ⟨hstart, -⟩ := passedAt_within hle hsize
  have hill : ({ d with illegal := true } : Draft).Covers source pos := h.of_text_eq rfl rfl
  have hflush := hill.flush keywords hpos (Nat.le_trans hle hsize)
  have hbuffer := bufferStart_flush source keywords span.start { d with illegal := true }
  have htext := text_addText source
    ({ d with illegal := true }.flush source keywords span.start)
    ⟨span.start, passedAt source span⟩
  exact hflush.setBuffer hbuffer hstart htext

end Span

end Draft

/-! ### What a scan keeps -/

/-- Nothing is lost: all text up to the position is recorded or waits in the buffer, and it was
so wherever a region was opened. -/
structure Core.Lossless (source : Source) (c : Core) : Prop where
  grounded : c.Grounded fun e u => u.draft.Covers source e.start ∧ e.start ≤ source.size
  covers : c.draft.Covers source c.pos
  le : c.pos ≤ source.size

theorem lossless_start (g : Grammar) (source : Source) :
    (State.start g).core.Lossless source :=
  ⟨⟨Draft.counted_empty, trivial⟩, Draft.covers_empty, Nat.zero_le _⟩

theorem closingEdge_eq (g : Grammar) (modes : List Nat) (span : Span) :
    State.closingEdge g modes span = span.start ∨ State.closingEdge g modes span = span.stop := by
  cases modes with
  | nil => exact .inr rfl
  | cons m outer =>
    rw [State.closingEdge]
    split
    · exact .inl rfl
    · exact .inr rfl

/-- **Taking a match loses nothing.** -/
theorem Core.Lossless.take (h : c.Lossless task.source) (hpos : c.pos ≤ f.span.start)
    (hle : f.span.start ≤ f.span.stop) (hsize : f.span.stop ≤ task.source.size) :
    (c.take task f).Lossless task.source := by
  have hgrounded : (c.take task f).Grounded _ := h.grounded.take fun index _ _ =>
    ⟨h.covers.mono hpos, Nat.le_trans hle hsize⟩
  have hcovers : (c.take task f).draft.Covers task.source (c.take task f).pos ∧
      (c.take task f).pos ≤ task.source.size := by
    rw [Core.take]
    split
    · split
      · exact ⟨h.covers.addWhole hpos hle hsize, hsize⟩
      · exact ⟨h.covers.openRegion hpos hle hsize, hsize⟩
    · exact ⟨h.covers.closeRegions hpos hle hsize (closingEdge_eq _ _ _) _, hsize⟩
    · split
      · exact ⟨h.covers.passOver hpos hle hsize, (Draft.passedAt_within hle hsize).2⟩
      · next e outer hcons =>
        -- the text was covered in the core that the region goes back to
        obtain ⟨u, ⟨hu, hstart⟩, -, -, halike, -⟩ :=
          (hcons ▸ h.grounded.opened).restore h.grounded.counted
        exact ⟨hu.alike halike.symm, hstart⟩
  exact ⟨hgrounded, hcovers.1, hcovers.2⟩

theorem Core.Lossless.bar (h : c.Lossless source) (b : Bar) : (c.bar b).Lossless source :=
  ⟨⟨h.grounded.counted, h.grounded.opened⟩, h.covers, h.le⟩

/-- **A scan loses nothing**, as long as matches lie within the text. -/
theorem lossless_runFor (task : Task) (hwithin : task.grammar.SearchesWithin task.source)
    {s : State}
    (hcache : CacheAdmits task s.barred s.cache) (hs : s.core.Lossless task.source) (n : Nat) :
    (runFor task n s).core.Lossless task.source := by
  have hrun : CacheAdmits task (runFor task n s).barred (runFor task n s).cache ∧
      (runFor task n s).core.Lossless task.source := by
    refine runFor_inv (P := fun s => CacheAdmits task s.barred s.cache ∧
      s.core.Lossless task.source) ?_ ?_ n ⟨hcache, hs⟩
    · intro s hs
      exact ⟨cacheAdmits_next? hwithin hs.1, hs.2⟩
    · intro s f hs hf
      obtain ⟨hpos, index, -, hle, hsize, -⟩ := next?_admitted hwithin hs.1 hf
      refine ⟨cacheAdmits_handle (s := (s.next? task).2) hwithin
        (cacheAdmits_next? hwithin hs.1) f, ?_⟩
      have hturn := core_turn task (s.next? task).2 f
      generalize ((s.next? task).2.handle task f).core = c at hturn
      cases hturn with
      | taken => exact hs.2.take hpos hle hsize
      | barred => exact hs.2.bar _
  exact hrun.2

theorem text_closeScopes (source : Source) (g : Grammar) (modes : List Nat) (d : Draft) :
    (modes.foldl (fun d m => d.closeScope (g.mode m).scope) d).text source = d.text source := by
  induction modes generalizing d with
  | nil => rfl
  | cons m modes ih =>
    rw [List.foldl_cons, ih]
    exact EventLog.text_closeScope source d.events _

/-- The result of a scan that has lost nothing has all of the text. -/
theorem text_result {s : State} (h : s.core.Lossless task.source) :
    (result task s).text = task.source.slice ⟨0, task.source.size⟩ := by
  have hflush : (s.draft.flush task.source (s.keywords task.grammar) task.source.size).Covers
      task.source task.source.size := h.covers.flush _ h.le (Nat.le_refl _)
  calc (result task s).text
      = (s.modes.foldl (fun d m => d.closeScope (task.grammar.mode m).scope)
          (s.draft.flush task.source (s.keywords task.grammar) task.source.size)).text
            task.source := EventLog.contents_nodes _ task.source
    _ = (s.draft.flush task.source (s.keywords task.grammar) task.source.size).text
          task.source := text_closeScopes task.source task.grammar s.modes _
    _ = task.source.slice ⟨0, task.source.size⟩ := by
      rw [hflush.text, Draft.bufferStart_flush]

end Scan

/-- Whatever way it is read, the highlighted text is the text. -/
structure Highlighted.Renders (source : String) (h : Highlighted) : Prop where
  text : h.text = source
  tokens : String.join (h.tokens.map (·.text)) = source
  leaves : String.join (h.leaves.map (·.text)) = source

theorem Highlighted.renders_of_text_eq {h : Highlighted} {source : String}
    (heq : h.text = source) : h.Renders source :=
  ⟨heq, h.join_tokens.trans heq, h.join_leaves.trans heq⟩

theorem Highlighted.renders_plaintext (source : String) : (plaintext source).Renders source := by
  refine renders_of_text_eq ?_
  simp only [plaintext, Highlighted.text]
  split
  · next hempty => simp_all [Node.contents]
  · simp [Node.contents, Node.content]

/-- **No text is lost**, whatever the grammar, as long as its matches lie within the text. -/
theorem Grammar.renders_highlight (g : Grammar) (text : String) (options : Scan.Options)
    (hwithin : g.SearchesWithin (Source.ofString text)) :
    (g.highlight text options).Renders text := by
  refine Highlighted.renders_of_text_eq ?_
  have hlossless := Scan.lossless_runFor (Scan.task g (Source.ofString text) options) hwithin
    (Scan.Cache.All.replicate g.terminals.size) (Scan.lossless_start g (Source.ofString text))
    (Scan.stepBound g (Source.ofString text).size)
  exact (Scan.text_result hlossless).trans (Source.slice_ofString text)

/-! ### Detection -/

namespace Registry

theorem mem_enterRanked {h k : Highlighted} {hs : List Highlighted}
    (hk : k ∈ enterRanked h hs) : k = h ∨ k ∈ hs := by
  induction hs with
  | nil => exact .inl (List.mem_singleton.mp hk)
  | cons other rest ih =>
    rw [enterRanked] at hk
    split at hk
    · rcases List.mem_cons.mp hk with rfl | hk
      · exact .inr (by simp)
      · rcases ih hk with rfl | hk
        · exact .inl rfl
        · exact .inr (by simp [hk])
    · exact List.mem_cons.mp hk

theorem mem_of_mem_ranked {k : Highlighted} {hs : List Highlighted} (hk : k ∈ ranked hs) :
    k ∈ hs := by
  induction hs with
  | nil => cases hk
  | cons h hs ih =>
    rcases mem_enterRanked hk with rfl | hk
    · simp
    · exact List.mem_cons_of_mem _ (ih hk)

/-- What is true of plain text and of the results of all languages is true of those that are
detected. -/
theorem detect_inv {P : Highlighted → Prop} (r : Registry) (text : String)
    (hplain : P (.plaintext text))
    (hlanguage : ∀ g ∈ r.grammars, P (g.highlight text r.options)) :
    P (r.detect text).best ∧ ∀ h, (r.detect text).second = some h → P h := by
  have hcandidates : ∀ h ∈ ranked (r.candidates text), P h := by
    intro h hh
    rcases List.mem_cons.mp (mem_of_mem_ranked hh) with rfl | hh
    · exact hplain
    · obtain ⟨g, hg, rfl⟩ := List.mem_map.mp (List.mem_filter.mp hh).1
      exact hlanguage g hg
  rw [detect]
  generalize ranked (r.candidates text) = results at hcandidates
  cases results with
  | nil => exact ⟨hplain, fun h hh => by cases hh⟩
  | cons best rest =>
    refine ⟨hcandidates best (by simp), fun h hh => ?_⟩
    exact hcandidates h (List.mem_cons_of_mem _ (List.mem_of_mem_head? hh))

end Registry

/-- **Highlighting is lossless**: the text, the tokens and the leaves of what any grammar makes
of a text give that text back, and so do the results that are detected, as long as the matches
of patterns lie within the text. -/
theorem highlighting_is_lossless (text : String) :
    (∀ (g : Grammar) (options : Scan.Options), g.SearchesWithin (Source.ofString text) →
      (g.highlight text options).Renders text) ∧
    ∀ r : Registry, (∀ g ∈ r.grammars, g.SearchesWithin (Source.ofString text)) →
      (r.detect text).best.Renders text ∧
        ∀ h, (r.detect text).second = some h → h.Renders text := by
  constructor
  · intro g options hwithin
    exact g.renders_highlight text options hwithin
  · intro r hwithin
    refine r.detect_inv text (Highlighted.renders_plaintext text) ?_
    intro g hg
    exact g.renders_highlight text r.options (hwithin g hg)

theorem highlighting_quotes_is_lossless :
    let registry : Registry := ⟨[Quotes.grammar], ⟨false⟩⟩
    (Quotes.grammar.highlight "'a\n'b'" ⟨false⟩).Renders "'a\n'b'" ∧
      (registry.detect "'a\n'b'").best.Renders "'a\n'b'" := by
  intro registry
  have hwithin : ∀ g ∈ registry.grammars, g.SearchesWithin (Source.ofString "'a\n'b'") := by
    intro g hg
    rw [List.mem_singleton.mp hg]
    exact (Quotes.isReliable _).searchesWithin
  exact ⟨(highlighting_is_lossless "'a\n'b'").1 Quotes.grammar ⟨false⟩
      (Quotes.isReliable _).searchesWithin,
    ((highlighting_is_lossless "'a\n'b'").2 registry hwithin).1⟩

end Highlighting
