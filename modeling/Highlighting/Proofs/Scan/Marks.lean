/-
  Highlighting/Proofs/Scan/Marks.lean
  ===================================
  **What a scan records**, mark by mark.

  A mark is a stretch of text, a keyword, or the edge of a scope together with
  the region that it belongs to.  The event log says less: it tells neither
  keywords from regions nor one region from another, and the hit log has the
  words of the keywords alone.  Both logs are those of one list of marks
  (`Draft.Records`), which the moves that stand have written one after the other
  (`Shown.records`).

  The relevance goes along with it: it is what was declared for the modes
  recorded, and what the hit log is worth (`keywordScore`), where every word
  counts as often as it occurs, up to a limit.
-/
import Mathlib.Algebra.BigOperators.Group.Finset.Basic
import Mathlib.Algebra.GroupWithZero.Nat
import Highlighting.Proofs.Regex.Bounds
import Highlighting.Proofs.Scan.Draft
import Highlighting.Proofs.Scan.Standing

namespace Highlighting.Scan

variable {task : Task} {start s t : State} {m : Move} {ms kept : List Move} {source : Source}
  {keywords : Option KeywordTable} {mode : Mode} {d d' e : Draft} {span : Span} {stop : Nat}

/-! ### What keywords are worth -/

/-- What the words of a hit log say about the language: each of them as often as it occurs, up to
a limit. -/
def keywordScore (log : List Word) : Nat :=
  ∑ w ∈ log.toFinset, (KeywordTable.relevance w).toNat * min Draft.maxHits (log.count w)

/-- One more occurrence counts as long as the limit is not reached. -/
theorem keywordScore_concat (log : List Word) (w : Word) :
    keywordScore (log ++ [w]) = keywordScore log +
      if log.count w < Draft.maxHits then (KeywordTable.relevance w).toNat else 0 := by
  have hwords : (log ++ [w]).toFinset = insert w log.toFinset := by
    ext v
    simp
  -- words that do not occur are worth nothing, so that both sums can be taken over all words
  have hold : keywordScore log = ∑ v ∈ insert w log.toFinset,
      (KeywordTable.relevance v).toNat * min Draft.maxHits (log.count v) := by
    refine Finset.sum_subset (Finset.subset_insert _ _) fun v _ hv => ?_
    rw [List.count_eq_zero.mpr (by simpa using hv), Nat.min_zero, Nat.mul_zero]
  have hmem : w ∈ insert w log.toFinset := Finset.mem_insert_self _ _
  rw [keywordScore, hwords, hold, ← Finset.add_sum_erase _ _ hmem, ← Finset.add_sum_erase _ _ hmem]
  have hothers : ∑ v ∈ (insert w log.toFinset).erase w,
        (KeywordTable.relevance v).toNat * min Draft.maxHits ((log ++ [w]).count v) =
      ∑ v ∈ (insert w log.toFinset).erase w,
        (KeywordTable.relevance v).toNat * min Draft.maxHits (log.count v) := by
    refine Finset.sum_congr rfl fun v hv => ?_
    have hne : w ≠ v := (Finset.ne_of_mem_erase hv).symm
    rw [List.count_append, List.count_singleton, beq_false_of_ne hne, if_neg Bool.false_ne_true,
      Nat.add_zero]
  have hcount : (log ++ [w]).count w = log.count w + 1 := by
    rw [List.count_append, List.count_singleton_self]
  rw [hothers, hcount, Nat.add_right_comm]
  congr 1
  split
  · next hlt =>
    rw [Nat.min_eq_right (Nat.le_of_lt hlt), Nat.min_eq_right hlt, Nat.mul_succ]
  · next hge =>
    rw [Nat.min_eq_left (Nat.not_lt.mp hge), Nat.min_eq_left (by omega), Nat.add_zero]

namespace Draft

/-- The counts are right, and the relevance is so much besides what the hit log is worth. -/
structure Scores (k : Nat) (d : Draft) : Prop where
  counted : d.Counted
  relevance : d.relevance = UInt32.ofNat (k + keywordScore d.hitLog.toList)

theorem scores_empty : Scores 0 empty := ⟨counted_empty, rfl⟩

theorem Scores.alike {k : Nat} (h : d.Scores k) (halike : d.Alike e) : e.Scores k :=
  ⟨halike.counted h.counted, by rw [← halike.relevance, ← halike.hitLog, h.relevance]⟩

theorem ofNat_add_relevance (k : Nat) (r : UInt32) :
    UInt32.ofNat k + r = UInt32.ofNat (k + r.toNat) := by
  rw [UInt32.ofNat_add, UInt32.ofNat_toNat]

theorem Scores.hit {k : Nat} (h : d.Scores k) (w : Word) : (d.hit w).Scores k := by
  refine ⟨h.counted.hit w, ?_⟩
  have hlog : (d.hit w).hitLog.toList = d.hitLog.toList ++ [w] := by simp [Draft.hit]
  rw [hlog, keywordScore_concat, ← h.counted w]
  rcases Nat.lt_or_ge (d.count w) maxHits with hlt | hge
  · rw [if_pos hlt, ← Nat.add_assoc, ← ofNat_add_relevance, ← h.relevance]
    exact if_pos hlt
  · rw [if_neg (Nat.not_lt.mpr hge), Nat.add_zero, ← h.relevance]
    exact if_neg (Nat.not_lt.mpr hge)

theorem Scores.addRelevance {k : Nat} (h : d.Scores k) (r : UInt32) :
    Scores (k + r.toNat) { d with relevance := d.relevance + r } := by
  refine ⟨h.counted, ?_⟩
  show d.relevance + r = UInt32.ofNat (k + r.toNat + keywordScore d.hitLog.toList)
  rw [h.relevance, Nat.add_right_comm, ofNat_add_relevance]

end Draft

/-! ### Marks -/

/-- What is recorded, in the order of the text.  The owner of a scope is the serial number of its
region; a mode that was taken as a whole has none. -/
inductive Mark where
  | text (s : Span)
  | keyword (s : Span) (c : KeywordClass) (w : Word)
  | opened (owner : Option Nat) (scope : Scope)
  | closed (owner : Option Nat)

namespace Mark

def textEvents (s : Span) : List Event := if s.isEmpty then [] else [.text s]

def events : Mark → List Event
  | text s => textEvents s
  | keyword s c _ => .opened c.scope :: (textEvents s ++ [.closed])
  | opened _ scope => [.opened scope]
  | closed _ => [.closed]

def word? : Mark → Option Word
  | keyword _ _ w => some w
  | text _ | opened _ _ | closed _ => none

end Mark

/-- The keywords of a table in a stretch of text, which is looked at alone. -/
def keywordsIn (source : Source) (table : KeywordTable) (span : Span) :
    List (Span × KeywordClass) :=
  (table.lexemes (source.extract span.start span.stop)).filterMap fun l =>
    l.2.map fun c => (⟨span.start + l.1.start, span.start + l.1.stop⟩, c)

/-- The keywords among lexemes of the text from `base` on. -/
def keywordsAmong (source : Source) (table : KeywordTable) (base : Nat) (ls : List Span) :
    List (Span × KeywordClass) :=
  ls.filterMap fun l =>
    (table.classify (source.chars ⟨base + l.start, base + l.stop⟩)).map fun c =>
      (⟨base + l.start, base + l.stop⟩, c)

/-- A lexeme of a stretch is the same word in the text. -/
theorem chars_lexeme (source : Source) (m : Matcher) {span l : Span}
    (hle : span.start ≤ span.stop) (hl : l ∈ m.findAll (source.extract span.start span.stop)) :
    Source.chars (source.extract span.start span.stop) l =
      source.chars ⟨span.start + l.start, span.start + l.stop⟩ := by
  have hsize : (source.extract span.start span.stop).size ≤ span.stop - span.start := by
    rw [Array.size_extract]
    omega
  have hstop := Nat.le_trans ((m.ascending_findAll _).stop_le hl) hsize
  rw [Source.chars, Source.chars, Array.extract_extract, Nat.min_eq_left (by omega)]

theorem keywordsIn_eq (source : Source) (table : KeywordTable) {span : Span}
    (hle : span.start ≤ span.stop) : keywordsIn source table span =
      keywordsAmong source table span.start
        (table.lexeme.findAll (source.extract span.start span.stop)) := by
  rw [keywordsIn, KeywordTable.lexemes, List.filterMap_map, keywordsAmong]
  refine List.filterMap_congr fun l hl => ?_
  simp only [Function.comp, chars_lexeme source table.lexeme hle hl]

/-- Keywords, and the text between them from `last` to `stop`. -/
def withText (source : Source) (stop : Nat) : List (Span × KeywordClass) → Nat → List Mark
  | [], last => [.text ⟨last, stop⟩]
  | (s, c) :: rest, last =>
    .text ⟨last, s.start⟩ :: .keyword s c (source.chars s) :: withText source stop rest s.stop

/-- A stretch of text with its keywords. -/
def stretch (source : Source) (keywords : Option KeywordTable) (span : Span) : List Mark :=
  if span.isEmpty then []
  else match keywords with
    | none => [.text span]
    | some table => withText source span.stop (keywordsIn source table span) span.start

def opening (owner : Option Nat) (scope : Option Scope) : List Mark :=
  scope.toList.map (.opened owner)

def closing (owner : Option Nat) (scope : Option Scope) : List Mark :=
  scope.toList.map fun _ => .closed owner

/-- A mode that is taken as a whole, behind a buffer that starts at `pos`. -/
def wholeMarks (source : Source) (keywords : Option KeywordTable) (mode : Mode) (span : Span)
    (pos : Nat) : List Mark :=
  if mode.excludesBegin then stretch source keywords ⟨pos, span.stop⟩
  else
    stretch source keywords ⟨pos, span.start⟩ ++
      (opening none mode.scope ++
        (stretch source mode.content.keywords span ++ closing none mode.scope))

def closingMarks (g : Grammar) (os : List (Entry × Nat)) : List Mark :=
  os.flatMap fun o => closing (some o.2) (g.mode o.1.mode).scope

namespace Draft

/-! ### Recording marks -/

/-- The second draft is the first one with these marks, and with so much relevance declared. -/
structure Records (marks : List Mark) (k : Nat) (d e : Draft) : Prop where
  events : e.events.toList = d.events.toList ++ marks.flatMap Mark.events
  hitLog : e.hitLog.toList = d.hitLog.toList ++ marks.filterMap Mark.word?
  scores : ∀ j, d.Scores j → e.Scores (j + k)

namespace Records

variable {marks marks' : List Mark} {k k' : Nat}

theorem refl (d : Draft) : Records [] 0 d d := ⟨by simp, by simp, fun _ h => h⟩

theorem trans (h : Records marks k d d') (h' : Records marks' k' d' e) :
    Records (marks ++ marks') (k + k') d e := by
  refine ⟨?_, ?_, fun j hj => ?_⟩
  · rw [h'.events, h.events, List.flatMap_append, List.append_assoc]
  · rw [h'.hitLog, h.hitLog, List.filterMap_append, List.append_assoc]
  · rw [← Nat.add_assoc]
    exact h'.scores _ (h.scores j hj)

theorem alike_right (h : Records marks k d e) {e' : Draft} (halike : e.Alike e') :
    Records marks k d e' :=
  ⟨halike.events ▸ h.events, halike.hitLog ▸ h.hitLog, fun j hj => (h.scores j hj).alike halike⟩

theorem setBuffer (h : Records marks k d e) (n : Nat) :
    Records marks k d { e with bufferStart := n } :=
  ⟨h.events, h.hitLog, fun j hj => ⟨(h.scores j hj).counted, (h.scores j hj).relevance⟩⟩

theorem setIllegal (h : Records marks k d e) : Records marks k d { e with illegal := true } :=
  ⟨h.events, h.hitLog, fun j hj => ⟨(h.scores j hj).counted, (h.scores j hj).relevance⟩⟩

theorem addRelevance (h : Records marks k d e) (r : UInt32) :
    Records marks (k + r.toNat) d { e with relevance := e.relevance + r } := by
  refine ⟨h.events, h.hitLog, fun j hj => ?_⟩
  rw [← Nat.add_assoc]
  exact (h.scores j hj).addRelevance r

theorem push (h : Records marks k d e) {mark : Mark} {events : EventLog}
    (hevents : events.toList = e.events.toList ++ mark.events) (hword : mark.word? = none) :
    Records (marks ++ [mark]) k d { e with events } := by
  refine ⟨?_, ?_, fun j hj => ⟨(h.scores j hj).counted, (h.scores j hj).relevance⟩⟩
  · rw [hevents, h.events, List.flatMap_append, List.flatMap_singleton, List.append_assoc]
  · rw [List.filterMap_append, List.filterMap_cons_none hword, List.filterMap_nil, List.append_nil]
    exact h.hitLog

theorem toList_addText (log : EventLog) (span : Span) :
    (log.addText span).toList = log.toList ++ Mark.textEvents span := by
  rw [EventLog.addText, Mark.textEvents]
  split <;> simp

theorem addText (h : Records marks k d e) (span : Span) :
    Records (marks ++ [.text span]) k d (e.addText span) :=
  h.push (toList_addText e.events span) rfl

theorem openScope (h : Records marks k d e) (owner : Option Nat) (scope : Option Scope) :
    Records (marks ++ opening owner scope) k d (e.openScope scope) := by
  cases scope with
  | none =>
    rw [opening, Option.toList_none, List.map_nil, List.append_nil]
    exact h
  | some scope => exact h.push (by simp [EventLog.openScope, Mark.events]) rfl

theorem closeScope (h : Records marks k d e) (owner : Option Nat) (scope : Option Scope) :
    Records (marks ++ closing owner scope) k d (e.closeScope scope) := by
  cases scope with
  | none =>
    rw [closing, Option.toList_none, List.map_nil, List.append_nil]
    exact h
  | some scope => exact h.push (by simp [EventLog.closeScope, Mark.events]) rfl

theorem addKeyword (h : Records marks k d e) (last : Nat) (span : Span) (c : KeywordClass)
    (w : Word) :
    Records (marks ++ [.text ⟨last, span.start⟩, .keyword span c w]) k d
      (e.addKeyword last span c w) := by
  have hevents : (e.addKeyword last span c w).events.toList =
      e.events.toList ++ Mark.textEvents ⟨last, span.start⟩ ++
        (Mark.keyword span c w).events := by
    simp [Draft.addKeyword, Draft.addText, Draft.openScope, Draft.closeScope, Draft.hit,
      EventLog.openScope, EventLog.closeScope, toList_addText, Mark.events]
  have hhitLog : (e.addKeyword last span c w).hitLog.toList = e.hitLog.toList ++ [w] := by
    simp [Draft.addKeyword, Draft.addText, Draft.openScope, Draft.closeScope, Draft.hit]
  refine ⟨?_, ?_, fun j hj => ?_⟩
  · rw [hevents, h.events]
    simp [Mark.events]
  · rw [hhitLog, h.hitLog]
    simp only [List.filterMap_append, List.filterMap_cons, List.filterMap_nil, Mark.word?,
      List.append_assoc]
  · -- the events have no say in the score, so that only the hit itself counts
    have hscores : (((e.addText ⟨last, span.start⟩).openScope (some c.scope)).addText span
        |>.closeScope (some c.scope)).Scores (j + k) :=
      ⟨(h.scores j hj).counted, (h.scores j hj).relevance⟩
    exact hscores.hit w

theorem addLexemes (h : Records marks k d e) (table : KeywordTable) (base stop : Nat)
    (ls : List Span) (last : Nat) :
    Records (marks ++ withText source stop (keywordsAmong source table base ls) last) k d
      ((Draft.addLexemes source table base ls last e).2.addText
        ⟨(Draft.addLexemes source table base ls last e).1, stop⟩) := by
  induction ls generalizing marks e last with
  | nil => exact h.addText ⟨last, stop⟩
  | cons l ls ih =>
    simp only [Draft.addLexemes, keywordsAmong, List.filterMap_cons]
    cases hc : table.classify (source.chars ⟨base + l.start, base + l.stop⟩) with
    | none => exact ih h last
    | some c =>
      have hrest := ih (h.addKeyword last ⟨base + l.start, base + l.stop⟩ c
        (source.chars ⟨base + l.start, base + l.stop⟩)) (base + l.stop)
      rw [List.append_assoc] at hrest
      exact hrest

/-- **A stretch is recorded with its keywords.** -/
theorem classify (h : Records marks k d e) (source : Source) (keywords : Option KeywordTable)
    (span : Span) :
    Records (marks ++ stretch source keywords span) k d (e.classify source keywords span) := by
  simp only [Draft.classify, stretch]
  split
  · rw [List.append_nil]
    exact h
  · next hempty =>
    have hlt : span.start < span.stop := by simpa [Span.isEmpty] using hempty
    cases keywords with
    | none => exact h.addText span
    | some table =>
      simp only [keywordsIn_eq source table (Nat.le_of_lt hlt)]
      exact h.addLexemes table span.start span.stop _ span.start

theorem flush (h : Records marks k d e) (source : Source) (keywords : Option KeywordTable)
    (stop : Nat) :
    Records (marks ++ stretch source keywords ⟨e.bufferStart, stop⟩) k d
      (e.flush source keywords stop) :=
  (h.setBuffer stop).classify source keywords ⟨e.bufferStart, stop⟩

theorem addWhole (h : Records marks k d e) (source : Source) (keywords : Option KeywordTable)
    (mode : Mode) (span : Span) :
    Records (marks ++ wholeMarks source keywords mode span e.bufferStart)
      (k + mode.relevance.toNat) d (e.addWhole source keywords mode span) := by
  simp only [Draft.addWhole, wholeMarks]
  split
  · exact (h.flush source keywords span.stop).addRelevance _
  · have hopened := (h.flush source keywords span.start).openScope none mode.scope
    have hclosed := (hopened.classify source mode.content.keywords span).closeScope none mode.scope
    rw [List.append_assoc, List.append_assoc, List.append_assoc] at hclosed
    exact (hclosed.setBuffer span.stop).addRelevance mode.relevance

theorem openRegion (h : Records marks k d e) (source : Source) (keywords : Option KeywordTable)
    (mode : Mode) (span : Span) (owner : Option Nat) :
    Records (marks ++ (stretch source keywords
        ⟨e.bufferStart, if mode.excludesBegin then span.stop else span.start⟩ ++
      opening owner mode.scope)) k d (e.openRegion source keywords mode span) := by
  have hopened := (h.flush source keywords
    (if mode.excludesBegin then span.stop else span.start)).openScope owner mode.scope
  rw [List.append_assoc] at hopened
  exact hopened

theorem passOver (h : Records marks k d e) (source : Source) (keywords : Option KeywordTable)
    (span : Span) :
    Records (marks ++ (stretch source keywords ⟨e.bufferStart, span.start⟩ ++
      [.text ⟨span.start, passedAt source span⟩])) k d (e.passOver source keywords span) := by
  have hpassed := (h.setIllegal.flush source keywords span.start).addText
    ⟨span.start, passedAt source span⟩
  rw [List.append_assoc] at hpassed
  exact hpassed.setBuffer (passedAt source span)

theorem closeRegions (h : Records marks k d e) (g : Grammar) (os : List (Entry × Nat)) :
    Records (marks ++ closingMarks g os)
      (k + (os.map fun o => (g.mode o.1.mode).relevance.toNat).sum) d
      ((os.map fun o => g.mode o.1.mode).foldl closeRegion e) := by
  induction os generalizing marks k e with
  | nil => simpa [closingMarks] using h
  | cons o os ih =>
    have hclosed := ih ((h.closeScope (some o.2) (g.mode o.1.mode).scope).addRelevance
      (g.mode o.1.mode).relevance)
    rw [List.append_assoc, Nat.add_assoc] at hclosed
    exact hclosed

/-- Regions that are still open at the end are closed without counting. -/
theorem closeScopes (h : Records marks k d e) (g : Grammar) (os : List (Entry × Nat)) :
    Records (marks ++ closingMarks g os) k d
      (os.foldl (fun d o => d.closeScope (g.mode o.1.mode).scope) e) := by
  induction os generalizing marks e with
  | nil => simpa [closingMarks] using h
  | cons o os ih =>
    have hclosed := ih (h.closeScope (some o.2) (g.mode o.1.mode).scope)
    rw [List.append_assoc] at hclosed
    exact hclosed

end Records

end Draft

/-! ### What a move records -/

namespace Move

/-- What the move adds to the draft, when it stands. -/
def marks (task : Task) (m : Move) : List Mark :=
  let g := task.grammar
  let span := m.found.span
  let upTo (stop : Nat) : List Mark :=
    stretch task.source (m.state.keywords g) ⟨m.state.draft.bufferStart, stop⟩
  match m.found.candidate with
  | .opens index =>
    let mode := g.mode index
    if mode.ending = .immediate then
      wholeMarks task.source (m.state.keywords g) mode span m.state.draft.bufferStart
    else
      upTo (if mode.excludesBegin then span.stop else span.start) ++
        opening (some m.state.nextSerial) mode.scope
  | .closes depth =>
    upTo (State.closingEdge g m.state.modes span) ++
      closingMarks g (m.state.openings.take (State.closedBy g m.state.modes depth))
  | .illegal => upTo span.start ++ [.text ⟨span.start, Draft.passedAt task.source span⟩]

/-- The relevance that is declared for the modes that the move takes as a whole or closes. -/
def declared (task : Task) (m : Move) : Nat :=
  match m.found.candidate with
  | .opens index =>
    let mode := task.grammar.mode index
    if mode.ending = .immediate then mode.relevance.toNat else 0
  | .closes depth =>
    ((m.state.modes.take (State.closedBy task.grammar m.state.modes depth)).map fun index =>
      (task.grammar.mode index).relevance.toNat).sum
  | .illegal => 0

end Move

/-- **A move that stands adds its marks**, and the relevance that is declared for them. -/
theorem records_next (hback : m.takesBack = false) (hskips : m.skips task = false) :
    Draft.Records (m.marks task) (m.declared task) m.state.draft (m.next task).draft := by
  have hempty := Draft.Records.refl m.state.draft
  have hdeed := m.deed task
  generalize m.next task = u at hdeed
  cases hdeed with
  | @whole index hf hend =>
    have hwhole := hempty.addWhole task.source (m.state.keywords task.grammar)
      (task.grammar.mode index) m.found.span
    simpa [Move.marks, Move.declared, hf, hend] using hwhole
  | skipped hf hend hskipped => cases hskips.symm.trans hskipped
  | @opened index hf hend =>
    have hopened := hempty.openRegion task.source (m.state.keywords task.grammar)
      (task.grammar.mode index) m.found.span (some m.state.nextSerial)
    simpa [Move.marks, Move.declared, hf, hend] using hopened
  | @closed depth hf =>
    have hclosed := (hempty.flush task.source (m.state.keywords task.grammar)
        (State.closingEdge task.grammar m.state.modes m.found.span)).closeRegions task.grammar
      (m.state.openings.take (State.closedBy task.grammar m.state.modes depth))
    simpa [Move.marks, Move.declared, hf, Draft.closeRegions, modes_eq_openings,
      Function.comp_def] using hclosed
  | tookBack hf htook => cases hback.symm.trans htook
  | passed hf _ hopenings hregions =>
    -- outside of all regions the keywords are those of the outermost level
    have hkeywords : m.state.keywords task.grammar = task.grammar.root.keywords := by
      rw [State.keywords, modes_eq_openings, hopenings]
      rfl
    rw [draft_passed hregions, m.draft_noted, ← hkeywords]
    have hpassed := hempty.passOver task.source (m.state.keywords task.grammar) m.found.span
    simpa [Move.marks, Move.declared, hf] using hpassed

/-! ### What a scan has recorded -/

/-- The marks that the moves have written, which are given latest first. -/
def written (task : Task) : List Move → List Mark
  | [] => []
  | m :: ms => written task ms ++ m.marks task

/-- **The logs are those of the marks that the moves that stand have written**, and the relevance
is what was declared along with them and what the hit log is worth. -/
theorem Shown.records (h : Shown task start kept t) :
    Draft.Records (written task kept) ((kept.map (Move.declared task)).sum) start.draft
      t.draft := by
  induction h with
  | start halike => exact (Draft.Records.refl _).alike_right halike.symm.draft
  | @move m kept t _ hback hskips halike ih =>
    have hall := (ih.trans (records_next hback hskips)).alike_right halike.symm.draft
    rw [List.map_cons, List.sum_cons, Nat.add_comm]
    exact hall

/-- All marks, when nothing more is found: the rest of the text is recorded, and the regions that
are still open are closed. -/
def allMarks (task : Task) (ms : List Move) (t : State) : List Mark :=
  written task (standing task ms) ++
    (stretch task.source (t.keywords task.grammar) ⟨t.draft.bufferStart, task.source.size⟩ ++
      closingMarks task.grammar t.openings)

/-- **The result has the nodes of all marks**, and the relevance that goes with them. -/
theorem result_of_ran (h : Ran task (State.start task.grammar) ms t) :
    let marks := allMarks task ms t
    (result task t).nodes =
        EventLog.nodes (marks.flatMap Mark.events).toArray task.source ∧
      (result task t).relevance =
        UInt32.ofNat (((standing task ms).map (Move.declared task)).sum +
          keywordScore (marks.filterMap Mark.word?)) := by
  intro marks
  have hfinished := ((h.standing.shown.records.flush task.source (t.keywords task.grammar)
    task.source.size).closeScopes task.grammar t.openings)
  rw [List.append_assoc] at hfinished
  have hmodes : ∀ d : Draft, t.modes.foldl (fun d m => d.closeScope (task.grammar.mode m).scope) d =
      t.openings.foldl (fun d o => d.closeScope (task.grammar.mode o.1.mode).scope) d := by
    intro d
    rw [modes_eq_openings, List.foldl_map]
  have hscores := hfinished.scores 0 Draft.scores_empty
  constructor
  · simp only [result, hmodes]
    congr 1
    rw [← Array.toList_inj, hfinished.events]
    rfl
  · simp only [result, hmodes]
    rw [hscores.relevance, hfinished.hitLog, Nat.zero_add]
    rfl

/-- **The relevance is the declared sum**, as far as it can be counted: whatever a scan has got
to, it is what is declared for the modes that the moves that stand have taken as a whole or
closed, and what the hit log is worth.  The words are counted as they stand in the hit log, which
has those of the keywords in the event log, in their order.  So it is for what is returned. -/
theorem relevance_is_declared_sum (g : Grammar) (text : String) (options : Options) :
    let task := Scan.task g (Source.ofString text) options
    (∀ ms t, Ran task (State.start g) ms t →
      let kept := standing task ms
      t.draft.relevance.toNat =
          ((kept.map (Move.declared task)).sum + keywordScore t.draft.hitLog.toList) % 2 ^ 32 ∧
        (∀ w, t.draft.count w = t.draft.hitLog.toList.count w) ∧
        t.draft.hitLog.toList = (written task kept).filterMap Mark.word? ∧
        t.draft.events.toList = (written task kept).flatMap Mark.events) ∧
    ∃ ms t, Ran task (State.start g) ms t ∧ g.highlight text options = result task t ∧
      let marks := allMarks task ms t
      (g.highlight text options).nodes =
          EventLog.nodes (marks.flatMap Mark.events).toArray task.source ∧
        (g.highlight text options).relevance.toNat =
          (((standing task ms).map (Move.declared task)).sum +
            keywordScore (marks.filterMap Mark.word?)) % 2 ^ 32 := by
  intro task
  constructor
  · intro ms t hran kept
    have hrecords := hran.standing.shown.records
    obtain ⟨hcounted, hrelevance⟩ := hrecords.scores 0 Draft.scores_empty
    refine ⟨?_, hcounted, ?_, ?_⟩
    · rw [hrelevance, UInt32.toNat_ofNat', Nat.zero_add]
    · rw [hrecords.hitLog]
      rfl
    · rw [hrecords.events]
      rfl
  · obtain ⟨ms, t, hran, hresult⟩ := exists_ran_highlight g text options
    obtain ⟨hnodes, hrelevance⟩ := result_of_ran hran
    refine ⟨ms, t, hran, hresult, ?_, ?_⟩
    · rw [hresult, hnodes]
    · rw [hresult, hrelevance, UInt32.toNat_ofNat']

end Highlighting.Scan
