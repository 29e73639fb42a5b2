/-
  Highlighting/Proofs/Scan/Checked.lean
  =====================================
  **The scan with every access checked.**

  A scan reads the modes and terminals of its grammar by number, keeps search
  results in the places of an array, counts down its stack of regions, and cuts
  stretches out of the source.  The definitions that run answer something
  wherever such an access goes astray: a mode that is none, a text cut short.

  Here the same scan is defined so that it has no result then: any number out of
  range and any stretch that does not lie within the text is a failure.  Searches
  and records come to the results of the ones that run where their numbers and
  spans are in range (`nextMatch_eq`, `classify_eq`).  That those of a scan always
  are is shown with its states (`Highlighting.Proofs.Scan.InBounds`).
-/
import Highlighting.Proofs.Scan.Place
import Highlighting.Proofs.Scan.Tiles

namespace Highlighting

/-- The stretch of the text, if it lies within it. -/
def Source.extract? (text : Source) (s : Span) : Option Source :=
  if s.start ≤ s.stop ∧ s.stop ≤ text.size then some (text.extract s.start s.stop) else none

theorem Source.extract?_eq {text : Source} {s : Span} (hle : s.start ≤ s.stop)
    (hsize : s.stop ≤ text.size) : text.extract? s = some (text.extract s.start s.stop) :=
  if_pos ⟨hle, hsize⟩

theorem Grammar.mode?_eq {g : Grammar} {m : Nat} (h : m < g.modes.size) :
    g.modes[m]? = some (g.mode m) := by
  rw [Grammar.mode, Array.getElem?_eq_getElem h]
  rfl

namespace Scan.Checked

variable {task : Task} {g : Grammar} {source : Source} {keywords : Option KeywordTable}
  {span : Span} {modes : List Nat} {barred : List Bar} {cache : Cache} {pos index depth stop : Nat}

/-! ### Searching -/

/-- No search begins behind the end, and none goes on behind a match that starts there. -/
def sift (size : Nat) (search : Search) (accept : Span → Option Span) :
    Nat → Nat → Option (Option Span)
  | 0, _ => some none
  | fuel + 1, pos =>
    if size < pos then some none
    else match search pos with
      | none => some none
      | some s =>
        match accept s with
        | some accepted => some (some accepted)
        | none => if s.start ≤ size then sift size search accept fuel (s.start + 1) else none

def searchFrom (task : Task) (barred : List Bar) (index pos : Nat) : Option (Option Span) := do
  let t ← task.grammar.terminals[index]?
  sift task.source.size (t.pattern.find task.source ·) (Option.guard (admits barred index t))
    (task.source.size + 1 - pos) pos

/-- Puts a result in its place, or none. -/
def store (cache : Cache) (index : Nat) (c : Option Searched) : Option Cache :=
  if index < cache.size then some (cache.setIfInBounds index c) else none

def search (task : Task) (barred : List Bar) (pos index : Nat) (cache : Cache) :
    Option (Option Span × Cache) := do
  let last ← cache[index]?
  let kept := if task.shortcuts.reuseSearches then last else none
  match kept.filter (·.holdsAt pos) with
  | some c => return (c.found, cache)
  | none =>
    let found ← searchFrom task barred index pos
    return (found, ← store cache index (some ⟨pos, found⟩))

def considerAll (task : Task) (barred : List Bar) (pos : Nat) (early : Bool) :
    List (Nat × Candidate) → Choice → Option Choice
  | [], choice => some choice
  | (index, candidate) :: rest, choice =>
    if early && startsAt choice.best pos then some { choice with settled := true }
    else do
      let found ← search task barred pos index choice.cache
      considerAll task barred pos early rest
        { choice with best := better choice.best candidate found.1, cache := found.2 }

section Search

variable (hwithin : task.grammar.SearchesWithin task.source)

theorem sift_eq {size fuel : Nat} {find : Search} {accept : Span → Option Span}
    (h : Search.IsWithin size find) (hbehind : ∀ pos, size < pos → find pos = none) :
    sift size find accept fuel pos = some (Search.sift find accept fuel pos) := by
  induction fuel generalizing pos with
  | zero => rfl
  | succ fuel ih =>
    rw [sift, Search.sift]
    split
    · next hgt => rw [hbehind pos hgt]
    · next hle =>
      cases hs : find pos with
      | none => rfl
      | some s =>
        obtain ⟨-, hle', hsize⟩ := h pos s (by omega) hs
        cases haccept : accept s with
        | some accepted => simp only [haccept]
        | none =>
          simp only [haccept]
          rw [if_pos (Nat.le_trans hle' hsize), ih]

theorem store_eq (h : index < cache.size) (c : Option Searched) :
    store cache index c = some (cache.setIfInBounds index c) :=
  if_pos h

theorem getElem?_cache (h : index < cache.size) : cache[index]? = some (cache.search? index) := by
  rw [Cache.search?, Array.getElem?_eq_getElem h]
  rfl

theorem size_search (task : Task) (barred : List Bar) (pos index : Nat) (cache : Cache) :
    (Scan.search task barred pos index cache).2.size = cache.size := by
  rw [Scan.search]
  split
  · rfl
  · exact Array.size_setIfInBounds

include hwithin

theorem searchFrom_eq (hindex : index < task.grammar.terminals.size) :
    searchFrom task barred index pos = some (Scan.searchFrom task barred index pos) := by
  have hterminal := Array.getElem?_eq_getElem hindex
  rw [searchFrom, Scan.searchFrom, hterminal]
  exact sift_eq (hwithin _ (Array.getElem_mem hindex)) fun _ hgt => Pattern.find_of_gt hgt _

theorem search_eq (hindex : index < task.grammar.terminals.size)
    (hcache : cache.size = task.grammar.terminals.size) :
    search task barred pos index cache = some (Scan.search task barred pos index cache) := by
  have hlt : index < cache.size := hcache ▸ hindex
  simp only [search, Scan.search, getElem?_cache hlt, searchFrom_eq hwithin hindex, store_eq hlt,
    Option.bind_eq_bind, Option.bind_some, Option.pure_def]
  generalize Option.filter _ _ = kept
  cases kept with
  | some c => rfl
  | none => rfl

theorem considerAll_eq {early : Bool} {cs : List (Nat × Candidate)} {choice : Choice}
    (hcs : ∀ c ∈ cs, c.1 < task.grammar.terminals.size)
    (hcache : choice.cache.size = task.grammar.terminals.size) :
    considerAll task barred pos early cs choice =
      some (Scan.considerAll task barred pos early cs choice) := by
  induction cs generalizing choice with
  | nil => rfl
  | cons c cs ih =>
    obtain ⟨hindex, hrest⟩ := List.forall_mem_cons.mp hcs
    rw [considerAll, Scan.considerAll]
    split
    · rfl
    · rw [search_eq hwithin hindex hcache]
      exact ih hrest ((size_search task barred pos c.1 choice.cache).trans hcache)

end Search

/-! ### Candidates -/

def contentOf (g : Grammar) : List Nat → Option Content
  | [] => some g.root
  | m :: _ => do return (← g.modes[m]?).content

def openings (g : Grammar) (modes : List Nat) : Option (List (Nat × Candidate)) := do
  (← contentOf g modes).contains.mapM fun m => do return ((← g.modes[m]?).opener, .opens m)

def closer? (g : Grammar) : List Nat → Nat → Option (Option (Nat × Nat))
  | [], _ => some none
  | m :: outer, depth => do
    match (← g.modes[m]?).ending with
    | .pattern t => return some (t, depth)
    | .withParent => closer? g outer (depth + 1)
    | .never | .immediate => return none

def limits (task : Task) (modes : List Nat) : Option (List (Nat × Candidate)) := do
  let closing ← closer? task.grammar modes 0
  let content ← contentOf task.grammar modes
  return (closing.toList.map fun c => (c.1, .closes c.2)) ++
    if task.options.ignoreIllegals then []
    else content.illegal.toList.map fun t => (t, .illegal)

def nextMatch (task : Task) (barred : List Bar) (modes : List Nat) (pos : Nat) (cache : Cache) :
    Option Choice := do
  let choice ← considerAll task barred pos task.shortcuts.stopEarly
    (← openings task.grammar modes) ⟨none, cache, false⟩
  if choice.settled then return choice
  else considerAll task barred pos false (← limits task modes) choice

theorem mapM_eq_some_map {α β : Type} {l : List α} {f : α → Option β} {k : α → β}
    (h : ∀ a ∈ l, f a = some (k a)) : l.mapM f = some (l.map k) := by
  induction l with
  | nil => rfl
  | cons a l ih =>
    obtain ⟨ha, hl⟩ := List.forall_mem_cons.mp h
    rw [List.mapM_cons, ha, ih hl]
    rfl

section Candidates

variable (hmodes : ∀ m ∈ modes, m < g.modes.size)
include hmodes

theorem contentOf_eq : contentOf g modes = some (Scan.contentOf g modes) := by
  cases modes with
  | nil => rfl
  | cons m outer =>
    rw [contentOf, Grammar.mode?_eq (hmodes m List.mem_cons_self)]
    rfl

theorem openings_eq (hin : g.InOrder) : openings g modes = some (Scan.openings g modes) := by
  rw [openings, contentOf_eq hmodes]
  refine mapM_eq_some_map fun m hm => ?_
  rw [Grammar.mode?_eq ((contentOf_inOrder hin modes).contains m hm)]
  rfl

theorem closer?_eq : closer? g modes depth = some (Scan.closer? g modes depth) := by
  induction modes generalizing depth with
  | nil => rfl
  | cons m outer ih =>
    obtain ⟨hm, houter⟩ := List.forall_mem_cons.mp hmodes
    simp only [closer?, Scan.closer?, Grammar.mode?_eq hm, Option.bind_eq_bind, Option.bind_some,
      Option.pure_def]
    cases (g.mode m).ending with
    | pattern t => rfl
    | withParent => exact ih houter
    | never => rfl
    | immediate => rfl

end Candidates

theorem limits_eq (hmodes : ∀ m ∈ modes, m < task.grammar.modes.size) :
    limits task modes = some (Scan.limits task modes) := by
  rw [limits, closer?_eq hmodes, contentOf_eq hmodes]
  rfl

theorem nextMatch_eq (hwithin : task.grammar.SearchesWithin task.source)
    (hin : task.grammar.InOrder) (hmodes : ∀ m ∈ modes, m < task.grammar.modes.size)
    (hcache : cache.size = task.grammar.terminals.size) :
    nextMatch task barred modes pos cache =
      some (Scan.nextMatch task barred modes pos cache) := by
  have hcandidates : ∀ c ∈ candidates task modes, c.1 < task.grammar.terminals.size :=
    fun c hc => lt_size_of_declares (declares_of_mem_candidates hin hc)
  have hopenings : ∀ c ∈ Scan.openings task.grammar modes, c.1 < task.grammar.terminals.size :=
    fun c hc => hcandidates c (List.mem_append_left _ hc)
  have hlimits : ∀ c ∈ Scan.limits task modes, c.1 < task.grammar.terminals.size :=
    fun c hc => hcandidates c (List.mem_append_right _ hc)
  let start : Choice := ⟨none, cache, false⟩
  have hchoice : considerAll task barred pos task.shortcuts.stopEarly
      (Scan.openings task.grammar modes) start =
        some (Scan.considerAll task barred pos task.shortcuts.stopEarly
          (Scan.openings task.grammar modes) start) :=
    considerAll_eq hwithin hopenings hcache
  have hsize : (Scan.considerAll task barred pos task.shortcuts.stopEarly
      (Scan.openings task.grammar modes) start).cache.size = task.grammar.terminals.size :=
    (considerAll_inv (I := fun c => c.size = task.grammar.terminals.size) (Q := fun _ _ => True)
      (fun i c hc => ⟨(size_search task barred pos i c).trans hc, fun _ _ => trivial⟩)
      task.shortcuts.stopEarly (fun d hd => hd) start hcache (fun f hf => by cases hf)).1
  rw [nextMatch, openings_eq hmodes hin, limits_eq hmodes]
  simp only [Option.bind_eq_bind, Option.bind_some, Option.pure_def]
  rw [hchoice, Option.bind_some, Scan.nextMatch]
  split
  · rfl
  · exact considerAll_eq hwithin hlimits hsize

/-! ### Recording -/

/-- A lexeme is read in the stretch `part`, and a keyword once more in the source. -/
def addLexemes (source part : Source) (table : KeywordTable) (base : Nat) :
    List Span → Nat → Draft → Option (Nat × Draft)
  | [], last, d => some (last, d)
  | l :: ls, last, d => do
    match table.classify (← part.extract? l).toList with
    | none => addLexemes source part table base ls last d
    | some c =>
      let span : Span := ⟨base + l.start, base + l.stop⟩
      let w ← source.extract? span
      addLexemes source part table base ls span.stop (d.addKeyword last span c w.toList)

def classify (source : Source) (keywords : Option KeywordTable) (span : Span) (d : Draft) :
    Option Draft :=
  if span.isEmpty then some d
  else match keywords with
    | none => some (d.addText span)
    | some table => do
      let part ← source.extract? span
      let (last, d) ←
        addLexemes source part table span.start (table.lexeme.findAll part) span.start d
      return d.addText ⟨last, span.stop⟩

def flush (source : Source) (keywords : Option KeywordTable) (stop : Nat) (d : Draft) :
    Option Draft :=
  classify source keywords ⟨d.bufferStart, stop⟩ { d with bufferStart := stop }

def addWhole (source : Source) (keywords : Option KeywordTable) (m : Mode) (span : Span)
    (d : Draft) : Option Draft := do
  let d ←
    if m.excludesBegin then flush source keywords span.stop d
    else do
      let d ← flush source keywords span.start d
      let d ← classify source m.content.keywords span (d.openScope m.scope)
      pure { d.closeScope m.scope with bufferStart := span.stop }
  return { d with relevance := d.relevance + m.relevance }

def addOpening (source : Source) (keywords : Option KeywordTable) (m : Mode) (span : Span)
    (d : Draft) : Option Draft := do
  let d ← flush source keywords (if m.excludesBegin then span.stop else span.start) d
  return d.openScope m.scope

def addClosings (source : Source) (keywords : Option KeywordTable) (stop : Nat)
    (closed : List Mode) (d : Draft) : Option Draft := do
  return closed.foldl Draft.closeRegion (← flush source keywords stop d)

/-- The character behind an empty match is read, or the end of the text is there. -/
def addPassed (source : Source) (keywords : Option KeywordTable) (span : Span) (d : Draft) :
    Option Draft := do
  let d ← flush source keywords span.start { d with illegal := true }
  if span.stop ≤ source.size then
    return { d.addText ⟨span.start, Draft.passedAt source span⟩ with
      bufferStart := Draft.passedAt source span }
  else none

section Recording

variable {d : Draft} {m : Mode}

theorem addLexemes_eq {table : KeywordTable} {ls : List Span} {p last : Nat}
    (hle : span.start ≤ span.stop) (hsize : span.stop ≤ source.size)
    (hls : Matcher.Ascending (source.extract span.start span.stop).size p ls) :
    addLexemes source (source.extract span.start span.stop) table span.start ls last d =
      some (Draft.addLexemes source table span.start ls last d) := by
  induction ls generalizing p last d with
  | nil => rfl
  | cons l ls ih =>
    obtain ⟨-, hl, hpart, hrest⟩ := hls
    have hstop : span.start + l.stop ≤ span.stop := by
      rw [Array.size_extract] at hpart
      omega
    have hsame : (source.extract span.start span.stop).extract l.start l.stop =
        source.extract (span.start + l.start) (span.start + l.stop) := by
      rw [Array.extract_extract, Nat.min_eq_left hstop]
    have hsource : source.extract? ⟨span.start + l.start, span.start + l.stop⟩ =
        some (source.extract (span.start + l.start) (span.start + l.stop)) :=
      Source.extract?_eq (Nat.add_le_add_left hl _) (Nat.le_trans hstop hsize)
    simp only [addLexemes, Draft.addLexemes, Source.extract?_eq hl hpart, hsame, hsource,
      Source.chars, Option.bind_eq_bind, Option.bind_some]
    cases table.classify (source.extract (span.start + l.start) (span.start + l.stop)).toList with
    | none => exact ih hrest
    | some c => exact ih hrest

theorem classify_eq (hle : span.start ≤ span.stop) (hsize : span.stop ≤ source.size) :
    classify source keywords span d = some (d.classify source keywords span) := by
  simp only [classify, Draft.classify]
  split
  · rfl
  · cases keywords with
    | none => rfl
    | some table =>
      simp only [Source.extract?_eq hle hsize, addLexemes_eq hle hsize
        (table.lexeme.ascending_findAll _), Option.bind_eq_bind, Option.bind_some, Option.pure_def]

theorem flush_eq (hle : d.bufferStart ≤ stop) (hsize : stop ≤ source.size) :
    flush source keywords stop d = some (d.flush source keywords stop) := by
  have hspan : Span.start ⟨d.bufferStart, stop⟩ ≤ Span.stop ⟨d.bufferStart, stop⟩ := hle
  exact classify_eq hspan hsize

variable (hbuffer : d.bufferStart ≤ span.start) (hle : span.start ≤ span.stop)
  (hsize : span.stop ≤ source.size)
include hbuffer hle hsize

theorem addWhole_eq :
    addWhole source keywords m span d = some (d.addWhole source keywords m span) := by
  rw [addWhole, Draft.addWhole]
  split
  · rw [flush_eq (Nat.le_trans hbuffer hle) hsize]
    rfl
  · simp only [flush_eq hbuffer (Nat.le_trans hle hsize), classify_eq hle hsize,
      Option.bind_eq_bind, Option.bind_some, Option.pure_def]

theorem addOpening_eq :
    addOpening source keywords m span d = some (d.openRegion source keywords m span) := by
  rw [addOpening, Draft.openRegion, flush_eq]
  · rfl
  · split <;> omega
  · split <;> omega

theorem addClosings_eq {edge : Nat} (hedge : edge = span.start ∨ edge = span.stop)
    (closed : List Mode) :
    addClosings source keywords edge closed d =
      some (d.closeRegions source keywords edge closed) := by
  rw [addClosings, Draft.closeRegions, flush_eq (by omega) (by omega)]
  rfl

theorem addPassed_eq :
    addPassed source keywords span d = some (d.passOver source keywords span) := by
  rw [addPassed, flush_eq (d := { d with illegal := true }) hbuffer (Nat.le_trans hle hsize),
    Option.bind_eq_bind, Option.bind_some, if_pos hsize]
  rfl

end Recording

/-! ### Steps -/

def keywordsOf (task : Task) (s : State) : Option (Option KeywordTable) := do
  return (← contentOf task.grammar s.modes).keywords

def next? (task : Task) (s : State) : Option (Option Found × State) := do
  let choice ← nextMatch task s.barred s.modes s.pos s.cache
  return (choice.best, { s with cache := choice.cache })

def skip (task : Task) (index start : Nat) (s : State) : Option State := do
  let last ← s.cache[index]?
  let barred := (index, start) :: s.barred
  if last.any fun c => decide (c.since ≤ s.pos) && c.found.any (·.start == start) then
    if start ≤ task.source.size then
      let found ← searchFrom task barred index (start + 1)
      return { s with barred, cache := ← store s.cache index (some ⟨s.pos, found⟩) }
    else none
  else return { s with barred, cache := ← store s.cache index none }

def takeWhole (task : Task) (m : Mode) (span : Span) (s : State) : Option State := do
  let draft ← addWhole task.source (← keywordsOf task s) m span s.draft
  return { s with draft, pos := span.stop }

def openRegion (task : Task) (index : Nat) (m : Mode) (span : Span) (s : State) :
    Option State := do
  let entry : Entry := ⟨index, m.opener, span.start, s.draft.checkpoint⟩
  return { s with
    draft := ← addOpening task.source (← keywordsOf task s) m span s.draft
    regions := ⟨entry, s.nextSerial, #[]⟩ :: s.regions
    nextSerial := s.nextSerial + 1
    pos := span.stop }

def opens (task : Task) (index : Nat) (span : Span) (s : State) : Option State := do
  let m ← task.grammar.modes[index]?
  if m.ending = .immediate then takeWhole task m span s
  else if task.shortcuts.skipRetraced && s.retraces index span.stop then
    skip task m.opener span.start s
  else openRegion task index m span s

def closedWith (g : Grammar) : List Nat → Option Nat
  | [] => some 0
  | m :: outer => do
    if (← g.modes[m]?).endsParent then return 1 + (← closedWith g outer) else return 1

def closingEdge (g : Grammar) (modes : List Nat) (span : Span) : Option Nat :=
  match modes with
  | [] => some span.stop
  | m :: _ => do return if (← g.modes[m]?).excludesEnd then span.start else span.stop

/-- The region whose end was found is on the stack, and so are those that close. -/
def closes (task : Task) (depth : Nat) (span : Span) (s : State) : Option State := do
  let g := task.grammar
  let count := depth + (← closedWith g (s.modes.drop depth))
  let closed ← (s.modes.take count).mapM (g.modes[·]?)
  if depth < s.regions.length ∧ count ≤ s.regions.length then
    return { s with
      draft := ← addClosings task.source (← keywordsOf task s) (← closingEdge g s.modes span)
        closed s.draft
      regions := s.regions.drop count
      pos := span.stop }
  else none

/-- What is illegal is cut out of the source, to be reported. -/
def meetsIllegal (task : Task) (span : Span) (s : State) : Option State := do
  let _ ← task.source.extract? span
  match s.regions with
  | r :: outer =>
    return { s.abandon r outer with cache := ← store s.cache r.entry.opener none }
  | [] =>
    return { s with
      draft := ← addPassed task.source task.grammar.root.keywords span s.draft
      pos := Draft.passedAt task.source span }

def handle (task : Task) (found : Found) (s : State) : Option State :=
  let s := s.leaveTrail found.span
  match found.candidate with
  | .opens mode => opens task mode found.span s
  | .closes depth => closes task depth found.span s
  | .illegal => meetsIllegal task found.span s

def runFor (task : Task) : Nat → State → Option State
  | 0, s => some s
  | fuel + 1, s => do
    match ← next? task s with
    | (none, s) => return s
    | (some found, s) => runFor task fuel (← handle task found s)

/-! ### The result -/

def addEvent (source : Source) (f : EventLog.Forest) : Event → Option EventLog.Forest
  | .text s => do
    return f.update (EventLog.Forest.joinText (String.ofList (← source.extract? s).toList))
  | e => some (f.step source e)

def nodes (log : EventLog) (source : Source) : Option (List Node) := do
  let f ← log.toList.foldlM (addEvent source) EventLog.Forest.empty
  return (f.closeMany f.scopes.length).top.reverse

def closeScopes (g : Grammar) : List Nat → Draft → Option Draft
  | [], d => some d
  | m :: modes, d => do closeScopes g modes (d.closeScope (← g.modes[m]?).scope)

def result (task : Task) (s : State) : Option Highlighted := do
  let g := task.grammar
  let d ← flush task.source (← keywordsOf task s) task.source.size s.draft
  let d ← closeScopes g s.modes d
  return { language := g.name, relevance := d.relevance, illegal := d.illegal,
           nodes := ← nodes d.events task.source }

/-- The highlighted text, where no access goes astray on the way. -/
def highlight (g : Grammar) (text : String) (options : Options) : Option Highlighted := do
  let task := Scan.task g (Source.ofString text) options
  result task (← runFor task (stepBound g task.source.size) (State.start g))

end Scan.Checked

end Highlighting
