/-
  Highlighting/Scan/Draft.lean
  ============================
  **The draft**: what a scan has recorded so far.

  Text that no pattern has claimed is not recorded at once: it waits in a
  buffer, from `bufferStart` to the current position, until it is known which
  region owns it.  Then it is recorded with the keywords of that region
  (`flush`).

  A draft can be taken back to what it was.  A `Checkpoint` notes its sizes and
  sums; `restore` cuts the logs short, and counts down the keywords that were
  met since.
-/
import Highlighting.Grammar.Basic
import Highlighting.EventLog

namespace Highlighting.Scan

structure Checkpoint where
  events : Nat
  relevance : UInt32
  hits : Nat
  bufferStart : Nat
  deriving DecidableEq, Repr, Inhabited

structure Draft where
  bufferStart : Nat
  relevance : UInt32
  /-- Whether something illegal occurred outside of all regions. -/
  illegal : Bool
  events : EventLog
  /-- How often each keyword was met. -/
  hits : WordMap Nat
  /-- The keywords met, in order. -/
  hitLog : Array Word
  deriving Inhabited

namespace Draft

def empty : Draft :=
  { bufferStart := 0, relevance := 0, illegal := false, events := #[], hits := .nil, hitLog := #[] }

def checkpoint (d : Draft) : Checkpoint :=
  ⟨d.events.size, d.relevance, d.hitLog.size, d.bufferStart⟩

/-! ### Keywords -/

/-- Only so many occurrences of a word count. -/
def maxHits : Nat := 7

def count (d : Draft) (w : Word) : Nat := (d.hits.find? w).getD 0

def hit (d : Draft) (w : Word) : Draft :=
  let count := d.count w + 1
  { d with
    hits := d.hits.insert count w
    hitLog := d.hitLog.push w
    -- an occurrence that does not count is noted all the same, to be taken back in its turn
    relevance := if count ≤ maxHits then d.relevance + KeywordTable.relevance w else d.relevance }

/-- Takes back the latest occurrences, `n` of them. -/
def forgetHits : Nat → Draft → Draft
  | 0, d => d
  | n + 1, d =>
    match d.hitLog.back? with
    | none => d
    | some w =>
      forgetHits n { d with hits := d.hits.insert (d.count w - 1) w, hitLog := d.hitLog.pop }

/-! ### Text -/

def addText (d : Draft) (span : Span) : Draft := { d with events := d.events.addText span }

/-- Records that a scope opens, if there is one. -/
def openScope (d : Draft) (scope : Option Scope) : Draft :=
  { d with events := d.events.openScope scope }

def closeScope (d : Draft) (scope : Option Scope) : Draft :=
  { d with events := d.events.closeScope scope }

/-- Records a keyword with the text between `last` and it. -/
def addKeyword (d : Draft) (last : Nat) (span : Span) (c : KeywordClass) (w : Word) : Draft :=
  let d := (d.addText ⟨last, span.start⟩).openScope (some c.scope)
  ((d.addText span).closeScope (some c.scope)).hit w

/-- Records the keywords among lexemes of the text from `base` on, each with the text since
`last`; answers where the last keyword ends too. -/
def addLexemes (source : Source) (table : KeywordTable) (base : Nat) :
    List Span → Nat → Draft → Nat × Draft
  | [], last, d => (last, d)
  | l :: ls, last, d =>
    let span : Span := ⟨base + l.start, base + l.stop⟩
    let w := source.chars span
    match table.classify w with
    | none => addLexemes source table base ls last d
    | some c => addLexemes source table base ls span.stop (d.addKeyword last span c w)

/-- Records a stretch of text with the keywords of a table. -/
def classify (source : Source) (keywords : Option KeywordTable) (span : Span) (d : Draft) :
    Draft :=
  if span.isEmpty then d
  else match keywords with
    | none => d.addText span
    | some table =>
      -- the lexeme sees the stretch alone, not the text around it
      let part : Source := source.extract span.start span.stop
      let (last, d) :=
        addLexemes source table span.start (table.lexeme.findAll part) span.start d
      d.addText ⟨last, span.stop⟩

def flush (source : Source) (keywords : Option KeywordTable) (stop : Nat) (d : Draft) : Draft :=
  classify source keywords ⟨d.bufferStart, stop⟩ { d with bufferStart := stop }

/-! ### Regions

In all of these `keywords` are those of the region around. -/

/-- Records a mode that has no end. -/
def addWhole (source : Source) (keywords : Option KeywordTable) (m : Mode) (span : Span)
    (d : Draft) : Draft :=
  let d :=
    -- the match belongs to the text around, which leaves nothing for a scope to enclose
    if m.excludesBegin then d.flush source keywords span.stop
    else
      let d := (d.flush source keywords span.start).openScope m.scope
      let d := (d.classify source m.content.keywords span).closeScope m.scope
      { d with bufferStart := span.stop }
  { d with relevance := d.relevance + m.relevance }

def openRegion (source : Source) (keywords : Option KeywordTable) (m : Mode) (span : Span)
    (d : Draft) : Draft :=
  (d.flush source keywords (if m.excludesBegin then span.stop else span.start)).openScope m.scope

def closeRegion (d : Draft) (m : Mode) : Draft :=
  let d := d.closeScope m.scope
  { d with relevance := d.relevance + m.relevance }

/-- Records that regions close, innermost first; their text goes up to `stop`. -/
def closeRegions (source : Source) (keywords : Option KeywordTable) (stop : Nat)
    (closed : List Mode) (d : Draft) : Draft :=
  closed.foldl closeRegion (d.flush source keywords stop)

/-- Where the scan goes on after something illegal outside of all regions. -/
def passedAt (source : Source) (span : Span) : Nat :=
  if span.isEmpty then min (span.stop + 1) source.size else span.stop

/-- Records something illegal outside of all regions. -/
def passOver (source : Source) (keywords : Option KeywordTable) (span : Span) (d : Draft) :
    Draft :=
  let d := { d with illegal := true }.flush source keywords span.start
  { d.addText ⟨span.start, passedAt source span⟩ with bufferStart := passedAt source span }

/-- Takes everything back that was recorded since a checkpoint. -/
def restore (c : Checkpoint) (d : Draft) : Draft :=
  let d := forgetHits (d.hitLog.size - c.hits) d
  -- `illegal` is only set outside of all regions, and so has not changed since the checkpoint
  { d with
    events := d.events.shrink c.events, relevance := c.relevance, bufferStart := c.bufferStart }

end Draft

end Highlighting.Scan
