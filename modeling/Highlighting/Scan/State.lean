/-
  Highlighting/Scan/State.lean
  ============================
  **The state of a scan.**

  A scan goes through a text with a stack of the regions that are open.  Every
  open region remembers where the draft stood right before it was opened
  (`Entry.checkpoint`).  When its illegal pattern occurs, the scan goes back
  there, bars the opening match, and goes on in the region around it as if
  that match had not been one.

  Two records only save work.  `cache` keeps the result of the last search for
  each terminal.  `trails` keeps what an abandoned region had looked through,
  so that a region that would only retrace it need not be opened.
-/
import Highlighting.Scan.Draft
import Highlighting.Scan.Trail

namespace Highlighting.Scan

structure Options where
  /-- Whether illegal patterns are to be treated as if they had not been declared. -/
  ignoreIllegals : Bool
  deriving DecidableEq, Repr, Inhabited

/-- Which shortcuts a scan takes.  Leaving one out may only cost time. -/
structure Shortcuts where
  /-- Do not open a region that would retrace an abandoned one. -/
  skipRetraced : Bool
  /-- Use the result of an earlier search while it still holds. -/
  reuseSearches : Bool
  /-- Look for no further mode once one opens at the current position. -/
  stopEarly : Bool
  deriving DecidableEq, Repr

def Shortcuts.all : Shortcuts := ⟨true, true, true⟩

/-- What does not change during a scan. -/
structure Task where
  grammar : Grammar
  source : Source
  options : Options
  shortcuts : Shortcuts

structure Entry where
  mode : Nat
  opener : Nat
  /-- Where the opening match starts. -/
  start : Nat
  /-- Where the draft stood. -/
  checkpoint : Checkpoint
  deriving DecidableEq, Repr, Inhabited

structure Region where
  entry : Entry
  /-- Tells apart all regions that a scan opens; the outermost level is zero. -/
  serial : Nat
  trail : Trail
  deriving Repr, Inhabited

/-- The trail of an abandoned region: of which mode it was, and inside which region. -/
structure Abandoned where
  parent : Nat
  mode : Nat
  trail : Trail
  deriving Repr, Inhabited

/-- The result of a search that began at `since`. -/
structure Searched where
  since : Nat
  found : Option Span
  deriving DecidableEq, Repr, Inhabited

/-- The last search for each terminal. -/
abbrev Cache := Array (Option Searched)

/-- A match that may not be taken: a terminal, and where it matched. -/
abbrev Bar := Nat × Nat

structure State where
  pos : Nat
  draft : Draft
  cache : Cache
  barred : List Bar
  /-- The trail of the region abandoned last. -/
  trails : Option Abandoned
  /-- The open regions, innermost first. -/
  regions : List Region
  /-- Serial number for the next region. -/
  nextSerial : Nat
  deriving Inhabited

/-- What is looked for inside regions of these modes, innermost first. -/
def contentOf (g : Grammar) : List Nat → Content
  | [] => g.root
  | m :: _ => (g.mode m).content

def serialOf : List Region → Nat
  | [] => 0
  | r :: _ => r.serial

namespace State

/-- The start of a scan, with some matches barred from the beginning. -/
def startWith (g : Grammar) (barred : List Bar) : State :=
  { pos := 0, draft := .empty, cache := Array.replicate g.terminals.size none, barred,
    trails := none, regions := [], nextSerial := 1 }

def start (g : Grammar) : State := startWith g []

def modes (s : State) : List Nat := s.regions.map (·.entry.mode)

def keywords (g : Grammar) (s : State) : Option KeywordTable := (contentOf g s.modes).keywords

end State

end Highlighting.Scan
