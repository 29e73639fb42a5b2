/-
  Highlighting/Scan/Search.lean
  =============================
  **What comes next**: the leftmost match that matters in the current region.

  Candidates are the openings of the modes that can be found inside, the end
  of the region, and its illegal pattern.  Of two matches at the same place
  the one named first in this list wins, and modes count in the order in which
  they are declared.

  A search result holds as long as no position before its match has been
  passed, so the last one for each terminal is kept.
-/
import Highlighting.Scan.State

namespace Highlighting.Scan

/-- What a match means for the region. -/
inductive Candidate where
  | opens (mode : Nat)
  /-- Regions close; `depth` of them are open inside the one whose end was found. -/
  | closes (depth : Nat)
  | illegal
  deriving DecidableEq, Repr, Inhabited

structure Found where
  span : Span
  candidate : Candidate
  deriving DecidableEq, Repr, Inhabited

/-! ### Searching for a terminal -/

/-- Whether a match of a terminal counts: it is not barred, and not empty where that does not
count. -/
def admits (barred : List Bar) (index : Nat) (t : Terminal) (s : Span) : Bool :=
  (!s.isEmpty || t.allowsEmpty) && !barred.contains (index, s.start)

/-- The first match of a terminal at or after a position that counts, searched for afresh. -/
def searchFrom (task : Task) (barred : List Bar) (index pos : Nat) : Option Span :=
  match task.grammar.terminals[index]? with
  | none => none
  | some t =>
    Search.sift (t.pattern.find task.source ·) (Option.guard (admits barred index t))
      (task.source.size + 1 - pos) pos

/-- Whether the result of an earlier search is still what a new one would give. -/
def Searched.holdsAt (c : Searched) (pos : Nat) : Bool :=
  decide (c.since ≤ pos) && c.found.all fun s => decide (pos ≤ s.start)

namespace Cache

def search? (cache : Cache) (index : Nat) : Option Searched := (cache[index]?).join

def record (cache : Cache) (index : Nat) (c : Searched) : Cache :=
  cache.setIfInBounds index (some c)

def forget (cache : Cache) (index : Nat) : Cache := cache.setIfInBounds index none

end Cache

/-- The first match of a terminal at or after the position that counts. -/
def search (task : Task) (barred : List Bar) (pos index : Nat) (cache : Cache) :
    Option Span × Cache :=
  let kept := if task.shortcuts.reuseSearches then cache.search? index else none
  match kept.filter (·.holdsAt pos) with
  | some c => (c.found, cache)
  | none =>
    let found := searchFrom task barred index pos
    (found, cache.record index ⟨pos, found⟩)

/-! ### Choosing among candidates -/

def improves (best : Option Found) (s : Span) : Bool :=
  match best with
  | none => true
  | some b => decide (s.start < b.span.start)

def startsAt (best : Option Found) (pos : Nat) : Bool :=
  match best with
  | none => false
  | some b => b.span.start == pos

/-- The better of the best match so far and the result of one more search. -/
def better (best : Option Found) (candidate : Candidate) : Option Span → Option Found
  | none => best
  | some s => if improves best s then some ⟨s, candidate⟩ else best

/-- How far the choice among candidates has got. -/
structure Choice where
  best : Option Found
  cache : Cache
  /-- Nothing can be better than what was found. -/
  settled : Bool
  deriving Inhabited

/-- Searches for terminals in turn and keeps the best of their matches.  With `early`, the
search is over as soon as that starts at the current position. -/
def considerAll (task : Task) (barred : List Bar) (pos : Nat) (early : Bool) :
    List (Nat × Candidate) → Choice → Choice
  | [], choice => choice
  | (index, candidate) :: rest, choice =>
    -- a later candidate would have to start before the position
    if early && startsAt choice.best pos then { choice with settled := true }
    else
      let found := search task barred pos index choice.cache
      considerAll task barred pos early rest
        { choice with best := better choice.best candidate found.1, cache := found.2 }

/-! ### Candidates -/

/-- The modes that can open inside regions of these modes, innermost first. -/
def openings (g : Grammar) (modes : List Nat) : List (Nat × Candidate) :=
  (contentOf g modes).contains.map fun m => ((g.mode m).opener, .opens m)

/-- The terminal that ends the innermost region, and how many regions are open inside the
one that declares it.  The outermost level has no end. -/
def closer? (g : Grammar) : List Nat → Nat → Option (Nat × Nat)
  | [], _ => none
  | m :: outer, depth =>
    match (g.mode m).ending with
    | .pattern t => some (t, depth)
    | .withParent => closer? g outer (depth + 1)
    | .never | .immediate => none

/-- What else is looked for: the end, and what is illegal. -/
def limits (task : Task) (modes : List Nat) : List (Nat × Candidate) :=
  ((closer? task.grammar modes 0).toList.map fun c => (c.1, .closes c.2)) ++
    if task.options.ignoreIllegals then []
    else (contentOf task.grammar modes).illegal.toList.map fun t => (t, .illegal)

/-- The next match that matters inside regions of these modes, innermost first. -/
def nextMatch (task : Task) (barred : List Bar) (modes : List Nat) (pos : Nat) (cache : Cache) :
    Choice :=
  let choice := considerAll task barred pos task.shortcuts.stopEarly
    (openings task.grammar modes) ⟨none, cache, false⟩
  -- the limits come last, so that they cannot win against a mode that opens right here
  if choice.settled then choice
  else considerAll task barred pos false (limits task modes) choice

def State.next? (task : Task) (s : State) : Option Found × State :=
  let choice := nextMatch task s.barred s.modes s.pos s.cache
  (choice.best, { s with cache := choice.cache })

end Highlighting.Scan
