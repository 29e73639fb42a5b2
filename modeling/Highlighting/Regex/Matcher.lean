/-
  Highlighting/Regex/Matcher.lean
  ===============================
  **Matchers**: regular expressions made ready for searching.

  There are two ways to find a preferred match.  The list of all ends
  (`Regex.ends`) is the simplest, and for most expressions it is short.  It
  grows out of hand when an expression can match a text in many ways, it takes
  long when many attempts to match go far before they fail, and it does not
  cover repetitions of a body that can match nothing.  So it is used for
  *plain* expressions (`Regex.isPlain`), and the others run as automata.

  A plain expression has at most so many ends, counted for repetitions of a
  hundred times.  What it repeats without limit is decided by the next
  character: at most one way through the body leads on to another iteration.
  And no match starts with a character that a repetition without limit takes,
  unless the match is complete behind that repetition.
-/
import Highlighting.Regex.Automaton
import Highlighting.Text.Search

namespace Highlighting

namespace Regex

/-! ## Plain expressions -/

/-- The sets that the first character of a match may come from, when what follows the match
starts with a character of one of `follow`. -/
def starts : Regex → List CharSet → List CharSet
  | empty, follow => follow
  | set s, _ => [s]
  | anchor _, follow => follow
  | seq a b, follow => a.starts (b.starts follow)
  | alt a b, follow => a.starts follow ++ b.starts follow
  | group _ body, follow => body.starts follow
  | rep _ least _ body, follow =>
    if least = 0 || body.nullable then body.starts [] ++ follow else body.starts []

def apart (ss ts : List CharSet) : Bool := ss.all fun s => ts.all (s.apart ·)

/-- Whether the next character always decides how the match of the expression goes on, when
what follows starts with a character of one of `follow`. -/
def isDecided : Regex → List CharSet → Bool
  | empty, _ => true
  | set _, _ => true
  | anchor _, _ => true
  | seq a b, follow => a.isDecided (b.starts follow) && b.isDecided follow
  | alt a b, follow =>
    apart (a.starts follow) (b.starts follow) && a.isDecided follow && b.isDecided follow
  | group _ body, follow => body.isDecided follow
  | rep _ least most body, follow =>
    let first := body.starts []
    (most == some least || apart first follow) && body.isDecided (first ++ follow)

/-- More ends than a list is good for. -/
def tooMany : Nat := 20000

/-- A bound on the number of ends of a match, with no repetition of more than a hundred times
and each end counted as often as it is reached; higher counts than `tooMany` need not be
exact.  There is no bound when a repetition has a body that can match nothing, or one without
limit has a body that is not decided. -/
def ways? : Regex → Option Nat
  | empty => some 1
  | set _ => some 1
  | anchor _ => some 1
  | seq a b => do return (← a.ways?) * (← b.ways?)
  | alt a b => do return (← a.ways?) + (← b.ways?)
  | group _ body => body.ways?
  | rep _ least most body => do
    let n ← body.ways?
    let forced := Nat.repeat (fun k => min tooMany (n * k)) least 1
    match most with
    | some m =>
      if m = least then return forced
      if body.nullable then none
      return forced * Nat.repeat (fun k => min tooMany (1 + n * k)) (m - least) 1
    | none =>
      if body.nullable || !body.isDecided (body.starts []) then none
      return forced * (100 * n)

def sets : Regex → List CharSet
  | empty => []
  | set s => [s]
  | anchor _ => []
  | seq a b => a.sets ++ b.sets
  | alt a b => a.sets ++ b.sets
  | group _ body => body.sets
  | rep _ _ _ body => body.sets

/-- The sets of characters taken by repetitions without limit behind which something else has
to match.  `last` says that nothing comes after the expression. -/
def runs (last : Bool) : Regex → List CharSet
  | empty => []
  | set _ => []
  | anchor _ => []
  | seq a b => a.runs false ++ b.runs last
  | alt a b => a.runs last ++ b.runs last
  | group _ body => body.runs last
  | rep _ _ none body => if last then [] else body.sets
  | rep _ _ (some most) body => body.runs (last && most ≤ 1)

/-- Whether the list of ends is the way to search for the expression. -/
def isPlain (r : Regex) : Bool :=
  r.ways?.any (· < tooMany) && apart (r.starts []) (r.runs true)

end Regex

/-! ## Matchers -/

inductive Matcher where
  /-- By the list of its ends. -/
  | listing (r : Regex)
  /-- As an automaton. -/
  | running (a : Automaton)
  deriving DecidableEq, Repr, Inhabited

namespace Matcher

def ofRegex (r : Regex) : Matcher :=
  if r.isPlain then listing r else running (.ofRegex r)

/-- The preferred end of a match that starts at a position. -/
def firstEnd? (m : Matcher) (text : Source) (pos : Nat) : Option Nat :=
  match m with
  | listing r => r.firstEnd? text pos
  | running a => a.firstEnd? text pos

/-- The leftmost match that starts at or after a position.  What lies before the position is
seen by anchors, though no match starts there. -/
def find (m : Matcher) (text : Source) (pos : Nat) : Option Span :=
  match m with
  | listing r => Search.leftmost (r.firstEnd? text) (text.size + 1 - pos) pos
  | running a => a.find text pos

/-- Successive matches from `pos` on.  An empty match right where the previous one ended is
passed over.  `fuel` bounds the number of matches. -/
def findAllFrom (m : Matcher) (text : Source) : Nat → Nat → Option Nat → List Span
  | 0, _, _ => []
  | fuel + 1, pos, last =>
    let found := match m.find text pos with
      | some s => if s.isEmpty && last == some s.stop then m.find text (pos + 1) else some s
      | none => none
    match found with
    | some s => s :: findAllFrom m text fuel s.stop (some s.stop)
    | none => []

/-- All matches from left to right, none overlapping the one before. -/
def findAll (m : Matcher) (text : Source) : List Span :=
  m.findAllFrom text (text.size + 2) 0 none

end Matcher

end Highlighting
