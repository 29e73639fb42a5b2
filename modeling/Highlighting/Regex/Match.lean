/-
  Highlighting/Regex/Match.lean
  =============================
  **Matching**: where a regular expression can end, in order of preference.

  `Regex.ends` answers for one starting point with the list of all end
  points, the preferred one first.  This one list says everything: an
  alternative is an append, a sequence goes on from each end in turn, a
  greedy repetition lists the far ends first.

  Beyond its least number of iterations a repetition goes on only after one
  that has taken a character, so the text that is left bounds their number.
-/
import Highlighting.Regex.Syntax
import Highlighting.Text.Source

namespace Highlighting

/-! ## Conditions -/

/-- Whether the edge lies between two neighbours, of which `before` and `after` say if they
are word characters. -/
def WordEdge.holds (before after : Bool) : WordEdge → Bool
  | boundary => before != after
  | inside => before == after
  | start => !before && after
  | stop => before && !after
  | startHalf => !before
  | stopHalf => !after

def Anchor.holds (text : Source) (pos : Nat) : Anchor → Bool
  | textStart => pos == 0
  | textEnd => pos == text.size
  | lineStart returns =>
    let before := text.before? pos
    pos == 0 || before == some '\n' ||
      (returns && before == some '\r' && text[pos]? != some '\n')
  | lineEnd returns =>
    let after := text[pos]?
    pos == text.size ||
      (if returns then after == some '\r' || (after == some '\n' && text.before? pos != some '\r')
       else after == some '\n')
  | word edge ascii =>
    let isWord := if ascii then CharClass.isAsciiWord else CharClass.isWord
    edge.holds ((text.before? pos).any isWord) ((text[pos]?).any isWord)

namespace Regex

/-! ## Ends -/

/-- The ends of `n` iterations of `step` from each of the positions. -/
def times (step : Nat → List Nat) : Nat → List Nat → List Nat
  | 0, ps => ps
  | n + 1, ps => if ps.isEmpty then [] else times step n (ps.flatMap step)

/-- The ends of up to `limit` iterations of `step` from a position, in front of `later`.  Only
iterations that get further count. -/
def iterations (greedy : Bool) (step : Nat → List Nat) : Nat → Nat → List Nat → List Nat
  | 0, pos, later => pos :: later
  | limit + 1, pos, later =>
    let further := fun later => (step pos).foldr
      (fun stop later => if pos < stop then iterations greedy step limit stop later else later)
      later
    if greedy then further (pos :: later) else pos :: further later

/-- The ends of a match of the expression that starts at a position, preferred ones first. -/
def ends (text : Source) : Regex → Nat → List Nat
  | empty, pos => [pos]
  | set s, pos =>
    match text[pos]? with
    | some c => if s.contains c then [pos + 1] else []
    | none => []
  | anchor a, pos => if a.holds text pos then [pos] else []
  | seq first second, pos => (first.ends text pos).flatMap (second.ends text)
  | alt first second, pos => first.ends text pos ++ second.ends text pos
  | group _ body, pos => body.ends text pos
  | rep greedy least most body, pos =>
    let limit := match most with
      | some m => m - least
      | none => text.size + 1 - pos
    (times (body.ends text) least [pos]).flatMap
      fun p => iterations greedy (body.ends text) limit p []

/-- The preferred end of a match that starts at a position. -/
def firstEnd? (r : Regex) (text : Source) (pos : Nat) : Option Nat := (r.ends text pos).head?

end Regex

end Highlighting
