/-
  Highlighting/Regex/Syntax.lean
  ==============================
  **Regular expressions** as trees.

  The constructors are the few that carry meaning of their own.  What else can
  be written is spelled with them: `r?`, `r*` and `r+` are repetitions with
  other counts.  Since only the extent of a match is asked for, a group
  matches what its body matches, and its number tells it from other groups.

  Sets of characters are trees as well, over ranges and the classes that have
  a name.
-/
import Highlighting.Text.CharClass
import Highlighting.Text.Casing

namespace Highlighting

/-! ## Sets of characters -/

inductive CharSet where
  | empty
  | range (first last : Char)
  /-- Letters, marks, digits and connectors of any script. -/
  | word
  /-- Decimal digits of any script. -/
  | digit
  | space
  /-- The characters whose code points are in a table. -/
  | table (ranges : CharTable)
  /-- All characters but those of the set. -/
  | compl (s : CharSet)
  | union (s t : CharSet)
  | inter (s t : CharSet)
  /-- The set with all that differs from its members in case alone. -/
  | folded (s : CharSet)
  deriving DecidableEq, Repr

namespace CharSet

def contains : CharSet → Char → Bool
  | empty, _ => false
  | range first last, c => decide (first ≤ c) && decide (c ≤ last)
  | word, c => CharClass.isWord c
  | digit, c => CharClass.isDigit c
  | space, c => CharClass.isSpace c
  | table ranges, c => ranges.contains c.toNat
  | compl s, c => !s.contains c
  | union s t, c => s.contains c || t.contains c
  | inter s t, c => s.contains c && t.contains c
  | folded s, c => (Casing.variants c).any s.contains

def single (c : Char) : CharSet := range c c

def unionAll : List CharSet → CharSet
  | [] => empty
  | [s] => s
  | s :: rest => union s (unionAll rest)

def ofChars (cs : List Char) : CharSet := unionAll (cs.map single)

def all : CharSet := compl empty

def notLineFeed : CharSet := compl (single '\n')

/-- The characters up to U+007F. -/
def ascii : CharSet := range '\x00' '\x7f'

def asciiLetters : CharSet := union (range 'a' 'z') (range 'A' 'Z')

def asciiDigits : CharSet := range '0' '9'

/-- ASCII letters and digits, and the underscore. -/
def asciiWord : CharSet := unionAll [asciiLetters, asciiDigits, single '_']

def asciiSpace : CharSet := union (range '\t' '\x0d') (single ' ')

/-- Hexadecimal digits of either case. -/
def hexDigits : CharSet := unionAll [asciiDigits, range 'a' 'f', range 'A' 'F']

/-- The ranges that make up the set, when it is written with nothing else. -/
def ranges? : CharSet → Option (List (Char × Char))
  | empty => some []
  | range first last => some [(first, last)]
  | union s t => do return (← s.ranges?) ++ (← t.ranges?)
  | _ => none

/-- Whether two sets plainly have no character in common: both are made of ranges, none of
which meet. -/
def apart (s t : CharSet) : Bool :=
  match s.ranges?, t.ranges? with
  | some rs, some qs =>
    rs.all fun r => qs.all fun q => decide (r.2 < q.1) || decide (q.2 < r.1)
  | _, _ => false

end CharSet

/-! ## Conditions on a position -/

/-- Where a position lies between word characters and others. -/
inductive WordEdge where
  /-- A word character on one side only. -/
  | boundary
  /-- A word character on both sides or on neither. -/
  | inside
  /-- A word character behind it alone. -/
  | start
  /-- A word character in front of it alone. -/
  | stop
  /-- No word character in front of it. -/
  | startHalf
  /-- No word character behind it. -/
  | stopHalf
  deriving DecidableEq, Repr

/-- A condition on a position, which takes no character. -/
inductive Anchor where
  | textStart
  | textEnd
  /-- A line starts; carriage returns may count as line breaks too. -/
  | lineStart (returns : Bool)
  | lineEnd (returns : Bool)
  /-- Word characters may be the ASCII ones alone. -/
  | word (edge : WordEdge) (ascii : Bool)
  deriving DecidableEq, Repr

/-! ## Expressions -/

inductive Regex where
  /-- Matches without taking a character. -/
  | empty
  /-- Takes one character of the set. -/
  | set (s : CharSet)
  /-- Matches where the condition holds. -/
  | anchor (a : Anchor)
  | seq (first second : Regex)
  /-- Either; the first is preferred. -/
  | alt (first second : Regex)
  | group (index : Nat) (body : Regex)
  /-- At least `least` times and at most `most`, or without a limit.  A greedy repetition
  prefers more, another prefers fewer. -/
  | rep (greedy : Bool) (least : Nat) (most : Option Nat) (body : Regex)
  deriving DecidableEq, Repr, Inhabited

namespace Regex

def char (c : Char) : Regex := set (.single c)

def seqAll : List Regex → Regex
  | [] => empty
  | [r] => r
  | r :: rs => seq r (seqAll rs)

/-- One of a list, earlier ones preferred. -/
def altAll : List Regex → Regex
  | [] => empty
  | [r] => r
  | r :: rs => alt r (altAll rs)

/-- Whether the expression can match without taking a character, conditions aside. -/
def nullable : Regex → Bool
  | empty => true
  | set _ => false
  | anchor _ => true
  | seq a b => a.nullable && b.nullable
  | alt a b => a.nullable || b.nullable
  | group _ body => body.nullable
  | rep _ least _ body => least == 0 || body.nullable

end Regex

end Highlighting
