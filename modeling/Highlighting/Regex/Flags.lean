/-
  Highlighting/Regex/Flags.lean
  =============================
  **Flags** of written expressions, and what they make of what is written.

  A flag is a letter that is switched on or off inside the expression.  It
  changes the meaning of single constructs: the dot, the two line anchors,
  named classes, letters, and the greed of repetitions.
-/
import Highlighting.Regex.Syntax

namespace Highlighting.Regex

/-- The flags in force at a place. -/
structure Flags where
  /-- Letters stand for both cases (`i`). -/
  caseless : Bool
  /-- Lines have starts and ends of their own (`m`). -/
  multiLine : Bool
  /-- The dot takes line breaks (`s`). -/
  dotAll : Bool
  /-- Repetitions are lazy, and greedy with the mark that makes others lazy (`U`). -/
  swapGreed : Bool
  /-- White space and comments may be written anywhere (`x`). -/
  spaced : Bool
  /-- Carriage returns break lines too (`R`). -/
  returns : Bool
  /-- Classes hold characters of all scripts (`u`). -/
  unicode : Bool
  deriving DecidableEq, Repr

namespace Flags

/-- The flags at the start of an expression. -/
def usual : Flags := ⟨false, false, false, false, false, false, true⟩

/-- With the flag of a letter switched on or off; `none` when no flag has the letter. -/
def assign? (f : Flags) (letter : Char) (on : Bool) : Option Flags :=
  match letter with
  | 'i' => some { f with caseless := on }
  | 'm' => some { f with multiLine := on }
  | 's' => some { f with dotAll := on }
  | 'U' => some { f with swapGreed := on }
  | 'x' => some { f with spaced := on }
  | 'R' => some { f with returns := on }
  | 'u' => some { f with unicode := on }
  | _ => none

/-- The set that written characters stand for. -/
def cased (f : Flags) (s : CharSet) : CharSet :=
  if f.caseless then if f.unicode then .folded s else .inter .ascii (.folded s) else s

/-- The set of the dot.  Without scripts it has none, since it would cut characters into
bytes. -/
def dot? (f : Flags) : Option CharSet :=
  if !f.unicode then none
  else if f.dotAll then some .all
  else if f.returns then some (.compl (.ofChars ['\x0d', '\n']))
  else some .notLineFeed

def lineStart (f : Flags) : Anchor := if f.multiLine then .lineStart f.returns else .textStart

def lineEnd (f : Flags) : Anchor := if f.multiLine then .lineEnd f.returns else .textEnd

/-- Whether a letter names a class when it is escaped: capitals name what the small ones leave
out. -/
def isClassLetter (c : Char) : Bool := ['d', 'D', 's', 'S', 'w', 'W'].contains c

/-- The class that an escaped letter names.  Without scripts there are only those of ASCII
characters. -/
def class? (f : Flags) (letter : Char) : Option CharSet :=
  let pick (full ascii : CharSet) := if f.unicode then full else ascii
  let outside (s : CharSet) := if f.unicode then some (CharSet.compl s) else none
  match letter with
  | 'd' => some (pick .digit .asciiDigits)
  | 's' => some (pick .space .asciiSpace)
  | 'w' => some (pick .word .asciiWord)
  | 'D' => outside .digit
  | 'S' => outside .space
  | 'W' => outside .word
  | _ => none

/-- Whether a repetition is greedy, given whether the mark for lazy ones follows it. -/
def greed (f : Flags) (marked : Bool) : Bool := marked == f.swapGreed

end Flags

/-! ## What may be skipped -/

/-- The number of characters at the front that are white space or comments; a comment goes
from a number sign to the end of its line.  The first argument says whether a comment is
open. -/
def blankLength : Bool → List Char → Nat
  | _, [] => 0
  | true, c :: cs => 1 + blankLength (c != '\n') cs
  | false, c :: cs =>
    if CharClass.isSpace c then 1 + blankLength false cs
    else if c == '#' then 1 + blankLength true cs
    else 0

/-- The number of characters at the front that the flags let pass over. -/
def Flags.skip (f : Flags) (cs : List Char) : Nat := if f.spaced then blankLength false cs else 0

/-- Goes through a text with a step that says how many characters it took, at least one.  The
first argument is how many of the characters in front have been taken already. -/
def readAll {σ : Type} (step : σ → List Char → Option (σ × Nat)) : Nat → List Char → σ → Option σ
  | _, [], s => some s
  | taken + 1, _ :: cs, s => readAll step taken cs s
  | 0, c :: cs, s => do
    let (s, n) ← step s (c :: cs)
    readAll step (n - 1) cs s

end Highlighting.Regex
