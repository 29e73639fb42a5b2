/-
  Highlighting/Text/CharClass.lean
  ================================
  **Classes of characters** that patterns and literals speak about.

  There are two families.  `isWord`, `isDigit` and `isSpace` are the Unicode
  classes that patterns name `\w`, `\d` and `\s`.  `isAsciiWord`,
  `isAsciiDigit` and `isHexDigit` are the plain ones that number literals are
  made of: no other script's digit ever starts a literal.
-/
import Highlighting.Text.CategoryTable
import Highlighting.Text.PropertyTable

namespace Highlighting.CharClass

/-! ## ASCII classes -/

def isAsciiDigit (c : Char) : Bool := decide ('0' ≤ c) && decide (c ≤ '9')

def isAsciiLetter (c : Char) : Bool :=
  (decide ('a' ≤ c) && decide (c ≤ 'z')) || (decide ('A' ≤ c) && decide (c ≤ 'Z'))

/-- An ASCII letter, an ASCII digit or the underscore. -/
def isAsciiWord (c : Char) : Bool := isAsciiLetter c || isAsciiDigit c || c == '_'

def isHexDigit (c : Char) : Bool :=
  isAsciiDigit c || (decide ('a' ≤ c) && decide (c ≤ 'f')) ||
    (decide ('A' ≤ c) && decide (c ≤ 'F'))

/-- Value of a hexadecimal digit, of either case. -/
def hexValue? (c : Char) : Option Nat :=
  if isAsciiDigit c then some (c.toNat - '0'.toNat)
  else if decide ('a' ≤ c) && decide (c ≤ 'f') then some (c.toNat - 'a'.toNat + 10)
  else if decide ('A' ≤ c) && decide (c ≤ 'F') then some (c.toNat - 'A'.toNat + 10)
  else none

/-! ## Unicode classes -/

/-- A letter, mark, decimal digit, connector or joiner of any script. -/
def isWord (c : Char) : Bool :=
  if c.toNat < 128 then isAsciiWord c else CharTable.wordChars.contains c.toNat

def isDigit (c : Char) : Bool :=
  if c.toNat < 128 then isAsciiDigit c else CharTable.decimalDigits.contains c.toNat

/-- White space: the five ASCII controls from tab to carriage return, the blank, and the
seventeen further spaces and separators of Unicode. -/
def isSpace (c : Char) : Bool :=
  let n := c.toNat
  (decide (9 ≤ n) && decide (n ≤ 13)) || n == 0x20 || n == 0x85 || n == 0xA0 || n == 0x1680 ||
    (decide (0x2000 ≤ n) && decide (n ≤ 0x200A)) || n == 0x2028 || n == 0x2029 ||
    n == 0x202F || n == 0x205F || n == 0x3000

/-! ## Case -/

def inAny (tables : List CharTable) (c : Char) : Bool := tables.any (·.contains c.toNat)

/-- A letter with case, or what counts as one. -/
def isCased (c : Char) : Bool :=
  inAny [.uppercaseLetters, .lowercaseLetters, .titlecaseLetters, .otherLowercase,
    .otherUppercase] c

/-- A character that may lie inside of a word without making it two, as far as case goes. -/
def isCaseIgnorable (c : Char) : Bool :=
  inAny [.nonspacingMarks, .enclosingMarks, .formats, .modifierLetters, .modifierSymbols,
    .wordInner] c

end Highlighting.CharClass
