/-
  Highlighting/NumberLiteral.lean
  ===============================
  **Number literals**, found without a regular expression.

  A literal is an optional minus sign followed by one of

    * `0x` or `0X` and a group of hexadecimal digits;
    * a decimal: a group of digits that does not start with zero, with an
      optional point and fraction, or a point and a fraction; then an
      optional exponent;
    * the digit zero.

  A group is digits with single underscores between them.  A branch that
  starts with a digit must not continue a word or follow a dollar sign, and no
  literal may be followed by a word character or a dollar sign.

  The last condition makes the longest candidate not always the right one:
  in `1.x` the literal is `1`.  So the candidates are listed in order of
  preference, the longest groups first, and the first one that may end where
  it ends is taken.

  A search passes over the characters that no literal starts with before it
  lists any candidates (`endAt?`).
-/
import Highlighting.Text.Search
import Highlighting.Text.CharClass

namespace Highlighting.NumberLiteral

open CharClass (isAsciiDigit isHexDigit isAsciiWord)

/-! ### Conditions on the surroundings -/

def continuesWord (c : Char) : Bool := isAsciiWord c || c == '$'

/-- No identifier reaches up to the position. -/
def startsWord (text : Source) (pos : Nat) : Bool := !(text.before? pos).any continuesWord

/-- No identifier goes on at the position. -/
def endsLiteral (text : Source) (pos : Nat) : Bool := !(text[pos]?).any continuesWord

/-! ### Candidates -/

/-- The ends of a digit group after its first digit, longest first, in front of `shorter`.
`fuel` bounds the number of further digits. -/
def groupEndsFrom (text : Source) (digit : Char → Bool) : Nat → Nat → List Nat → List Nat
  | 0, pos, shorter => pos :: shorter
  | fuel + 1, pos, shorter =>
    if (text[pos]?).any digit then
      groupEndsFrom text digit fuel (pos + 1) (pos :: shorter)
    else if text[pos]? == some '_' && (text[pos + 1]?).any digit then
      groupEndsFrom text digit fuel (pos + 2) (pos :: shorter)
    else pos :: shorter

/-- Where a group of digits that starts at the position can end, longest first. -/
def groupEnds (text : Source) (digit : Char → Bool) (pos : Nat) : List Nat :=
  if (text[pos]?).any digit then groupEndsFrom text digit (text.size - pos) (pos + 1) []
  else []

/-- Where an exponent that starts at the position can end, longest first. -/
def exponentEnds (text : Source) (pos : Nat) : List Nat :=
  if (text[pos]?).any fun c => c == 'e' || c == 'E' then
    if (text[pos + 1]?).any fun c => c == '-' || c == '+' then
      groupEnds text isAsciiDigit (pos + 2)
    else groupEnds text isAsciiDigit (pos + 1)
  else []

/-- Where the part of a decimal before its exponent can end, preferred ends first. -/
def mantissaEnds (text : Source) (pos : Nat) : List Nat :=
  if (text[pos]?).any (fun c => isAsciiDigit c && c != '0') && startsWord text pos then
    (groupEnds text isAsciiDigit pos).flatMap fun integer =>
      if text[integer]? == some '.' then
        -- a fraction, a bare point, or a point that is not part of the literal
        groupEnds text isAsciiDigit (integer + 1) ++ [integer + 1, integer]
      else [integer]
  else if text[pos]? == some '.' then groupEnds text isAsciiDigit (pos + 1)
  else []

/-! ### Literals -/

def hexEnd? (text : Source) (pos : Nat) : Option Nat :=
  if text[pos]? == some '0' && (text[pos + 1]?).any (fun c => c == 'x' || c == 'X') &&
      startsWord text pos then
    (groupEnds text isHexDigit (pos + 2)).find? (endsLiteral text)
  else none

def decimalEnd? (text : Source) (pos : Nat) : Option Nat :=
  (mantissaEnds text pos).findSome? fun mantissa =>
    (exponentEnds text mantissa ++ [mantissa]).find? (endsLiteral text)

def zeroEnd? (text : Source) (pos : Nat) : Option Nat :=
  if text[pos]? == some '0' && startsWord text pos && endsLiteral text (pos + 1) then
    some (pos + 1)
  else none

/-- The end of the literal that starts at the position, if one does. -/
def matchAt? (text : Source) (pos : Nat) : Option Nat :=
  let body := if text[pos]? == some '-' then pos + 1 else pos
  hexEnd? text body <|> decimalEnd? text body <|> zeroEnd? text body

/-! ### Searches -/

/-- What a literal can start with, but for its sign. -/
def startsUnsigned (c : Char) : Bool := isAsciiDigit c || c == '.'

/-- What a literal can start with. -/
def startsLiteral (c : Char) : Bool := startsUnsigned c || c == '-'

/-- The end of the literal that starts at the position, tried for only where one can start. -/
def endAt? (text : Source) (pos : Nat) : Option Nat :=
  if (text[pos]?).any startsLiteral then matchAt? text pos else none

def find (text : Source) (pos : Nat) : Option Span :=
  Search.leftmost (endAt? text) (text.size - pos) pos

/-- Successive literals from `pos` on; `fuel` bounds their number. -/
def findAllFrom (text : Source) : Nat → Nat → List Span
  | 0, _ => []
  | fuel + 1, pos =>
    match find text pos with
    | some s => s :: findAllFrom text fuel s.stop
    | none => []

/-- All literals from left to right, each searched for from the end of the one before. -/
def findAll (text : Source) : List Span := findAllFrom text (text.size + 1) 0

end Highlighting.NumberLiteral
