/-
  Highlighting/Output/YamlScalar.lean
  ===================================
  **Strings in YAML.**

  A string is written in the plainest of four styles that reads back as the
  same string.

    * Without a line feed it is written plain, unless it would read as null, a
      boolean or a number, or holds something that means more than itself;
      then it stands between single quotes.
    * With a line feed it is written as a literal block: its lines below,
      indented.  The head of the block tells how the text begins and ends.
    * What neither of these can carry stands between double quotes, with
      escapes.
-/
import Highlighting.Decimal.Basic

namespace Highlighting.Output.Yaml

open CharClass (isAsciiDigit)

/-! ## What reads as something else than a string -/

/-- A leading sign dropped. -/
def unsigned : List Char → List Char
  | '+' :: rest => rest
  | '-' :: rest => rest
  | cs => cs

/-- Digits behind a leading zero, which read as a string. -/
def zeroPadded (cs : List Char) : Bool :=
  match unsigned cs with
  | '0' :: d :: rest => (d :: rest).all isAsciiDigit
  | _ => false

/-- Value of a number without sign, in the base that its beginning says. -/
def natural? : List Char → Option Nat
  | '0' :: 'x' :: rest => Decimal.valueIn? 16 rest
  | '0' :: 'o' :: rest => Decimal.valueIn? 8 rest
  | '0' :: 'b' :: rest => Decimal.valueIn? 2 rest
  | cs => Decimal.valueIn? 10 cs

def isInteger (cs : List Char) : Bool :=
  !zeroPadded cs &&
    match cs with
    | '-' :: rest => (natural? rest).any (· ≤ Nat.pow 2 127)
    | '+' :: rest => (natural? rest).any (· < Nat.pow 2 128)
    | cs => (natural? cs).any (· < Nat.pow 2 128)

/-- The exponent of a decimal, zero when there is none; `none` when the text is no exponent. -/
def exponent? : List Char → Option Int
  | [] => some 0
  | c :: rest =>
    if c == 'e' || c == 'E' then
      match rest with
      | '-' :: digits => (Decimal.valueIn? 10 digits).map fun n => -(n : Int)
      | '+' :: digits => (Decimal.valueIn? 10 digits).map Int.ofNat
      | digits => (Decimal.valueIn? 10 digits).map Int.ofNat
    else none

/-- Whether the text is a decimal without sign, with optional point and exponent, that
floating point holds. -/
def isDecimal (cs : List Char) : Bool :=
  let whole := cs.takeWhile isAsciiDigit
  let rest := cs.drop whole.length
  let fraction := match rest with
    | '.' :: rest => rest.takeWhile isAsciiDigit
    | _ => []
  let rest := match rest with
    | '.' :: rest => rest.drop fraction.length
    | _ => rest
  !(whole.isEmpty && fraction.isEmpty) &&
    match exponent? rest with
    | some e =>
      let digits := (Decimal.valueIn? 10 (whole ++ fraction)).getD 0
      Decimal.fitsDouble ⟨false, digits, e - fraction.length⟩
    | none => false

def isFloat (cs : List Char) : Bool :=
  let special (names : List String) (cs : List Char) := names.any (·.toList == cs)
  !zeroPadded cs &&
    (special [".nan", ".NaN", ".NAN", "-.inf", "-.Inf", "-.INF"] cs ||
      match cs with
      | '+' :: rest => special [".inf", ".Inf", ".INF"] rest || isDecimal rest
      | '-' :: rest => isDecimal rest
      | cs => special [".inf", ".Inf", ".INF"] cs || isDecimal cs)

/-- Whether the text, written plain, reads as something else than a string, or could be taken
for a number. -/
def readsOtherwise (s : String) : Bool :=
  let cs := s.toList
  s.isEmpty || ["null", "Null", "NULL", "~"].contains s ||
    ["true", "True", "TRUE", "false", "False", "FALSE"].contains s ||
    zeroPadded cs || isInteger cs || isFloat cs

/-! ## What a style can carry -/

def isBreak (c : Char) : Bool :=
  c == '\n' || c == '\r' || c.toNat == 0x85 || c.toNat == 0x2028 || c.toNat == 0x2029

/-- The end of the text, a blank, a tab or the end of a line. -/
def isBlankOrEnd (c : Option Char) : Bool :=
  match c with
  | none => true
  | some c => c == ' ' || c == '\t' || isBreak c

/-- A character that can be written as itself: no control, no mark for the order of bytes,
and none beyond sixteen bits. -/
def isPrintable (c : Char) : Bool :=
  let n := c.toNat
  n == 10 || (decide (0x20 ≤ n) && decide (n ≤ 0x7E)) ||
    (decide (0xA0 ≤ n) && decide (n ≤ 0xFFFD) && n != 0xFEFF)

/-- Characters that mean something at the start of a plain string. -/
def startIndicators : List Char :=
  ['#', ',', '[', ']', '\x7b', '\x7d', '&', '*', '!', '|', '>', '\'', '"', '%', '@', '\x60']

/-- Whether the text after its first character holds a colon before a blank or a number sign
after one. -/
def hasInnerIndicator (previous : Char) : List Char → Bool
  | [] => false
  | c :: rest =>
    (c == ':' && isBlankOrEnd rest.head?) || (c == '#' && isBlankOrEnd (some previous)) ||
      hasInnerIndicator c rest

/-- Whether something in the text would be taken for more than text. -/
def hasIndicator : List Char → Bool
  | [] => false
  | c :: rest =>
    "---".toList.isPrefixOf (c :: rest) || "...".toList.isPrefixOf (c :: rest) ||
      startIndicators.contains c ||
      ((c == '?' || c == ':' || c == '-') && isBlankOrEnd rest.head?) ||
      hasInnerIndicator c rest

/-- Whether two characters stand next to each other somewhere, the first of one kind and the
second of another. -/
def hasPair (first second : Char → Bool) : List Char → Bool
  | c :: d :: rest => (first c && second d) || hasPair first second (d :: rest)
  | _ => false

def isBlank (c : Char) : Bool := c == ' '

/-- Whether every character can be written as itself, and no line ends in a blank. -/
def isClean (cs : List Char) : Bool := cs.all isPrintable && !hasPair isBlank isBreak cs

/-- Whether the text can be written plain. -/
def plainCarries (cs : List Char) : Bool :=
  isClean cs && !cs.any isBreak && !hasIndicator cs && !cs.head?.any isBlank &&
    !cs.getLast?.any isBlank

def singleCarries (cs : List Char) : Bool := isClean cs && !hasPair isBreak isBlank cs

def literalCarries (cs : List Char) : Bool := isClean cs && !cs.getLast?.any isBlank

/-! ## Writing -/

inductive Style where
  | plain
  | single
  | literal
  | double
  deriving DecidableEq, Repr

def styleOf (s : String) : Style :=
  let cs := s.toList
  if cs.contains '\n' then if literalCarries cs then .literal else .double
  else if !readsOtherwise s && plainCarries cs then .plain
  else if singleCarries cs then .single
  else .double

def blanks (n : Nat) : List Char := List.replicate n ' '

/-- A digit of a code point, in upper case. -/
def hexDigit (n : Nat) : Char := (Nat.digitChar (n % 16)).toUpper

/-- The last `count` hexadecimal digits of a number. -/
def hexDigits (count n : Nat) : List Char :=
  (List.range count).reverse.map fun i => hexDigit (n / Nat.pow 16 i)

def escapeChar (c : Char) : List Char :=
  let n := c.toNat
  if n == 0 then ['\\', '0']
  else if n == 7 then ['\\', 'a']
  else if n == 8 then ['\\', 'b']
  else if n == 9 then ['\\', 't']
  else if n == 10 then ['\\', 'n']
  else if n == 11 then ['\\', 'v']
  else if n == 12 then ['\\', 'f']
  else if n == 13 then ['\\', 'r']
  else if n == 27 then ['\\', 'e']
  else if c == '"' then ['\\', '"']
  else if c == '\\' then ['\\', '\\']
  else if n == 0x85 then ['\\', 'N']
  else if n == 0x2028 then ['\\', 'L']
  else if n == 0x2029 then ['\\', 'P']
  else if isPrintable c then [c]
  else if n ≤ 0xFF then ['\\', 'x'] ++ hexDigits 2 n
  else if n ≤ 0xFFFF then ['\\', 'u'] ++ hexDigits 4 n
  else ['\\', 'U'] ++ hexDigits 8 n

/-- Lines of text: the characters, with `indent` blanks in front of what follows the end of
a line.  `fresh` says whether the place is right behind one. -/
def indented (indent : Nat) (each : Char → List Char) : Bool → List Char → List Char
  | _, [] => []
  | fresh, c :: rest =>
    if isBreak c then c :: indented indent each true rest
    else if fresh then blanks indent ++ each c ++ indented indent each false rest
    else each c ++ indented indent each false rest

/-- The head of a literal block: the indentation when the text begins with a blank or a
break, and what becomes of the breaks at its end. -/
def literalHead (cs : List Char) : List Char :=
  let hint := if cs.head?.any fun c => c == ' ' || isBreak c then ['2'] else []
  let chomp := match cs.reverse with
    | [] => ['-']
    | last :: before =>
      if !isBreak last then ['-']
      else if before.head?.all isBreak then ['+']
      else []
  '|' :: hint ++ chomp

/-- A string as a value, whose further lines are indented by `indent`.  The end of the line
is not part of it, except where a block has ended it already. -/
def writeString (indent : Nat) (s : String) : List Char :=
  let cs := s.toList
  match styleOf s with
  | .plain => cs
  | .single =>
    let body := indented indent (fun c => if c == '\'' then ['\'', '\''] else [c]) false cs
    let closing := if cs.getLast?.any isBreak then blanks indent else []
    '\'' :: body ++ closing ++ ['\'']
  | .double => '"' :: cs.flatMap escapeChar ++ ['"']
  | .literal => literalHead cs ++ '\n' :: indented indent (fun c => [c]) true cs

/-- A string as a value with the end of its line. -/
def writeLine (indent : Nat) (s : String) : List Char :=
  let written := writeString indent s
  if styleOf s = .literal && s.toList.getLast?.any isBreak then written else written ++ ['\n']

end Highlighting.Output.Yaml
