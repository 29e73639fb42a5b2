/-
  Highlighting/Config/TomlScalar.lean
  ===================================
  **The small parts of TOML**: blanks, strings, keys, numbers, dates and times.

  Each reader takes the characters that are left and answers with what it read
  and what is left then, or with `none`.  A date or a time is read as a string
  in its usual form, since no setting is one.
-/
import Highlighting.Config.Value

namespace Highlighting.Config.Toml

open CharClass (isAsciiDigit isAsciiLetter)

/-! ## Blanks and line breaks -/

def skipBlanks (cs : List Char) : List Char := cs.dropWhile fun c => c == ' ' || c == '\t'

/-- What follows a line break at the front. -/
def break? : List Char → Option (List Char)
  | '\n' :: rest => some rest
  | '\r' :: '\n' :: rest => some rest
  | _ => none

/-- Drops blanks and line breaks.  `fuel` bounds the number of lines. -/
def skipSpace : Nat → List Char → List Char
  | 0, cs => cs
  | fuel + 1, cs =>
    match break? (skipBlanks cs) with
    | some rest => skipSpace fuel rest
    | none => skipBlanks cs

def isTextChar (c : Char) : Bool := c == '\t' || (decide (32 ≤ c.toNat) && c.toNat != 127)

def skipComment (cs : List Char) : List Char :=
  match skipBlanks cs with
  | '#' :: rest => rest.dropWhile isTextChar
  | rest => rest

/-- Drops blanks, comments and line breaks.  `fuel` bounds the number of lines. -/
def skipLines : Nat → List Char → List Char
  | 0, cs => cs
  | fuel + 1, cs =>
    match break? (skipComment cs) with
    | some rest => skipLines fuel rest
    | none => skipComment cs

/-- The end of a line, after blanks and a comment; the end of the text is one too. -/
def endOfLine? (cs : List Char) : Option (List Char) :=
  match skipComment cs with
  | [] => some []
  | rest => break? rest

/-! ## Strings -/

def codePoint? (digits : List Char) : Option Char := do
  let n ← Decimal.valueIn? 16 digits
  if n.isValidChar then some (Char.ofNat n) else none

/-- The character of an escape, after its backslash. -/
def escape? : List Char → Option (Char × List Char)
  | 'b' :: rest => some ('\x08', rest)
  | 't' :: rest => some ('\t', rest)
  | 'n' :: rest => some ('\n', rest)
  | 'f' :: rest => some ('\x0c', rest)
  | 'r' :: rest => some ('\r', rest)
  | '"' :: rest => some ('"', rest)
  | '\\' :: rest => some ('\\', rest)
  | 'u' :: rest =>
    if 4 ≤ rest.length then (codePoint? (rest.take 4)).map (·, rest.drop 4) else none
  | 'U' :: rest =>
    if 8 ≤ rest.length then (codePoint? (rest.take 8)).map (·, rest.drop 8) else none
  | _ => none

/-- The rest of a string in double quotes.  `fuel` bounds its length. -/
def basicString? : Nat → List Char → Option (List Char × List Char)
  | 0, _ => none
  | _ + 1, [] => none
  | _ + 1, '"' :: rest => some ([], rest)
  | fuel + 1, '\\' :: rest => do
    let (c, rest) ← escape? rest
    let (s, rest) ← basicString? fuel rest
    return (c :: s, rest)
  | fuel + 1, c :: rest => do
    if !isTextChar c then none
    let (s, rest) ← basicString? fuel rest
    return (c :: s, rest)

def literalString? (cs : List Char) : Option (List Char × List Char) :=
  let body := cs.takeWhile (· != '\'')
  match cs.drop body.length with
  | _ :: rest => if body.all isTextChar then some (body, rest) else none
  | [] => none

/-- The end of a block: three quotes.  Up to two more may stand in front of them, which belong
to the block. -/
def blockEnd? (quote : Char) (cs : List Char) : Option (List Char × List Char) :=
  let count := (cs.takeWhile (· == quote)).length
  if count < 3 then none
  else some (List.replicate (min (count - 3) 2) quote, cs.drop (min count 5))

/-- The rest of a block, a string of several lines.  In double quotes there are escapes, and a
backslash at the end of a line drops the line break with all blanks and line breaks behind
it.  `fuel` bounds its length. -/
def block? (quote : Char) : Nat → List Char → Option (List Char × List Char)
  | 0, _ => none
  | fuel + 1, cs =>
    match blockEnd? quote cs with
    | some found => some found
    | none =>
      match cs, break? cs with
      | [], _ => none
      | _, some rest => do
        let (s, rest) ← block? quote fuel rest
        return ('\n' :: s, rest)
      | c :: rest, none =>
        if c = '\\' ∧ quote = '"' then
          match break? (skipBlanks rest) with
          | some rest => block? quote fuel (skipSpace rest.length rest)
          | none => do
            let (c, rest) ← escape? rest
            let (s, rest) ← block? quote fuel rest
            return (c :: s, rest)
        else do
          if !isTextChar c then none
          let (s, rest) ← block? quote fuel rest
          return (c :: s, rest)

/-- A string of any kind.  A line break right at the start of a block does not belong to it. -/
def string? (cs : List Char) : Option (String × List Char) :=
  let found := match cs with
    | '"' :: '"' :: '"' :: rest => block? '"' (rest.length + 1) ((break? rest).getD rest)
    | '\'' :: '\'' :: '\'' :: rest => block? '\'' (rest.length + 1) ((break? rest).getD rest)
    | '"' :: rest => basicString? (rest.length + 1) rest
    | '\'' :: rest => literalString? rest
    | _ => none
  found.map fun (s, rest) => (String.ofList s, rest)

/-! ## Keys -/

def isBareKeyChar (c : Char) : Bool := isAsciiLetter c || isAsciiDigit c || c == '_' || c == '-'

def keyPart? (cs : List Char) : Option (String × List Char) :=
  match cs with
  | '"' :: rest =>
    (basicString? (rest.length + 1) rest).map fun (s, rest) => (String.ofList s, rest)
  | '\'' :: rest => (literalString? rest).map fun (s, rest) => (String.ofList s, rest)
  | cs =>
    let name := cs.takeWhile isBareKeyChar
    if name.isEmpty then none else some (String.ofList name, cs.drop name.length)

/-- The number of parts that a key may have, and of values that may stand inside each other. -/
def deepest : Nat := 79

/-- A key of one part or of several with points between them.  `limit` bounds their number. -/
def keyParts? : Nat → List Char → Option (List String × List Char)
  | 0, _ => none
  | limit + 1, cs => do
    let (part, rest) ← keyPart? (skipBlanks cs)
    match skipBlanks rest with
    | '.' :: rest =>
      let (parts, rest) ← keyParts? limit rest
      return (part :: parts, rest)
    | rest => return ([part], rest)

def key? (cs : List Char) : Option (List String × List Char) := keyParts? deepest cs

/-! ## Numbers -/

def grouped? (isDigit : Char → Bool) : List Char → Option (List Char)
  | [] => none
  | [c] => if isDigit c then some [c] else none
  | c :: '_' :: rest => if isDigit c then (grouped? isDigit rest).map (c :: ·) else none
  | c :: rest => if isDigit c then (grouped? isDigit rest).map (c :: ·) else none

def wholeDigits? (cs : List Char) : Option (List Char) :=
  match cs with
  | '0' :: _ :: _ => none
  | cs => grouped? isAsciiDigit cs

def splitSign : List Char → Bool × List Char
  | '-' :: rest => (true, rest)
  | '+' :: rest => (false, rest)
  | cs => (false, cs)

/-- An integer that sixty-four bits hold. -/
def integer? (cs : List Char) : Option Int := do
  let inRange (n : Int) : Option Int :=
    if -0x8000000000000000 ≤ n ∧ n < 0x8000000000000000 then some n else none
  match cs with
  | '0' :: 'x' :: rest => inRange (← Decimal.valueIn? 16 (← grouped? CharClass.isHexDigit rest))
  | '0' :: 'o' :: rest => inRange (← Decimal.valueIn? 8 (← grouped? isAsciiDigit rest))
  | '0' :: 'b' :: rest => inRange (← Decimal.valueIn? 2 (← grouped? isAsciiDigit rest))
  | cs =>
    let (negative, cs) := splitSign cs
    let n ← Decimal.valueIn? 10 (← wholeDigits? cs)
    inRange (if negative then -(n : Int) else n)

/-- The exponent of a decimal, after its letter. -/
def exponent? (cs : List Char) : Option Int := do
  let (negative, cs) := splitSign cs
  let n ← Decimal.valueIn? 10 (← grouped? isAsciiDigit cs)
  return if negative then -(n : Int) else n

/-- A number with a point, an exponent or both, or one of the names of special numbers. -/
def real? (cs : List Char) : Option Real := do
  let (negative, body) := splitSign cs
  if body = "inf".toList then return .infinite negative
  if body = "nan".toList then return .notANumber
  let whole := body.takeWhile fun c => isAsciiDigit c || c == '_'
  let rest := body.drop whole.length
  let (fraction, rest) ← match rest with
    | '.' :: rest =>
      let places := rest.takeWhile fun c => isAsciiDigit c || c == '_'
      (grouped? isAsciiDigit places).map (·, rest.drop places.length)
    | rest => some ([], rest)
  let exponent ← match rest with
    | [] => if fraction.isEmpty then none else some 0
    | c :: rest => if c == 'e' || c == 'E' then exponent? rest else none
  let digits ← Decimal.valueIn? 10 ((← wholeDigits? whole) ++ fraction)
  let d : Decimal := ⟨negative, digits, exponent - fraction.length⟩
  if d.fitsDouble then some (.decimal d) else none

/-! ## Dates and times -/

/-- A number of exactly `width` digits between two bounds: its value and its digits. -/
def field? (width low high : Nat) (cs : List Char) : Option (Nat × List Char × List Char) := do
  let digits := cs.take width
  if digits.length < width || !digits.all isAsciiDigit then none
  let n ← Decimal.valueIn? 10 digits
  if low ≤ n ∧ n ≤ high then some (n, digits, cs.drop width) else none

/-- The character at the front, which has to be the given one. -/
def expect? (c : Char) : List Char → Option (List Char)
  | d :: rest => if d = c then some rest else none
  | [] => none

def daysIn (year month : Nat) : Nat :=
  if month = 2 then
    if year % 4 = 0 ∧ (year % 100 ≠ 0 ∨ year % 400 = 0) then 29 else 28
  else if [4, 6, 9, 11].contains month then 30
  else 31

/-- A day of a year, such as `1979-05-27`. -/
def date? (cs : List Char) : Option (List Char × List Char) := do
  let (year, _, rest) ← field? 4 0 9999 cs
  let (month, _, rest) ← field? 2 1 12 (← expect? '-' rest)
  let (_, _, rest) ← field? 2 1 (daysIn year month) (← expect? '-' rest)
  return (cs.take 10, rest)

/-- The decimal places of a second, with their point: nine at most, and no zeros at the end. -/
def places (digits : List Char) : List Char :=
  let kept := (digits.take 9).reverse.dropWhile (· == '0')
  if kept.isEmpty then [] else '.' :: kept.reverse

/-- A time of day, such as `07:32:00.5`. -/
def time? (cs : List Char) : Option (List Char × List Char) := do
  let (_, _, rest) ← field? 2 0 23 cs
  let (_, _, rest) ← field? 2 0 59 (← expect? ':' rest)
  let (_, _, rest) ← field? 2 0 60 (← expect? ':' rest)
  match rest with
  | '.' :: fraction =>
    let digits := fraction.takeWhile isAsciiDigit
    if digits.isEmpty then return (cs.take 8, rest)
    else return (cs.take 8 ++ places digits, fraction.drop digits.length)
  | rest => return (cs.take 8, rest)

/-- How far a time is from the usual one: `Z`, or hours and minutes with a sign. -/
def offset? : List Char → Option (List Char × List Char)
  | [] => none
  | c :: cs =>
    if c = 'Z' ∨ c = 'z' then some (['Z'], cs)
    else if c = '+' ∨ c = '-' then do
      let (hours, _, rest) ← field? 2 0 23 cs
      let (minutes, _, rest) ← field? 2 0 59 (← expect? ':' rest)
      let sign := if hours = 0 ∧ minutes = 0 then '+' else c
      return (sign :: cs.take 5, rest)
    else none

/-- A date, a time, or both; then an offset may follow. -/
def moment? (cs : List Char) : Option (String × List Char) :=
  let asString := Option.map fun (t, rest) => (String.ofList t, rest)
  match date? cs with
  | none => asString (time? cs)
  | some (date, rest) =>
    match rest with
    | c :: later =>
      match if ['T', 't', ' '].contains c then time? later else none with
      | some (time, rest) =>
        let (offset, rest) := (offset? rest).getD ([], rest)
        asString (some (date ++ 'T' :: (time ++ offset), rest))
      | none => asString (some (date, rest))
    | [] => asString (some (date, rest))

/-! ## Values without quotes or brackets -/

def scalar? (cs : List Char) : Option Value :=
  if cs = "true".toList then some (.boolean true)
  else if cs = "false".toList then some (.boolean false)
  else match integer? cs with
    | some n => some (.integer n)
    | none => (real? cs).map .real

/-- Whether a character can belong to such a value. -/
def isScalarChar (c : Char) : Bool := isBareKeyChar c || c == '+' || c == '.'

def plain? (cs : List Char) : Option (Value × List Char) :=
  match moment? cs with
  | some (text, rest) => some (.string text, rest)
  | none =>
    let word := cs.takeWhile isScalarChar
    (scalar? word).map (·, cs.drop word.length)

end Highlighting.Config.Toml
