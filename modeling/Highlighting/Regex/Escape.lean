/-
  Highlighting/Regex/Escape.lean
  ==============================
  **Escapes**: what a backslash makes of the characters behind it.

  Readers take the remaining characters and give what they have read with its
  length, or `none` when nothing of the kind is written there.
-/
import Highlighting.Regex.Flags
import Highlighting.Regex.Property

namespace Highlighting.Regex

/-! ## Numbers -/

/-- Value of a list of hexadecimal digits, `none` when one is not a digit or there are none. -/
def hexNumber? : List Char → Option Nat
  | [] => none
  | cs => cs.foldl (fun n c => do return 16 * (← n) + (← CharClass.hexValue? c)) (some 0)

/-- The character of a code point written in hexadecimal. -/
def charOfHex? (digits : List Char) : Option Char := do
  let n ← hexNumber? digits
  if n.isValidChar then some (Char.ofNat n) else none

/-- The number of digits of the code point behind an escaped letter, when these do not stand
between braces. -/
def hexDigitCount? (letter : Char) : Option Nat :=
  match letter with
  | 'x' => some 2
  | 'u' => some 4
  | 'U' => some 8
  | _ => none

/-- The character of a code point, with the number of characters read: either digits between
braces, or exactly `count` digits. -/
def readCodePoint (count : Nat) : List Char → Option (Char × Nat)
  | '\x7b' :: rest =>
    let digits := rest.takeWhile (· != '\x7d')
    match rest.drop digits.length with
    | '\x7d' :: _ => (charOfHex? digits).map (·, digits.length + 2)
    | _ => none
  | rest =>
    let digits := rest.take count
    if digits.length = count then (charOfHex? digits).map (·, count) else none

def decimal (digits : List Char) : Nat :=
  digits.foldl (fun n c => 10 * n + (c.toNat - '0'.toNat)) 0

/-! ## Escapes -/

inductive Escape where
  | char (c : Char)
  | set (s : CharSet)
  | anchor (a : Anchor)

def controlChar? (letter : Char) : Option Char :=
  match letter with
  | 'n' => some '\n'
  | 't' => some '\t'
  | 'r' => some '\x0d'
  | 'f' => some '\x0c'
  | 'v' => some '\x0b'
  | 'a' => some '\x07'
  | _ => none

/-- The word edge that a name between braces stands for. -/
def wordEdge? (name : List Char) : Option WordEdge :=
  if name = "start".toList then some .start
  else if name = "end".toList then some .stop
  else if name = "start-half".toList then some .startHalf
  else if name = "end-half".toList then some .stopHalf
  else none

/-- The word edge behind an escaped `b`: a name between braces narrows it.  Braces that do not
start with a letter or a hyphen belong to a repetition. -/
def readWordEdge : List Char → Option (WordEdge × Nat)
  | '\x7b' :: c :: rest =>
    let isNameChar (c : Char) := CharClass.isAsciiLetter c || c == '-'
    if isNameChar c then
      let name := (c :: rest).takeWhile isNameChar
      match (c :: rest).drop name.length with
      | '\x7d' :: _ => (wordEdge? name).map (·, name.length + 2)
      | _ => none
    else some (.boundary, 0)
  | _ => some (.boundary, 0)

/-- The set of a property with the number of characters read, given the case of the escaped
letter: with a capital it is the set of all other characters.  Without scripts there are no
properties. -/
def readProperty (f : Flags) (capital : Bool) (cs : List Char) : Option (CharSet × Nat) := do
  if !f.unicode then none
  let blank := f.skip cs
  let ((s, negated), n) ← Property.read (cs.drop blank)
  return (if capital != negated then .compl (f.cased s) else f.cased s, blank + n)

/-- The escape that follows a backslash, with its length (the backslash not counted).  Any
ASCII character but letters, digits and angle brackets can be escaped to stand for itself. -/
def readEscape (f : Flags) : List Char → Option (Escape × Nat)
  | [] => none
  | c :: rest =>
    match hexDigitCount? c, controlChar? c with
    | some count, _ => (readCodePoint count rest).map fun (c, n) => (.char c, n + 1)
    | none, some control => some (.char control, 1)
    | none, none =>
      if Flags.isClassLetter c then (f.class? c).map fun s => (.set s, 1)
      else match c with
        | 'p' => (readProperty f false rest).map fun (s, n) => (.set s, n + 1)
        | 'P' => (readProperty f true rest).map fun (s, n) => (.set s, n + 1)
        | 'b' => (readWordEdge rest).map fun (e, n) => (.anchor (.word e (!f.unicode)), n + 1)
        | 'B' => some (.anchor (.word .inside (!f.unicode)), 1)
        | '<' => some (.anchor (.word .start (!f.unicode)), 1)
        | '>' => some (.anchor (.word .stop (!f.unicode)), 1)
        | 'A' => some (.anchor .textStart, 1)
        | 'z' => some (.anchor .textEnd, 1)
        | c =>
          if c.toNat < 128 && !CharClass.isAsciiLetter c && !CharClass.isAsciiDigit c then
            some (.char c, 1)
          else none

/-! ## Text that stands for itself -/

/-- Whether a character has a meaning of its own in a written expression. -/
def isSpecial (c : Char) : Bool :=
  ['\\', '.', '+', '*', '?', '(', ')', '|', '[', ']', '\x7b', '\x7d', '^', '$', '#', '&', '-',
    '~'].contains c

/-- The written form of a text that stands for itself. -/
def escape (cs : List Char) : List Char :=
  cs.flatMap fun c => if isSpecial c then ['\\', c] else [c]

end Highlighting.Regex
