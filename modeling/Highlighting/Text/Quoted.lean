/-
  Highlighting/Text/Quoted.lean
  =============================
  **Quoted text**: a string between double quotes on one line, from which the
  string can be read back.

  Quotes, backslashes and the usual controls have short escapes.  Every other
  character that would be invisible, or would join its neighbour, is written
  by its code point in lower-case hexadecimal between braces.
-/
import Highlighting.Text.CharTable

namespace Highlighting.Quoted

/-- The lower-case hexadecimal digits of a number, without padding. -/
def hexDigits (n : Nat) : List Char := Nat.toDigits 16 n

/-- Whether a character needs its code point written out. -/
def needsCodePoint (c : Char) : Bool :=
  if c.toNat < 128 then decide (c.toNat < 32) || c.toNat == 127
  else CharTable.escapedInQuotes.contains c.toNat

def encodeChar (c : Char) : List Char :=
  if c == '\t' then ['\\', 't']
  else if c == '\r' then ['\\', 'r']
  else if c == '\n' then ['\\', 'n']
  else if c == '"' then ['\\', '"']
  else if c == '\\' then ['\\', '\\']
  else if c.toNat == 0 then ['\\', '0']
  else if needsCodePoint c then ['\\', 'u', '\x7b'] ++ hexDigits c.toNat ++ ['\x7d']
  else [c]

/-- The written form of a string, with its quotes. -/
def encode (s : String) : String :=
  String.ofList ('"' :: s.toList.flatMap encodeChar ++ ['"'])

end Highlighting.Quoted
