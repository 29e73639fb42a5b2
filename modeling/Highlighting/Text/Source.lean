/-
  Highlighting/Text/Source.lean
  =============================
  **The text under study**, as the array of its characters.

  A position is a number of characters, so every position falls between two
  characters by construction: no operation can cut one in half.  Callers that
  count in UTF-8 bytes convert at the edge, with `byteOffset` and
  `positionAt`.
-/

namespace Highlighting

/-- A text as its characters in order; positions are indices into it. -/
abbrev Source := Array Char

/-- A stretch of text: the characters from `start` up to, not including, `stop`. -/
structure Span where
  start : Nat
  stop : Nat
  deriving DecidableEq, Repr, Inhabited

/-- A span holds no character when it stops where it starts, or before. -/
def Span.isEmpty (s : Span) : Bool := decide (s.stop ≤ s.start)

namespace Source

def ofString (s : String) : Source := s.toList.toArray

def chars (text : Source) (s : Span) : List Char := (text.extract s.start s.stop).toList

def slice (text : Source) (s : Span) : String := String.ofList (text.chars s)

def before? (text : Source) (pos : Nat) : Option Char :=
  match pos with
  | 0 => none
  | n + 1 => text[n]?

/-! ## Positions counted in bytes -/

/-- Number of UTF-8 bytes in front of a position. -/
def byteOffset (text : Source) (pos : Nat) : Nat :=
  (text.toList.take pos).foldl (fun n c => n + c.utf8Size) 0

/-- Position after the characters that start before byte `target`, when the first of `cs`
starts at byte `byte` and has position `pos`. -/
def positionFrom (target : Nat) : List Char → Nat → Nat → Nat
  | [], byte, pos => if target ≤ byte then pos else pos + 1
  | c :: cs, byte, pos =>
    if target ≤ byte then pos else positionFrom target cs (byte + c.utf8Size) (pos + 1)

/-- The first position at or after a byte offset; one past the end when the offset lies
beyond the text. -/
def positionAt (text : Source) (byte : Nat) : Nat :=
  positionFrom byte text.toList 0 0

end Source

end Highlighting
