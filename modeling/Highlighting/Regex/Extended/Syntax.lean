/-
  Highlighting/Regex/Extended/Syntax.lean
  =======================================
  **Extended expressions**: regular expressions that can look around, refer
  back to what a group has taken, and give up choices on purpose.

  Most of an extended expression is usually plain.  What is not is called
  *hard* (`isHard`): it has to be searched by trying one choice after the
  other.  The rest can be left to a matcher of regular expressions
  (`toRegex?`).  Whether a stretch is left to it also depends on whether all
  its matches have the same length (`isFixed`).
-/
import Highlighting.Regex.Normal

namespace Highlighting

inductive Extended where
  | empty
  | set (s : CharSet)
  | anchor (a : Anchor)
  /-- One after the other; a longer sequence goes on in `rest`. -/
  | seq (first rest : Extended)
  /-- Either, the first preferred; further alternatives follow in `rest`. -/
  | alt (first rest : Extended)
  /-- A sequence or a choice that stands in parentheses. -/
  | group (body : Extended)
  /-- Remembers what the body took under a number. -/
  | capture (index : Nat) (body : Extended)
  /-- At least `least` times and at most `most`, or without a limit. -/
  | rep (greedy : Bool) (least : Nat) (most : Option Nat) (body : Extended)
  /-- Takes again what was remembered under a number. -/
  | again (index : Nat)
  /-- Matches where something has been remembered under a number. -/
  | known (index : Nat)
  /-- Matches where the body matches next, or where it does not. -/
  | ahead (negated : Bool) (body : Extended)
  /-- Matches where the body takes the characters before, or where it does not. -/
  | behind (negated : Bool) (body : Extended)
  /-- The preferred match of the body, or none. -/
  | atomic (body : Extended)
  /-- What has been taken so far is left out of the match. -/
  | keep
  /-- Matches where the search began. -/
  | origin
  /-- The second part after the first, or the third where the first does not match. -/
  | conditional (condition yes no : Extended)
  deriving DecidableEq, Repr, Inhabited

namespace Extended

def seqAll : List Extended → Extended
  | [] => empty
  | [e] => e
  | e :: es => seq e (seqAll es)

/-- One of a list, earlier ones preferred. -/
def altAll : List Extended → Extended
  | [] => empty
  | [e] => e
  | e :: es => alt e (altAll es)

/-- In parentheses, where these make a difference. -/
def grouped : Extended → Extended
  | seq a b => group (seq a b)
  | alt a b => group (alt a b)
  | e => e

/-- Without parentheses around the whole. -/
def ungrouped : Extended → Extended
  | group e => e
  | e => e

/-! ## Lengths -/

/-- The least number of characters that a match takes, by the written form. -/
def minLength : Extended → Nat
  | empty => 0
  | set _ => 1
  | anchor _ => 0
  | seq a b => a.minLength + b.minLength
  | alt a b => min a.minLength b.minLength
  | group e => e.minLength
  | capture _ e => e.minLength
  | rep _ least _ e => e.minLength * least
  | again _ => 0
  | known _ => 0
  | ahead _ _ => 0
  | behind _ _ => 0
  | atomic e => e.minLength
  | keep => 0
  | origin => 0
  | conditional c yes no => c.minLength + min yes.minLength no.minLength

/-- Whether all matches take that many characters, by the written form. -/
def isFixed : Extended → Bool
  | empty => true
  | set _ => true
  | anchor _ => true
  | seq a b => a.isFixed && b.isFixed
  | alt a b => a.isFixed && b.isFixed && a.minLength == b.minLength
  | group e => e.isFixed
  | capture _ e => e.isFixed
  | rep _ least most e => e.isFixed && most == some least
  | again _ => false
  | known _ => true
  | ahead _ _ => true
  | behind _ _ => true
  | atomic e => e.isFixed
  | keep => true
  | origin => true
  | conditional c yes no =>
    c.isFixed && yes.isFixed && no.isFixed && c.minLength + yes.minLength == no.minLength

/-! ## Hard and easy parts -/

def mentioned : Extended → List Nat
  | empty => []
  | set _ => []
  | anchor _ => []
  | seq a b => a.mentioned ++ b.mentioned
  | alt a b => a.mentioned ++ b.mentioned
  | group e => e.mentioned
  | capture _ e => e.mentioned
  | rep _ _ _ e => e.mentioned
  | again k => [k]
  | known k => [k]
  | ahead _ e => e.mentioned
  | behind _ e => e.mentioned
  | atomic e => e.mentioned
  | keep => []
  | origin => []
  | conditional c yes no => c.mentioned ++ yes.mentioned ++ no.mentioned

/-- Whether a condition asks for the kinds of the characters around. -/
def isWordAnchor : Anchor → Bool
  | .word _ _ => true
  | _ => false

/-- Whether the expression has to be searched choice by choice: it asks for word edges, it looks
around or back, or it remembers something under one of the numbers mentioned. -/
def isHard (mentioned : List Nat) : Extended → Bool
  | empty => false
  | set _ => false
  | anchor a => isWordAnchor a
  | seq a b => a.isHard mentioned || b.isHard mentioned
  | alt a b => a.isHard mentioned || b.isHard mentioned
  | group e => e.isHard mentioned
  | capture k e => mentioned.contains k || e.isHard mentioned
  | rep _ _ _ e => e.isHard mentioned
  | again _ => true
  | known _ => true
  | ahead _ _ => true
  | behind _ _ => true
  | atomic _ => true
  | keep => true
  | origin => true
  | conditional _ _ _ => true

/-- The alternatives of an easy expression as regular ones; `none` for a hard one, and when a
repetition has a limit below its least count. -/
def toAlternatives? : Extended → Option (List Regex)
  | empty => some [.empty]
  | set s => some [.set s.simplified]
  | anchor a => some [.anchor a]
  | seq a b => do return [.joined [.chosen (← a.toAlternatives?), .chosen (← b.toAlternatives?)]]
  | alt a b => do return .chosen (← a.toAlternatives?) :: (← b.toAlternatives?)
  | group e => do return [.chosen (← e.toAlternatives?)]
  | capture k e => do return [.group k (.chosen (← e.toAlternatives?))]
  | rep greedy least most e => do
    if most.any (· < least) then none
    return [.repeated greedy least most (.chosen (← e.toAlternatives?))]
  | _ => none

/-- The regular expression that an easy one is. -/
def toRegex? (e : Extended) : Option Regex := e.toAlternatives?.map .chosen

end Extended

end Highlighting
