/-
  Highlighting/Regex/Limits.lean
  ==============================
  **Limits** on how deeply an expression nests and on how large it grows.

  An expression is refused when its automaton would take too much room.  How
  much that is depends on how the automaton is built, so a limit on the size
  is a measure together with the largest size that is accepted (`SizeLimit`).
  All that is asked of a measure is that an expression does not get smaller by
  a character behind it.

  The usual measure counts the states of an automaton for bytes, roughly: the
  states that tell the bytes of a set's characters are not counted out, and
  alternatives that begin alike do not share any.
-/
import Highlighting.Regex.Normal

namespace Highlighting.Regex

/-- The number of constructs that may lie inside each other. -/
def deepest : Nat := 250

/-! ### Counting states -/

/-- The number of states that an automaton may have, counted for a text of bytes. -/
def largest : Nat := 327000

/-- Roughly the number of states that tell the bytes of the set's characters. -/
def byteStates : CharSet → Nat
  | .range first last => if first = last then first.utf8Size else if last.toNat < 128 then 2 else 8
  | .union s t => byteStates s + byteStates t
  | .word => 1440
  | .digit => 150
  | .compl .word => 1440
  | .compl .digit => 150
  | .table ranges => 3 * ranges.size
  | _ => 14

/-- Roughly the number of states that the expression takes when it is run over bytes. -/
def stateCount : Regex → Nat
  | empty => 0
  | set s => byteStates s
  | anchor _ => 1
  | seq a b => a.stateCount + b.stateCount
  | alt a b => a.stateCount + b.stateCount + 1
  | group _ body => body.stateCount
  | rep _ least most body => max 1 (most.getD least) * body.stateCount + 2

theorem stateCount_seqAll_cons (r : Regex) (rs : List Regex) :
    (seqAll (r :: rs)).stateCount = r.stateCount + (seqAll rs).stateCount := by
  cases rs <;> rfl

theorem stateCount_seqAll_append (rs ss : List Regex) :
    (seqAll (rs ++ ss)).stateCount = (seqAll rs).stateCount + (seqAll ss).stateCount := by
  induction rs with
  | nil => exact (Nat.zero_add _).symm
  | cons r rs ih =>
    rw [List.cons_append, stateCount_seqAll_cons, stateCount_seqAll_cons, ih, Nat.add_assoc]

theorem stateCount_seqAll_factors (r : Regex) : (seqAll r.factors).stateCount = r.stateCount := by
  induction r with
  | empty | set _ | anchor _ | alt _ _ | group _ _ | rep _ _ _ _ => rfl
  | seq first second ih₁ ih₂ => rw [factors, stateCount_seqAll_append, ih₁, ih₂, stateCount]

theorem joined_char (own : Regex) (c : Char) :
    joined [own, char c] = seqAll (own.factors ++ [char c]) := rfl

theorem stateCount_le_joined (own : Regex) (c : Char) :
    own.stateCount ≤ (joined [own, char c]).stateCount := by
  rw [joined_char, stateCount_seqAll_append, stateCount_seqAll_factors]
  exact Nat.le_add_right _ _

/-! ### Limits on the size -/

/-- How large an expression may be. -/
structure SizeLimit where
  size : Regex → Nat
  most : Nat
  /-- With a character behind it, an expression is no smaller. -/
  size_le_joined : ∀ own c, size own ≤ size (joined [own, char c])

/-- The expression is small enough. -/
def SizeLimit.accepts (limit : SizeLimit) (r : Regex) : Bool := limit.size r ≤ limit.most

theorem SizeLimit.accepts_iff {limit : SizeLimit} {r : Regex} :
    limit.accepts r = true ↔ limit.size r ≤ limit.most := decide_eq_true_iff

def SizeLimit.usual : SizeLimit := ⟨stateCount, largest, stateCount_le_joined⟩

end Highlighting.Regex
