/-
  Highlighting/Decimal/Basic.lean
  ===============================
  **Decimal numbers**, exact: a sign, digits, and a power of ten.
-/
import Highlighting.Text.CharClass

namespace Highlighting

/-- The number `± digits · 10 ^ exponent`. -/
structure Decimal where
  negative : Bool
  digits : Nat
  exponent : Int
  deriving DecidableEq, Repr, Inhabited

namespace Decimal

/-- Value of a list of digits in a base, `none` when there are none or one is not a digit of
the base. -/
def valueIn? (base : Nat) (digits : List Char) : Option Nat :=
  if digits.isEmpty then none
  else digits.foldl (fun n c => do
    let n ← n
    let d ← CharClass.hexValue? c
    if d < base then some (base * n + d) else none) (some 0)

def digitsOf (n : Nat) : List Char := Nat.toDigits 10 n

/-- The size of the number: how many digits stand before its point, or, counted downwards,
how many zeros follow it. -/
def magnitude (d : Decimal) : Int := (digitsOf d.digits).length + d.exponent

/-- Whether the number is nearer to a number of double precision than to infinity. -/
def fitsDouble (d : Decimal) : Bool :=
  let bound := Nat.pow 2 1024 - Nat.pow 2 970
  if d.digits == 0 || decide (d.magnitude < 308) then true
  else if 310 < d.magnitude then false
  else if 0 ≤ d.exponent then decide (d.digits * Nat.pow 10 d.exponent.toNat < bound)
  else decide (d.digits < bound * Nat.pow 10 (-d.exponent).toNat)

/-- The number in positional notation, with no more digits than it has. -/
def text (d : Decimal) : String :=
  let sign := if d.negative then ['-'] else []
  let ds := digitsOf d.digits
  let body :=
    if d.digits = 0 then ['0']
    else if 0 ≤ d.exponent then ds ++ List.replicate d.exponent.toNat '0'
    else
      let places := (-d.exponent).toNat
      if places < ds.length then
        ds.take (ds.length - places) ++ '.' :: ds.drop (ds.length - places)
      else '0' :: '.' :: (List.replicate (places - ds.length) '0' ++ ds)
  String.ofList (sign ++ body)

end Decimal

end Highlighting
