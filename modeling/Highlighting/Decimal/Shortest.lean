/-
  Highlighting/Decimal/Shortest.lean
  ==================================
  **The shortest decimal that reads back** as the same number of double
  precision.

  A decimal is first rounded to a number `m · 2 ^ q` of double precision, to
  the even one of two that are equally near.  The numbers that round to it
  form an interval, whose ends belong to it when `m` is even.  Of the decimals
  in the interval those with the fewest digits are looked for, grid by grid;
  only the two neighbours of the number on a grid can be the nearest.

  All arithmetic is exact, on natural numbers.
-/
import Highlighting.Decimal.Basic

namespace Highlighting.Decimal

structure Ratio where
  num : Nat
  den : Nat

namespace Ratio

def scale (r : Ratio) (base : Nat) (power : Int) : Ratio :=
  if 0 ≤ power then ⟨r.num * Nat.pow base power.toNat, r.den⟩
  else ⟨r.num, r.den * Nat.pow base (-power).toNat⟩

def floor (r : Ratio) : Nat := r.num / r.den

/-- The nearest natural number, the even one of two. -/
def round (r : Ratio) : Nat :=
  let n := r.floor
  let twice := 2 * (r.num - n * r.den)
  if twice < r.den || (twice == r.den && n % 2 == 0) then n else n + 1

def less (r s : Ratio) : Bool := decide (r.num * s.den < s.num * r.den)

end Ratio

/-- A positive number of double precision: `mantissa · 2 ^ exponent`. -/
structure Double where
  mantissa : Nat
  exponent : Int

/-- The nearest number of double precision, zero mantissa and all. -/
def Ratio.toDouble (r : Ratio) : Double :=
  let size : Int := (Nat.log2 r.num : Int) - Nat.log2 r.den
  let low := max (size - 53) (-1074)
  let q := if Nat.pow 2 53 ≤ (r.scale 2 (-low)).floor then low + 1 else low
  let m := (r.scale 2 (-q)).round
  if m = Nat.pow 2 53 then ⟨Nat.pow 2 52, q + 1⟩ else ⟨m, q⟩

namespace Double

def ratio (d : Double) : Ratio := Ratio.scale ⟨d.mantissa, 1⟩ 2 d.exponent

/-- The lower end of the interval of numbers that round to this one. -/
def lower (d : Double) : Ratio :=
  if d.mantissa = Nat.pow 2 52 && decide (-1074 < d.exponent) then
    Ratio.scale ⟨4 * d.mantissa - 1, 4⟩ 2 d.exponent
  else Ratio.scale ⟨2 * d.mantissa - 1, 2⟩ 2 d.exponent

def upper (d : Double) : Ratio := Ratio.scale ⟨2 * d.mantissa + 1, 2⟩ 2 d.exponent

def attracts (d : Double) (r : Ratio) : Bool :=
  if d.mantissa % 2 = 0 then !r.less d.lower && !d.upper.less r
  else d.lower.less r && r.less d.upper

end Double

/-- How many digits the whole part of a fraction has; counted downwards for one below a
tenth. -/
def Ratio.magnitude (r : Ratio) : Int :=
  let guess : Int := ((digitsOf r.num).length : Int) - (digitsOf r.den).length
  if r.less (Ratio.scale ⟨1, 1⟩ 10 guess) then guess else guess + 1

/-- The better neighbour on the grid of multiples of `10 ^ k`, if one reads back. -/
def nearestOnGrid (d : Double) (k : Int) : Option Nat :=
  let r := d.ratio.scale 10 (-k)
  let below := r.floor
  let reads (n : Nat) : Bool := d.attracts (Ratio.scale ⟨n, 1⟩ 10 k)
  match reads below, reads (below + 1) with
  | true, true => some (if 2 * (r.num - below * r.den) < r.den then below else below + 1)
  | true, false => some below
  | false, true => some (below + 1)
  | false, false => none

/-- Tries grids with more and more digits, starting with `count`. -/
def shortestFrom (d : Double) (magnitude : Int) : Nat → Nat → Nat × Int
  | 0, _ => (0, 0)
  | fuel + 1, count =>
    let k := magnitude - count
    match nearestOnGrid d k with
    | some n => (n, k)
    | none => shortestFrom d magnitude fuel (count + 1)

/-- A decimal without zeros at its end. -/
def trimZeros : Nat → Nat × Int → Nat × Int
  | 0, p => p
  | fuel + 1, (n, k) => if n ≠ 0 && n % 10 == 0 then trimZeros fuel (n / 10, k + 1) else (n, k)

/-- The shortest decimal that rounds to the same number of double precision. -/
def shortest (d : Decimal) : Decimal :=
  if d.digits = 0 || decide (d.magnitude < -330) then ⟨d.negative, 0, 0⟩
  else
    let double := (Ratio.scale ⟨d.digits, 1⟩ 10 d.exponent).toDouble
    if double.mantissa = 0 then ⟨d.negative, 0, 0⟩
    else
      let (n, k) := trimZeros 20 (shortestFrom double double.ratio.magnitude 18 1)
      ⟨d.negative, n, k⟩

end Highlighting.Decimal
