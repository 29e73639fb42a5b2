/-
  Highlighting/Config/Value.lean
  ==============================
  **Values of settings**, before it is known what they are for.

  A table is a list of keys with their values; no key occurs twice.
-/
import Highlighting.Decimal.Basic

namespace Highlighting.Config

/-- A number that need not be whole. -/
inductive Real where
  | decimal (d : Decimal)
  | infinite (negative : Bool)
  | notANumber
  deriving DecidableEq, Repr, Inhabited

inductive Value where
  /-- The padding of an array that is written past its end. -/
  | nil
  | boolean (b : Bool)
  | integer (n : Int)
  | real (x : Real)
  | string (s : String)
  | array (items : List Value)
  | table (entries : List (String × Value))
  deriving Repr, Inhabited

abbrev Entries := List (String × Value)

namespace Entries

/-- Gives a key a value, in place of one that it had. -/
def set (key : String) (v : Value) : Entries → Entries
  | [] => [(key, v)]
  | (k, old) :: rest => if k = key then (k, v) :: rest else (k, old) :: set key v rest

end Entries

namespace Value

/-- The entries of a table; no entries for any other value. -/
def entries : Value → Entries
  | table es => es
  | _ => []

/-- The items of an array; no items for any other value. -/
def items : Value → List Value
  | array vs => vs
  | _ => []

end Value

end Highlighting.Config
