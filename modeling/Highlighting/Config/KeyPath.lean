/-
  Highlighting/Config/KeyPath.lean
  ================================
  **Paths to settings**, and what writing to one does.

  A path is a name, and then any number of names behind points and of numbers
  in brackets: `theme.keyword`, `output.list[2]`.  A number below zero counts
  from the end.

  Writing goes down the path and makes what it needs: a table for a name, an
  array for a number, in place of anything else that stood there.  A table
  that is written joins the one already there, entry by entry; any other
  value replaces what it meets.  Names are lower-cased on the way.
-/
import Highlighting.Config.Value
import Highlighting.Text.Casing

namespace Highlighting.Config

inductive Step where
  | child (name : String)
  | index (n : Int)
  deriving DecidableEq, Repr

/-- A path: at least one step, of which the first is a name. -/
structure KeyPath where
  first : String
  rest : List Step
  deriving DecidableEq, Repr

namespace KeyPath

def isNameChar (c : Char) : Bool :=
  CharClass.isAsciiLetter c || CharClass.isAsciiDigit c || c == '_' || c == ' ' || c == '-'

/-- A character that may surround a number in brackets. -/
def isPadding (c : Char) : Bool := c == ' ' || c == '\t' || c == '\r' || c == '\n'

/-- A number in brackets, after the opening one; what is left follows the closing one.  The
number is one that sixty-four bits hold. -/
def index? (cs : List Char) : Option (Int × List Char) := do
  let cs := cs.dropWhile isPadding
  let (negative, cs) := match cs with
    | '-' :: rest => (true, rest)
    | rest => (false, rest)
  let digits := cs.takeWhile CharClass.isAsciiDigit
  let size ← Decimal.valueIn? 10 digits
  let n : Int := if negative then -(size : Int) else size
  if n < -0x8000000000000000 || 0x8000000000000000 ≤ n then none
  match (cs.drop digits.length).dropWhile isPadding with
  | ']' :: rest => return (n, rest)
  | _ => none

/-- The steps after the first name.  `fuel` bounds their number. -/
def steps? : Nat → List Char → Option (List Step)
  | _, [] => some []
  | 0, _ => none
  | fuel + 1, '.' :: cs => do
    let name := cs.takeWhile isNameChar
    if name.isEmpty then none
    return .child (String.ofList name) :: (← steps? fuel (cs.drop name.length))
  | fuel + 1, '[' :: cs => do
    let (n, rest) ← index? cs
    return .index n :: (← steps? fuel rest)
  | _ + 1, _ :: _ => none

def ofText? (text : String) : Option KeyPath := do
  let cs := text.toList
  let name := cs.takeWhile isNameChar
  if name.isEmpty then none
  return ⟨String.ofList name, ← steps? cs.length (cs.drop name.length)⟩

end KeyPath

/-! ## Writing -/

mutual

def Value.enter : Value → String → Entries → Entries
  | .table incoming, name, es =>
    let key := Casing.lower name
    es.set key (joinAll incoming ((es.lookup key).getD (.table [])))
  | v, name, es => es.set (Casing.lower name) v

def joinAll : List (String × Value) → Value → Value
  | [], target => target
  | (name, v) :: rest, target => joinAll rest (.table (v.enter name target.entries))

end

/-- The position in an array of the given length that a number means. -/
def position (n : Int) (length : Nat) : Nat :=
  if 0 ≤ n then n.toNat else length - (-n).toNat

/-- An array with another item at a position, padded up to there. -/
def setItem (items : List Value) (i : Nat) (v : Value) : List Value :=
  (items ++ List.replicate (i + 1 - items.length) Value.nil).set i v

/-- Writes a value in place of another: a table joins what is there. -/
def Value.over : Value → Value → Value
  | .table incoming, current => joinAll incoming current
  | v, _ => v

/-- Writes a value at the end of a path that starts at `current`. -/
def Value.write (v : Value) : List Step → Value → Value
  | [], current => v.over current
  | .child name :: rest, current =>
    let key := Casing.lower name
    .table (current.entries.set key (v.write rest ((current.entries.lookup key).getD .nil)))
  | .index n :: rest, current =>
    let i := position n current.items.length
    .array (setItem current.items i (v.write rest ((current.items[i]?).getD .nil)))

/-- Writes a value at a path.  For a single name there is a table to join in any case. -/
def KeyPath.write (p : KeyPath) (v : Value) (es : Entries) : Entries :=
  if p.rest.isEmpty then v.enter p.first es
  else (v.write (.child p.first :: p.rest) (.table es)).entries

end Highlighting.Config
