/-
  Highlighting/Regex/Normal.lean
  ==============================
  **Normal forms** of regular expressions.

  An expression is put together from its parts so that nothing needless is
  left in it: a set is a list of ranges in order where it can be, sequences in
  sequences and choices in choices are dissolved, a choice between single
  characters is a set, and a repetition of exactly one iteration is its body.

  When all alternatives of a choice are sequences that begin alike, they share
  the beginning (`Regex.chosen`).  This is more than a matter of form.  Taken
  one by one, the alternatives of `a*b|a*c` prefer any match that ends with `b`
  to those that end with `c`; with the beginning shared, as in `a*(b|c)`, the
  longest way through `a*` comes first.  The second reading is the one in use.
-/
import Highlighting.Regex.Syntax

namespace Highlighting

namespace CharSet

/-! ## Sets -/

/-- Puts a range into a list of ranges in order, no two of which touch.  Those that it touches
become one with it. -/
def insertRange (r : Char × Char) : List (Char × Char) → List (Char × Char)
  | [] => [r]
  | q :: qs =>
    if r.2.toNat + 1 < q.1.toNat then r :: q :: qs
    else if q.2.toNat + 1 < r.1.toNat then q :: insertRange r qs
    else insertRange (if q.1 < r.1 then q.1 else r.1, if q.2 < r.2 then r.2 else q.2) qs

def ofRanges (rs : List (Char × Char)) : CharSet :=
  let ordered := (rs.filter fun r => r.1 ≤ r.2).foldl (fun qs r => insertRange r qs) []
  unionAll (ordered.map fun r => range r.1 r.2)

/-- The set as ranges in order, as far as it is made of these. -/
def simplified (s : CharSet) : CharSet :=
  match s.ranges? with
  | some rs => ofRanges rs
  | none =>
    match s with
    | compl s => compl s.simplified
    | union s t =>
      match s.simplified, t.simplified with
      | empty, t => t
      | s, empty => s
      | s, t => union s t
    | inter s t => inter s.simplified t.simplified
    | folded s =>
      match s.simplified with
      | range first last =>
        if first = last then ofRanges ((Casing.variants first).map fun c => (c, c))
        else folded (range first last)
      | s => folded s
    | s => s

end CharSet

namespace Regex

/-! ## Sequences -/

def factors : Regex → List Regex
  | empty => []
  | seq a b => a.factors ++ b.factors
  | r => [r]

/-- All of a list in turn, in normal form. -/
def joined (rs : List Regex) : Regex := seqAll (rs.flatMap factors)

/-! ## Choices -/

def alternatives : Regex → List Regex
  | alt a b => a.alternatives ++ b.alternatives
  | r => [r]

/-- The sets of expressions that are all sets. -/
def sets? (rs : List Regex) : Option (List CharSet) :=
  rs.mapM fun
    | set s => some s
    | _ => none

/-- One of several alternatives, none of which is a choice; together they are a set when each
is one. -/
def among (rs : List Regex) : Regex :=
  match sets? rs with
  | some ss => set (CharSet.unionAll ss).simplified
  | none => altAll rs

def isLiteral : Regex → Bool
  | set (.range first last) => first == last
  | _ => false

/-- The parts of a sequence, where single characters next to each other are one part. -/
def units (r : Regex) : List (List Regex) :=
  r.factors.splitBy fun a b => a.isLiteral && b.isLiteral

def commonFront {α : Type} [DecidableEq α] : List α → List α → List α
  | a :: as, b :: bs => if a = b then a :: commonFront as bs else []
  | _, _ => []

/-- The units that all alternatives begin with.  There are none when one of the alternatives is
no sequence of several. -/
def sharedUnits (rs : List Regex) : List (List Regex) :=
  match rs.map units with
  | [] => []
  | us :: rest =>
    if (us :: rest).all (2 ≤ ·.length) then rest.foldl commonFront us else []

/-- One of a list, earlier ones preferred, in normal form. -/
def chosen (rs : List Regex) : Regex :=
  match rs.flatMap alternatives with
  | [r] => r
  | rs =>
    let shared := sharedUnits rs
    let endings := rs.map fun r => seqAll (r.units.drop shared.length).flatten
    if shared.isEmpty then among rs
    else joined (shared.flatten ++ [among (endings.flatMap alternatives)])

/-! ## Repetitions -/

/-- Whether the expression, in normal form, takes no character wherever it matches. -/
def takesNothing : Regex → Bool
  | empty => true
  | set _ => false
  | anchor _ => true
  | seq a b => a.takesNothing && b.takesNothing
  | alt a b => a.takesNothing && b.takesNothing
  | group _ body => body.takesNothing
  | rep _ _ most body => most.isSome && body.takesNothing

/-- A repetition in normal form.  What takes nothing is as good once as many times. -/
def repeated (greedy : Bool) (least : Nat) (most : Option Nat) (body : Regex) : Regex :=
  let (least, most) :=
    if body.takesNothing then (min least 1, some (min (most.getD 1) 1)) else (least, most)
  if most = some 0 then empty
  else if least = 1 ∧ most = some 1 then body
  else rep greedy least most body

end Regex

end Highlighting
