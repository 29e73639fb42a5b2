/-
  Highlighting/Regex/Bracket.lean
  ===============================
  **Bracketed classes**: sets of characters written out between brackets.

  Members are characters, ranges, escapes, ASCII classes by name and further
  bracketed classes.  Members next to each other unite; `&&` keeps what both
  sides have in common, `--` what only the left one has, and `~~` what only
  one of them has.  Brackets that are open wait on a stack.
-/
import Highlighting.Regex.Escape

namespace Highlighting.Regex

/-- What stands between two parts of a class. -/
inductive SetOperation where
  | intersection
  | difference
  | symmetricDifference
  deriving DecidableEq, Repr

/-- The set of both parts. -/
def SetOperation.apply (s t : CharSet) : SetOperation → CharSet
  | intersection => .inter s t
  | difference => .inter s (.compl t)
  | symmetricDifference => .inter (.union s t) (.compl (.inter s t))

def SetOperation.read? : List Char → Option SetOperation
  | '&' :: '&' :: _ => some intersection
  | '-' :: '-' :: _ => some difference
  | '~' :: '~' :: _ => some symmetricDifference
  | _ => none

/-- A class whose bracket is open. -/
structure Bracket where
  negated : Bool
  /-- What stands in front of the last operation. -/
  left : Option (CharSet × SetOperation)
  /-- The members since then. -/
  members : CharSet

namespace Bracket

def add (b : Bracket) (s : CharSet) : Bracket := { b with members := .union b.members s }

/-- The set read so far, before it is negated. -/
def body (f : Flags) (b : Bracket) : CharSet :=
  match b.left with
  | none => f.cased b.members
  | some (s, op) => op.apply s (f.cased b.members)

/-- The set of the whole class.  Without scripts no class is negated. -/
def close? (f : Flags) (b : Bracket) : Option CharSet :=
  if !b.negated then some (b.body f)
  else if f.unicode then some (.compl (b.body f))
  else none

/-- What follows an opening bracket, with its length.  Right after the bracket or its negation,
hyphens and then one closing bracket stand for themselves. -/
def start (f : Flags) (cs : List Char) : Bracket × Nat :=
  let blank := f.skip cs
  let (negated, n) := match cs.drop blank with
    | '^' :: rest => (true, blank + 1 + f.skip rest)
    | _ => (false, blank)
  let body := cs.drop n
  match (body.takeWhile (· == '-')).length, body with
  | 0, ']' :: _ => (⟨negated, none, .single ']'⟩, n + 1)
  | 0, _ => (⟨negated, none, .empty⟩, n)
  | hyphens, _ => (⟨negated, none, .single '-'⟩, n + hyphens)

/-! ## Members -/

/-- The set of an ASCII class with a name. -/
def named? (name : List Char) : Option CharSet :=
  match String.ofList name with
  | "alnum" => some (.union .asciiLetters .asciiDigits)
  | "alpha" => some .asciiLetters
  | "ascii" => some .ascii
  | "blank" => some (.ofChars [' ', '\t'])
  | "cntrl" => some (.union (.range '\x00' '\x1f') (.single '\x7f'))
  | "digit" => some .asciiDigits
  | "graph" => some (.range '!' '~')
  | "lower" => some (.range 'a' 'z')
  | "print" => some (.range ' ' '~')
  | "punct" => some (.unionAll [.range '!' '/', .range ':' '@', .range '[' '\x60',
      .range '\x7b' '~'])
  | "space" => some .asciiSpace
  | "upper" => some (.range 'A' 'Z')
  | "word" => some .asciiWord
  | "xdigit" => some .hexDigits
  | _ => none

/-- An ASCII class, such as `[:alpha:]` or `[:^alpha:]`, with its length. -/
def readNamed (f : Flags) : List Char → Option (CharSet × Nat)
  | '[' :: ':' :: rest =>
    let (negated, body, n) := match rest with
      | '^' :: rest => (true, rest, 3)
      | rest => (false, rest, 2)
    let name := body.takeWhile (· != ':')
    match body.drop name.length with
    | ':' :: ']' :: _ => do
      let s ← named? name
      if negated && !f.unicode then none
      return (if negated then .compl s else s, n + name.length + 2)
    | _ => none
  | _ => none

/-- A character or a class that is written with a backslash. -/
inductive Item where
  | char (c : Char)
  | set (s : CharSet)

/-- The item at the front, with its length.  Without scripts it holds ASCII characters. -/
def readItem (f : Flags) : List Char → Option (Item × Nat)
  | [] => none
  | '\\' :: rest =>
    match readEscape f rest with
    | some (.char c, n) => if f.unicode || c.toNat < 128 then some (.char c, n + 1) else none
    | some (.set s, n) => some (.set s, n + 1)
    | _ => none
  | c :: _ => if f.unicode || c.toNat < 128 then some (.char c, 1) else none

/-- The item at the front as a set, or a range between two characters, with its length.  A
hyphen in front of another one or of a closing bracket makes no range. -/
def readMember (f : Flags) (cs : List Char) : Option (CharSet × Nat) := do
  let (low, n) ← readItem f cs
  let single := match low with
    | .char c => CharSet.single c
    | .set s => s
  let rest := cs.drop n
  match rest.drop (f.skip rest) with
  | '-' :: later =>
    let second := later.drop (f.skip later)
    if second.head? == some ']' || second.head? == some '-' then return (single, n)
    let (high, m) ← readItem f second
    match low, high with
    | .char a, .char b =>
      if a ≤ b then some (.range a b, cs.length - second.length + m) else none
    | _, _ => none
  | _ => return (single, n)

/-- Reads the next piece of the innermost class that is open: the classes that are open then,
and the length. -/
def next (f : Flags) (b : Bracket) (outer : List Bracket) (cs : List Char) :
    Option (Bracket × List Bracket × Nat) :=
  match f.skip cs, SetOperation.read? cs with
  | n + 1, _ => some (b, outer, n + 1)
  | 0, some op => some (⟨b.negated, some (b.body f, op), .empty⟩, outer, 2)
  | 0, none =>
    if cs.head? == some '[' then
      match readNamed f cs with
      | some (s, n) => some (b.add s, outer, n)
      | none =>
        let (inner, n) := start f cs.tail
        some (inner, b :: outer, n + 1)
    else (readMember f cs).map fun (s, n) => (b.add s, outer, n)

/-- The rest of a class of which some brackets are open, with its length.  The first argument
is how many of the characters in front have been taken already. -/
def readRest (f : Flags) : Nat → List Char → Bracket → List Bracket → Option (CharSet × Nat)
  | _, [], _, _ => none
  | taken + 1, _ :: cs, b, outer => do
    let (s, n) ← readRest f taken cs b outer
    return (s, n + 1)
  | 0, c :: cs, b, outer =>
    if c = ']' then do
      let s ← b.close? f
      match outer with
      | [] => return (s, 1)
      | around :: outer =>
        let (s, n) ← readRest f 0 cs (around.add s) outer
        return (s, n + 1)
    else do
      let (b, outer, m) ← b.next f outer (c :: cs)
      let (s, n) ← readRest f (m - 1) cs b outer
      return (s, n + 1)

end Bracket

/-- The class that follows an opening bracket, with its length (the bracket not counted). -/
def readClass (f : Flags) (cs : List Char) : Option (CharSet × Nat) :=
  let (b, n) := Bracket.start f cs
  (Bracket.readRest f 0 (cs.drop n) b []).map fun (s, m) => (s, n + m)

end Highlighting.Regex
