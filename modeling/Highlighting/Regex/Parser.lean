/-
  Highlighting/Regex/Parser.lean
  ==============================
  **Reading written expressions.**

  `Regex.parse?` goes through a text once, with a stack of the groups that are
  open: a level holds the finished alternatives and the pieces of the current
  one.  A closing parenthesis folds its level into one piece of the level
  below.  An expression is refused when a parenthesis has no partner, when a
  repetition has nothing to repeat, and when it nests too deeply or is larger
  than a limit allows.
-/
import Highlighting.Regex.Bracket
import Highlighting.Regex.Limits

namespace Highlighting.Regex

/-! ## Levels -/

/-- A finished part of an expression. -/
structure Piece where
  expr : Regex
  /-- How many constructs lie inside each other. -/
  depth : Nat
  /-- Whether it can be repeated; a switch of flags is a piece that cannot. -/
  repeatable : Bool

/-- An open group, or the whole expression at the bottom. -/
structure Level where
  flags : Flags
  /-- The number of the group, when it has one. -/
  index : Option Nat
  /-- Finished alternatives, latest first. -/
  branches : List Piece
  /-- Pieces of the current alternative, latest first. -/
  pieces : List Piece

/-- Several pieces as one, a level deeper than the deepest of them. -/
def Piece.join (combine : List Regex → Regex) : List Piece → Piece
  | [p] => p
  | ps => ⟨combine (ps.map (·.expr)), ps.foldl (fun n p => max n (p.depth + 1)) 0, true⟩

namespace Level

def start (flags : Flags) (index : Option Nat) : Level := ⟨flags, index, [], []⟩

def push (l : Level) (p : Piece) : Level := { l with pieces := p :: l.pieces }

/-- The current alternative as one piece. -/
def branch (l : Level) : Piece := .join joined l.pieces.reverse

def body (l : Level) : Piece := .join chosen (l.branch :: l.branches).reverse

def content (l : Level) : Regex :=
  match l.index with
  | some k => group k l.body.expr
  | none => l.body.expr

end Level

structure Draft where
  groups : Nat
  names : List (List Char)
  level : Level
  /-- The levels around it, innermost first. -/
  outer : List Level

namespace Draft

/-- With one more piece that consists of a single construct. -/
def push (d : Draft) (r : Regex) : Draft := { d with level := d.level.push ⟨r, 0, true⟩ }

/-- With one more piece that takes one character of the set. -/
def pushSet (d : Draft) (s : CharSet) : Draft := d.push (set s.simplified)

/-- With one more open group, which has no number. -/
def enter (d : Draft) (flags : Flags) : Draft :=
  { d with level := .start flags none, outer := d.level :: d.outer }

/-- With one more open group, which has the next number. -/
def enterNumbered (d : Draft) : Draft :=
  { d with groups := d.groups + 1, level := .start d.level.flags (some (d.groups + 1))
           outer := d.level :: d.outer }

def leave? (d : Draft) : Option Draft :=
  match d.outer with
  | [] => none
  | below :: outer =>
    let p := ⟨d.level.content, d.level.body.depth + 1, true⟩
    some { d with level := below.push p, outer }

def branch (d : Draft) : Draft :=
  let l := d.level
  { d with level := { l with branches := l.branch :: l.branches, pieces := [] } }

/-- With the latest piece repeated. -/
def repeat? (d : Draft) (greedy : Bool) (least : Nat) (most : Option Nat) : Option Draft :=
  match d.level.pieces with
  | p :: ps =>
    if p.repeatable then
      let p := ⟨repeated greedy least most p.expr, p.depth + 1, true⟩
      some { d with level := { d.level with pieces := p :: ps } }
    else none
  | [] => none

/-! ## Repetitions -/

/-- A repetition whose mark is `n` characters long and followed by `rest`; a question mark there
belongs to it. -/
def repetition (d : Draft) (least : Nat) (most : Option Nat) (n : Nat) (rest : List Char) :
    Option (Draft × Nat) :=
  let marked := rest.head? == some '?'
  (d.repeat? (d.level.flags.greed marked) least most).map (·, if marked then n + 1 else n)

/-- A count with the white space around it: its value, when there are digits and it fits a word,
and the length. -/
def readCount (cs : List Char) : Option Nat × Nat :=
  let before := (cs.takeWhile CharClass.isSpace).length
  let digits := (cs.drop before).takeWhile CharClass.isAsciiDigit
  let after := ((cs.drop (before + digits.length)).takeWhile CharClass.isSpace).length
  let value := decimal digits
  (if digits.isEmpty || Nat.pow 2 32 ≤ value then none else some value,
    before + digits.length + after)

/-- The counts between braces, with the length including the closing one. -/
def readCounts (cs : List Char) : Option (Nat × Option Nat × Nat) := do
  let (low, n) := readCount cs
  let least ← low
  match cs.drop n with
  | '\x7d' :: _ => return (least, some least, n + 1)
  | ',' :: '\x7d' :: _ => return (least, none, n + 2)
  | ',' :: rest =>
    let (high, m) := readCount rest
    let most ← high
    if least ≤ most && (rest.drop m).head? == some '\x7d' then
      some (least, some most, n + m + 2)
    else none
  | _ => none

/-! ## Groups -/

def isNameChar (first : Bool) (c : Char) : Bool :=
  c == '_' || (CharClass.isWord c && !(first && CharClass.isDigit c)) ||
    (!first && ['.', '[', ']'].contains c)

/-- The name up to the closing angle bracket, which no other group may have. -/
def readName (d : Draft) (cs : List Char) : Option (List Char) :=
  let name := cs.takeWhile (· != '>')
  let valid := match name with
    | [] => false
    | c :: rest => isNameChar true c && rest.all (isNameChar false)
  if valid && !d.names.contains name && (cs.drop name.length).head? == some '>' then some name
  else none

/-- Switches of flags up to a colon or a closing parenthesis: the flags after them, whether it
was a colon, and the length.  After a hyphen they are switched off.  No letter may occur
twice, and the hyphen not as the last. -/
def readFlags (flags : Flags) (read : List Char) : List Char → Option (Flags × Bool × Nat)
  | [] => none
  | c :: rest =>
    if c = ':' || c = ')' then
      if read.head? == some '-' then none else some (flags, c == ':', 1)
    else if read.contains c then none
    else do
      let flags ← if c = '-' then some flags else flags.assign? c (!read.contains '-')
      let (flags, grouped, n) ← readFlags flags (c :: read) rest
      return (flags, grouped, n + 1)

/-- What follows an opening parenthesis, with its length. -/
def readGroup (d : Draft) (cs : List Char) : Option (Draft × Nat) :=
  let blank := d.level.flags.skip cs
  let named (d : Draft) (rest : List Char) (n : Nat) : Option (Draft × Nat) := do
    let name ← d.readName rest
    return ({ d with names := name :: d.names }.enterNumbered, blank + n + name.length + 1)
  match cs.drop blank with
  | '?' :: 'P' :: '<' :: rest => named d rest 3
  | '?' :: '<' :: rest => named d rest 2
  | '?' :: rest => do
    let (flags, grouped, n) ← readFlags d.level.flags [] rest
    if grouped then return (d.enter flags, blank + n + 1)
    if n = 1 then none
    let level := { d.level with flags }.push ⟨empty, 0, false⟩
    return ({ d with level }, blank + n + 1)
  | _ => some (d.enterNumbered, blank)

/-! ## Whole texts -/

/-- Reads the next construct, and says how many characters it takes. -/
def next (d : Draft) : List Char → Option (Draft × Nat)
  | [] => none
  | c :: rest =>
    let flags := d.level.flags
    match flags.skip (c :: rest) with
    | n + 1 => some (d, n + 1)
    | 0 =>
      match c with
      | '|' => some (d.branch, 1)
      | ')' => d.leave?.map (·, 1)
      | '(' => (d.readGroup rest).map fun (d, n) => (d, n + 1)
      | '[' => (readClass flags rest).map fun (s, n) =>
          ({ d with level := d.level.push ⟨set s.simplified, 1, true⟩ }, n + 1)
      | '*' => d.repetition 0 none 1 rest
      | '+' => d.repetition 1 none 1 rest
      | '?' => d.repetition 0 (some 1) 1 rest
      | '\x7b' => do
        let (least, most, n) ← readCounts rest
        d.repetition least most (n + 1) (rest.drop n)
      | '.' => flags.dot?.map fun s => (d.pushSet s, 1)
      | '^' => some (d.push (anchor flags.lineStart), 1)
      | '$' => some (d.push (anchor flags.lineEnd), 1)
      | '\\' => (readEscape flags rest).map fun (e, n) =>
          match e with
          | .char c => (d.pushSet (flags.cased (.single c)), n + 1)
          | .set s => (d.pushSet s, n + 1)
          | .anchor a => (d.push (anchor a), n + 1)
      | c => some (d.pushSet (flags.cased (.single c)), 1)

/-- The whole expression, when no group is open and the limits are kept. -/
def finish? (limit : SizeLimit) (d : Draft) : Option Regex :=
  let p := d.level.body
  if d.outer.isEmpty && p.depth ≤ deepest && limit.accepts p.expr then some p.expr else none

end Draft

/-- The expression that a text writes, `none` when it writes none. -/
def parse? (written : List Char) (limit : SizeLimit := .usual) : Option Regex := do
  (← readAll Draft.next 0 written ⟨0, [], .start .usual none, []⟩).finish? limit

end Highlighting.Regex
