/-
  Highlighting/Regex/Extended/Parser.lean
  =======================================
  **Reading written extended expressions.**

  The text is gone through once, with a stack of the groups that are open.  A
  level keeps its latest item apart until it is known whether a repetition
  follows.  There is room for one repetition behind an item; braces that do
  not repeat anything stand for themselves.

  Flags are a matter of the text, not of its groups: a switch stays in force
  until another one, or until the end of a group that was opened with flags
  of its own.
-/
import Highlighting.Regex.Extended.Syntax
import Highlighting.Regex.Bracket

namespace Highlighting.Extended

open Highlighting.Regex (Flags)

/-- The number of groups that may be open at a time. -/
def deepest : Nat := 63

/-- What an open group is for. -/
inductive Opening where
  /-- The expression as a whole. -/
  | whole
  /-- Parentheses alone; at their end the flags are as they were. -/
  | plain (before : Flags)
  | capture (index : Nat)
  | atomic
  | ahead (negated : Bool)
  | behind (negated : Bool)
  | condition
  | branches (condition : Extended)

structure Level where
  opening : Opening
  /-- Finished alternatives, latest first. -/
  alternatives : List Extended
  /-- Items of the current alternative, latest first. -/
  items : List Extended
  /-- The item behind which a repetition may stand. -/
  latest : Option Extended
  /-- Whether nothing has been read since the group was opened. -/
  untouched : Bool

namespace Level

def start (opening : Opening) : Level := ⟨opening, [], [], none, true⟩

/-- With nothing left to repeat.  Empty items are dropped. -/
def settle (l : Level) : Level :=
  match l.latest with
  | none => l
  | some .empty => { l with latest := none }
  | some e => { l with items := e :: l.items, latest := none }

def push (l : Level) (e : Extended) : Level :=
  { l.settle with latest := some e, untouched := false }

def sequence (l : Level) : Extended := seqAll l.settle.items.reverse

def branch (l : Level) : Level :=
  { l with alternatives := l.sequence :: l.alternatives, items := [], latest := none
           untouched := false }

def body (l : Level) : Extended := altAll (l.sequence :: l.alternatives).reverse

end Level

structure Draft where
  flags : Flags
  /-- The number of groups that remember, among those opened. -/
  captures : Nat
  /-- Names of such groups with their numbers, latest first. -/
  names : List (List Char × Nat)
  /-- Whether a group has been referred to by its number. -/
  numbered : Bool
  level : Level
  /-- The levels around it, innermost first. -/
  outer : List Level

namespace Draft

def push (d : Draft) (e : Extended) : Draft := { d with level := d.level.push e }

/-- With one more item that is a single character. -/
def pushChar (d : Draft) (c : Char) : Draft := d.push (.set (d.flags.cased (.single c)))

/-- With one more open group, unless there are too many. -/
def enter? (d : Draft) (opening : Opening) : Option Draft :=
  if d.outer.length + 1 ≤ deepest then
    some { d with level := .start opening, outer := d.level :: d.outer }
  else none

/-- With one more open group that remembers. -/
def enterCapture? (d : Draft) : Option Draft :=
  { d with captures := d.captures + 1 }.enter? (.capture (d.captures + 1))

/-! ## Closing groups -/

/-- Whether the level at hand can be left: groups with names are not referred to by number,
unless there are alternatives. -/
def mayLeave (d : Draft) : Bool :=
  !d.level.alternatives.isEmpty || !d.numbered || d.names.isEmpty

/-- The expression of a group that starts with a condition and goes on with the content of a
level: its first alternative holds under the condition, the others without. -/
def conditionalOf (condition : Extended) (l : Level) : Option Extended :=
  let asks := match condition with
    | .again k => .known k
    | e => e
  if l.untouched then
    match condition with
    | .again k => some (.known k)
    | _ => none
  else
    let (yes, no) := match l.body.ungrouped with
      | .alt first rest => (first, rest)
      | e => (e, .empty)
    if yes = .empty ∧ no = .empty then some asks else some (.conditional asks yes no)

def leave? (d : Draft) : Option Draft :=
  match d.outer with
  | [] => none
  | below :: outer =>
    let body := d.level.body
    let within (e : Extended) : Option Draft :=
      some { d with level := below.push e, outer }
    if d.mayLeave then
      match d.level.opening with
      | .whole => none
      | .plain flags => some { d with level := below.push body.grouped, outer, flags }
      | .capture k => within (.capture k body)
      | .atomic => within (.atomic body)
      | .ahead negated => within (.ahead negated body)
      | .behind negated => within (.behind negated body)
      | .condition => some { d with level := .start (.branches body) }
      | .branches condition => (conditionalOf condition d.level).bind within
    else none

/-! ## Blanks -/

/-- Where reading stands between two constructs. -/
inductive Gap where
  /-- Outside of comments. -/
  | outside
  /-- In a comment that ends with the line. -/
  | line
  /-- In a comment between parentheses. -/
  | comment
  /-- Behind a backslash in such a comment. -/
  | escaped

/-- The number of characters at the front that say nothing: comments between parentheses, and
with the flag for it white space and comments up to the end of a line.  There is none when
a comment does not end. -/
def gapLength (spaced : Bool) : Gap → List Char → Option Nat
  | .outside, '(' :: '?' :: '#' :: cs => (gapLength spaced .comment cs).map (· + 3)
  | .outside, c :: cs =>
    if spaced && c == '#' then (gapLength spaced .line cs).map (· + 1)
    else if spaced && [' ', '\t', '\n', '\x0d'].contains c then
      (gapLength spaced .outside cs).map (· + 1)
    else some 0
  | .outside, [] => some 0
  | .line, c :: cs => (gapLength spaced (if c = '\n' then .outside else .line) cs).map (· + 1)
  | .line, [] => some 0
  | .comment, c :: cs =>
    let gap := if c = ')' then .outside else if c = '\\' then .escaped else .comment
    (gapLength spaced gap cs).map (· + 1)
  | .comment, [] => none
  | .escaped, _ :: cs => (gapLength spaced .comment cs).map (· + 1)
  | .escaped, [] => none

/-- The number of characters at the front that say nothing. -/
def gap? (d : Draft) (cs : List Char) : Option Nat := gapLength d.flags.spaced .outside cs

/-! ## Repetitions -/

/-- Decimal digits at the front as a number that fits two words, with their length. -/
def readDecimal (cs : List Char) : Option (Nat × Nat) :=
  let digits := cs.takeWhile CharClass.isAsciiDigit
  let value := Regex.decimal digits
  if digits.isEmpty || Nat.pow 2 64 ≤ value then none else some (value, digits.length)

/-- The counts between braces, with the length including the closing one.  A missing lower
count is zero. -/
def readCounts (d : Draft) (cs : List Char) : Option (Nat × Option Nat × Nat) := do
  let size := cs.length
  let cs := cs.drop (← d.gap? cs)
  let (least, cs) ← if cs.head? == some ',' then some (0, cs)
    else (readDecimal cs).map fun (k, n) => (k, cs.drop n)
  let cs := cs.drop (← d.gap? cs)
  match cs with
  | '\x7d' :: cs => return (least, some least, size - cs.length)
  | ',' :: cs =>
    let cs := cs.drop (← d.gap? cs)
    let (most, cs) := match readDecimal cs with
      | some (k, n) => (some k, cs.drop n)
      | none => (none, cs)
    match cs.drop (← d.gap? cs) with
    | '\x7d' :: cs => return (least, most, size - cs.length)
    | _ => none
  | _ => none

/-- Whether an item can be repeated: it has to take characters or refer to some. -/
def isRepeatable : Extended → Bool
  | .empty | .anchor _ | .ahead _ _ | .behind _ _ => false
  | _ => true

/-- A repetition whose mark is `n` characters long and followed by `rest`.  A question mark
there makes it lazy, and a plus sign behind that makes it atomic. -/
def repetition (d : Draft) (least : Nat) (most : Option Nat) (n : Nat) (rest : List Char) :
    Option (Draft × Nat) := do
  let e ← d.level.latest
  if !isRepeatable e then none
  let blank ← d.gap? rest
  let rest := rest.drop blank
  let marked := rest.head? == some '?'
  let (rest, n) := if marked then (rest.drop 1, n + blank + 1) else (rest, n + blank)
  let e := rep (d.flags.greed marked) least most e
  let (e, n) := if rest.head? == some '+' then (atomic e, n + 1) else (e, n)
  return ({ d with level := { d.level with items := e :: d.level.items, latest := none } }, n)

/-! ## References -/

/-- A reference to a group that has been opened, by number. -/
def pushAgain (d : Draft) (k : Nat) : Option Draft :=
  if k ≤ d.captures then some (d.push (.again k)) else none

def isNameChar (c : Char) : Bool := c == '_' || CharClass.isWord c

/-- The name in front of a closing mark, with the rest behind that mark. -/
def readName (closing : Char) (cs : List Char) : Option (List Char × List Char) :=
  let name := cs.takeWhile isNameChar
  match name, cs.drop name.length with
  | _ :: _, c :: rest => if c = closing then some (name, rest) else none
  | _, _ => none

/-- The number of the group that is written in front of a closing mark, by name, by number, or
counted back from the latest; with the rest behind that mark. -/
def readReference (d : Draft) (closing : Char) (cs : List Char) : Option (Nat × List Char) := do
  match cs with
  | '-' :: cs =>
    let (back, n) ← readDecimal cs
    let rest := cs.drop n
    if rest.head? == some closing && 1 ≤ back && back ≤ d.captures then
      some (d.captures + 1 - back, rest.drop 1)
    else none
  | cs =>
    let (name, rest) ← readName closing cs
    match d.names.lookup name with
    | some k => return (k, rest)
    | none =>
      let (k, n) ← readDecimal name
      if n = name.length && k ≤ d.captures then some (k, rest) else none

/-- The group that is written between quotes or angle brackets, with the rest behind. -/
def readQuoted (d : Draft) : List Char → Option (Nat × List Char)
  | '<' :: cs => d.readReference '>' cs
  | '\'' :: cs => d.readReference '\'' cs
  | _ => none

/-! ## Escapes -/

/-- The character of a code point with `count` digits, or up to eight between braces, and the
number of characters read. -/
def readCodePoint (count : Nat) (cs : List Char) : Option (Char × Nat) :=
  let digits := cs.take count
  if digits.length = count && digits.all CharClass.isHexDigit then
    (Regex.charOfHex? digits).map (·, count)
  else match cs with
    | '\x7b' :: rest =>
      let digits := rest.takeWhile CharClass.isHexDigit
      if digits.length ≤ 8 && (rest.drop digits.length).head? == some '\x7d' then
        (Regex.charOfHex? digits).map (·, digits.length + 2)
      else none
    | _ => none

/-- The hexadecimal digits, or all but them, when the escaped letter stands for these. -/
def hexClass? (letter : Char) : Option CharSet :=
  match letter with
  | 'h' => some .hexDigits
  | 'H' => some (.compl .hexDigits)
  | _ => none

/-- The character that stands for itself when it is escaped: a control character for some
letters, and all but the other ASCII letters. -/
def escapedChar? (c : Char) : Option Char :=
  match c, Regex.controlChar? c with
  | _, some control => some control
  | 'e', none => some '\x1b'
  | c, none => if CharClass.isAsciiLetter c then none else some c

/-- What follows a backslash, with its length (the backslash not counted). -/
def readEscape (d : Draft) : List Char → Option (Draft × Nat)
  | [] => none
  | c :: rest =>
    if CharClass.isAsciiDigit c then do
      let (k, n) ← readDecimal (c :: rest)
      return (← { d with numbered := true }.pushAgain k, n)
    else match Regex.hexDigitCount? c, hexClass? c with
      | some count, _ => do
        let (c, n) ← readCodePoint count rest
        return (d.pushChar c, n + 1)
      | none, some s => some (d.push (.set s), 1)
      | none, none =>
        if Flags.isClassLetter c then
          (Flags.usual.class? c).map fun s => (d.push (.set (d.flags.cased s)), 1)
        else
          let word (edge : WordEdge) := .anchor (.word edge false)
          let flags := { Flags.usual with caseless := d.flags.caseless }
          match c with
          | 'p' => (Regex.readProperty flags false rest).map fun (s, n) => (d.push (.set s), n + 1)
          | 'P' => (Regex.readProperty flags true rest).map fun (s, n) => (d.push (.set s), n + 1)
          | 'k' => do
            let (k, after) ← d.readQuoted rest
            return (← d.pushAgain k, rest.length - after.length + 1)
          | 'A' => some (d.push (.anchor .textStart), 1)
          | 'z' => some (d.push (.anchor .textEnd), 1)
          | 'b' => if rest.head? == some '\x7b' then none else some (d.push (word .boundary), 1)
          | 'B' => if rest.head? == some '\x7b' then none else some (d.push (word .inside), 1)
          | '<' => some (d.push (word .start), 1)
          | '>' => some (d.push (word .stop), 1)
          | 'K' => some (d.push .keep, 1)
          | 'G' => some (d.push .origin, 1)
          | c => (escapedChar? c).map fun c => (d.push (.set (.single c)), 1)

/-! ## Bracketed classes -/

/-- An escape inside of brackets in the form that regular expressions have for it, with the
number of characters read.  Letters that stand for a condition elsewhere stand for
themselves, except that `b` is the backspace. -/
def readClassEscape : List Char → Option (List Char × Nat)
  | [] => none
  | c :: rest =>
    if CharClass.isAsciiDigit c then none
    else match Regex.hexDigitCount? c with
      | some count => (readCodePoint count rest).map fun (c, n) => (Regex.escape [c], n + 1)
      | none =>
        if Flags.isClassLetter c then some (['\\', c], 1)
        else match c with
          | 'p' | 'P' =>
            (Regex.Property.read rest).map fun (_, n) => ('\\' :: c :: rest.take n, n + 1)
          | 'h' => some ("[0-9A-Fa-f]".toList, 1)
          | 'H' => some ("[^0-9A-Fa-f]".toList, 1)
          | 'b' => some (['\x08'], 1)
          | c =>
            if ['k', 'A', 'z', 'B', 'K', 'G'].contains c then some ([c], 1)
            else (escapedChar? c).map fun c => (Regex.escape [c], 1)

/-- A class up to the bracket that closes it, in the form that regular expressions have for it,
with the number of characters read.  The first argument is how many of the characters in front
have been taken already, the second how many brackets are open inside the first one. -/
def readClassText : Nat → Nat → List Char → Option (List Char × Nat)
  | _, _, [] => none
  | taken + 1, depth, _ :: cs => (readClassText taken depth cs).map fun (t, n) => (t, n + 1)
  | 0, depth, c :: cs =>
    let more (depth : Nat) := (readClassText 0 depth cs).map fun (t, n) => (c :: t, n + 1)
    match c, depth with
    | '\\', _ => do
      let (front, m) ← readClassEscape cs
      let (t, n) ← readClassText m depth cs
      return (front ++ t, n + 1)
    | '[', _ => more (depth + 1)
    | ']', 0 => some ([']'], 1)
    | ']', depth + 1 => more depth
    | _, _ => more depth

/-- The class that follows an opening bracket, with its length (the bracket not counted). -/
def readClass (flags : Flags) (cs : List Char) : Option (CharSet × Nat) := do
  let n := match cs with
    | '^' :: ']' :: _ => 2
    | '^' :: _ => 1
    | ']' :: _ => 1
    | _ => 0
  let (rest, m) ← readClassText 0 0 (cs.drop n)
  let text := cs.take n ++ rest
  let (s, taken) ← Regex.readClass { Flags.usual with caseless := flags.caseless } text
  if taken = text.length then some (s, n + m) else none

/-! ## Groups -/

/-- Switches of flags up to a colon or a closing parenthesis: the flags after them, whether it
was a colon, and the rest behind.  `read` counts the characters before, `on` says that no
hyphen was among them, and `taken` how many of the characters in front say nothing. -/
def readFlags (flags : Flags) (read : Nat) (on : Bool) (taken : Nat) :
    List Char → Option (Flags × Bool × List Char)
  | [] => none
  | c :: rest =>
    match taken, gapLength flags.spaced .outside (c :: rest) with
    | taken + 1, _ => readFlags flags (read + 1) on taken rest
    | 0, none => none
    | 0, some (n + 1) => readFlags flags (read + 1) on n rest
    | 0, some 0 =>
      if c = ')' then if read = 0 || (!on && read = 1) then none else some (flags, false, rest)
      else if c = ':' then if !on && read = 1 then none else some (flags, true, rest)
      else if c = '-' then if on then readFlags flags (read + 1) false 0 rest else none
      else if c = 'R' || (c = 'u' && !on) then none
      else do readFlags (← flags.assign? c on) (read + 1) on 0 rest

/-- The condition that follows an opening parenthesis: a reference to a group, which asks
whether that has taken part, or else an expression.  The level for what depends on it is open
then, or the one for the condition. -/
def readCondition (d : Draft) (cs : List Char) : Option (Draft × List Char) := do
  let reference ← match cs with
    | '<' :: _ | '\'' :: _ => (d.readQuoted cs).map some
    | c :: _ =>
      if CharClass.isAsciiDigit c then
        (readDecimal cs).map fun (k, n) => some (k, cs.drop n)
      else some none
    | [] => none
  match reference with
  | none => return (← d.enter? .condition, cs)
  | some (k, rest) =>
    let rest := rest.drop (← d.gap? rest)
    if k ≤ d.captures && rest.head? == some ')' then
      let numbered := d.numbered || cs.head?.any CharClass.isAsciiDigit
      return (← { d with numbered }.enter? (.branches (.again k)), rest.drop 1)
    else none

/-- What follows an opening parenthesis, with what is left behind. -/
def readGroup (d : Draft) (cs : List Char) : Option (Draft × List Char) := do
  let cs := cs.drop (← d.gap? cs)
  let named (rest : List Char) : Option (Draft × List Char) := do
    let (name, rest) ← readName '>' rest
    let d ← d.enterCapture?
    return ({ d with names := (name, d.captures) :: d.names }, rest)
  match cs with
  | '?' :: '=' :: rest => return (← d.enter? (.ahead false), rest)
  | '?' :: '!' :: rest => return (← d.enter? (.ahead true), rest)
  | '?' :: '<' :: '=' :: rest => return (← d.enter? (.behind false), rest)
  | '?' :: '<' :: '!' :: rest => return (← d.enter? (.behind true), rest)
  | '?' :: '<' :: rest => named rest
  | '?' :: 'P' :: '<' :: rest => named rest
  | '?' :: 'P' :: '=' :: rest =>
    let (k, rest) ← d.readReference ')' rest
    return (← d.pushAgain k, rest)
  | '?' :: '>' :: rest => return (← d.enter? .atomic, rest)
  | '?' :: '(' :: rest => d.readCondition rest
  | '?' :: rest =>
    let (flags, grouped, rest) ← readFlags d.flags 0 true 0 rest
    if grouped then return ({ ← d.enter? (.plain d.flags) with flags }, rest)
    return ({ d.push .empty with flags }, rest)
  | cs => return (← d.enterCapture?, cs)

/-! ## Whole texts -/

/-- Reads the next construct, and says how many characters it takes. -/
def next (d : Draft) : List Char → Option (Draft × Nat)
  | [] => none
  | c :: rest => do
    if let n + 1 ← d.gap? (c :: rest) then
      return ({ d with level := { d.level with untouched := false } }, n + 1)
    match c with
    | '|' => return ({ d with level := d.level.branch }, 1)
    | ')' => return (← d.leave?, 1)
    | '(' =>
      if deepest ≤ d.outer.length then none
      let (d, after) ← d.readGroup rest
      return (d, rest.length - after.length + 1)
    | '[' =>
      let (s, n) ← readClass d.flags rest
      return (d.push (.set s), n + 1)
    | '*' => d.repetition 0 none 1 rest
    | '+' => d.repetition 1 none 1 rest
    | '?' => d.repetition 0 (some 1) 1 rest
    | '\x7b' =>
      match d.level.latest, d.readCounts rest with
      | some _, some (least, most, n) => d.repetition least most (n + 1) (rest.drop n)
      | _, _ => return (d.pushChar '\x7b', 1)
    | '.' => return (d.push (.set (if d.flags.dotAll then .all else .notLineFeed)), 1)
    | '^' => return (d.push (.anchor d.flags.lineStart), 1)
    | '$' => return (d.push (.anchor d.flags.lineEnd), 1)
    | '\\' =>
      let (d, n) ← d.readEscape rest
      return (d, n + 1)
    | c => return (d.pushChar c, 1)

/-- The whole expression, when no group is open. -/
def finish? (d : Draft) : Option Extended :=
  if d.outer.isEmpty && d.mayLeave then some d.level.body else none

end Draft

/-- The expression that a text writes, `none` when it writes none. -/
def parse? (written : List Char) : Option Extended := do
  (← Regex.readAll Draft.next 0 written ⟨.usual, 0, [], false, .start .whole, []⟩).finish?

end Highlighting.Extended
