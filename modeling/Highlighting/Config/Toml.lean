/-
  Highlighting/Config/Toml.lean
  =============================
  **Reading TOML.**

  The reader goes through the characters once.  It yields statements, a table
  header or an assignment each, which are then entered into a tree
  (`Toml.document?`).  Only there do duplicates show.

  A table can come into being in three ways, which decide what may be added to
  it later: it was named by a header, it was passed on the way to one, or it
  was made by a dotted key.  A header can take over a table that was only
  passed; a dotted key can go on only through tables made without a header.
  A header in double brackets adds a table to an array, and the keys that lead
  through the array lead to the latest of its tables.
-/
import Highlighting.Config.TomlScalar

namespace Highlighting.Config.Toml

/-! ## Building tables -/

inductive Origin where
  | header
  | passed
  | dotted
  deriving DecidableEq, Repr

/-- A tree of tables under construction. -/
inductive Item where
  | value (v : Value)
  | table (origin : Origin) (entries : List (String × Item))
  /-- An array of tables, to the latest of which is still added. -/
  | tables (earlier : List (List (String × Item))) (latest : List (String × Item))

/-- The items of a table under construction. -/
abbrev Items := List (String × Item)

def setItem (key : String) (item : Item) : Items → Items
  | [] => [(key, item)]
  | (k, old) :: rest => if k = key then (k, item) :: rest else (k, old) :: setItem key item rest

/-- Enters a value under a dotted key.  `here` says whether the table at hand can take it as
its own. -/
def assign? (v : Value) : List String → Bool → Items → Option Items
  | [], _, _ => none
  | [key], here, items =>
    if here && (items.lookup key).isNone then some (setItem key (.value v) items) else none
  | key :: rest, _, items =>
    match items.lookup key with
    | none => do return setItem key (.table .dotted (← assign? v rest true [])) items
    | some (.table .dotted inner) => do
      return setItem key (.table .dotted (← assign? v rest true inner)) items
    | some (.table .passed inner) => do
      return setItem key (.table .passed (← assign? v rest false inner)) items
    | some (.tables earlier latest) => do
      return setItem key (.tables earlier (← assign? v rest false latest)) items
    | some _ => none

/-- The table that a header opens, given what its key stands for so far. -/
def asTable? : Option Item → Option Item
  | none => some (.table .header [])
  | some (.table .passed inner) => some (.table .header inner)
  | some _ => none

/-- The array to which a header in double brackets adds a table, given what its key stands for
so far. -/
def asTables? : Option Item → Option Item
  | none => some (.tables [] [])
  | some (.tables earlier latest) => some (.tables (earlier ++ [latest]) [])
  | some _ => none

/-- Opens what a header names; `last` makes it of what is there. -/
def open? (last : Option Item → Option Item) : List String → Items → Option Items
  | [], _ => none
  | [key], items => (last (items.lookup key)).map (setItem key · items)
  | key :: rest, items =>
    match items.lookup key with
    | none => do return setItem key (.table .passed (← open? last rest [])) items
    | some (.table origin inner) => do
      return setItem key (.table origin (← open? last rest inner)) items
    | some (.tables earlier latest) => do
      return setItem key (.tables earlier (← open? last rest latest)) items
    | some (.value _) => none

/-- Enters a value under a dotted key into the table that a header has opened. -/
def assignIn? (v : Value) (key : List String) : List String → Items → Option Items
  | [], items => assign? v key true items
  | name :: rest, items =>
    match items.lookup name with
    | some (.table origin inner) => do
      return setItem name (.table origin (← assignIn? v key rest inner)) items
    | some (.tables earlier latest) => do
      return setItem name (.tables earlier (← assignIn? v key rest latest)) items
    | _ => none

mutual

def Item.finish : Item → Value
  | .value v => v
  | .table _ entries => .table (finishAll entries)
  | .tables earlier latest => .array (finishEach earlier ++ [.table (finishAll latest)])

def finishAll : List (String × Item) → Entries
  | [] => []
  | (key, item) :: rest => (key, item.finish) :: finishAll rest

def finishEach : List (List (String × Item)) → List Value
  | [] => []
  | entries :: rest => .table (finishAll entries) :: finishEach rest

end

/-! ## Values and statements -/

mutual

/-- A value, inside which others may lie up to `depth` levels deep.  `fuel` bounds the number of
its parts. -/
def value? : Nat → Nat → List Char → Option (Value × List Char)
  | 0, _, _ => none
  | fuel + 1, depth, cs =>
    match cs, depth with
    | '[' :: _, 0 => none
    | '[' :: rest, depth + 1 => do
      let (items, rest) ← arrayItems? fuel depth (skipLines rest.length rest)
      return (.array items, rest)
    | '\x7b' :: _, 0 => none
    | '\x7b' :: rest, depth + 1 =>
      match skipBlanks rest with
      | '\x7d' :: rest => some (.table [], rest)
      | rest => inlineEntries? fuel depth [] rest
    | cs, _ =>
      match string? cs with
      | some (s, rest) => some (.string s, rest)
      | none => plain? cs

/-- The items of an array up to its closing bracket; a comma may follow the last. -/
def arrayItems? : Nat → Nat → List Char → Option (List Value × List Char)
  | 0, _, _ => none
  | _ + 1, _, ']' :: rest => some ([], rest)
  | fuel + 1, depth, cs => do
    let (v, rest) ← value? fuel depth cs
    match skipLines rest.length rest with
    | ',' :: rest =>
      let (vs, rest) ← arrayItems? fuel depth (skipLines rest.length rest)
      return (v :: vs, rest)
    | ']' :: rest => return ([v], rest)
    | _ => none

/-- The entries of an inline table up to its closing brace. -/
def inlineEntries? : Nat → Nat → Items → List Char → Option (Value × List Char)
  | 0, _, _, _ => none
  | fuel + 1, depth, items, cs => do
    let (key, rest) ← key? cs
    let (v, rest) ← value? fuel depth (skipBlanks (← expect? '=' rest))
    let items ← assign? v key true items
    match skipBlanks rest with
    | ',' :: rest => inlineEntries? fuel depth items rest
    | '\x7d' :: rest => return (.table (finishAll items), rest)
    | _ => none

end

/-- Reads statements into the tables so far; `header` names the table that is open.  `fuel`
bounds the number of statements. -/
def statements? : Nat → List String → Items → List Char → Option Items
  | 0, _, _, _ => none
  | fuel + 1, header, items, cs =>
    match skipLines cs.length cs with
    | [] => some items
    | '[' :: '[' :: rest => do
      let (key, rest) ← key? rest
      let rest ← endOfLine? (← expect? ']' (← expect? ']' rest))
      statements? fuel key (← open? asTables? key items) rest
    | '[' :: rest => do
      let (key, rest) ← key? rest
      let rest ← endOfLine? (← expect? ']' rest)
      statements? fuel key (← open? asTable? key items) rest
    | cs => do
      let (key, rest) ← key? cs
      let rest := skipBlanks (← expect? '=' rest)
      let (v, rest) ← value? (rest.length + 1) deepest rest
      let rest ← endOfLine? rest
      statements? fuel header (← assignIn? v key header items) rest

/-- The entries of a document, `none` when the text is none.  A mark for the order of bytes
may stand in front. -/
def document? (text : String) : Option Entries :=
  let cs := match text.toList with
    | '\ufeff' :: rest => rest
    | cs => cs
  (statements? (cs.length + 2) [] [] cs).map finishAll

end Highlighting.Config.Toml
