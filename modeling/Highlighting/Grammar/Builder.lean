/-
  Highlighting/Grammar/Builder.lean
  =================================
  **Building a grammar.**

  A builder holds the list of modes declared so far.  A mode gets its number
  when it is added; a number can also be set aside (`reserve`) and given a
  mode later, so that two modes can contain each other.  A few modes that
  many languages share, such as comments, are added on first use and handed
  out again after that.

  `finish` checks the list in order and compiles it.  Everything that can be
  wrong is found there, and the first fault in order is the answer.
-/
import Highlighting.Grammar.Basic

namespace Highlighting

structure Builder where
  lookbehind : Lookbehind
  /-- The modes so far; `none` where a number was only set aside. -/
  modes : Array (Option ModeDecl)
  doctag? : Option Nat
  lineComment? : Option Nat
  blockComment? : Option Nat
  escape? : Option Nat

structure LanguageDecl where
  name : String
  aliases : List String
  keywords : Option KeywordTable
  contains : List Nat
  illegal : Option PatternDecl

/-- A step of the construction: it can change the builder or fail. -/
abbrev Construct (α : Type) := StateT Builder (Except GrammarError) α

namespace Builder

def start (lookbehind : Lookbehind) : Builder := ⟨lookbehind, #[], none, none, none, none⟩

/-! ### Declaring modes -/

def add (m : ModeDecl) : Construct Nat := fun b =>
  .ok (b.modes.size, { b with modes := b.modes.push (some m) })

def reserve : Construct Nat := fun b =>
  .ok (b.modes.size, { b with modes := b.modes.push none })

/-- Gives a number its mode, in place of one that it had. -/
def define (index : Nat) (m : ModeDecl) : Construct Unit := fun b =>
  if index < b.modes.size then .ok ((), { b with modes := b.modes.setIfInBounds index (some m) })
  else .error (.undefinedMode index)

/-- The mode of a number, to derive another from. -/
def inherit (index : Nat) : Construct ModeDecl := fun b =>
  match b.modes[index]? with
  | some (some m) => .ok (m, b)
  | _ => .error (.undefinedMode index)

/-! ### Shared modes -/

/-- Markers such as `TODO:`. -/
def doctag : Construct Nat := do
  match (← get).doctag? with
  | some n => return n
  | none =>
    let n ← add { ModeDecl.opening (.ofRegex "\\b(?:TODO|FIXME|NOTE|BUG|OPTIMIZE|HACK|XXX):") with
      scope := some .doctag, relevance := some 0 }
    modify ({ · with doctag? := some n })
    return n

def lineComment : Construct Nat := do
  match (← get).lineComment? with
  | some n => return n
  | none =>
    let tag ← doctag
    let n ← add { ModeDecl.opening (.literal "//") with
      scope := some .comment, ending := .pattern (.ofRegex "(?m)$"), contains := [tag] }
    modify ({ · with lineComment? := some n })
    return n

/-- Comments between `/*` and `*/`. -/
def blockComment : Construct Nat := do
  match (← get).blockComment? with
  | some n => return n
  | none =>
    let tag ← doctag
    let n ← add { ModeDecl.opening (.literal "/*") with
      scope := some .comment, ending := .pattern (.literal "*/"), contains := [tag] }
    modify ({ · with blockComment? := some n })
    return n

/-- A backslash with the character after it, so that an escaped character ends nothing. -/
def escape : Construct Nat := do
  match (← get).escape? with
  | some n => return n
  | none =>
    let n ← add { ModeDecl.opening (.ofRegex "\\\\(?s:.)") with relevance := some 0 }
    modify ({ · with escape? := some n })
    return n

/-! ### Compiling -/

def terminal (lookbehind : Lookbehind) (p : PatternDecl) (allowsEmpty : Bool)
    (terminals : Array Terminal) : Except GrammarError (Nat × Array Terminal) :=
  match p.compile? lookbehind with
  | some pattern => .ok (terminals.size, terminals.push ⟨pattern, allowsEmpty⟩)
  | none => .error (.invalidPattern p.describe)

def optionalTerminal (lookbehind : Lookbehind) (p : Option PatternDecl)
    (terminals : Array Terminal) : Except GrammarError (Option Nat × Array Terminal) :=
  match p with
  | none => .ok (none, terminals)
  | some p => do
    let (t, terminals) ← terminal lookbehind p false terminals
    return (some t, terminals)

/-- Adds the terminal of an ending.  Only there may a match be empty. -/
def endingTerminal (lookbehind : Lookbehind) (ending : Ending PatternDecl)
    (terminals : Array Terminal) : Except GrammarError (Ending Nat × Array Terminal) :=
  match ending with
  | .immediate => .ok (.immediate, terminals)
  | .never => .ok (.never, terminals)
  | .withParent => .ok (.withParent, terminals)
  | .pattern p => do
    let (t, terminals) ← terminal lookbehind p true terminals
    return (.pattern t, terminals)

/-- Checks that all numbers are those of one of `count` modes; the first that is not is the
error. -/
def checkContains (count : Nat) : List Nat → Except GrammarError Unit
  | [] => .ok ()
  | n :: ns => if n < count then checkContains count ns else .error (.undefinedMode n)

/-- The keyword table of a mode: its own, or else the words that open it. -/
def modeKeywords (m : ModeDecl) : Except GrammarError (Option KeywordTable) :=
  match m.keywords with
  | some table => .ok (some table)
  | none =>
    if m.openingWords.isEmpty then .ok none
    else do return some (← (KeywordDecl.empty.add .keyword m.openingWords).compile)

/-- Compiles the mode of a number, in a list of `count` modes. -/
def compileMode (lookbehind : Lookbehind) (count index : Nat) (slot : Option ModeDecl)
    (terminals : Array Terminal) : Except GrammarError (Mode × Array Terminal) :=
  match slot with
  | none => .error (.undefinedMode index)
  | some m =>
    match m.opener with
    | none => .error (.missingBegin index)
    | some opener => do
      let (opener, terminals) ← terminal lookbehind opener false terminals
      let (ending, terminals) ← endingTerminal lookbehind m.ending terminals
      let keywords ← modeKeywords m
      let (illegal, terminals) ← optionalTerminal lookbehind m.illegal terminals
      checkContains count m.contains
      return ({ scope := m.scope, opener, ending, endsParent := m.endsParent,
                excludesBegin := m.excludesBegin, excludesEnd := m.excludesEnd,
                relevance := m.effectiveRelevance,
                content := ⟨keywords, illegal, m.contains⟩ }, terminals)

def compileModes (lookbehind : Lookbehind) (count : Nat) : List (Option ModeDecl) → Nat →
    Array Mode → Array Terminal → Except GrammarError (Array Mode × Array Terminal)
  | [], _, modes, terminals => .ok (modes, terminals)
  | slot :: slots, index, modes, terminals => do
    let (m, terminals) ← compileMode lookbehind count index slot terminals
    compileModes lookbehind count slots (index + 1) (modes.push m) terminals

/-- Compiles the grammar, or answers the first fault: modes in order of their numbers, then
what the language itself declares. -/
def finish (b : Builder) (language : LanguageDecl) : Except GrammarError Grammar := do
  let count := b.modes.size
  let (modes, terminals) ← compileModes b.lookbehind count b.modes.toList 0 #[] #[]
  let (illegal, terminals) ← optionalTerminal b.lookbehind language.illegal terminals
  checkContains count language.contains
  return { name := language.name, aliases := language.aliases, modes,
           root := ⟨language.keywords, illegal, language.contains⟩, terminals }

end Builder

end Highlighting
