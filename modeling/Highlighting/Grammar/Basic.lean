/-
  Highlighting/Grammar/Basic.lean
  ===============================
  **Grammars ready for scanning.**

  All patterns of a grammar are in one list, the terminals, and modes refer to
  them by number: a search result can so be kept for each terminal.  The
  outermost level of a text is described by `root`, which is no mode: nothing
  opens it and nothing ends it.
-/
import Highlighting.Grammar.Mode

namespace Highlighting

/-- A pattern of a grammar, and whether its empty matches count. -/
structure Terminal where
  pattern : Pattern
  allowsEmpty : Bool
  deriving DecidableEq, Repr, Inhabited

/-- What is looked for inside a region. -/
structure Content where
  keywords : Option KeywordTable
  /-- Number of the terminal that must not occur. -/
  illegal : Option Nat
  /-- Numbers of the modes that can open inside. -/
  contains : List Nat
  deriving Inhabited

/-- A mode whose patterns are terminals. -/
structure Mode where
  scope : Option Scope
  opener : Nat
  ending : Ending Nat
  endsParent : Bool
  excludesBegin : Bool
  excludesEnd : Bool
  relevance : UInt32
  content : Content
  deriving Inhabited

structure Grammar where
  name : String
  aliases : List String
  modes : Array Mode
  root : Content
  terminals : Array Terminal

namespace Grammar

def answersTo (g : Grammar) (name : String) : Bool := g.name == name || g.aliases.contains name

/-- Number of modes, the outermost level included. -/
def modeCount (g : Grammar) : Nat := g.modes.size + 1

def mode (g : Grammar) (index : Nat) : Mode := (g.modes[index]?).getD default

end Grammar

end Highlighting
