/-
  Highlighting/Grammar/Mode.lean
  ==============================
  **Modes as a grammar declares them.**

  A mode is a rule for one kind of region: what opens it, how it ends, which
  scope it gives to its text, what is looked for inside, and what must not
  occur there.  Modes name each other by their number in the grammar's list,
  so that a mode can be found inside itself.
-/
import Highlighting.Grammar.Keywords
import Highlighting.Pattern

namespace Highlighting

/-- How a region ends, `π` standing for what a pattern is. -/
inductive Ending (π : Type) where
  /-- There is no region: the opening match is all. -/
  | immediate
  | pattern (p : π)
  /-- Only along with a region inside that ends its parent, or with the text. -/
  | never
  /-- Where the nearest region around it with a pattern of its own ends. -/
  | withParent
  deriving DecidableEq, Repr, Inhabited

/-- A mode as declared.  What is `none` or empty was left out. -/
structure ModeDecl where
  scope : Option Scope
  opener : Option PatternDecl
  /-- The words that open the region, when it is opened by words. -/
  openingWords : List String
  ending : Ending PatternDecl
  /-- Whether the end of the region ends the region around it too. -/
  endsParent : Bool
  excludesBegin : Bool
  /-- Whether the closing match stays outside the region. -/
  excludesEnd : Bool
  keywords : Option KeywordTable
  illegal : Option PatternDecl
  relevance : Option UInt32
  /-- Numbers of the modes looked for inside. -/
  contains : List Nat

namespace ModeDecl

def blank : ModeDecl :=
  ⟨none, none, [], .immediate, false, false, false, none, none, none, []⟩

def opening (p : PatternDecl) : ModeDecl := { blank with opener := some p }

/-- Opened by any of the words, as whole words. -/
def openedByWords (m : ModeDecl) (words : List String) : ModeDecl :=
  { m with opener := some (.words words), openingWords := words }

/-- Opened by the expression, and a title. -/
def title (written : String) : ModeDecl :=
  { blank with scope := some .title, opener := some (.ofRegex written), relevance := some 0 }

/-- The relevance in force: one, or none for a mode that is opened by words, unless it
declares its own. -/
def effectiveRelevance (m : ModeDecl) : UInt32 :=
  match m.relevance with
  | some r => r
  | none => if m.openingWords.isEmpty then 1 else 0

end ModeDecl

end Highlighting
