/-
  Highlighting/Grammar/Error.lean
  ===============================
  **What can be wrong with a grammar.**
-/
import Highlighting.Text.Quoted

namespace Highlighting

inductive KeywordClass where
  | keyword
  | literal
  | builtIn
  deriving DecidableEq, Repr, Inhabited

def KeywordClass.label : KeywordClass → String
  | keyword => "Keyword"
  | literal => "Literal"
  | builtIn => "BuiltIn"

/-- Why a grammar, or a table of it, is refused. -/
inductive GrammarError where
  /-- What is described is no regular expression. -/
  | invalidPattern (description : String)
  /-- A word is listed under two classes. -/
  | overlappingKeyword (word : String) (first second : KeywordClass)
  /-- A mode of this number does not exist, or was set aside and never defined. -/
  | undefinedMode (index : Nat)
  /-- A mode says nothing about where it begins. -/
  | missingBegin (index : Nat)
  deriving DecidableEq, Repr

def GrammarError.message : GrammarError → String
  | invalidPattern description => "Invalid pattern " ++ Quoted.encode description
  | overlappingKeyword word first second =>
    "Keyword " ++ Quoted.encode word ++ " is listed as both " ++ first.label ++ " and " ++
      second.label
  | undefinedMode index => "Mode #" ++ toString index ++ " is not defined"
  | missingBegin index => "Mode #" ++ toString index ++ " has no begin pattern"

end Highlighting
