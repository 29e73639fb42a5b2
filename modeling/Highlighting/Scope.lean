/-
  Highlighting/Scope.lean
  =======================
  **Scopes**: the categories that a grammar attaches to stretches of text.

  Unclassified text has no scope at all; where a name is needed for that, it
  is `none`.
-/

namespace Highlighting

inductive Scope where
  | string
  | number
  | operator
  | keyword
  | literal
  | builtIn
  | params
  | function
  /-- The head of a type declaration. -/
  | declaration
  | title
  /-- A directive to the compiler. -/
  | directive
  /-- A string inside a directive. -/
  | directiveString
  | comment
  /-- A marker inside a comment. -/
  | doctag
  deriving DecidableEq, Repr, Inhabited

namespace Scope

/-- The name of the category, as used for classes and listings. -/
def name : Scope → String
  | string => "string"
  | number => "number"
  | operator => "operator"
  | keyword => "keyword"
  | literal => "literal"
  | builtIn => "built_in"
  | params => "params"
  | function => "function"
  | declaration => "class"
  | title => "title"
  | directive => "meta"
  | directiveString => "meta-string"
  | comment => "comment"
  | doctag => "doctag"

def all : List Scope :=
  [string, number, operator, keyword, literal, builtIn, params, function, declaration, title,
    directive, directiveString, comment, doctag]

def ofName? (name : String) : Option Scope := all.find? (·.name == name)

def categoryName (scope : Option Scope) : String := (scope.map name).getD "none"

end Scope

end Highlighting
