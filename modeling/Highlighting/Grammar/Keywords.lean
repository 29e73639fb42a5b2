/-
  Highlighting/Grammar/Keywords.lean
  ==================================
  **Keyword tables.**

  A table classifies words as keywords, literals or built-ins, and carries
  the expression (`lexeme`) that cuts words out of text that no pattern
  claimed.  The two belong together: with a lexeme that stops at a dollar
  sign, no listed word with a dollar sign would ever be found.

  A word has one class.  Listing it again under the same class changes
  nothing, and listing it under another is an error.
-/
import Highlighting.Scope
import Highlighting.Grammar.Error
import Highlighting.Regex.Parser
import Highlighting.Regex.Matcher
import Highlighting.Text.WordMap

namespace Highlighting

def KeywordClass.scope : KeywordClass → Scope
  | keyword => .keyword
  | literal => .literal
  | builtIn => .builtIn

/-- A table as declared: the written lexeme, if it is not the usual one, and the words in
order. -/
structure KeywordDecl where
  lexeme : Option String
  entries : List (String × KeywordClass)

structure KeywordTable where
  lexeme : Matcher
  words : WordMap KeywordClass

namespace KeywordDecl

def empty : KeywordDecl := ⟨none, []⟩

def withLexeme (d : KeywordDecl) (written : String) : KeywordDecl :=
  { d with lexeme := some written }

def add (d : KeywordDecl) (c : KeywordClass) (words : List String) : KeywordDecl :=
  { d with entries := d.entries ++ words.map (·, c) }

/-- The lexeme of a table that declares none: a run of word characters. -/
def usualLexeme : String := "\\w+"

/-- Enters words one by one; stops at the first that has another class already. -/
def enter : List (String × KeywordClass) → WordMap KeywordClass →
    Except GrammarError (WordMap KeywordClass)
  | [], table => .ok table
  | (word, c) :: rest, table =>
    match table.find? word.toList with
    | some known =>
      if known = c then enter rest table
      else .error (.overlappingKeyword word known c)
    | none => enter rest (table.insert c word.toList)

/-- Makes the table; the lexeme is looked at before the words. -/
def compile (d : KeywordDecl) : Except GrammarError KeywordTable := do
  let written := d.lexeme.getD usualLexeme
  match Regex.parse? written.toList with
  | none => throw (.invalidPattern written)
  | some e => return ⟨.ofRegex e, ← enter d.entries .nil⟩

end KeywordDecl

namespace KeywordTable

def classify (t : KeywordTable) (w : Word) : Option KeywordClass := t.words.find? w

def size (t : KeywordTable) : Nat := t.words.size

def lexemes (t : KeywordTable) (text : Source) : List (Span × Option KeywordClass) :=
  (t.lexeme.findAll text).map fun s => (s, t.classify (text.chars s))

/-- Words that are as common in prose as in code, and so say nothing about the language. -/
def commonWords : List String :=
  ["of", "and", "for", "in", "not", "or", "if", "then", "parent", "list", "value"]

/-- What one occurrence of a word says about the language. -/
def relevance (w : Word) : UInt32 := if commonWords.any (·.toList == w) then 0 else 1

end KeywordTable

end Highlighting
