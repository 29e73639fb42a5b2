/-
  Highlighting/Registry.lean
  ==========================
  **The registry of languages**, and telling which one a text is in.

  Each name is registered once: registering it again replaces the grammar
  where it stands.  A look-up prefers a name to an alias.

  To tell the language of a text, it is highlighted in every one.  A result
  that met something illegal outside of all regions is out; of the others the
  most relevant wins, the earlier one in a tie.  Plain text takes part, ahead
  of all, with no relevance, so that a text that suits no language stays
  plain.
-/
import Highlighting.Scan.Run
import Highlighting.Language.Solidity
import Highlighting.Language.Yul

namespace Highlighting

inductive HighlightError where
  /-- No grammar answers to the name. -/
  | unknownLanguage (name : String)
  /-- A grammar to be registered is refused. -/
  | grammar (e : GrammarError)
  deriving DecidableEq, Repr

def HighlightError.message : HighlightError → String
  | unknownLanguage name => "Unknown language: " ++ name
  | grammar e => "Grammar error: " ++ e.message

/-- The registered languages in order, and the options for all texts. -/
structure Registry where
  grammars : List Grammar
  options : Scan.Options

structure Detected where
  best : Highlighted
  second : Option Highlighted

namespace Registry

def empty : Registry := ⟨[], ⟨false⟩⟩

/-- A list of grammars with one more, in place of one of the same name. -/
def place (g : Grammar) : List Grammar → List Grammar
  | [] => [g]
  | other :: rest => if other.name = g.name then g :: rest else other :: place g rest

def register (r : Registry) (g : Grammar) : Registry := { r with grammars := place g r.grammars }

/-- The grammar of a name, or else the first with that alias. -/
def language? (r : Registry) (name : String) : Option Grammar :=
  r.grammars.find? (·.name == name) <|> r.grammars.find? (·.answersTo name)

/-- The built-in languages by name, in order of registration. -/
def builtIns : List (String × (Lookbehind → Except GrammarError Grammar)) :=
  [("solidity", Language.Solidity.grammarWith), ("yul", Language.Yul.grammarWith)]

def registerAll : List (String × (Lookbehind → Except GrammarError Grammar)) → Registry →
    Except HighlightError Registry
  | [], r => .ok r
  | (_, define) :: rest, r =>
    match define .usual with
    | .ok g => registerAll rest (r.register g)
    | .error e => .error (.grammar e)

def withBuiltIns : Except HighlightError Registry := registerAll builtIns empty

def highlight (r : Registry) (text language : String) : Except HighlightError Highlighted :=
  match r.language? language with
  | some g => .ok (g.highlight text r.options)
  | none => .error (.unknownLanguage language)

/-- The categories and texts of a flat view of a text. -/
def tokensBy (view : Highlighted → List Token) (r : Registry) (text language : String) :
    Except HighlightError (List (String × String)) := do
  let h ← r.highlight text language
  return (view h).map fun t => (t.category, t.text)

def tokens : Registry → String → String → Except HighlightError (List (String × String)) :=
  tokensBy Highlighted.tokens

def leaves : Registry → String → String → Except HighlightError (List (String × String)) :=
  tokensBy Highlighted.leaves

/-! ### Telling the language -/

/-- The results that can win: plain text, and what every language makes of the text if
nothing illegal occurs. -/
def candidates (r : Registry) (text : String) : List Highlighted :=
  .plaintext text ::
    ((r.grammars.map fun g => g.highlight text r.options).filter fun h => !h.illegal)

/-- Enters a result ahead of those that are not more relevant. -/
def enterRanked (h : Highlighted) : List Highlighted → List Highlighted
  | [] => [h]
  | other :: rest =>
    if h.relevance < other.relevance then other :: enterRanked h rest else h :: other :: rest

/-- Results in order of falling relevance, equal ones in the order they had. -/
def ranked : List Highlighted → List Highlighted
  | [] => []
  | h :: rest => enterRanked h (ranked rest)

def detect (r : Registry) (text : String) : Detected :=
  match ranked (r.candidates text) with
  -- plain text always takes part
  | [] => ⟨.plaintext text, none⟩
  | best :: rest => ⟨best, rest.head?⟩

end Registry

end Highlighting
