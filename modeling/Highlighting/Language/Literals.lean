/-
  Highlighting/Language/Literals.lean
  ===================================
  **Strings, numbers and comments**, shared by all built-in languages.

  They are declared once, so that the same literal is highlighted the same way
  in a contract, in an assembly section of it, and in a file of assembly.
-/
import Highlighting.Grammar.Builder

namespace Highlighting.Language

/-- The numbers of the literal modes in a builder. -/
structure Literals where
  aposString : Nat
  quoteString : Nat
  hexAposString : Nat
  hexQuoteString : Nat
  lineComment : Nat
  blockComment : Nat
  number : Nat
  deriving Repr

/-- A string between two quotes on one line, optionally marked `unicode`. -/
def stringMode (quote : String) : Construct ModeDecl := do
  let escape ← Builder.escape
  return { ModeDecl.opening (.ofRegex ("(?:\\bunicode)?" ++ quote)) with
    scope := some .string, ending := .pattern (.ofRegex quote),
    illegal := some (.literal "\n"), contains := [escape] }

/-- A string of hexadecimal bytes, optionally with single underscores between them.  It is
matched as a whole. -/
def hexStringMode (quote : String) : ModeDecl :=
  let byte := "[0-9a-fA-F]\x7b2\x7d"
  { ModeDecl.opening (.ofRegex
      ("\\bhex" ++ quote ++ "(?:(?:" ++ byte ++ "_?)*" ++ byte ++ ")?" ++ quote)) with
    scope := some .string }

namespace Literals

def declare : Construct Literals := do
  let apos ← stringMode "'"
  let quote ← stringMode "\""
  return {
    aposString := ← Builder.add apos
    quoteString := ← Builder.add quote
    hexAposString := ← Builder.add (hexStringMode "'")
    hexQuoteString := ← Builder.add (hexStringMode "\"")
    lineComment := ← Builder.lineComment
    blockComment := ← Builder.blockComment
    number := ← Builder.add
      { ModeDecl.opening .number with scope := some .number, relevance := some 0 } }

/-- All strings, the plain ones first. -/
def strings (l : Literals) : List Nat :=
  [l.aposString, l.quoteString, l.hexAposString, l.hexQuoteString]

def comments (l : Literals) : List Nat := [l.lineComment, l.blockComment]

/-- Adds the two plain strings once more, as parts of a directive. -/
def directiveStrings (l : Literals) : Construct (List Nat) := do
  let apos ← Builder.inherit l.aposString
  let quote ← Builder.inherit l.quoteString
  return [← Builder.add { apos with scope := some .directiveString },
    ← Builder.add { quote with scope := some .directiveString }]

end Literals

end Highlighting.Language
