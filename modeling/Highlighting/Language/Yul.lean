/-
  Highlighting/Language/Yul.lean
  ==============================
  **Yul**, the assembly that stands in files of its own: the rules of
  assembly at the top level, with words for objects and their data, and the
  family of built-ins `verbatim_<n>i_<m>o`.
-/
import Highlighting.Language.Assembly

namespace Highlighting.Language.Yul

def keywords : List String := ["object", "code", "data"]

def builtIns : List String := [
  "datasize", "dataoffset", "datacopy", "setimmutable", "loadimmutable", "linkersymbol",
  "memoryguard"]

/-- Both numbers go from 0 to 99, without leading zeros. -/
def verbatimRegex : String := "\\bverbatim_[1-9]?[0-9]i_[1-9]?[0-9]o\\b"

def declare : Construct LanguageDecl := do
  let table ← Assembly.table keywords builtIns
  let literals ← Literals.declare
  let rules ← Assembly.declare literals table
  let verbatim ← Builder.add
    { ModeDecl.opening (((PatternDecl.ofRegex verbatimRegex).unlessAfter '$').unlessBefore '$') with
      scope := some .builtIn }
  return { name := "yul", aliases := [], keywords := some table,
           contains := rules ++ [verbatim], illegal := none }

def grammarWith (lookbehind : Lookbehind) : Except GrammarError Grammar := do
  let (language, builder) ← declare (Builder.start lookbehind)
  builder.finish language

def grammar : Except GrammarError Grammar := grammarWith .usual

end Highlighting.Language.Yul
