/-
  Highlighting/Output/Terminal.lean
  =================================
  **Terminal output**: text with escape sequences for its colours.

  A text node is shown in the colour of the closest scope around it that has
  one in the theme, between the sequence that sets the colour and the one
  that resets it.  Without such a scope it is shown bare.
-/
import Highlighting.Tree
import Highlighting.Theme

namespace Highlighting.Output.Terminal

def sequence (parameters : String) : String := "\x1b[" ++ parameters ++ "m"

/-- The parameters that set a colour. -/
def parameters : Color → String
  | .named c =>
    match c.paletteIndex? with
    | some n => "38;5;" ++ toString n
    | none => "39"
  | .rgb r g b => "38;2;" ++ toString r ++ ";" ++ toString g ++ ";" ++ toString b

def resetSequence : String := sequence "39"

def paint (c : Option Color) (s : String) : String :=
  match c with
  | some c => sequence (parameters c) ++ s ++ resetSequence
  | none => s

mutual

/-- A node, inside of a scope with the given colour. -/
def renderNode (theme : Theme) (outer : Option Color) : Node → String
  | .text s => paint outer s
  | .region scope children => renderNodes theme (theme.color? scope <|> outer) children

/-- A list of nodes, inside of a scope with the given colour. -/
def renderNodes (theme : Theme) (outer : Option Color) : List Node → String
  | [] => ""
  | n :: ns => renderNode theme outer n ++ renderNodes theme outer ns

end

def render (theme : Theme) (h : Highlighted) : String := renderNodes theme none h.nodes

end Highlighting.Output.Terminal
