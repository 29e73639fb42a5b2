/-
  Highlighting/Output/Html.lean
  =============================
  **HTML output**: a `span` for each scope, whose class is the name of the
  scope behind a common beginning.
-/
import Highlighting.Tree

namespace Highlighting.Output.Html

/-- A character of text as it stands between tags. -/
def escapeChar (c : Char) : List Char :=
  if c == '&' then "&amp;".toList
  else if c == '<' then "&lt;".toList
  else if c == '>' then "&gt;".toList
  else if c == '"' then "&quot;".toList
  else if c == '\'' then "&#x27;".toList
  else [c]

def escape (s : String) : String := String.ofList (s.toList.flatMap escapeChar)

/-- What class names begin with unless something else is chosen. -/
def usualClassPrefix : String := "hljs-"

def openTag (classPrefix : String) (scope : Scope) : String :=
  "<span class=\"" ++ classPrefix ++ scope.name ++ "\">"

mutual

def renderNode (classPrefix : String) : Node → String
  | .text s => escape s
  | .region scope children =>
    openTag classPrefix scope ++ renderNodes classPrefix children ++ "</span>"

def renderNodes (classPrefix : String) : List Node → String
  | [] => ""
  | n :: ns => renderNode classPrefix n ++ renderNodes classPrefix ns

end

def render (classPrefix : String) (h : Highlighted) : String := renderNodes classPrefix h.nodes

end Highlighting.Output.Html
