/-
  Highlighting/Output/Yaml.lean
  =============================
  **The result tree as YAML**, in block style.

  The items of a list stand right below the key that holds the list, each
  behind a hyphen.  A node with a scope is a mapping in such an item.
-/
import Highlighting.Output.YamlScalar
import Highlighting.Tree

namespace Highlighting.Output.Yaml

mutual

/-- A node as an item of a list whose hyphens are indented by `indent`. -/
def renderNode (indent : Nat) : Node → List Char
  | .text s => blanks indent ++ "- ".toList ++ writeLine (indent + 2) s
  | .region scope children =>
    blanks indent ++ "- scope: ".toList ++ scope.name.toList ++ '\n' ::
      (blanks (indent + 2) ++ "children:".toList ++
        (if children.isEmpty then " []\n".toList else '\n' :: renderNodes (indent + 2) children))

def renderNodes (indent : Nat) : List Node → List Char
  | [] => []
  | n :: ns => renderNode indent n ++ renderNodes indent ns

end

def render (h : Highlighted) : String :=
  String.ofList ("language: ".toList ++ writeLine 2 h.language ++
    "relevance: ".toList ++ (toString h.relevance.toNat).toList ++
    "\nillegal: ".toList ++ (if h.illegal then "true" else "false").toList ++
    "\nnodes:".toList ++
      (if h.nodes.isEmpty then " []\n".toList else '\n' :: renderNodes 0 h.nodes))

end Highlighting.Output.Yaml
