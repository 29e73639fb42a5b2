/-
  Highlighting/Tree.lean
  ======================
  **Highlighted text**, as a list of trees.

  A node is bare text, or a scope around further nodes.  Reading the texts of
  all nodes from left to right gives the text back that was highlighted.

  There are two flat views.  `tokens` has one entry for each node at the top,
  with the whole text of it; `leaves` has one for each text node, with the
  scope closest around it.
-/
import Highlighting.Scope

namespace Highlighting

inductive Node where
  | text (s : String)
  | region (scope : Scope) (children : List Node)
  deriving Repr, Inhabited

/-- A stretch of text with its category, `none` when it has none. -/
structure Token where
  scope : Option Scope
  text : String
  deriving DecidableEq, Repr

namespace Token

def category (t : Token) : String := Scope.categoryName t.scope

end Token

namespace Node

mutual

/-- The text of a node, all scopes dropped. -/
def content : Node → String
  | text s => s
  | region _ children => contents children

def contents : List Node → String
  | [] => ""
  | n :: ns => n.content ++ contents ns

end

mutual

/-- The text nodes of a node from left to right, each with the closest scope around it;
`outer` is the one around the node. -/
def leavesIn (outer : Option Scope) : Node → List Token
  | text s => [⟨outer, s⟩]
  | region scope children => allLeavesIn (some scope) children

def allLeavesIn (outer : Option Scope) : List Node → List Token
  | [] => []
  | n :: ns => n.leavesIn outer ++ allLeavesIn outer ns

end

def token : Node → Token
  | text s => ⟨none, s⟩
  | region scope children => ⟨some scope, contents children⟩

end Node

/-- A text with its highlighting. -/
structure Highlighted where
  language : String
  /-- How well the text suits the language. -/
  relevance : UInt32
  /-- Whether something occurred that must not occur in the language. -/
  illegal : Bool
  nodes : List Node
  deriving Repr, Inhabited

namespace Highlighted

def plaintext (source : String) : Highlighted :=
  { language := "plaintext", relevance := 0, illegal := false,
    nodes := if source.isEmpty then [] else [.text source] }

def text (h : Highlighted) : String := Node.contents h.nodes

/-- One token for each node at the top. -/
def tokens (h : Highlighted) : List Token := h.nodes.map Node.token

def leaves (h : Highlighted) : List Token := Node.allLeavesIn none h.nodes

end Highlighted

end Highlighting
