/-
  Highlighting/Output/Json.lean
  =============================
  **The result tree as JSON**, one entry a line, indented by two blanks for
  each level.

  Inside strings the quote, the backslash and the control characters are
  escaped, and nothing else.
-/
import Highlighting.Tree

namespace Highlighting.Output.Json

def hexDigit (n : Nat) : Char := Nat.digitChar n

/-- The written form of a character inside a string. -/
def escapeChar (c : Char) : List Char :=
  if c == '"' then ['\\', '"']
  else if c == '\\' then ['\\', '\\']
  else if c == '\n' then ['\\', 'n']
  else if c == '\r' then ['\\', 'r']
  else if c == '\t' then ['\\', 't']
  else if c == '\x08' then ['\\', 'b']
  else if c == '\x0c' then ['\\', 'f']
  else if c.toNat < 32 then
    ['\\', 'u', '0', '0', hexDigit (c.toNat / 16), hexDigit (c.toNat % 16)]
  else [c]

def quote (s : String) : String := String.ofList ('"' :: s.toList.flatMap escapeChar ++ ['"'])

/-- A line break with the indentation of a level. -/
def newline (level : Nat) : String := "\n" ++ String.ofList (List.replicate (2 * level) ' ')

/-- A bracketed list of written items on lines of their own, at a level. -/
def bracketed (opener closer : String) (level : Nat) : List String → String
  | [] => opener ++ closer
  | items =>
    opener ++ newline (level + 1) ++ ("," ++ newline (level + 1)).intercalate items ++
      newline level ++ closer

def object (level : Nat) (fields : List (String × String)) : String :=
  bracketed "\x7b" "\x7d" level (fields.map fun (key, value) => quote key ++ ": " ++ value)

mutual

def renderNode (level : Nat) : Node → String
  | .text s => quote s
  | .region scope children =>
    object level [("scope", quote scope.name),
      ("children", bracketed "[" "]" (level + 1) (renderNodes (level + 2) children))]

def renderNodes (level : Nat) : List Node → List String
  | [] => []
  | n :: ns => renderNode level n :: renderNodes level ns

end

def render (h : Highlighted) : String :=
  object 0 [("language", quote h.language), ("relevance", toString h.relevance.toNat),
    ("illegal", if h.illegal then "true" else "false"),
    ("nodes", bracketed "[" "]" 1 (renderNodes 2 h.nodes))]

end Highlighting.Output.Json
