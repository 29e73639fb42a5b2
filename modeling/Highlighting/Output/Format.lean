/-
  Highlighting/Output/Format.lean
  ===============================
  **Output formats**, and the registry in which they are found by name.

  A format can be registered again with other settings; it then replaces the
  one of the same name.
-/
import Highlighting.Output.Html
import Highlighting.Output.Terminal
import Highlighting.Output.Listing
import Highlighting.Output.Json
import Highlighting.Output.Yaml

namespace Highlighting.Output

/-- An output format with its settings. -/
inductive Format where
  | html (classPrefix : String)
  | terminal (theme : Theme)
  | listing
  | json
  | yaml

namespace Format

def name : Format → String
  | html _ => "html"
  | terminal _ => "ansi"
  | listing => "tokens"
  | json => "json"
  | yaml => "yaml"

def description : Format → String
  | html _ => "HTML spans with hljs style classes"
  | terminal _ => "Terminal colors"
  | listing => "Top level tokens, one per line"
  | json => "Result tree as JSON"
  | yaml => "Result tree as YAML"

def render : Format → Highlighted → String
  | html classPrefix => Html.render classPrefix
  | terminal theme => Terminal.render theme
  | listing => Listing.render
  | json => Json.render
  | yaml => Yaml.render

end Format

inductive RenderError where
  | formatNotFound (name : String)
  deriving DecidableEq, Repr

def RenderError.message : RenderError → String
  | formatNotFound name => "Format not found: " ++ name

/-- The registered formats, in order of their names. -/
structure Formats where
  formats : List Format

namespace Formats

def empty : Formats := ⟨[]⟩

/-- A sorted list of formats with one more, in place of one of the same name. -/
def place (f : Format) : List Format → List Format
  | [] => [f]
  | other :: rest =>
    if f.name = other.name then f :: rest
    else if f.name < other.name then f :: other :: rest
    else other :: place f rest

def register (fs : Formats) (f : Format) : Formats := ⟨place f fs.formats⟩

/-- All formats with their usual settings. -/
def usual : Formats :=
  [Format.html Html.usualClassPrefix, .terminal .usual, .listing, .json, .yaml].foldl register empty

def get (fs : Formats) (name : String) : Except RenderError Format :=
  match fs.formats.find? (·.name == name) with
  | some f => .ok f
  | none => .error (.formatNotFound name)

def has (fs : Formats) (name : String) : Bool := fs.formats.any (·.name == name)

def names (fs : Formats) : List String := fs.formats.map Format.name

/-- A highlighted text in the format of a name. -/
def render (fs : Formats) (h : Highlighted) (name : String) : Except RenderError String :=
  (fs.get name).map (·.render h)

end Formats

end Highlighting.Output
