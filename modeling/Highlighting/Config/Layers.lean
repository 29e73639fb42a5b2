/-
  Highlighting/Config/Layers.lean
  ===============================
  **Layers of settings**: files in order, and over all of them single
  settings.

  A file that is merely optional may be missing.  The top-level keys of a file
  are paths where they can be read as such, so that `output.format` in quotes
  means the same as `format` in the table `output`.

  The keys of a file are gone through in the order of the file.  That order
  tells only where one file gives a setting in both of these ways.  Which of
  the two counts then is not specified, since a file is an unordered map of its
  keys; here it is the later one.
-/
import Highlighting.Config.KeyPath
import Highlighting.Config.Toml
import Highlighting.Text.Quoted

namespace Highlighting.Config

/-- What is found where a value of a certain kind is needed. -/
inductive Unexpected where
  | boolean (b : Bool)
  | integer (n : Int)
  | real (x : Real)
  | string (s : String)
  | unit
  | sequence
  | map
  deriving DecidableEq, Repr

inductive ConfigError where
  /-- The key of a single setting is no path. -/
  | badPath (key : String)
  | badFile (name : String)
  /-- A file that has to exist does not, or is no text. -/
  | missingFile (name : String)
  /-- A value is not of the kind that the setting at the key needs. -/
  | wrongType (unexpected : Unexpected) (expected key : String)
  /-- A group of settings is written as something else. -/
  | wrongShape (unexpected : Unexpected) (expected : String)
  /-- A group of settings is written as a list that is too short. -/
  | tooShort (length : Nat) (expected : String)
  | missingField (name : String)
  deriving DecidableEq, Repr

/-- A file to be read, with its content if it can be read. -/
structure FileLayer where
  name : String
  required : Bool
  content : Option String
  deriving DecidableEq, Repr

structure Layers where
  files : List FileLayer
  /-- Single settings, over all files. -/
  overrides : List (KeyPath × Value)

namespace Layers

/-- The settings that are in force unless something else is said. -/
def defaults : Entries := [
  ("highlight", .table [("language", .string "auto"), ("ignore_illegals", .boolean false)]),
  ("output", .table [("format", .string "ansi"), ("class_prefix", .string "hljs-")]),
  ("theme", .table [
    ("keyword", .string "magenta"),
    ("built_in", .string "cyan"),
    ("literal", .string "blue"),
    ("number", .string "yellow"),
    ("string", .string "green"),
    ("meta-string", .string "dark_green"),
    ("meta", .string "dark_yellow"),
    ("comment", .string "dark_grey"),
    ("doctag", .string "red"),
    ("title", .string "blue"),
    ("operator", .string "dark_cyan")])]

def start : Layers := ⟨[], []⟩

/-- With a further file over those before. -/
def withFile (l : Layers) (f : FileLayer) : Layers := { l with files := l.files ++ [f] }

/-- With a single setting; one for the same path is replaced. -/
def setOverride (l : Layers) (key : String) (v : Value) : Except ConfigError Layers :=
  match KeyPath.ofText? key with
  | none => .error (.badPath key)
  | some p =>
    .ok { l with overrides := (l.overrides.filter fun o => !decide (o.1 = p)) ++ [(p, v)] }

def readFile (f : FileLayer) : Except ConfigError Entries :=
  match f.content with
  | none => if f.required then .error (.missingFile f.name) else .ok []
  | some text =>
    match Toml.document? text with
    | some es => .ok es
    | none => .error (.badFile f.name)

/-- Writes the entries of a file over the settings so far, those later in the file last. -/
def merge (incoming es : Entries) : Entries :=
  incoming.foldl (fun es (key, v) =>
    match KeyPath.ofText? key with
    | some p => p.write v es
    | none => v.enter key es) es

/-- Writes files over the settings so far, the first first. -/
def mergeFiles : List FileLayer → Entries → Except ConfigError Entries
  | [], es => .ok es
  | f :: fs, es => do mergeFiles fs (merge (← readFile f) es)

def entries (l : Layers) : Except ConfigError Entries := do
  let es ← mergeFiles l.files (merge defaults [])
  return l.overrides.foldl (fun es (p, v) => p.write v es) es

end Layers

end Highlighting.Config
