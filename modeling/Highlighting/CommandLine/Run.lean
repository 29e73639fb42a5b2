/-
  Highlighting/CommandLine/Run.lean
  =================================
  **What the program does**, as a function of what it finds.

  Settings come from the defaults, then from the file `solhl.toml`, then from
  the file named with `--config`, then from the command line.  The first thing
  that goes wrong ends the program; in order these are the settings, the text,
  the language, the theme and the format.
-/
import Highlighting.CommandLine.Arguments
import Highlighting.Registry
import Highlighting.Output.Format
import Highlighting.Config.Settings

namespace Highlighting.CommandLine

open Config (Layers Settings ConfigError)

/-- What the program finds: the files that can be read as text, and its input, `none` when
that is no text. -/
structure Surroundings where
  file? : String → Option String
  input : Option String

structure Outcome where
  status : Nat
  output : String
  errors : String
  deriving DecidableEq, Repr

namespace Outcome

def done (output : String) : Outcome := ⟨0, output, ""⟩

/-- The arguments were not understood. -/
def misused : Outcome := ⟨2, "", ""⟩

/-- Something went wrong, while doing what `context` says. -/
def failed (context message : String) : Outcome := ⟨1, "", context ++ ": " ++ message ++ "\n"⟩

end Outcome

/-! ### Settings -/

/-- The file of settings that is looked for without being asked for. -/
def localConfig : String := "solhl.toml"

/-- The names under which a file of settings is looked for. -/
def configNames (name : String) : List String := [name, name ++ ".toml"]

def configFile (s : Surroundings) (name : String) (required : Bool) : Config.FileLayer :=
  ⟨name, required, (configNames name).findSome? s.file?⟩

/-- With a setting from the command line, if it was given. -/
def withOption (key : String) (v : Option Config.Value) (l : Layers) :
    Except ConfigError Layers :=
  match v with
  | some v => l.setOverride key v
  | none => .ok l

def settings (s : Surroundings) (config language format : Option String)
    (ignoreIllegals : Bool) : Except ConfigError Settings := do
  let l := Layers.start.withFile (configFile s localConfig false)
  let l := match config with
    | some name => l.withFile (configFile s name true)
    | none => l
  let l ← withOption "highlight.language" (language.map .string) l
  let l ← withOption "output.format" (format.map .string) l
  let l ← withOption "highlight.ignore_illegals"
    (if ignoreIllegals then some (.boolean true) else none) l
  Settings.ofLayers l

/-! ### Texts -/

/-- The text at a path; a hyphen, or no path, means the input. -/
def sourceText (s : Surroundings) (path : Option String) : Except Outcome String :=
  match path.getD "-" with
  | "-" =>
    match s.input with
    | some text => .ok text
    | none => .error (.failed "Error reading stdin" "stream did not contain valid UTF-8")
  | path =>
    match s.file? path with
    | some text => .ok text
    | none => .error (.failed "Error reading file" "no such text file")

/-! ### Commands -/

/-- The registry of the built-in languages with the options of the settings. -/
def registry (settings : Settings) : Except Outcome Registry :=
  match Registry.withBuiltIns with
  | .ok r => .ok { r with options := ⟨settings.ignoreIllegals⟩ }
  | .error e => .error (.failed "Error building grammars" e.message)

def highlightWith (settings : Settings) (r : Registry) (text : String) :
    Except Outcome Highlighted :=
  if settings.detects then .ok (r.detect text).best
  else match r.highlight text settings.language with
    | .ok h => .ok h
    | .error e => .error (.failed "Error" e.message)

def renderWith (settings : Settings) (h : Highlighted) : Except Outcome String := do
  let theme ← match Theme.usual.withNames settings.theme with
    | .ok t => pure t
    | .error e => throw (.failed "Invalid theme" e.message)
  let formats := Output.Formats.usual.register (.html settings.classPrefix)
  let formats := formats.register (.terminal theme)
  match formats.render h settings.format with
  | .ok output => return output
  | .error e => throw (.failed "Error rendering output" e.message)

/-- Settings or the outcome that says what is wrong with them. -/
def checked : Except ConfigError Settings → Except Outcome Settings
  | .ok s => .ok s
  | .error e => .error (.failed "Error loading configuration" e.message)

def runHighlight (s : Surroundings) (o : HighlightOptions) : Except Outcome String := do
  let settings ← checked (settings s o.config o.language o.format o.ignoreIllegals)
  let text ← sourceText s o.path
  let r ← registry settings
  let h ← highlightWith settings r text
  renderWith settings h

def detectedLine (h : Highlighted) : String :=
  h.language ++ "\t" ++ toString h.relevance.toNat ++ "\n"

/-- Tells the language of a text, and the next best one. -/
def runDetect (s : Surroundings) (path config : Option String) : Except Outcome String := do
  let settings ← checked (settings s config none none false)
  let text ← sourceText s path
  let r ← registry settings
  let d := r.detect text
  return detectedLine d.best ++ (d.second.map detectedLine).getD ""

def languageLine (g : Grammar) : String :=
  if g.aliases.isEmpty then "  " ++ g.name ++ "\n"
  else "  " ++ g.name ++ " (" ++ ", ".intercalate g.aliases ++ ")\n"

def runLanguages : Except Outcome String :=
  match Registry.withBuiltIns with
  | .ok r => .ok ("Available languages:\n\n" ++ String.join (r.grammars.map languageLine))
  | .error e => .error (.failed "Error building grammars" e.message)

def versionLine : String := "solhl 0.1.0\n"

def Command.run (c : Command) (s : Surroundings) : Outcome :=
  let output : Except Outcome String := match c with
    | .version => .ok versionLine
    | .languages => runLanguages
    | .highlight o => runHighlight s o
    | .detect path config => runDetect s path config
  match output with
  | .ok text => .done text
  | .error failure => failure

def run (arguments : List String) (s : Surroundings) : Outcome :=
  match command? arguments with
  | some c => c.run s
  | none => .misused

def Command.files : Command → List String
  | .version => []
  | .languages => []
  | .highlight o =>
    configNames localConfig ++ (o.config.toList.flatMap configNames) ++ o.path.toList
  | .detect path config =>
    configNames localConfig ++ (config.toList.flatMap configNames) ++ path.toList

def Command.readsInput : Command → Bool
  | .version => false
  | .languages => false
  | .highlight o => o.path.getD "-" == "-"
  | .detect path _ => path.getD "-" == "-"

end Highlighting.CommandLine
