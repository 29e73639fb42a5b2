/-
  Highlighting/Config/Settings.lean
  =================================
  **The settings of the program**, read from a table of values.

  Texts may be given as booleans or numbers too, and the one boolean as a
  number or as one of a few words.  The groups `highlight` and `output` may be
  written as lists of their settings in order.  What is not known is passed
  over.
-/
import Highlighting.Config.Layers
import Highlighting.Decimal.Shortest

namespace Highlighting.Config

namespace Real

/-- The number with the fewest digits that read back. -/
def text : Real → String
  | decimal d => d.shortest.text
  | infinite negative => if negative then "-inf" else "inf"
  | notANumber => "NaN"

def isZero : Real → Bool
  | decimal d => d.shortest.digits == 0
  | _ => false

/-- The number with a point, also where nothing follows it. -/
def pointText (x : Real) : String :=
  match x with
  | decimal _ => if x.text.toList.contains '.' then x.text else x.text ++ ".0"
  | _ => x.text

end Real

def Unexpected.message : Unexpected → String
  | boolean b => "boolean `" ++ toString b ++ "`"
  | integer n => "integer `" ++ toString n ++ "`"
  | real x => "floating point `" ++ x.pointText ++ "`"
  | string s => "string " ++ Quoted.encode s
  | unit => "unit value"
  | sequence => "sequence"
  | map => "map"

def Value.unexpected : Value → Unexpected
  | nil => .unit
  | boolean b => .boolean b
  | integer n => .integer n
  | real x => .real x
  | string s => .string s
  | array _ => .sequence
  | table _ => .map

def ConfigError.message : ConfigError → String
  | badPath key => "the key " ++ Quoted.encode key ++ " is no path"
  | badFile name => "the file " ++ Quoted.encode name ++ " is not valid TOML"
  | missingFile name => "configuration file " ++ Quoted.encode name ++ " not found"
  | wrongType unexpected expected key =>
    "invalid type: " ++ unexpected.message ++ ", expected " ++ expected ++ " for key `" ++ key ++
      "`"
  | wrongShape unexpected expected =>
    "invalid type: " ++ unexpected.message ++ ", expected " ++ expected
  | tooShort length expected =>
    "invalid length " ++ toString length ++ ", expected " ++ expected
  | missingField name => "missing field `" ++ name ++ "`"

structure Settings where
  language : String
  ignoreIllegals : Bool
  format : String
  classPrefix : String
  /-- The colours of scopes, by name; sorted. -/
  theme : List (String × String)
  deriving DecidableEq, Repr

namespace Settings

/-- The language that asks for the best one to be found. -/
def autoLanguage : String := "auto"

def detects (s : Settings) : Bool := s.language == autoLanguage

/-! ### Single settings -/

def textOf (key : String) : Value → Except ConfigError String
  | .string s => .ok s
  | .boolean b => .ok (toString b)
  | .integer n => .ok (toString n)
  | .real x => .ok x.text
  | v => .error (.wrongType v.unexpected "a string" key)

def booleanOf (key : String) : Value → Except ConfigError Bool
  | .boolean b => .ok b
  | .integer n => .ok (n != 0)
  | .real x => .ok (!x.isZero)
  | .string s =>
    let word := Casing.lower s
    if ["1", "true", "on", "yes"].contains word then .ok true
    else if ["0", "false", "off", "no"].contains word then .ok false
    else .error (.wrongType (.string word) "a boolean" key)
  | v => .error (.wrongType v.unexpected "a boolean" key)

/-! ### Groups -/

/-- A group of two settings, by name or in order. -/
def pairOf {α β : Type} (group typeName firstName secondName : String)
    (first : String → Value → Except ConfigError α)
    (second : String → Value → Except ConfigError β) : Value → Except ConfigError (α × β)
  | .table es =>
    match es.lookup firstName, es.lookup secondName with
    | some a, some b => do
      return (← first (group ++ "." ++ firstName) a, ← second (group ++ "." ++ secondName) b)
    | some a, none => do
      let _ ← first (group ++ "." ++ firstName) a
      .error (.missingField secondName)
    | none, some b => do
      let _ ← second (group ++ "." ++ secondName) b
      .error (.missingField firstName)
    | none, none => .error (.missingField firstName)
  | .array [] => .error (.tooShort 0 ("struct " ++ typeName ++ " with 2 elements"))
  | .array [a] => do
    let _ ← first (group ++ "[0]") a
    .error (.tooShort 1 ("struct " ++ typeName ++ " with 2 elements"))
  | .array (a :: b :: _) => do
    return (← first (group ++ "[0]") a, ← second (group ++ "[1]") b)
  | v => .error (.wrongShape v.unexpected ("struct " ++ typeName))

/-- Enters a pair into a list that is sorted by names. -/
def enterSorted (p : String × String) : List (String × String) → List (String × String)
  | [] => [p]
  | q :: rest => if p.1 < q.1 then p :: q :: rest else q :: enterSorted p rest

/-- The colours of a theme, sorted by the names of scopes. -/
def themeOf : List (String × Value) → Except ConfigError (List (String × String))
  | [] => .ok []
  | (name, v) :: rest => do
    let color ← textOf ("theme." ++ name) v
    return enterSorted (name, color) (← themeOf rest)

def ofEntries (es : Entries) : Except ConfigError Settings := do
  let some highlight := es.lookup "highlight" | throw (.missingField "highlight")
  let (language, ignoreIllegals) ←
    pairOf "highlight" "HighlightConfig" "language" "ignore_illegals" textOf booleanOf highlight
  let some output := es.lookup "output" | throw (.missingField "output")
  let (format, classPrefix) ←
    pairOf "output" "OutputConfig" "format" "class_prefix" textOf textOf output
  let theme ← match es.lookup "theme" with
    | none => pure []
    | some (.table colors) => themeOf colors
    | some v => throw (.wrongShape v.unexpected "a map")
  return { language, ignoreIllegals, format, classPrefix, theme }

def ofLayers (l : Layers) : Except ConfigError Settings := do ofEntries (← l.entries)

/-- The settings that are in force unless something else is said. -/
def defaults : Except ConfigError Settings := ofLayers .start

end Settings

end Highlighting.Config
