/-
  Highlighting/CommandLine/Arguments.lean
  =======================================
  **The arguments of the command line.**

  The first argument names a command; those after it are its options and at
  most one path.  The value of an option stands in the same argument, behind
  its name and possibly an equals sign, or in the next one.  An option with a
  value can be given once.  After two hyphens alone, everything is a path.
-/

namespace Highlighting.CommandLine

/-- The options of a command that highlights; `none` where one was not given. -/
structure HighlightOptions where
  path : Option String
  language : Option String
  format : Option String
  config : Option String
  ignoreIllegals : Bool
  deriving DecidableEq, Repr

inductive Command where
  | version
  | languages
  | highlight (o : HighlightOptions)
  | detect (path config : Option String)
  deriving DecidableEq, Repr

inductive Name where
  | language
  | format
  | config
  | ignoreIllegals
  deriving DecidableEq, Repr

namespace Name

/-- The long form, without its hyphens. -/
def long : Name → String
  | language => "language"
  | format => "format"
  | config => "config"
  | ignoreIllegals => "ignore-illegals"

def short : Name → Option Char
  | language => some 'l'
  | format => some 'f'
  | config => some 'c'
  | ignoreIllegals => none

def hasValue : Name → Bool
  | ignoreIllegals => false
  | _ => true

end Name

/-- An argument after the command, with the value of an option where it has one. -/
inductive Argument where
  | option (name : Name) (value : String)
  | flag (name : Name)
  | path (p : String)
  deriving DecidableEq, Repr

/-- The argument of an option, whose value is in the same word or else the next one.  A word
that begins with a hyphen is no value, except the hyphen alone.  The answer holds the words
that are left. -/
def withValue? (name : Name) (value : Option String) (rest : List String) :
    Option (Argument × List String) :=
  match value, name.hasValue with
  | none, false => some (.flag name, rest)
  | some _, false => none
  | some v, true => some (.option name v, rest)
  | none, true =>
    match rest with
    | [] => none
    | w :: rest => if w.startsWith "-" && w != "-" then none else some (.option name w, rest)

/-- The part before the first equals sign, and the part after it, if there is one. -/
def splitEquals (cs : List Char) : List Char × Option (List Char) :=
  let name := cs.takeWhile (· != '=')
  match cs.drop name.length with
  | [] => (name, none)
  | _ :: value => (name, some value)

/-- The option or path at the front, with the words that are left. -/
def argument? (names : List Name) (word : String) (rest : List String) :
    Option (Argument × List String) :=
  match word.toList with
  | '-' :: '-' :: cs =>
    let (name, value) := splitEquals cs
    match names.find? (·.long.toList == name) with
    | some n => withValue? n (value.map String.ofList) rest
    | none => none
  | '-' :: c :: cs =>
    match names.find? (·.short == some c) with
    | some n =>
      let value := match cs with
        | [] => none
        | '=' :: v => some (String.ofList v)
        | v => some (String.ofList v)
      withValue? n value rest
    | none => none
  | _ => some (.path word, rest)

/-- The arguments after a command that knows the given options.  `fuel` bounds their
number. -/
def arguments? (names : List Name) : Nat → List String → Option (List Argument)
  | _, [] => some []
  | 0, _ => none
  | fuel + 1, w :: rest =>
    if w = "--" then some (rest.map .path)
    else do
      let (a, rest) ← argument? names w rest
      return a :: (← arguments? names fuel rest)

/-- The value of an option that is given at most once; `none` outside when it is given more
often. -/
def single? (values : List String) : Option (Option String) :=
  match values with
  | [] => some none
  | [v] => some (some v)
  | _ => none

def valuesOf (name : Name) (arguments : List Argument) : List String :=
  arguments.filterMap fun
    | .option n v => if n = name then some v else none
    | _ => none

def pathsOf (arguments : List Argument) : List String :=
  arguments.filterMap fun
    | .path p => some p
    | _ => none

/-- The options of a command that knows the given ones. -/
def options? (names : List Name) (words : List String) : Option HighlightOptions := do
  let arguments ← arguments? names words.length words
  let flags := arguments.filter fun a => a == .flag .ignoreIllegals
  if 1 < flags.length then none
  return {
    path := ← single? (pathsOf arguments)
    language := ← single? (valuesOf .language arguments)
    format := ← single? (valuesOf .format arguments)
    config := ← single? (valuesOf .config arguments)
    ignoreIllegals := !flags.isEmpty }

/-- The command that the arguments ask for, `none` when they are not understood. -/
def command? : List String → Option Command
  | [] => none
  | "highlight" :: rest =>
    (options? [.language, .format, .config, .ignoreIllegals] rest).map .highlight
  | "detect" :: rest => (options? [.config] rest).map fun o => .detect o.path o.config
  | "languages" :: rest => (arguments? [] rest.length rest).bind fun arguments =>
    if arguments.isEmpty then some .languages else none
  | word :: _ => if word = "--version" || word.startsWith "-V" then some .version else none

end Highlighting.CommandLine
