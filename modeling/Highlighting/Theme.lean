/-
  Highlighting/Theme.lean
  =======================
  **Themes**: the colours of scopes on a terminal.

  A colour is one of the sixteen that terminals name, the terminal's own
  (`reset`), any other of the terminal's palette (`ansi`), or given by its red,
  green and blue.  It is written by its name, in letters of any case, or as six
  hexadecimal digits after a number sign.  The numbered ones of the palette can
  be set only: the names that are read are those of `NamedColor.all`.

  A theme can leave a scope without colour; its text then shows the colour of
  the scope around it.
-/
import Highlighting.Scope
import Highlighting.Text.Casing
import Highlighting.Text.CharClass
import Highlighting.Text.Quoted

namespace Highlighting

inductive NamedColor where
  | reset
  | black
  | darkGrey
  | red
  | darkRed
  | green
  | darkGreen
  | yellow
  | darkYellow
  | blue
  | darkBlue
  | magenta
  | darkMagenta
  | cyan
  | darkCyan
  | white
  | grey
  /-- A colour of the palette by its number. -/
  | ansi (value : Nat)
  deriving DecidableEq, Repr, Inhabited

namespace NamedColor

def name : NamedColor → String
  | reset => "reset"
  | black => "black"
  | darkGrey => "dark_grey"
  | red => "red"
  | darkRed => "dark_red"
  | green => "green"
  | darkGreen => "dark_green"
  | yellow => "yellow"
  | darkYellow => "dark_yellow"
  | blue => "blue"
  | darkBlue => "dark_blue"
  | magenta => "magenta"
  | darkMagenta => "dark_magenta"
  | cyan => "cyan"
  | darkCyan => "dark_cyan"
  | white => "white"
  | grey => "grey"
  | ansi value => "ansi_(" ++ toString value ++ ")"

/-- The colours whose names are read. -/
def all : List NamedColor :=
  [reset, black, darkGrey, red, darkRed, green, darkGreen, yellow, darkYellow, blue, darkBlue,
    magenta, darkMagenta, cyan, darkCyan, white, grey]

/-- The number of the colour in a terminal's palette; `reset` has none. -/
def paletteIndex? : NamedColor → Option Nat
  | reset => none
  | black => some 0
  | darkRed => some 1
  | darkGreen => some 2
  | darkYellow => some 3
  | darkBlue => some 4
  | darkMagenta => some 5
  | darkCyan => some 6
  | grey => some 7
  | darkGrey => some 8
  | red => some 9
  | green => some 10
  | yellow => some 11
  | blue => some 12
  | magenta => some 13
  | cyan => some 14
  | white => some 15
  | ansi value => some value

end NamedColor

inductive Color where
  | named (c : NamedColor)
  | rgb (red green blue : Nat)
  deriving DecidableEq, Repr, Inhabited

namespace Color

/-- The value of a channel of two characters: two hexadecimal digits, or one after a plus
sign. -/
def channel? (first second : Char) : Option Nat := do
  if first = '+' then CharClass.hexValue? second
  else return 16 * (← CharClass.hexValue? first) + (← CharClass.hexValue? second)

/-- The colour that six characters after a number sign write. -/
def ofChannels? : List Char → Option Color
  | [a, b, c, d, e, f] => do return rgb (← channel? a b) (← channel? c d) (← channel? e f)
  | _ => none

/-- The colour that a text writes. -/
def ofText? (text : String) : Option Color :=
  let lowered := Casing.lower text
  match NamedColor.all.find? (·.name == lowered) with
  | some c => some (named c)
  | none =>
    match text.toList with
    | '#' :: digits => ofChannels? digits
    | _ => none

end Color

inductive ThemeError where
  | unknownScope (scope : String)
  | unknownColor (scope color : String)
  deriving DecidableEq, Repr

def ThemeError.message : ThemeError → String
  | unknownScope scope => "Unknown scope in theme: " ++ scope
  | unknownColor scope color =>
    "Unknown color " ++ Quoted.encode color ++ " for scope " ++ scope

/-- The colours of scopes; of two entries for a scope the earlier one holds. -/
structure Theme where
  entries : List (Scope × Color)
  deriving Repr

namespace Theme

def empty : Theme := ⟨[]⟩

def color? (t : Theme) (scope : Scope) : Option Color := t.entries.lookup scope

def set (t : Theme) (scope : Scope) (c : Color) : Theme := ⟨(scope, c) :: t.entries⟩

/-- With the colours that pairs of names say; the first fault is the error. -/
def withNames (t : Theme) : List (String × String) → Except ThemeError Theme
  | [] => .ok t
  | (scopeName, colorName) :: rest =>
    match Scope.ofName? scopeName with
    | none => .error (.unknownScope scopeName)
    | some scope =>
      match Color.ofText? colorName with
      | none => .error (.unknownColor scopeName colorName)
      | some c => (t.set scope c).withNames rest

def usual : Theme := ⟨[
  (.keyword, .named .magenta),
  (.builtIn, .named .cyan),
  (.literal, .named .blue),
  (.number, .named .yellow),
  (.string, .named .green),
  (.directiveString, .named .darkGreen),
  (.directive, .named .darkYellow),
  (.comment, .named .darkGrey),
  (.doctag, .named .red),
  (.title, .named .blue),
  (.operator, .named .darkCyan)]⟩

end Theme

end Highlighting
