/-
  Highlighting/Pattern.lean
  =========================
  **Patterns**: what a grammar declares to be searched for, and what that
  compiles to.

  A declared pattern is a written regular expression with guards: the
  character it may not follow, those it may not come before, and the one it
  must come before.  The last is matched along with the expression and left
  out of the result.  The two negative guards look at one character each, at
  the edges of a match.

  The guard in front can be realised in two ways (`Lookbehind`): written into
  the expression, which then is an extended one, or checked on each match.
  Number literals and a pattern that matches nothing complete the kinds.
-/
import Highlighting.Regex.Extended.Parser
import Highlighting.Regex.Extended.Match
import Highlighting.NumberLiteral

namespace Highlighting

/-- How the guard in front of a pattern is realised. -/
inductive Lookbehind where
  /-- Written into the expression. -/
  | native
  /-- Checked on each match. -/
  | emulated
  deriving DecidableEq, Repr, Inhabited

/-- Plain expressions have no lookbehind, so that the guard is checked on each match unless a
grammar asks otherwise. -/
def Lookbehind.usual : Lookbehind := emulated

/-! ## Declared patterns -/

/-- A written regular expression with its guards. -/
structure GuardedRegex where
  written : String
  notAfter : Option Char
  notBefore : List Char
  followedBy : Option Char
  deriving DecidableEq, Repr

inductive PatternDecl where
  | regex (r : GuardedRegex)
  | number
  /-- Matches nowhere. -/
  | never
  deriving DecidableEq, Repr

namespace PatternDecl

def ofRegex (written : String) : PatternDecl := regex ⟨written, none, [], none⟩

def literal (text : String) : PatternDecl := ofRegex (String.ofList (Regex.escape text.toList))

def unlessAfter (c : Char) : PatternDecl → PatternDecl
  | regex r => regex { r with notAfter := some c }
  | p => p

/-- Refuses matches right before the character, besides those refused already. -/
def unlessBefore (c : Char) : PatternDecl → PatternDecl
  | regex r => regex { r with notBefore := r.notBefore ++ [c] }
  | p => p

/-- Requires the character right after a match. -/
def before (c : Char) : PatternDecl → PatternDecl
  | regex r => regex { r with followedBy := some c }
  | p => p

/-- Any of the words, as a whole word that is not a part of a dotted name. -/
def words (ws : List String) : PatternDecl :=
  let alternatives := ['|'].intercalate (ws.map fun w => Regex.escape w.toList)
  let written := "\\b(?:".toList ++ alternatives ++ ")\\b".toList
  ((ofRegex (String.ofList written)).unlessAfter '.').unlessBefore '.'

def describe : PatternDecl → String
  | regex r => r.written
  | number => "<number>"
  | never => "<never>"

end PatternDecl

/-! ## Compiled patterns -/

inductive Expression where
  | regular (m : Matcher)
  | extended (p : Extended.Plan)
  deriving DecidableEq, Repr, Inhabited

/-- The leftmost match that starts at or after a position. -/
def Expression.find (text : Source) (pos : Nat) : Expression → Option Span
  | regular m => m.find text pos
  | extended p => p.find text pos

inductive Pattern where
  /-- Matches of the expression, less `trim` characters at the end, that start after no
  `notAfter` and end before no `notBefore`. -/
  | regex (e : Expression) (notAfter : Option Char) (notBefore : List Char) (trim : Nat)
  | number
  | never
  deriving DecidableEq, Repr, Inhabited

namespace GuardedRegex

/-- The expression in a group of its own, with the character that has to follow. -/
def enclosed (r : GuardedRegex) : List Char :=
  "(?:".toList ++ r.written.toList ++ ")".toList ++ Regex.escape r.followedBy.toList

/-- The condition that the character does not stand in front, as a written expression. -/
def guardText (c : Char) : List Char := "(?<![".toList ++ Regex.escape [c] ++ "])".toList

/-- What the pattern compiles to; an engine refuses expressions that are larger than its limit. -/
def compile? (r : GuardedRegex) (lookbehind : Lookbehind) (limit : Regex.SizeLimit := .usual) :
    Option Pattern :=
  let trim := if r.followedBy.isSome then 1 else 0
  match r.notAfter, lookbehind with
  | some c, .native => do
    let p ← (← Extended.parse? (guardText c ++ r.enclosed)).plan? limit
    return .regex (.extended p) none r.notBefore trim
  | notAfter, _ => do
    let e ← Regex.parse? r.enclosed limit
    return .regex (.regular (.ofRegex e)) notAfter r.notBefore trim

end GuardedRegex

def PatternDecl.compile? (lookbehind : Lookbehind) (p : PatternDecl)
    (limit : Regex.SizeLimit := .usual) : Option Pattern :=
  match p with
  | .regex r => r.compile? lookbehind limit
  | .number => some .number
  | .never => some .never

namespace Pattern

/-- Whether the characters around a match are refused by a guard. -/
def refuses (notAfter : Option Char) (notBefore : List Char) (text : Source) (s : Span) : Bool :=
  (text.before? s.start).any (notAfter == some ·) || (text[s.stop]?).any notBefore.contains

/-- What a match of the expression is taken for, `trim` characters less at its end, if the
guards accept that. -/
def guarded (notAfter : Option Char) (notBefore : List Char) (trim : Nat) (text : Source)
    (found : Span) : Option Span :=
  let s : Span := ⟨found.start, found.stop - trim⟩
  if refuses notAfter notBefore text s then none else some s

/-- The leftmost accepted match that starts at or after the position. -/
def find (text : Source) (pos : Nat) : Pattern → Option Span
  | regex e notAfter notBefore trim =>
    Search.sift (e.find text ·) (guarded notAfter notBefore trim text) (text.size + 1 - pos) pos
  | number => NumberLiteral.find text pos
  | never => none

end Pattern

end Highlighting
