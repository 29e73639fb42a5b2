/-
  Highlighting/Regex/Extended/Plan.lean
  =====================================
  **Search plans**: how an extended expression is searched for.

  A plan says which stretches of an expression are left to a matcher of
  regular expressions and which are searched choice by choice.  A matcher
  gives one end, the preferred one, and no other is ever tried.  So a stretch
  may be left to it where no other end could be of use: when all its matches
  have one length, and when nothing depends on it any more.

  `Extended.plan?` makes the plan.  It fails for expressions that cannot be
  searched: those that look behind over a stretch of no fixed length, and
  those with a stretch for a matcher that is no regular expression.
-/
import Highlighting.Regex.Extended.Syntax
import Highlighting.Regex.Matcher
import Highlighting.Regex.Parser

namespace Highlighting

namespace Extended

inductive Plan where
  | skip
  /-- The preferred match of a matcher. -/
  | matched (m : Matcher)
  | set (s : CharSet)
  | anchor (a : Anchor)
  | seq (first second : Plan)
  | alt (first second : Plan)
  /-- The body or nothing. -/
  | optional (greedy : Bool) (body : Plan)
  /-- Iterations between two counts. -/
  | loop (greedy : Bool) (least : Nat) (most : Option Nat) (body : Plan)
  /-- Iterations without limit, of a body that may take nothing.  Where an iteration beyond the
  least count starts is noted under a label, and no other starts right there. -/
  | watched (label : Nat) (greedy : Bool) (least : Nat) (body : Plan)
  | capture (index : Nat) (body : Plan)
  | again (index : Nat)
  | known (index : Nat)
  | ahead (negated : Bool) (body : Plan)
  /-- Looks behind over `width` characters. -/
  | behind (negated : Bool) (width : Nat) (body : Plan)
  | atomic (body : Plan)
  | keep
  | origin
  | conditional (condition yes no : Plan)
  deriving DecidableEq, Repr, Inhabited

/-! ## What a matcher takes over -/

variable (limit : Regex.SizeLimit)

/-- The plan of an easy expression: its characters and conditions as they are, all else by a
matcher. -/
def easyPlan? (e : Extended) : Option Plan := do
  match ← e.toRegex? with
  | .empty => return .skip
  | .set s => return .set s
  | .anchor a => return .anchor a
  | r => if limit.accepts r then return .matched (.ofRegex r) else none

/-- Where an expression stands. -/
inductive Place where
  /-- It stands for itself. -/
  | whole
  /-- It is the rest of a choice. -/
  | choices
  /-- It is the rest of a sequence whose parts so far are easy and of fixed length. -/
  | front
  /-- It is the rest of another sequence. -/
  | later
  deriving DecidableEq, Repr

/-- Whether an expression is left to a matcher.  `followed` says that something may come behind
that its other ends could be of use for; then it has to be of fixed length and stand at
the edge of a sequence. -/
def isLeft (mentioned : List Nat) (place : Place) (followed : Bool) (e : Extended) : Bool :=
  let easy := !e.isHard mentioned
  match place, e with
  | .whole, _ => easy && !followed
  | .choices, alt _ _ => false
  | .choices, _ => easy && !followed
  | .front, seq _ _ => false
  | .front, e | .later, e => easy && (!followed || e.isFixed)

/-! ## Looking behind -/

/-- One lookbehind for each alternative, since each may have a length of its own. -/
def behindEach (negated : Bool) : Extended → Extended
  | alt a rest =>
    if negated then seq (behind true a) (behindEach negated rest)
    else alt (behind false a) (behindEach negated rest)
  | e => behind negated e

/-- With all lookbehinds of no fixed length divided among their alternatives. -/
def divided : Extended → Extended
  | seq a b => seq a.divided b.divided
  | alt a b => alt a.divided b.divided
  | group e => group e.divided
  | capture k e => capture k e.divided
  | rep greedy least most e => rep greedy least most e.divided
  | ahead negated e => ahead negated e.divided
  | behind negated e =>
    if e.isFixed then behind negated e.divided
    else group (behindEach negated e.divided.ungrouped)
  | atomic e => atomic e.divided
  | conditional c yes no => conditional c.divided yes.divided no.divided
  | e => e

/-! ## Plans -/

/-- The plan of an expression.  The state counts the labels that have been given. -/
def planAt? (mentioned : List Nat) (place : Place) (followed : Bool) (e : Extended) :
    StateT Nat Option Plan :=
  if isLeft mentioned place followed e then easyPlan? limit e
  else
    let inner := followed || place == .front || place == .later
    match e with
    | empty => return .skip
    | set s => return .set s
    | anchor a => return .anchor a
    | seq a rest => do
      if place != .later && !a.isHard mentioned && a.isFixed then
        return .seq (← easyPlan? limit a) (← planAt? mentioned .front followed rest)
      else
        return .seq (← planAt? mentioned .whole true a) (← planAt? mentioned .later followed rest)
    | alt a rest =>
      return .alt (← planAt? mentioned .whole inner a) (← planAt? mentioned .choices inner rest)
    | group e => planAt? mentioned .whole inner e
    | capture k e => return .capture k (← planAt? mentioned .whole inner e)
    | rep greedy least most e => do
      if least = 0 && most = some 1 then
        return .optional greedy (← planAt? mentioned .whole inner e)
      let inner := inner || e.isHard mentioned
      if most.isNone && e.minLength = 0 then
        let label ← modifyGet fun n => (n, n + 1)
        return .watched label greedy least (← planAt? mentioned .whole inner e)
      else return .loop greedy least most (← planAt? mentioned .whole inner e)
    | again k => return .again k
    | known k => return .known k
    | ahead negated e => return .ahead negated (← planAt? mentioned .whole false e)
    | behind negated e => do
      if !e.isFixed then failure
      return .behind negated e.minLength (← planAt? mentioned .whole false e)
    | atomic e => return .atomic (← planAt? mentioned .whole false e)
    | keep => return .keep
    | origin => return .origin
    | conditional c yes no =>
      return .conditional (← planAt? mentioned .whole inner c)
        (← planAt? mentioned .whole inner yes) (← planAt? mentioned .whole inner no)

def plan? (e : Extended) : Option Plan :=
  ((planAt? limit e.mentioned .whole true e.divided).run 0).map (·.1)

end Extended

end Highlighting
