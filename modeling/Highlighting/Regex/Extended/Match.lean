/-
  Highlighting/Regex/Extended/Match.lean
  ======================================
  **Searching for extended expressions**, one choice after the other.

  A plan is followed towards a goal, which is what has to match behind it
  (`Plan.follow`).  Where there is a choice, the preferred way is followed
  first; when that fails, the search comes back and follows the other one.
  Coming back counts as a retry, and a search is given up when it has used all
  its retries (`retries`): there are expressions for which it would hardly ever end.

  An atomic group opens a level, and when its first match is found the search
  commits to it: a failure from then on is a *cut*, which passes over all
  choices made since the level was opened (`Outcome.cut`).  A condition opens a
  level as well.  When it fails, its level stays open, and the next commitment
  is to that one; then choices made before the condition remain.
-/
import Highlighting.Regex.Extended.Plan

namespace Highlighting.Extended

/-! ## Cursors -/

/-- Numbers kept under numbers. -/
abbrev Registers := List (Nat × Nat)

/-- With a number kept under `key` in place of the one before. -/
def Registers.put (key value : Nat) (r : Registers) : Registers :=
  (key, value) :: r.filter (·.1 != key)

structure Cursor where
  start : Nat
  pos : Nat
  /-- Where groups were entered last. -/
  entered : Registers
  /-- Where groups were left last. -/
  left : Registers
  /-- Where iterations were noted last, by label. -/
  noted : Registers
  /-- The levels that are open, innermost first. -/
  levels : List Nat
  /-- The number of levels opened so far. -/
  opened : Nat
  deriving DecidableEq, Repr

namespace Cursor

/-- At the start of a match. -/
def ofPos (pos : Nat) : Cursor := ⟨pos, pos, [], [], [], [], 0⟩

def move (c : Cursor) (pos : Nat) : Cursor := { c with pos }

def openLevel (c : Cursor) : Cursor :=
  { c with levels := c.opened :: c.levels, opened := c.opened + 1 }

/-- What a group took, when it has been left. -/
def taken? (c : Cursor) (index : Nat) : Option Span := do
  return ⟨← c.entered.lookup index, ← c.left.lookup index⟩

end Cursor

/-! ## Outcomes -/

/-- What has come of following a plan; with the retries that are left. -/
inductive Outcome where
  | matched (c : Cursor) (retries : Nat)
  | failed (retries : Nat)
  /-- A failure that is not come back from until a level is left. -/
  | cut (level : Nat) (retries : Nat)
  /-- No retry was left. -/
  | exhausted
  deriving DecidableEq, Repr

/-- What is still to match from a cursor, with the retries that are left. -/
abbrev Goal := Cursor → Nat → Outcome

def reached : Goal := .matched

/-- Follows the other way after a failure. -/
def Outcome.orElse (first : Outcome) (second : Nat → Outcome) : Outcome :=
  match first with
  | failed 0 => exhausted
  | failed (n + 1) => second n
  | o => o

/-- Leaves a level: a cut that goes as far is a failure from here on. -/
def Outcome.leave (level : Nat) : Outcome → Outcome
  | cut k n => if k = level then failed n else cut k n
  | o => o

/-- Commits to the way since the innermost level was opened, and closes that. -/
def committed (goal : Goal) : Goal := fun c n =>
  match c.levels with
  | [] => goal c n
  | level :: levels =>
    match goal { c with levels } n with
    | .failed n => .cut level n
    | o => o

/-! ## Repetitions -/

/-- Follows a repetition of which `count` iterations are done.  `fuel` bounds the number of
further ones. -/
def iterate (greedy : Bool) (least : Nat) (most : Option Nat) (body : Goal → Goal) (goal : Goal) :
    Nat → Nat → Goal
  | 0, _, _, _ => .exhausted
  | fuel + 1, count, c, n =>
    if most == some count then goal c n
    else
      let more : Goal := body (iterate greedy least most body goal fuel (count + 1))
      if count < least then more c n
      else if greedy then (more c n).orElse (goal c)
      else (goal c n).orElse (more c)

/-- Follows a repetition whose body may take nothing.  Arriving where an iteration was noted to
start is a failure. -/
def iterateNoting (label : Nat) (greedy : Bool) (least : Nat) (body : Goal → Goal) (goal : Goal) :
    Nat → Nat → Goal
  | 0, _, _, _ => .exhausted
  | fuel + 1, count, c, n =>
    let more : Goal := body (iterateNoting label greedy least body goal fuel (count + 1))
    if 0 < count && c.noted.lookup label == some c.pos then .failed n
    else if count < least then more c n
    else
      let c := { c with noted := c.noted.put label c.pos }
      if greedy then (more c n).orElse (goal c) else (goal c n).orElse (more c)

namespace Plan

/-! ## Plans -/

/-- Follows a plan from a cursor towards a goal.  `since` is where the search began. -/
def follow (text : Source) (since : Nat) : Plan → Goal → Goal
  | skip, goal, c, n => goal c n
  | matched m, goal, c, n =>
    match m.firstEnd? text c.pos with
    | some stop => goal (c.move stop) n
    | none => .failed n
  | set s, goal, c, n =>
    match text[c.pos]? with
    | some ch => if s.contains ch then goal (c.move (c.pos + 1)) n else .failed n
    | none => .failed n
  | anchor a, goal, c, n => if a.holds text c.pos then goal c n else .failed n
  | seq first second, goal, c, n =>
    first.follow text since (second.follow text since goal) c n
  | alt first second, goal, c, n =>
    (first.follow text since goal c n).orElse (second.follow text since goal c)
  | optional greedy body, goal, c, n =>
    if greedy then (body.follow text since goal c n).orElse (goal c)
    else (goal c n).orElse (body.follow text since goal c)
  | loop greedy least most body, goal, c, n =>
    let fuel := most.getD (least + text.size + 1 - c.pos) + 1
    iterate greedy least most (body.follow text since) goal fuel 0 c n
  | watched label greedy least body, goal, c, n =>
    let fuel := least + text.size + 2 - c.pos
    iterateNoting label greedy least (body.follow text since) goal fuel 0 c n
  | capture index body, goal, c, n =>
    body.follow text since
      (fun d => goal { d with left := d.left.put index d.pos })
      { c with entered := c.entered.put index c.pos } n
  | again index, goal, c, n =>
    match c.taken? index with
    | none => .failed n
    | some s =>
      let stop := c.pos + (s.stop - s.start)
      if text.chars ⟨c.pos, stop⟩ = text.chars s then goal (c.move stop) n else .failed n
  | known index, goal, c, n =>
    if index = 0 || (c.entered.lookup index).isSome then goal c n else .failed n
  | ahead false body, goal, c, n =>
    body.follow text since (fun d => goal (d.move c.pos)) c n
  | ahead true body, goal, c, n =>
    match body.follow text since reached c n with
    | .matched _ n => .failed n
    | o => o.orElse (goal c)
  | behind false width body, goal, c, n =>
    if c.pos < width then .failed n
    else body.follow text since (fun d => goal (d.move c.pos)) (c.move (c.pos - width)) n
  | behind true width body, goal, c, n =>
    if c.pos < width then (Outcome.failed n).orElse (goal c)
    else
      match body.follow text since reached (c.move (c.pos - width)) n with
      | .matched _ n => .failed n
      | o => o.orElse (goal c)
  | atomic body, goal, c, n =>
    (body.follow text since (committed goal) c.openLevel n).leave c.opened
  | keep, goal, c, n => goal { c with start := c.pos } n
  | origin, goal, c, n => if c.pos = since then goal c n else .failed n
  | conditional condition yes no, goal, c, n =>
    ((condition.follow text since (committed (yes.follow text since goal)) c.openLevel n).orElse
      (no.follow text since goal c.openLevel)).leave c.opened

/-! ## Searches -/

/-- The number of retries that a search has. -/
def retries : Nat := 1000000

/-- Searches from a position on, in a search that began at `since`.  `fuel` bounds the number of
positions. -/
def search (p : Plan) (text : Source) (since : Nat) : Nat → Nat → Nat → Outcome
  | 0, _, n => .failed n
  | fuel + 1, pos, n =>
    (p.follow text since reached (.ofPos pos) n).orElse (search p text since fuel (pos + 1))

/-- The leftmost match that starts at or after a position, as far as the retries go. -/
def find (p : Plan) (text : Source) (pos : Nat) : Option Span :=
  match p.search text pos (text.size + 1 - pos) pos retries with
  | .matched c _ => some ⟨c.start, c.pos⟩
  | _ => none

end Plan

end Highlighting.Extended
