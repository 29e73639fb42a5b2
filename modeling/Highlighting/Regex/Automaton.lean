/-
  Highlighting/Regex/Automaton.lean
  =================================
  **Automata** that find the preferred match in one pass.

  An automaton runs as a list of threads, each in a state, the preferred one
  first.  Between two characters the threads spread along the states that
  take none (`spread`); a state that a preferred thread has reached is closed
  to all later ones.  So no state is entered twice at one position, which
  bounds the work, and a loop whose body has taken nothing is never entered
  again: the thread gives way to its next choice inside the body.

  A thread that arrives at the accepting state is a match, and ends all
  threads behind it; those before it go on and may replace the match by a
  preferred one.
-/
import Highlighting.Regex.Match

namespace Highlighting

/-- What a thread in a state does. -/
inductive AutomatonState where
  /-- Takes a character of the set and goes on. -/
  | take (s : CharSet) (next : Nat)
  /-- Goes on where the condition holds. -/
  | check (a : Anchor) (next : Nat)
  /-- Goes on in both ways, the first preferred. -/
  | split (first second : Nat)
  | accept
  deriving DecidableEq, Repr, Inhabited

structure Automaton where
  states : Array AutomatonState
  start : Nat
  deriving DecidableEq, Repr, Inhabited

namespace Automaton

/-! ## Construction -/

/-- A choice between going into the body of a repetition and leaving it. -/
def choice (greedy : Bool) (body after : Nat) : AutomatonState :=
  if greedy then .split body after else .split after body

def push (states : Array AutomatonState) (s : AutomatonState) : Nat × Array AutomatonState :=
  (states.size, states.push s)

/-- Adds the states of an expression that is followed by the state `next`; the answer is the
state to enter it by. -/
def add : Regex → Nat → Array AutomatonState → Nat × Array AutomatonState
  | .empty, next, states => (next, states)
  | .set s, next, states => push states (.take s next)
  | .anchor a, next, states => push states (.check a next)
  | .seq first second, next, states =>
    let (middle, states) := add second next states
    add first middle states
  | .alt first second, next, states =>
    let (second, states) := add second next states
    let (first, states) := add first next states
    push states (.split first second)
  | .group _ body, next, states => add body next states
  | .rep greedy least none body, next, states =>
    -- a body with a choice behind it that leads back
    let (back, states) := push states .accept
    let (entry, states) := add body back states
    let states := states.setIfInBounds back (choice greedy entry next)
    if 0 < least then
      -- the iterations that are required besides are copies of the body in front
      Nat.repeat (fun (entry, states) => add body entry states) (least - 1) (entry, states)
    -- a body that always takes a character can be left out by way of the choice behind it
    else if body.nullable then push states (choice greedy entry next)
    else (back, states)
  | .rep greedy least (some most) body, next, states =>
    -- copies alone, the surplus ones each behind a choice that leads to the end
    let surplus := Nat.repeat
      (fun (entry, states) =>
        let (entry, states) := add body entry states
        push states (choice greedy entry next))
      (most - least) (next, states)
    Nat.repeat (fun (entry, states) => add body entry states) least surplus

def ofRegex (r : Regex) : Automaton :=
  let (start, states) := add r 0 #[.accept]
  ⟨states, start⟩

/-! ## Runs -/

/-- A thread: its state, and where the match that it follows started. -/
structure Thread where
  state : Nat
  start : Nat
  deriving DecidableEq, Repr

/-- A thread that waits for a character or has found a match. -/
structure Waiting where
  state : AutomatonState
  start : Nat

/-- The threads that wait once those of the agenda have gone as far as they can without a
character.  The bits of `seen` are the states that are closed.  `fuel` bounds the number of
steps. -/
def spread (a : Automaton) (text : Source) (pos : Nat) : Nat → List Thread → Nat → List Waiting
  | 0, _, _ => []
  | _ + 1, [], _ => []
  | fuel + 1, t :: agenda, seen =>
    if seen.testBit t.state then spread a text pos fuel agenda seen
    else
      let seen := seen ||| (1 <<< t.state)
      match a.states[t.state]? with
      | some (.split first second) =>
        spread a text pos fuel (⟨first, t.start⟩ :: ⟨second, t.start⟩ :: agenda) seen
      | some (.check c next) =>
        if c.holds text pos then spread a text pos fuel (⟨next, t.start⟩ :: agenda) seen
        else spread a text pos fuel agenda seen
      | some s => ⟨s, t.start⟩ :: spread a text pos fuel agenda seen
      | none => spread a text pos fuel agenda seen

def Waiting.accepts (w : Waiting) : Bool := w.state == .accept

def Waiting.take? (c : Char) (w : Waiting) : Option Thread :=
  match w.state with
  | .take s next => if s.contains c then some ⟨next, w.start⟩ else none
  | _ => none

/-- Runs the threads of the agenda from a position on.  With `anywhere`, a new match may start
at each position as long as none has been found.  `fuel` bounds the number of positions. -/
def run (a : Automaton) (text : Source) (anywhere : Bool) :
    Nat → Nat → List Thread → Option Span → Option Span
  | 0, _, _, best => best
  | fuel + 1, pos, agenda, best =>
    let agenda := if anywhere && best.isNone then agenda ++ [⟨a.start, pos⟩] else agenda
    let waiting := a.spread text pos (agenda.length + 2 * a.states.size + 1) agenda 0
    let best := match waiting.find? (·.accepts) with
      | some w => some ⟨w.start, pos⟩
      | none => best
    match text[pos]? with
    | none => best
    | some c =>
      -- a thread that accepts ends those behind it
      let next := (waiting.takeWhile (!·.accepts)).filterMap (·.take? c)
      if next.isEmpty && (!anywhere || best.isSome) then best
      else run a text anywhere fuel (pos + 1) next best

/-- The preferred end of a match that starts at a position. -/
def firstEnd? (a : Automaton) (text : Source) (pos : Nat) : Option Nat :=
  (a.run text false (text.size + 1 - pos) pos [⟨a.start, pos⟩] none).map (·.stop)

/-- The leftmost match that starts at or after a position, the preferred one of those that
start there. -/
def find (a : Automaton) (text : Source) (pos : Nat) : Option Span :=
  a.run text true (text.size + 1 - pos) pos [] none

end Automaton

end Highlighting
