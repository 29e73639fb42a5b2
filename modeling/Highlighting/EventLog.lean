/-
  Highlighting/EventLog.lean
  ==========================
  **The event log**: what a scan has found, in the order of the text.

  While a text is scanned the result is a flat list of events, so that a
  region that turns out to be none can be taken back by cutting the list
  short.  Only a finished log is folded into a tree (`EventLog.nodes`).

  The fold keeps the scopes that are open, innermost first, each with the
  nodes collected so far.  Neighbouring texts become one, a close without an
  open is passed over, and scopes still open at the end are closed there.
-/
import Highlighting.Tree
import Highlighting.Text.Source

namespace Highlighting

inductive Event where
  | opened (scope : Scope)
  | text (s : Span)
  | closed
  deriving DecidableEq, Repr, Inhabited

/-- Events in the order of the text. -/
abbrev EventLog := Array Event

namespace EventLog

def addText (log : EventLog) (s : Span) : EventLog :=
  if s.isEmpty then log else log.push (.text s)

/-- With a scope opened, when there is one. -/
def openScope (log : EventLog) : Option Scope → EventLog
  | some scope => log.push (.opened scope)
  | none => log

def closeScope (log : EventLog) : Option Scope → EventLog
  | some _ => log.push .closed
  | none => log

/-! ### From events to nodes -/

/-- Nodes under construction: those at the top, and those in each open scope, innermost
first.  All lists are latest first. -/
structure Forest where
  top : List Node
  scopes : List (Scope × List Node)
  deriving Inhabited

namespace Forest

def empty : Forest := ⟨[], []⟩

/-- A list of nodes, latest first, with a further text, which joins a text right before it. -/
def joinText (s : String) : List Node → List Node
  | .text t :: ns => .text (t ++ s) :: ns
  | ns => .text s :: ns

/-- Changes the list that is being added to. -/
def update (f : Forest) (g : List Node → List Node) : Forest :=
  match f.scopes with
  | [] => { f with top := g f.top }
  | (scope, ns) :: outer => { f with scopes := (scope, g ns) :: outer }

def close (f : Forest) : Forest :=
  match f.scopes with
  | [] => f
  | (scope, ns) :: outer => Forest.update ⟨f.top, outer⟩ (.region scope ns.reverse :: ·)

def step (source : Source) (f : Forest) : Event → Forest
  | .opened scope => { f with scopes := (scope, []) :: f.scopes }
  | .text s => f.update (joinText (source.slice s))
  | .closed => f.close

def closeMany : Nat → Forest → Forest
  | 0, f => f
  | n + 1, f => closeMany n f.close

end Forest

/-- The nodes of a log, with what is still open closed at the end. -/
def nodes (log : EventLog) (source : Source) : List Node :=
  let f := log.foldl (Forest.step source) Forest.empty
  (f.closeMany f.scopes.length).top.reverse

end EventLog

end Highlighting
