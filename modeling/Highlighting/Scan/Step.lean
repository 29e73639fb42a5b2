/-
  Highlighting/Scan/Step.lean
  ===========================
  **What a match does** to the state of a scan.

    * A mode without an end is recorded as a whole, scope and keywords
      included.
    * Any other mode opens a region, unless that region would only retrace an
      abandoned one; then its opening match is barred instead.
    * An end closes the regions it ends: the one that declares it, those open
      inside, and as long as a closed region ends its parent, the one around.
    * Something illegal takes the innermost region back.  Outside of all
      regions it marks the text and is passed over.
-/
import Highlighting.Scan.Search

namespace Highlighting.Scan.State

/-! ### Openings -/

/-- Bars the match of a terminal that was just found. -/
def skip (task : Task) (index start : Nat) (s : State) : State :=
  -- where the last search gave this very match, no match that counts lies before it, so that
  -- the search can go on behind it
  let resumable := (s.cache.search? index).any fun c =>
    decide (c.since ≤ s.pos) && c.found.any (·.start == start)
  let barred := (index, start) :: s.barred
  let cache :=
    if resumable then
      s.cache.record index ⟨s.pos, searchFrom task barred index (start + 1)⟩
    else s.cache.forget index
  { s with barred, cache }

/-- Whether a region of the mode, opened with `pos` as its first position, would retrace the
one abandoned last. -/
def retraces (s : State) (mode pos : Nat) : Bool :=
  match s.trails with
  | none => false
  | some a =>
    a.parent == serialOf s.regions && a.mode == mode && a.trail.finds pos

/-- Takes a mode that has no end. -/
def takeWhole (task : Task) (m : Mode) (span : Span) (s : State) : State :=
  { s with
    draft := s.draft.addWhole task.source (s.keywords task.grammar) m span, pos := span.stop }

def openRegion (task : Task) (index : Nat) (m : Mode) (span : Span) (s : State) : State :=
  let entry : Entry := ⟨index, m.opener, span.start, s.draft.checkpoint⟩
  { s with
    draft := s.draft.openRegion task.source (s.keywords task.grammar) m span
    regions := ⟨entry, s.nextSerial, #[]⟩ :: s.regions
    nextSerial := s.nextSerial + 1
    pos := span.stop }

def opens (task : Task) (index : Nat) (span : Span) (s : State) : State :=
  let m := task.grammar.mode index
  if m.ending = .immediate then s.takeWhole task m span
  else if task.shortcuts.skipRetraced && s.retraces index span.stop then
    s.skip task m.opener span.start
  else s.openRegion task index m span

/-! ### Ends -/

/-- How many regions close with the innermost of these modes: that one, and as long as a
closed region ends its parent, the one around. -/
def closedWith (g : Grammar) : List Nat → Nat
  | [] => 0
  | m :: outer => if (g.mode m).endsParent then 1 + closedWith g outer else 1

/-- How many regions close when an end is found of the region inside which `depth` others are
open. -/
def closedBy (g : Grammar) (modes : List Nat) (depth : Nat) : Nat :=
  depth + closedWith g (modes.drop depth)

/-- How far the text goes that an end leaves to the innermost region, which says to which side
the match belongs. -/
def closingEdge (g : Grammar) (modes : List Nat) (span : Span) : Nat :=
  match modes with
  | [] => span.stop
  | m :: _ => if (g.mode m).excludesEnd then span.start else span.stop

/-- An end was found, of the region inside which `depth` others are open. -/
def closes (task : Task) (depth : Nat) (span : Span) (s : State) : State :=
  let g := task.grammar
  let count := closedBy g s.modes depth
  { s with
    draft := s.draft.closeRegions task.source (s.keywords g) (closingEdge g s.modes span)
      ((s.modes.take count).map g.mode)
    regions := s.regions.drop count
    pos := span.stop }

/-! ### Illegal matches -/

/-- Takes a region back that is open inside `outer`. -/
def abandon (r : Region) (outer : List Region) (s : State) : State :=
  { s with
    draft := s.draft.restore r.entry.checkpoint
    pos := r.entry.start
    barred := (r.entry.opener, r.entry.start) :: s.barred
    -- the last result for the opener may be the match that was just barred
    cache := s.cache.forget r.entry.opener
    regions := outer
    trails := some ⟨serialOf outer, r.entry.mode, r.trail⟩ }

def meetsIllegal (task : Task) (span : Span) (s : State) : State :=
  match s.regions with
  | r :: outer => s.abandon r outer
  | [] =>
    { s with
      draft := s.draft.passOver task.source task.grammar.root.keywords span
      pos := Draft.passedAt task.source span }

/-! ### Steps -/

/-- Adds the stretch up to a match to the trail of the innermost region. -/
def leaveTrail (span : Span) (s : State) : State :=
  match s.regions with
  | [] => s
  | r :: outer =>
    { s with regions := { r with trail := r.trail.push ⟨s.pos, span.start⟩ } :: outer }

def handle (task : Task) (found : Found) (s : State) : State :=
  let s := s.leaveTrail found.span
  match found.candidate with
  | .opens mode => s.opens task mode found.span
  | .closes depth => s.closes task depth found.span
  | .illegal => s.meetsIllegal task found.span

end Highlighting.Scan.State
