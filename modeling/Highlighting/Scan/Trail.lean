/-
  Highlighting/Scan/Trail.lean
  ============================
  **The trail of a region**: which stretches of the text it has been searched
  through.

  Where searches keep within the text, the starts of the stretches never
  decrease, and neither do their ends, though neighbours may overlap.  So it
  takes a look at only one of them to tell whether a position is in the trail:
  at the first that does not end before the position.  That one is found by
  halving.
-/
import Highlighting.Text.Source

namespace Highlighting.Scan

/-- The stretches between the positions from which a region was scanned and the matches
found from there, in the order of the scan. -/
abbrev Trail := Array Span

namespace Trail

/-- Whether there is a stretch at the place, and it ends before the position. -/
def endsBefore (trail : Trail) (pos place : Nat) : Bool :=
  (trail[place]?).any fun span => decide (span.stop < pos)

/-- Halves the `size` places from `base` on until one is left.  It goes on with the upper half if
the stretch at its first place ends before the position, and with the lower half otherwise. -/
def halve (trail : Trail) (pos base size : Nat) : Nat :=
  if size ≤ 1 then base
  else if trail.endsBefore pos (base + size / 2) then
    halve trail pos (base + size / 2) (size - size / 2)
  else halve trail pos base (size - size / 2)
termination_by size

/-- The place of the first stretch that does not end before the position, or the number of
stretches if all of them do. -/
def firstReaching (trail : Trail) (pos : Nat) : Nat :=
  let place := trail.halve pos 0 trail.size
  if trail.endsBefore pos place then place + 1 else place

/-- Whether the position is in the trail, going by the first stretch that reaches up to it. -/
def finds (trail : Trail) (pos : Nat) : Bool :=
  (trail[trail.firstReaching pos]?).any fun span => decide (span.start ≤ pos)

end Trail

end Highlighting.Scan
