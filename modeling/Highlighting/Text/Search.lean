/-
  Highlighting/Text/Search.lean
  =============================
  **Searches** for the leftmost match.

  A search goes from a position to the first match that starts there or later.
  There are two ways to come by one: to try one position after the other
  (`leftmost`), and to go through the matches of another search and pass over
  some of them (`sift`).
-/
import Highlighting.Text.Source

namespace Highlighting

/-- The first match that starts at or after a position. -/
abbrev Search := Nat → Option Span

namespace Search

/-- The match at the first of the `fuel` positions from `pos` on where one starts; `endAt?`
tells where a match that starts at a position ends. -/
def leftmost (endAt? : Nat → Option Nat) : Nat → Search
  | 0, _ => none
  | fuel + 1, pos =>
    match endAt? pos with
    | some stop => some ⟨pos, stop⟩
    | none => leftmost endAt? fuel (pos + 1)

/-- What the first match that is accepted is taken for; after one that is not, the search goes
on one character behind its start.  `fuel` bounds the number of matches looked at. -/
def sift (search : Search) (accept : Span → Option Span) : Nat → Search
  | 0, _ => none
  | fuel + 1, pos =>
    match search pos with
    | none => none
    | some s =>
      match accept s with
      | some accepted => some accepted
      | none => sift search accept fuel (s.start + 1)

end Search

end Highlighting
