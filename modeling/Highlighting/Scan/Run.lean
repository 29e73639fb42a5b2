/-
  Highlighting/Scan/Run.lean
  ==========================
  **Scanning a text from start to end.**

  A scan takes steps until no match is left that matters.  It always gets
  there: between two matches that are barred, every step moves the position
  forward or closes a region, and there are only so many matches to bar.
  `stepBound` turns this into a number.
-/
import Highlighting.Scan.Step

namespace Highlighting

namespace Scan

/-- A number of steps that no scan exceeds: there is at most one barred match for each
terminal and position, and between two of them each position is passed at most once while
regions that were opened are closed. -/
def stepBound (g : Grammar) (length : Nat) : Nat :=
  (g.terminals.size * (length + 1) + 1) * (3 * (length + 1) + 1)

def runFor (task : Task) : Nat → State → State
  | 0, s => s
  | fuel + 1, s =>
    match s.next? task with
    | (none, s) => s
    | (some found, s) => runFor task fuel (s.handle task found)

def run (task : Task) (s : State) : State :=
  runFor task (stepBound task.grammar task.source.size) s

/-- The result of a scan that has taken all its steps. -/
def result (task : Task) (s : State) : Highlighted :=
  let g := task.grammar
  let d := s.draft.flush task.source (s.keywords g) task.source.size
  -- regions that are still open end with the text, but do not count as closed
  let d := s.modes.foldl (fun d m => d.closeScope (g.mode m).scope) d
  { language := g.name, relevance := d.relevance, illegal := d.illegal,
    nodes := d.events.nodes task.source }

/-- The scan of a text with all shortcuts. -/
def task (g : Grammar) (source : Source) (options : Options) : Task :=
  ⟨g, source, options, .all⟩

end Scan

def Grammar.highlight (g : Grammar) (text : String) (options : Scan.Options) : Highlighted :=
  let task := Scan.task g (Source.ofString text) options
  Scan.result task (Scan.run task (Scan.State.start g))

end Highlighting
