/-
  Highlighting/Main.lean
  ======================
  **The program**: reads what a command may need, runs it, and writes what it
  leaves behind.
-/
import Highlighting.CommandLine.Run

namespace Highlighting.CommandLine

/-- All bytes of a stream, after those already read. -/
partial def readAll (stream : IO.FS.Stream) (read : ByteArray) : IO ByteArray := do
  let chunk ← stream.read 65536
  if chunk.isEmpty then return read
  readAll stream (read ++ chunk)

/-- The content of a file, `none` when it cannot be read as text. -/
def fileContent (name : String) : IO (Option String) := do
  try
    return some (← IO.FS.readFile name)
  catch _ => return none

def fileContents (names : List String) : IO (List (String × String)) := do
  let found ← names.mapM fun name => do return (← fileContent name).map (name, ·)
  return found.filterMap id

/-- Runs the arguments on the files and the input that they need. -/
def runWithFiles (arguments : List String) : IO Outcome := do
  let command := command? arguments
  let files ← fileContents ((command.map Command.files).getD [])
  let input ←
    if (command.map Command.readsInput).getD false then
      pure (String.fromUTF8? (← readAll (← IO.getStdin) .empty))
    else pure none
  return run arguments ⟨fun name => files.lookup name, input⟩

end Highlighting.CommandLine

def main (arguments : List String) : IO UInt32 := do
  let outcome ← Highlighting.CommandLine.runWithFiles arguments
  IO.print outcome.output
  IO.eprint outcome.errors
  return UInt32.ofNat outcome.status
