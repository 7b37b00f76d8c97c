import UserStorage.CommandLine
import UserStorage.Tree.Listed

/-!
# The program

Tries the command line out on a tree that is read as a listing from standard input. The run starts
in the root of this tree, with the variables that it looks at taken from the process.
-/

namespace UserStorage.CommandLine

/-- The variables that a run looks at. -/
def variableNames : List String :=
  ["HOME", "TMPDIR", "RUST_LOG", "SC__HOME_DIR_LOCATION", "SC__HOME_DIR_NAME"]

/-- Those variables that the process has. -/
def readEnvironment : IO Environment :=
  variableNames.filterMapM fun name => do
    return (← IO.getEnv name).map (name, ·)

/-- The lines up to the end of a stream. -/
partial def readLines (input : IO.FS.Stream) : IO (List String) := do
  let line ← input.getLine
  if line.isEmpty then return []
  else return (String.ofList (line.toList.filter (· ≠ '\n'))) :: (← readLines input)

/-- A run with some arguments on the tree of standard input; the exit code. -/
def tryOut (arguments : List String) : IO UInt32 := do
  let lines ← readLines (← IO.getStdin)
  let disk : Disk := { tree := Tree.ofListing ⟨0o755⟩ lines, cwd := [], umask := ⟨0o022⟩ }
  let seed ← IO.rand 0 (1 <<< 32)
  let report := run arguments (← readEnvironment) (fun k => Scratch.tagOf (seed + k)) disk
  report.stderr.forM IO.eprintln
  IO.print report.stdout
  return report.exitCode.toUInt32

end UserStorage.CommandLine

/-- Tries the command line out on the tree of standard input. -/
def main (arguments : List String) : IO UInt32 :=
  UserStorage.CommandLine.tryOut arguments
