import UserStorage.Logging.Line
import UserStorage.Service.Requests
import UserStorage.Settings.Load

/-!
# The command line

Shows where an application's private and scratch files go: each command makes one request and prints
the path it is answered with. The settings are loaded and registered first. When they cannot be
loaded, that is logged and the commands for scratch artifacts still work.

The arguments are those behind the program's name, and they are text, as the variables are: a run
with arguments or variables that are not Unicode ends before it has begun and is left out. The times
in front of the log's lines are left out as well.

## Main definitions

* `Command`, `Command.ofArguments?`: the commands, and the one that some arguments give
* `Command.request`: the request that a command makes
* `start`: the desk that a run begins at
* `Report`, `run`: what a run leaves behind
-/

namespace UserStorage.CommandLine

/-- The commands. -/
inductive Command
  | home
  | file (name : String)
  | directory (first : String) (others : List String)
  | scratchFile
  | scratchDirectory
  deriving DecidableEq, Repr

/-- The command that some arguments give. A directory has at least one segment. -/
def Command.ofArguments? : List String → Option Command
  | ["home"] => some .home
  | ["file", name] => some (.file name)
  | "dir" :: first :: others => some (.directory first others)
  | ["temp-file"] => some .scratchFile
  | ["temp-dir"] => some .scratchDirectory
  | _ => none

/-- The request that a command makes at a desk; its answer is the path that is printed. Scratch
artifacts go to the directory `root`, under tags that are drawn. -/
def Command.request (desk : Desk) (root : String) (draw : Nat → String) :
    Command → DiskProgram (Except StorageError String)
  | home => return desk.requestHome
  | file name => Except.map Handle.path <$> desk.requestFile name
  | directory first others =>
    Except.map Handle.path <$> desk.requestSegments (first :: others)
  | scratchFile => Scratch.createScratchFile root draw
  | scratchDirectory => Scratch.createScratchDirectory root draw

/-- A desk with nothing registered. -/
def bareDesk : Desk := { slot := none, values := fun _ => ⟨"", ""⟩ }

/-- The desk that a run begins at, and what was reported on the way there: loaded settings are
registered. -/
def start : Except Settings.LoadError HomeSettings → Desk × List Event
  | .ok settings =>
    let outcome := (register 0).runAt (bareDesk.setValues 0 settings)
    (outcome.state, .settingsLoaded settings.location settings.name :: outcome.events)
  | .error e => (bareDesk, [.settingsNotLoaded e.message])

/-- What is said when the arguments give no command. -/
def usage : String :=
  "usage: sc-fileaccess <home | file NAME | dir SEGMENT... | temp-file | temp-dir>"

/-- The exit code when the arguments give no command. -/
def usageExitCode : Nat := 64

/-- What a run leaves behind. -/
structure Report where
  exitCode : Nat
  stdout : String
  /-- The lines on standard error. -/
  stderr : List String
  disk : Disk

/-- A run with some arguments. -/
def run (arguments : List String) (env : Environment) (draw : Nat → String) (disk : Disk)
    (host : Settings.Host := {}) : Report :=
  let filter := Logging.Filter.ofEnvironment env
  let (desk, opening) := start (Settings.load disk env Settings.defaultStem host)
  let log (events : List Event) := filter.warnings ++ filter.write (opening ++ events)
  match Command.ofArguments? arguments with
  | none => { exitCode := usageExitCode, stdout := "", stderr := log [] ++ [usage], disk }
  | some command =>
    let root := Scratch.scratchRoot (env.get? "TMPDIR") disk.cwdPath
    let outcome := (command.request desk root draw).runOn disk
    match outcome.answer with
    | .ok path =>
      { exitCode := 0, stdout := path ++ "\n", stderr := log outcome.events
        disk := outcome.state }
    | .error e =>
      { exitCode := e.exitCode, stdout := "", stderr := log (outcome.events ++ [.requestFailed e])
        disk := outcome.state }

end UserStorage.CommandLine
