import UserStorage.Failure.IoError

/-!
# Errors of storage requests

The closed set of failures that a request for a file, a directory or a scratch artifact reports,
with the text shown to people and the code a process exits with.

## Main definitions

* `ScratchStep`: the step at which making a scratch directory failed
* `StorageError`: the failures, with `StorageError.message`, `StorageError.cause?` and
  `StorageError.exitCode`
-/

namespace UserStorage

/-- The step at which making a scratch directory failed. The two are kept apart, for a placeholder
that could not be deleted stays behind. -/
inductive ScratchStep
  | delete (cause : IoError)
  | makeDirectory (cause : IoError)
  deriving DecidableEq, Repr

/-- Why the step failed. -/
def ScratchStep.cause : ScratchStep → IoError
  | delete e | makeDirectory e => e

/-- The text of a failed step. -/
def ScratchStep.message : ScratchStep → String
  | delete e => "could not delete temporary file: " ++ e.text
  | makeDirectory e => "could not create directory: " ++ e.text

/-- The failures of storage requests. -/
inductive StorageError
  /-- No configuration is registered. -/
  | configurationUnavailable
  /-- The file grants nothing and cannot be made. -/
  | insufficientRights (path : String)
  /-- The directory is missing and could not be made. -/
  | directoryNotCreated (path : String) (cause : IoError)
  /-- No scratch directory could be made. -/
  | scratchDirectoryNotCreated (path : String) (step : ScratchStep)
  /-- No scratch file could be made. -/
  | scratchFileNotCreated (cause : IoError)
  /-- Something that is no directory is where the directory should be. -/
  | pathConflict (path : String)
  deriving DecidableEq, Repr

namespace StorageError

/-- The text of an error. -/
def message : StorageError → String
  | configurationUnavailable => "No configuration service is registered"
  | insufficientRights path =>
    "Insufficient rights to access this file in current user's home directory: " ++ path
  | directoryNotCreated path cause => "Could not create directory " ++ path ++ ": " ++ cause.text
  | scratchDirectoryNotCreated path step =>
    "Could not create temporary directory " ++ path ++ ", because: " ++ step.message
  | scratchFileNotCreated cause => "Could not create temporary file: " ++ cause.text
  | pathConflict path =>
    "Could not create directory because a file exists with this name: " ++ path

/-- The failure of input or output behind an error. -/
def cause? : StorageError → Option IoError
  | directoryNotCreated _ cause | scratchFileNotCreated cause => some cause
  | scratchDirectoryNotCreated _ step => some step.cause
  | configurationUnavailable | insufficientRights _ | pathConflict _ => none

/-- The code a process exits with on an error. -/
def exitCode : StorageError → Nat
  | configurationUnavailable => 78
  | insufficientRights _ => 77
  | directoryNotCreated .. | scratchDirectoryNotCreated .. | scratchFileNotCreated _
  | pathConflict _ => 73

end StorageError

end UserStorage
