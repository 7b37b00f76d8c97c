import UserStorage.Storage.Directory
import UserStorage.Storage.Handle

/-!
# Private directories

A private directory is resolved under a home string and made, with the ancestors it lacks, when it
is not there. Something else in its place is a conflict.

## Main definitions

* `privateDirectory`: resolves a directory under a home
-/

namespace UserStorage.Storage

/-- The path of a directory under a home string, which is taken as it is. -/
def directoryPath (home name : String) : String := Path.withTrailingSeparator home ++ name

/-- The handle of a directory, measured now. -/
def measure (directory : String) : DiskProgram Handle := do
  let present ← directoryExists directory
  let readable ← DiskProgram.grants directory .read
  let writable ← grantsMaking directory
  return ⟨directory, present, readable, writable⟩

/-- Resolves the directory `name` under a home. -/
def privateDirectory (home name : String) : DiskProgram (Except StorageError Handle) := do
  let directory := directoryPath home name
  if ← isSeen directory then
    if ← isDirectory directory then .ok <$> measure directory
    else
      Program.report (.directoryConflict directory)
      return .error (.pathConflict directory)
  else
    match ← createDirectory directory with
    | .error cause =>
      Program.report (.directoryNotCreated directory cause)
      return .error (.directoryNotCreated directory cause)
    | .ok () =>
      Program.report (.privateDirectoryCreated directory)
      .ok <$> measure directory

end UserStorage.Storage
