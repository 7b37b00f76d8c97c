import UserStorage.Storage.Directory
import UserStorage.Storage.Handle
import UserStorage.Text.Blank

/-!
# Private files

A private file is looked for under a home string. One that grants reading or writing is answered
as it is. Otherwise the directory that is to hold it is made if it is missing, and the file can be
made there later; the file itself is never made here.

## Main definitions

* `accessibleFile`: looks for a file under a home
-/

namespace UserStorage.Storage

/-- The path of a file under a home string, which loses the blanks at its ends. -/
def filePath (home name : String) : String :=
  Path.withTrailingSeparator (Text.trim home) ++ name

/-- The directory that is to hold the file at a path: its lexical parent, or the home itself when
the path has none. -/
def containingDirectory (home path : String) : String :=
  (Path.parent? path).getD (Path.withTrailingSeparator (Text.trim home))

/-- The answer for a file that grants nothing, in a directory that is there: an entry at the path
stays unusable however writable its directory is. -/
def vacantOrDenied (file : String) : DiskProgram (Except StorageError Probe) := do
  if (← DiskProgram.ownKindOf file).isSome then
    Program.report (.existingFileDenied file)
    return .ok (.denied file)
  else return .ok (.accessible ⟨file, false, false, true⟩)

/-- Looks for the file `name` under a home. A handle for a file that is not there yet says that it
is writable when it can be made. -/
def accessibleFile (home name : String) : DiskProgram (Except StorageError Probe) := do
  let file := filePath home name
  let readable ← DiskProgram.grants file .read
  let writable ← DiskProgram.grants file .write
  if readable || writable then
    return .ok (.accessible ⟨file, true, readable, writable⟩)
  let directory := containingDirectory home file
  if ← isSeen directory then
    if ← grantsMaking directory then vacantOrDenied file
    else
      Program.report (.directoryNotWritable directory file)
      return .ok (.denied file)
  else
    Program.report (.creatingHome directory)
    match ← createDirectory directory with
    | .error cause =>
      Program.report (.homeNotCreated directory cause)
      return .error (.directoryNotCreated directory cause)
    | .ok () =>
      Program.report (.homeCreated directory)
      vacantOrDenied file

end UserStorage.Storage
