import UserStorage.Disk.Call
import UserStorage.Path.Parent

/-!
# Making a directory with its ancestors

A directory is made together with the ancestors it lacks, and counts as made when somebody else
was faster. The attempt comes first: only when the system answers that something on the way is
missing are the ancestors made, and the attempt repeated.

## Main definitions

* `isSeen`, `isDirectory`, `grantsMaking`: what a path leads to
* `makeWithAncestors`: makes a directory and the ancestors it lacks
* `createDirectory`: the same, where a directory that appears meanwhile is welcome
-/

namespace UserStorage.Storage

/-- Whether the path leads to an entry that the caller can be told of. -/
def isSeen (path : String) : DiskProgram Bool := Option.isSome <$> DiskProgram.kindOf path

/-- Whether the path leads to a directory. -/
def isDirectory (path : String) : DiskProgram Bool :=
  (· == some .directory) <$> DiskProgram.kindOf path

/-- Whether the path leads to a directory in which entries can be made. -/
def grantsMaking (path : String) : DiskProgram Bool := do
  if ← isDirectory path then DiskProgram.grants path .writeAndSearch else return false

/-- Whether the path is seen and leads to a directory. -/
def directoryExists (path : String) : DiskProgram Bool := do
  if ← isSeen path then isDirectory path else return false

/-- A failed attempt does not matter when the path leads to a directory after all. -/
def unlessDirectory (path : String) (cause : IoError) : DiskProgram (Except IoError Unit) := do
  if ← isDirectory path then return .ok () else return .error cause

/-- Makes the directory `path`, whose lexical ancestors are given nearest first. The empty path
stands for the working directory and needs no making. -/
def makeWithin (path : String) : List String → DiskProgram (Except IoError Unit)
  | [] => do
    if path = "" then return .ok ()
    match ← DiskProgram.makeDirectory path with
    | .ok () => return .ok ()
    | .error cause =>
      if cause.kind = .notFound then return .error cause else unlessDirectory path cause
  | parent :: others => do
    if path = "" then return .ok ()
    match ← DiskProgram.makeDirectory path with
    | .ok () => return .ok ()
    | .error cause =>
      if cause.kind = .notFound then
        match ← makeWithin parent others with
        | .error cause => return .error cause
        | .ok () =>
          match ← DiskProgram.makeDirectory path with
          | .ok () => return .ok ()
          | .error cause => unlessDirectory path cause
      else unlessDirectory path cause

/-- Makes a directory and the ancestors it lacks. -/
def makeWithAncestors (path : String) : DiskProgram (Except IoError Unit) :=
  makeWithin path (Path.ancestors path)

/-- Makes a directory and the ancestors it lacks. That it exists already, also when another caller
made it between the look and the attempt, counts as success. -/
def createDirectory (path : String) : DiskProgram (Except IoError Unit) := do
  match ← makeWithAncestors path with
  | .ok () => return .ok ()
  | .error cause =>
    if cause.kind = .alreadyExists then unlessDirectory path cause else return .error cause

end UserStorage.Storage
