import UserStorage.Path.Name
import UserStorage.Storage.Directory

/-!
# Scratch files and directories

Uniquely named artifacts for passing use. A file is made exclusively under a drawn name, with a new
draw as long as the name is taken. A directory is made in the place of such a file, which holds its
name until it is deleted for it. The drawn tags are an argument: nothing but the exclusive making
keeps two callers apart.

## Assumption

How a name is found is not decided here but assumed, under the name of `reserve`: a file is made
only where nothing is in its place, another name is drawn only when the one before was taken, and
the search is given up after `maxDraws` draws.

## Main definitions

* `tagOf`, `nameOf`: tags by number, and the name of a tag
* `scratchRoot`: the directory that scratch artifacts go to
* `reserve`: the search for an unused name
* `createScratchFile`, `createScratchDirectory`
-/

namespace UserStorage.Scratch

/-- What a scratch name begins with. -/
def nameStart : String := "SIPCOMM"

/-- What a scratch name ends with. -/
def nameEnd : String := "TEMP"

/-- The draws that are made before the search for an unused name is given up. -/
def maxDraws : Nat := 65536

/-- The characters of a tag. -/
def tagCharacters : List Char :=
  "0123456789abcdefghijklmnopqrstuvwxyzABCDEFGHIJKLMNOPQRSTUVWXYZ".toList

/-- So many digits of a number, the lowest first, written with the characters of tags. -/
def tagDigits : (count : Nat) → Nat → List Char
  | 0, _ => []
  | count + 1, n =>
    tagCharacters.getD (n % tagCharacters.length) '0' ::
      tagDigits count (n / tagCharacters.length)

/-- The tag of a number: six characters. -/
def tagOf (n : Nat) : String := String.ofList (tagDigits 6 n)

/-- The scratch name of a tag. -/
def nameOf (tag : String) : Name := nameStart ++ tag ++ nameEnd

/-- The directory for scratch artifacts: the configured one, taken from the working directory when
it is relative, or `/tmp` when none is configured. -/
def scratchRoot (configured : Option String) (cwd : String) : String :=
  Path.under cwd (configured.getD "/tmp")

/-- The path of a name in the scratch directory. -/
def pathIn (root name : String) : String := Path.withTrailingSeparator root ++ name

/-- The search that is assumed: it reserves the first drawn name that is not taken, from the draw
`next` on and with so many draws left. A failure is told with the path it was met at. -/
def reserve (root : String) (draw : Nat → String) :
    (left next : Nat) → DiskProgram (Except IoError String)
  | 0, _ => return .error (.atPath root .namesExhausted)
  | left + 1, next => do
    let path := pathIn root (nameOf (draw next))
    match ← DiskProgram.makeFile path with
    | .ok () => return .ok path
    | .error cause =>
      if cause.kind = .alreadyExists then reserve root draw left (next + 1)
      else return .error (.atPath path cause)

/-- Makes a new empty file in the scratch directory. -/
def createScratchFile (root : String) (draw : Nat → String) :
    DiskProgram (Except StorageError String) := do
  match ← reserve root draw maxDraws 0 with
  | .error cause =>
    Program.report (.scratchFileNotCreated cause)
    return .error (.scratchFileNotCreated cause)
  | .ok path =>
    Program.report (.scratchFileCreated path)
    return .ok path

/-- Puts a directory in the place of the placeholder file at a path. -/
def replaceWithDirectory (path : String) : DiskProgram (Except StorageError String) := do
  match ← DiskProgram.removeFile path with
  | .error cause =>
    Program.report (.placeholderNotDeleted path cause)
    return .error (.scratchDirectoryNotCreated path (.delete cause))
  | .ok () =>
    match ← Storage.createDirectory path with
    | .error cause =>
      Program.report (.scratchDirectoryNotCreated path cause)
      return .error (.scratchDirectoryNotCreated path (.makeDirectory cause))
    | .ok () =>
      Program.report (.scratchDirectoryCreated path)
      return .ok path

/-- Makes a new directory in the scratch directory, at the name of a scratch file. -/
def createScratchDirectory (root : String) (draw : Nat → String) :
    DiskProgram (Except StorageError String) := do
  match ← createScratchFile root draw with
  | .error e => return .error e
  | .ok path => replaceWithDirectory path

end UserStorage.Scratch
