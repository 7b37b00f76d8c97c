import UserStorage.Failure.IoError
import UserStorage.Program.Basic
import UserStorage.Tree.Walk

/-!
# Calls on a disk

The calls by which storage requests look at the file system and change it, and what each does to
a disk. A look answers from the tree as it is at that moment; nothing is held between two calls.

## Main definitions

* `Disk`: a tree, the working directory and the mask that new entries are made with
* `DiskCall`, `DiskProgram`: the calls, and programs of them, with one program for each call
* `Disk.perform`: what a call does and is replied with
-/

namespace UserStorage

/-- A tree with the working directory and the mask that new entries are made with. -/
structure Disk where
  tree : Tree
  cwd : Location
  umask : Mode

/-- The kinds of entries. -/
inductive Kind
  | directory | file | fifo | link
  deriving DecidableEq, Repr

/-- The kind of an entry. -/
def Entry.kind : Entry → Kind
  | directory _ => .directory
  | file .. => .file
  | fifo _ => .fifo
  | link _ => .link

/-- The rights a path can be asked for. -/
inductive Access
  | read | write
  /-- To write a directory and to search it: what making an entry in it takes. -/
  | writeAndSearch
  deriving DecidableEq, Repr

/-- The permission bits grant the right. -/
def Mode.grants (m : Mode) : Access → Bool
  | .read => m.ownerMayRead
  | .write => m.ownerMayWrite
  | .writeAndSearch => m.ownerMayWrite && m.ownerMaySearch

/-- The calls on a disk. -/
inductive DiskCall
  /-- Whether the path grants a right; links are followed. -/
  | grants (path : String) (access : Access)
  /-- The kind of entry that the path leads to, links being followed. -/
  | kindOf (path : String)
  /-- The kind of entry that the path itself names. -/
  | ownKindOf (path : String)
  /-- Makes a directory. -/
  | makeDirectory (path : String)
  /-- Makes an empty file where there is no entry. -/
  | makeFile (path : String)
  /-- Removes an entry that is no directory. -/
  | removeFile (path : String)

/-- What a call on a disk is replied with. -/
def DiskCall.Reply : DiskCall → Type
  | grants .. => Bool
  | kindOf _ | ownKindOf _ => Option Kind
  | makeDirectory _ | makeFile _ | removeFile _ => Except IoError Unit

/-- The calls on a disk and their replies. -/
def diskCalls : Signature := ⟨DiskCall, DiskCall.Reply⟩

/-- Programs of calls on a disk. -/
abbrev DiskProgram := Program diskCalls

/-- The permission bits a new file asks for. -/
def newFileMode : Mode := ⟨0o600⟩

/-- A path with a NUL character names nothing. -/
def hasNul (path : String) : Bool := path.toList.contains '\x00'

namespace Disk

/-- The entry that a path leads to, if the walk finds one. -/
def lookup? (disk : Disk) (followLast : Bool) (path : String) : Option Entry :=
  if hasNul path then none
  else
    match disk.tree.resolve Mode.ownerMaySearch disk.cwd followLast path with
    | .ok l => disk.tree.get? l
    | .error _ => none

/-- The path grants a right to what it leads to. -/
def grants (disk : Disk) (path : String) (access : Access) : Bool :=
  ((disk.lookup? true path).bind Entry.mode?).any (·.grants access)

/-- The entry that is to be made or removed at a path: its name and its directory, which must
exist and grant searching. -/
def place (disk : Disk) (path : String) : Except IoError (Option (Name × Location)) :=
  if hasNul path then .error .nulInPath
  else (disk.tree.resolveParent Mode.ownerMaySearch disk.cwd path).mapError .system

/-- The directory at a location may be changed. -/
def mayChange (disk : Disk) (d : Location) : Bool :=
  ((disk.tree.get? d).bind Entry.mode?).any Mode.ownerMayWrite

/-- The place where a path makes an entry: no entry is there yet and its directory may be changed.
An entry that is there is reported before missing rights on its directory. -/
def vacancy (disk : Disk) (path : String) : Except IoError (Name × Location) := do
  match ← disk.place path with
  | none => .error (.system .alreadyExists)
  | some (n, d) =>
    if (disk.tree.get? (n :: d)).isSome then .error (.system .alreadyExists)
    else if !disk.mayChange d then .error (.system .accessDenied)
    else .ok (n, d)

/-- The disk with a new entry. -/
def adding (disk : Disk) (n : Name) (d : Location) (e : Entry) : Disk :=
  { disk with tree := disk.tree.add n d e }

/-- The directory that is made under the disk's mask. -/
def newDirectory (disk : Disk) : Entry := .directory (Mode.full.without disk.umask)

/-- A path that ends in a slash asks for a directory. -/
def asksForDirectory (path : String) : Bool := path.toList.getLast? == some '/'

/-- Makes a directory. Slashes behind its name do not count, and a link there is an entry. -/
def makeDirectory (disk : Disk) (path : String) : Except IoError Unit × Disk :=
  match disk.vacancy path with
  | .error e => (.error e, disk)
  | .ok (n, d) => (.ok (), disk.adding n d disk.newDirectory)

/-- Makes an empty file where there is no entry. -/
def makeFile (disk : Disk) (path : String) : Except IoError Unit × Disk :=
  match disk.vacancy path with
  | .error e => (.error e, disk)
  | .ok (n, d) =>
    if asksForDirectory path then (.error (.system .isDirectory), disk)
    else (.ok (), disk.adding n d (.file (newFileMode.without disk.umask) .empty))

/-- The entry that a path removes: one that is there, in a directory that may be changed, and no
directory. -/
def removable (disk : Disk) (path : String) : Except IoError Location := do
  match ← disk.place path with
  | none => .error (.system .isDirectory)
  | some (n, d) =>
    match disk.tree.get? (n :: d) with
    | none => .error (.system .notFound)
    | some e =>
      if !disk.mayChange d then .error (.system .accessDenied)
      else if e.isDirectory then .error (.system .isDirectory)
      else if asksForDirectory path then .error (.system .notDirectory)
      else .ok (n :: d)

/-- Removes an entry that is no directory; a link is removed, not followed. -/
def removeFile (disk : Disk) (path : String) : Except IoError Unit × Disk :=
  match disk.removable path with
  | .error e => (.error e, disk)
  | .ok l => (.ok (), { disk with tree := disk.tree.remove l })

/-- What a call does to a disk, and its reply. -/
def perform : (c : DiskCall) → Disk → c.Reply × Disk
  | .grants path access, disk => (disk.grants path access, disk)
  | .kindOf path, disk => ((disk.lookup? true path).map Entry.kind, disk)
  | .ownKindOf path, disk => ((disk.lookup? false path).map Entry.kind, disk)
  | .makeDirectory path, disk => disk.makeDirectory path
  | .makeFile path, disk => disk.makeFile path
  | .removeFile path, disk => disk.removeFile path

end Disk

namespace DiskProgram

/-- Whether the path grants a right. -/
def grants (path : String) (access : Access) : DiskProgram Bool :=
  .ask (S := diskCalls) (.grants path access)

/-- The kind of entry that the path leads to. -/
def kindOf (path : String) : DiskProgram (Option Kind) := .ask (S := diskCalls) (.kindOf path)

/-- The kind of entry that the path itself names. -/
def ownKindOf (path : String) : DiskProgram (Option Kind) :=
  .ask (S := diskCalls) (.ownKindOf path)

/-- One attempt to make a directory. -/
def makeDirectory (path : String) : DiskProgram (Except IoError Unit) :=
  .ask (S := diskCalls) (.makeDirectory path)

/-- One attempt to make an empty file where there is no entry. -/
def makeFile (path : String) : DiskProgram (Except IoError Unit) :=
  .ask (S := diskCalls) (.makeFile path)

/-- One attempt to remove a file. -/
def removeFile (path : String) : DiskProgram (Except IoError Unit) :=
  .ask (S := diskCalls) (.removeFile path)

end DiskProgram

/-- A program of calls run alone on a disk. -/
def DiskProgram.runOn {α : Type} (p : DiskProgram α) (disk : Disk) : Outcome Disk α :=
  Program.run Disk.perform p disk

end UserStorage
