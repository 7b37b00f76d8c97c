import UserStorage.Disk.Call

/-!
# A disk with interference

A disk on which calls fail that would have succeeded: because the system has run out of something,
or because somebody else was there first. What the interference does is data, and it is used up
while a program runs.

## Main definitions

* `Interference`: what happens to the makings of directories and to the removals of files
* `DisturbedDisk.perform`: what a call does on a disk with interference
-/

namespace UserStorage

/-- What becomes of a making of a directory that would have succeeded. -/
inductive MakeInterference
  /-- It fails, now and from now on. -/
  | refused (errno : Errno)
  /-- Somebody else makes a directory there first, once. -/
  | directoryFirst
  /-- Somebody else makes an empty file there first, once. -/
  | fileFirst
  deriving DecidableEq, Repr

/-- What becomes of the removal of a file. -/
inductive RemoveInterference
  /-- It fails, and the file stays. -/
  | refused (errno : Errno)
  /-- Somebody else removes the file first. -/
  | goneFirst
  /-- Somebody else puts a directory in the file's place first. -/
  | directoryFirst
  deriving DecidableEq, Repr

/-- What interferes with the calls on a disk. -/
structure Interference where
  /-- The makings of directories that still succeed, and what becomes of the next one. -/
  making : Option (Nat × MakeInterference) := none
  removing : Option RemoveInterference := none
  deriving DecidableEq, Repr

/-- A disk with what interferes with the calls on it. -/
structure DisturbedDisk where
  disk : Disk
  interference : Interference

namespace DisturbedDisk

/-- The mode that others make their empty files with, before the mask. -/
def othersFileMode : Mode := ⟨0o644⟩

/-- The mode that others make a directory in a file's place with, before the mask. -/
def othersDirectoryMode : Mode := ⟨0o755⟩

/-- A disturbed disk with another disk. -/
def withDisk (s : DisturbedDisk) (disk : Disk) : DisturbedDisk := { s with disk := disk }

/-- A disturbed disk on which so much still interferes with the making of directories. -/
def withMaking (s : DisturbedDisk) (m : Option (Nat × MakeInterference)) : DisturbedDisk :=
  { s with interference := { s.interference with making := m } }

/-- Makes a directory. Only attempts that would succeed are interfered with. -/
def makeDirectory (s : DisturbedDisk) (path : String) : Except IoError Unit × DisturbedDisk :=
  match s.disk.vacancy path, s.interference.making with
  | .error e, _ => (.error e, s)
  | .ok (n, d), none => (.ok (), s.withDisk (s.disk.adding n d s.disk.newDirectory))
  | .ok (n, d), some (left + 1, m) =>
    (.ok (), (s.withDisk (s.disk.adding n d s.disk.newDirectory)).withMaking (some (left, m)))
  | .ok (n, d), some (0, m) =>
    match m with
    | .refused errno => (.error (.system errno), s)
    | .directoryFirst =>
      (.error (.system .alreadyExists),
        (s.withDisk (s.disk.adding n d s.disk.newDirectory)).withMaking none)
    | .fileFirst =>
      let file := Entry.file (othersFileMode.without s.disk.umask) .empty
      (.error (.system .alreadyExists), (s.withDisk (s.disk.adding n d file)).withMaking none)

/-- Somebody else removes the file that the path names, and may put something in its place. -/
def replaceFirst (disk : Disk) (path : String) (inPlace : Option Entry) : Disk :=
  match disk.removable path with
  | .ok (n :: d) =>
    let gone := { disk with tree := disk.tree.remove (n :: d) }
    match inPlace with
    | some e => gone.adding n d e
    | none => gone
  | _ => disk

/-- Removes a file. -/
def removeFile (s : DisturbedDisk) (path : String) : Except IoError Unit × DisturbedDisk :=
  match s.interference.removing with
  | some (.refused errno) => (.error (.system errno), s)
  | some .goneFirst =>
    let (reply, disk) := (replaceFirst s.disk path none).removeFile path
    (reply, s.withDisk disk)
  | some .directoryFirst =>
    let other := Entry.directory (othersDirectoryMode.without s.disk.umask)
    let (reply, disk) := (replaceFirst s.disk path (some other)).removeFile path
    (reply, s.withDisk disk)
  | none =>
    let (reply, disk) := s.disk.removeFile path
    (reply, s.withDisk disk)

/-- What a call does to a disk with interference, and its reply. -/
def perform : (c : DiskCall) → DisturbedDisk → c.Reply × DisturbedDisk
  | .makeDirectory path, s => s.makeDirectory path
  | .removeFile path, s => s.removeFile path
  | .grants path access, s => (s.disk.grants path access, s)
  | .kindOf path, s => ((s.disk.lookup? true path).map Entry.kind, s)
  | .ownKindOf path, s => ((s.disk.lookup? false path).map Entry.kind, s)
  | .makeFile path, s => let (reply, disk) := s.disk.makeFile path; (reply, s.withDisk disk)

end DisturbedDisk

/-- A program of calls run alone on a disk with interference. -/
def DiskProgram.runDisturbed {α : Type} (p : DiskProgram α) (interference : Interference)
    (disk : Disk) : Outcome Disk α :=
  let outcome := Program.run DisturbedDisk.perform p ⟨disk, interference⟩
  ⟨outcome.answer, outcome.state.disk, outcome.events⟩

end UserStorage
