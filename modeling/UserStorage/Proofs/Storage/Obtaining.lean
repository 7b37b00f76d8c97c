import UserStorage.Proofs.Storage.Making
import UserStorage.Storage.PrivateDirectory

/-!
# Obtaining a private directory, run alone

A request for a private directory finds the directory, or finds something else in its place, or
makes it with the ancestors it lacks. The handle is measured on the disk that is left.

## Main definitions

* `Storage.handleAt`: the handle of a directory as a disk shows it
* `Storage.Obtaining`: the runs of a request

## Main results

* `Storage.obtaining_privateDirectory`: what the program does is a run of this kind
-/

namespace UserStorage.Storage

/-- The handle of a directory as a disk shows it. -/
def handleAt (directory : String) (disk : Disk) : Handle :=
  ⟨directory, disk.showsDirectory directory, disk.grants directory .read,
    disk.allowsMaking directory⟩

theorem directoryExists_runOn (path : String) (disk : Disk) :
    (directoryExists path).runOn disk = ⟨disk.showsDirectory path, disk, []⟩ := by
  rw [directoryExists, DiskProgram.runOn_bind_of_quiet (isSeen_runOn path disk)]
  cases h : disk.lookup? true path with
  | none =>
    rw [Disk.showsDirectory_of_unseen h]
    rfl
  | some e => exact isDirectory_runOn path disk

theorem measure_runOn (directory : String) (disk : Disk) :
    (measure directory).runOn disk = ⟨handleAt directory disk, disk, []⟩ := by
  have hread : (DiskProgram.grants directory .read).runOn disk =
      ⟨disk.grants directory .read, disk, []⟩ := rfl
  rw [measure, DiskProgram.runOn_bind_of_quiet (directoryExists_runOn directory disk),
    DiskProgram.runOn_bind_of_quiet hread,
    DiskProgram.runOn_bind_of_quiet (grantsMaking_runOn directory disk)]
  rfl

theorem map_measure_runOn (directory : String) (disk : Disk) :
    (Except.ok <$> measure directory : DiskProgram (Except StorageError Handle)).runOn disk =
      ⟨.ok (handleAt directory disk), disk, []⟩ := by
  show (measure directory >>= fun handle => pure (.ok handle) :
    DiskProgram (Except StorageError Handle)).runOn disk = _
  rw [DiskProgram.runOn_bind_of_quiet (measure_runOn directory disk)]
  rfl

/-- The runs of a request for a private directory. -/
inductive Obtaining (directory : String) (disk : Disk) :
    Outcome Disk (Except StorageError Handle) → Prop
  | found (dir : disk.showsDirectory directory = true) :
      Obtaining directory disk ⟨.ok (handleAt directory disk), disk, []⟩
  | conflict (seen : (disk.lookup? true directory).isSome = true)
      (other : disk.showsDirectory directory = false) :
      Obtaining directory disk
        ⟨.error (.pathConflict directory), disk, [.directoryConflict directory]⟩
  | unmade {after : Disk} {cause : IoError} (unseen : disk.lookup? true directory = none)
      (making : Making directory (Path.ancestors directory) disk (.error cause) after) :
      Obtaining directory disk ⟨.error (.directoryNotCreated directory cause), after,
        [.directoryNotCreated directory cause]⟩
  | made {after : Disk} (unseen : disk.lookup? true directory = none)
      (making : Making directory (Path.ancestors directory) disk (.ok ()) after) :
      Obtaining directory disk
        ⟨.ok (handleAt directory after), after, [.privateDirectoryCreated directory]⟩

/-- What the program does is a run of this kind. -/
theorem obtaining_privateDirectory (home name : String) (disk : Disk) :
    Obtaining (directoryPath home name) disk ((privateDirectory home name).runOn disk) := by
  unfold privateDirectory
  generalize directoryPath home name = directory
  simp only
  rw [DiskProgram.runOn_bind_of_quiet (isSeen_runOn directory disk)]
  cases hseen : disk.lookup? true directory with
  | some e =>
    -- the two looks are made on one disk, so what was seen is what is asked for its kind
    rw [Option.isSome_some, if_pos rfl,
      DiskProgram.runOn_bind_of_quiet (isDirectory_runOn directory disk)]
    cases hdir : disk.showsDirectory directory with
    | true =>
      rw [if_pos rfl, map_measure_runOn]
      exact .found hdir
    | false => exact .conflict (by rw [hseen]; rfl) hdir
  | none =>
    obtain ⟨answer, after, making, hrun⟩ := making_createDirectory directory disk
    rw [Option.isSome_none, if_neg (by decide), DiskProgram.runOn_bind_of_quiet hrun]
    cases answer with
    | error cause => exact .unmade hseen making
    | ok u =>
      rw [DiskProgram.runOn_bind_report, map_measure_runOn]
      exact .made hseen making

end UserStorage.Storage
