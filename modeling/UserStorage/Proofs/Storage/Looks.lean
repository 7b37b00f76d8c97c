import UserStorage.Proofs.Disk.Vacancy
import UserStorage.Storage.Directory

/-!
# Programs run alone on a disk

How a run on a disk goes when its first part is known, and what the looks answer. A look leaves the
disk as it is and reports nothing, so a program goes on after it with the answer alone.

## Main definitions

* `Disk.allowsMaking`: the path is seen to lead to a directory in which entries can be made

## Main results

* `DiskProgram.runOn_bind_of_quiet`: the run after a first part that reports nothing
* `Disk.LeadsToNew.grants_read`, `Disk.LeadsToNew.allowsMaking`: the rights of a new directory
* `Storage.isSeen_runOn`, `Storage.isDirectory_runOn`, `Storage.grantsMaking_runOn`: the looks
-/

namespace UserStorage

namespace DiskProgram

variable {α β : Type} {p : DiskProgram α} {f : α → DiskProgram β} {disk mid : Disk} {a : α}

/-- The second program runs on the disk that the first one left. -/
theorem runOn_bind (p : DiskProgram α) (f : α → DiskProgram β) (disk : Disk) :
    (p >>= f).runOn disk =
      { answer := ((f (p.runOn disk).answer).runOn (p.runOn disk).state).answer
        state := ((f (p.runOn disk).answer).runOn (p.runOn disk).state).state
        events := (p.runOn disk).events ++
          ((f (p.runOn disk).answer).runOn (p.runOn disk).state).events } :=
  Program.run_bind (S := diskCalls) Disk.perform p f disk

theorem runOn_bind_of_quiet (h : p.runOn disk = ⟨a, mid, []⟩) :
    (p >>= f).runOn disk = (f a).runOn mid := by
  rw [runOn_bind, h]
  rfl

/-- A report changes nothing but the events. -/
theorem runOn_bind_report (e : Event) (f : Unit → DiskProgram β) (disk : Disk) :
    (Program.report e >>= f : DiskProgram β).runOn disk =
      { (f ()).runOn disk with events := e :: ((f ()).runOn disk).events } := rfl

end DiskProgram

namespace Disk

variable {disk after : Disk} {path : String}

/-- The path is seen to lead to a directory in which entries can be made. -/
def allowsMaking (disk : Disk) (path : String) : Bool :=
  disk.showsDirectory path && disk.grants path .writeAndSearch

theorem allowsMaking_iff :
    disk.allowsMaking path = true ↔ ∃ d m, disk.LeadsToDirectory path d m ∧
      m.ownerMayWrite = true ∧ m.ownerMaySearch = true := by
  rw [allowsMaking, Bool.and_eq_true, showsDirectory_iff]
  constructor
  · rintro ⟨⟨d, m, hd⟩, hg⟩
    rw [grants, lookup?_of_leadsToDirectory hd] at hg
    exact ⟨d, m, hd, Bool.and_eq_true_iff.mp hg⟩
  · rintro ⟨d, m, hd, hw, hs⟩
    refine ⟨⟨d, m, hd⟩, ?_⟩
    rw [grants, lookup?_of_leadsToDirectory hd]
    exact Bool.and_eq_true_iff.mpr ⟨hw, hs⟩

theorem showsDirectory_of_allowsMaking (h : disk.allowsMaking path = true) :
    disk.showsDirectory path = true := by
  rw [allowsMaking, Bool.and_eq_true] at h
  exact h.1

theorem allowsMaking_eq_grants (h : disk.showsDirectory path = true) :
    disk.allowsMaking path = disk.grants path .writeAndSearch := by
  rw [allowsMaking, h, Bool.true_and]

/-! ## The rights of new directories -/

theorem LeadsToNew.lookup? (h : LeadsToNew disk after path) :
    after.lookup? true path = some after.newDirectory := by
  obtain ⟨l, hl, hd, -, -⟩ := h
  exact lookup?_true_eq_some_iff.mpr ⟨l, hl, hd⟩

/-- A new directory grants reading unless the mask takes that away. -/
theorem LeadsToNew.grants_read (h : LeadsToNew disk after path) :
    after.grants path .read = !after.umask.ownerMayRead := by
  have hfull : Mode.full.ownerMayRead = true := by decide
  rw [grants, h.lookup?]
  simp [newDirectory, Entry.mode?, Mode.grants, hfull]

/-- A new directory allows making entries in it unless the mask takes that away. -/
theorem LeadsToNew.allowsMaking (h : LeadsToNew disk after path) :
    after.allowsMaking path = (!after.umask.ownerMayWrite && !after.umask.ownerMaySearch) := by
  have hwrite : Mode.full.ownerMayWrite = true := by decide
  have hsearch : Mode.full.ownerMaySearch = true := by decide
  rw [Disk.allowsMaking, h.showsDirectory, grants, h.lookup?]
  simp [newDirectory, Entry.mode?, Mode.grants, hwrite, hsearch]

end Disk

namespace Storage

variable (path : String) (disk : Disk)

theorem isSeen_runOn : (isSeen path).runOn disk = ⟨(disk.lookup? true path).isSome, disk, []⟩ := by
  show (⟨((disk.lookup? true path).map Entry.kind).isSome, disk, []⟩ : Outcome Disk Bool) = _
  rw [Option.isSome_map]

theorem kind_beq_directory :
    ((disk.lookup? true path).map Entry.kind == some Kind.directory) = disk.showsDirectory path := by
  rw [Disk.showsDirectory]
  cases disk.lookup? true path with
  | none => rfl
  | some e => cases e <;> rfl

theorem isDirectory_runOn :
    (isDirectory path).runOn disk = ⟨disk.showsDirectory path, disk, []⟩ := by
  show (⟨(disk.lookup? true path).map Entry.kind == some Kind.directory, disk, []⟩ :
    Outcome Disk Bool) = _
  rw [kind_beq_directory]

theorem grantsMaking_runOn :
    (grantsMaking path).runOn disk = ⟨disk.allowsMaking path, disk, []⟩ := by
  rw [grantsMaking, DiskProgram.runOn_bind_of_quiet (isDirectory_runOn path disk),
    Disk.allowsMaking]
  cases disk.showsDirectory path <;> rfl

theorem unlessDirectory_runOn (cause : IoError) :
    (unlessDirectory path cause).runOn disk =
      ⟨if disk.showsDirectory path then .ok () else .error cause, disk, []⟩ := by
  rw [unlessDirectory, DiskProgram.runOn_bind_of_quiet (isDirectory_runOn path disk)]
  cases disk.showsDirectory path <;> rfl

end Storage

end UserStorage
