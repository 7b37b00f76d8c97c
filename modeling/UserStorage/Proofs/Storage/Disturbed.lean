import UserStorage.Disk.Interference
import UserStorage.Proofs.Disk.Gains
import UserStorage.Proofs.Storage.Histories

/-!
# Calls with interference

Whatever interferes with the making of directories, a disk grows with every call that takes nothing
away: what somebody else makes first is an addition too. A removal takes nothing away from a disk
on which the place of its path is vacant: on whatever that disk has grown to, the entry that is
removed has come later, and so has what somebody else removes there or puts in its place.

## Main definitions

* `DiskProgram.runIn`: a program run on a disk with interference, which is left with the rest of it

## Main results

* `DisturbedDisk.le_perform_of_adds`, `DiskProgram.le_runIn_of_adds`: calls that take nothing away
* `DisturbedDisk.le_removeFile`: a removal at a place that was vacant
-/

namespace UserStorage

/-! ## Removals -/

namespace Disk

variable {disk later : Disk} {path : String} {n : Name} {d l : Location}

/-- What a path removes lies at its place. -/
theorem eq_of_removable (hplace : disk.place path = .ok (some (n, d)))
    (h : disk.removable path = .ok l) : l = n :: d ∧ disk.tree.isDirectory l = false := by
  rw [removable, hplace] at h
  simp only [bind, Except.bind] at h
  cases he : disk.tree.get? (n :: d) with
  | none => simp [he] at h
  | some e =>
    simp only [he] at h
    split_ifs at h with hmay hdir
    cases h
    refine ⟨rfl, ?_⟩
    simpa [Tree.isDirectory, he] using hdir

/-- What is removed at a place that was vacant has come later. -/
theorem le_remove (free : disk.tree.get? l = none) (h : disk ≤ later)
    (leaf : later.tree.isDirectory l = false) :
    disk ≤ { later with tree := later.tree.remove l } := by
  refine ⟨fun k e he => ?_, h.2⟩
  have hne : k ≠ l := by
    rintro rfl
    rw [free] at he
    cases he
  show (later.tree.remove l).get? k = some e
  rw [Tree.get?_remove leaf, if_neg hne]
  exact Tree.get?_of_le h.1 he

theorem le_removeFile (free : disk.vacancy path = .ok (n, d)) (h : disk ≤ later) :
    disk ≤ (later.removeFile path).2 := by
  obtain ⟨hplace, hfree, -⟩ := vacancy_eq_ok_iff.mp free
  rw [removeFile]
  cases hremovable : later.removable path with
  | error cause => exact h
  | ok l =>
    obtain ⟨rfl, leaf⟩ := eq_of_removable (place_mono h hplace) hremovable
    exact le_remove hfree h leaf

end Disk

namespace DisturbedDisk

variable {disk : Disk} {s : DisturbedDisk} {path : String} {n : Name} {d : Location}

/-- What somebody else removes there and puts in its place has come later, too. -/
theorem le_replaceFirst {later : Disk} (free : disk.vacancy path = .ok (n, d)) (h : disk ≤ later)
    (inPlace : Option Entry) : disk ≤ replaceFirst later path inPlace := by
  obtain ⟨hplace, hfree, -⟩ := Disk.vacancy_eq_ok_iff.mp free
  rw [replaceFirst]
  cases hremovable : later.removable path with
  | error cause => exact h
  | ok l =>
    obtain ⟨rfl, leaf⟩ := Disk.eq_of_removable (Disk.place_mono h hplace) hremovable
    have hgone := Disk.le_remove hfree h leaf
    cases inPlace with
    | none => exact hgone
    | some e => exact hgone.trans (Disk.le_adding _ _ _ e)

/-- A removal at a place that was vacant takes away nothing that was there then. -/
theorem le_removeFile (free : disk.vacancy path = .ok (n, d)) (h : disk ≤ s.disk) :
    disk ≤ (s.removeFile path).2.disk := by
  rw [removeFile]
  split
  · exact h
  · exact Disk.le_removeFile free (le_replaceFirst free h _)
  · exact Disk.le_removeFile free (le_replaceFirst free h _)
  · exact Disk.le_removeFile free h

/-! ## Additions -/

/-- Whatever interferes with a making, at most an entry is added. -/
theorem le_makeDirectory (s : DisturbedDisk) (path : String) :
    s.disk ≤ (s.makeDirectory path).2.disk := by
  rw [makeDirectory]
  split
  · exact le_rfl
  · exact Disk.le_adding _ _ _ _
  · exact Disk.le_adding _ _ _ _
  · split
    · exact le_rfl
    · exact Disk.le_adding _ _ _ _
    · exact Disk.le_adding _ _ _ _

theorem le_perform_of_adds (c : DiskCall) (s : DisturbedDisk) (h : Storage.Adds c) :
    s.disk ≤ (perform c s).2.disk := by
  cases c with
  | makeDirectory path => exact le_makeDirectory s path
  | makeFile path => exact Storage.le_perform_of_adds (.makeFile path) s.disk h
  | removeFile path => exact h.elim
  | _ => exact le_rfl

end DisturbedDisk

/-! ## Runs -/

namespace DiskProgram

variable {α β : Type} {p : DiskProgram α}

/-- A program run on a disk with interference, which is left with the rest of it. -/
def runIn (p : DiskProgram α) (s : DisturbedDisk) : Outcome DisturbedDisk α :=
  Program.run DisturbedDisk.perform p s

theorem state_runDisturbed (p : DiskProgram α) (interference : Interference) (disk : Disk) :
    (p.runDisturbed interference disk).state = (p.runIn ⟨disk, interference⟩).state.disk := rfl

theorem runIn_bind (p : DiskProgram α) (f : α → DiskProgram β) (s : DisturbedDisk) :
    (p >>= f).runIn s =
      { answer := ((f (p.runIn s).answer).runIn (p.runIn s).state).answer
        state := ((f (p.runIn s).answer).runIn (p.runIn s).state).state
        events := (p.runIn s).events ++ ((f (p.runIn s).answer).runIn (p.runIn s).state).events } :=
  Program.run_bind (S := diskCalls) DisturbedDisk.perform p f s

theorem runIn_bind_of_quiet {f : α → DiskProgram β} {a : α} {s mid : DisturbedDisk}
    (h : p.runIn s = ⟨a, mid, []⟩) : (p >>= f).runIn s = (f a).runIn mid := by
  rw [runIn_bind, h]
  rfl

/-- A disk grows with a program that takes nothing away, whatever interferes. -/
theorem le_runIn_of_adds (h : Program.Only (S := diskCalls) Storage.Adds p) (s : DisturbedDisk) :
    s.disk ≤ (p.runIn s).state.disk :=
  h.rule_run (fun (s s' : DisturbedDisk) => s.disk ≤ s'.disk) (fun _ => le_rfl) (fun _ _ _ => le_trans)
    DisturbedDisk.le_perform_of_adds s

end DiskProgram

end UserStorage
