import UserStorage.Proofs.Scratch.Protocol
import UserStorage.Proofs.Storage.Disturbed

/-!
# What requests for scratch entries add

A request for a scratch file adds the file or nothing. A request for a scratch directory deletes
what it has reserved its name by, but at that place there was nothing when it began: on the whole it
only adds, whatever interferes with its calls and wherever it stops.

## Main definitions

* `Scratch.Searched`: what is known after an unused name has been looked for

## Main results

* `Scratch.searched_createScratchFile`: a request for a file
* `Scratch.le_createScratchDirectory`: a request for a directory
-/

namespace UserStorage.Scratch

variable {ε : Type} {disk : Disk} {s : DisturbedDisk} {root path : String} {draw : Nat → String}

/-- A search for an unused name has only added to a disk, and the path that it answers with was
vacant on it. -/
structure Searched (before : Disk) (outcome : Outcome DisturbedDisk (Except ε String)) : Prop where
  le : before ≤ outcome.state.disk
  exists_vacancy {path : String} (h : outcome.answer = .ok path) :
    ∃ n d, before.vacancy path = .ok (n, d)

theorem searched_reserve (root : String) (draw : Nat → String) (left next : Nat)
    (s : DisturbedDisk) : Searched s.disk ((reserve root draw left next).runIn s) := by
  induction left generalizing next with
  | zero => exact ⟨le_rfl, fun h => by cases h⟩
  | succ left ih =>
    rw [reserve]
    generalize pathIn root (nameOf (draw next)) = path
    have hmake : (DiskProgram.makeFile path).runIn s =
        ⟨(s.disk.makeFile path).1, s.withDisk (s.disk.makeFile path).2, []⟩ := rfl
    rw [DiskProgram.runIn_bind_of_quiet hmake]
    rcases makeFile_cases s.disk path with ⟨n, d, hv, hmade⟩ | ⟨cause, hrefused⟩
    · rw [hmade]
      refine ⟨Disk.le_adding _ _ _ _, fun h => ?_⟩
      cases h
      exact ⟨n, d, hv⟩
    · rw [hrefused]
      dsimp only
      split_ifs
      · exact ih (next + 1)
      · exact ⟨le_rfl, fun h => by cases h⟩

theorem searched_createScratchFile (root : String) (draw : Nat → String) (s : DisturbedDisk) :
    Searched s.disk ((createScratchFile root draw).runIn s) := by
  have hreserve := searched_reserve root draw maxDraws 0 s
  rw [createScratchFile, DiskProgram.runIn_bind]
  generalize (reserve root draw maxDraws 0).runIn s = outcome at hreserve ⊢
  obtain ⟨answer, after, events⟩ := outcome
  cases answer with
  | error cause => exact ⟨hreserve.le, fun h => by cases h⟩
  | ok path =>
    refine ⟨hreserve.le, fun {p} h => ?_⟩
    obtain rfl : path = p := Except.ok.inj h
    exact hreserve.exists_vacancy rfl

/-- What is done at a path that was vacant takes nothing away that was there then. -/
theorem le_replaceWithDirectory {n : Name} {d : Location} (free : disk.vacancy path = .ok (n, d))
    (h : disk ≤ s.disk) : disk ≤ ((replaceWithDirectory path).runIn s).state.disk := by
  have hremove : (DiskProgram.removeFile path).runIn s =
      ⟨(s.removeFile path).1, (s.removeFile path).2, []⟩ := rfl
  have hle := DisturbedDisk.le_removeFile free h
  rw [replaceWithDirectory, DiskProgram.runIn_bind_of_quiet hremove]
  generalize s.removeFile path = removed at hle ⊢
  obtain ⟨reply, mid⟩ := removed
  cases reply with
  | error cause => exact hle
  | ok u =>
    have hmaking := DiskProgram.le_runIn_of_adds
      ((Storage.only_createDirectory path).mono fun _ => Storage.MakingCall.adds) mid
    refine hle.trans ?_
    dsimp only
    rw [DiskProgram.runIn_bind]
    generalize (Storage.createDirectory path).runIn mid = outcome at hmaking ⊢
    obtain ⟨answer, after, events⟩ := outcome
    cases answer with
    | error cause => exact hmaking
    | ok u => exact hmaking

theorem le_createScratchDirectory (root : String) (draw : Nat → String) (s : DisturbedDisk) :
    s.disk ≤ ((createScratchDirectory root draw).runIn s).state.disk := by
  have hfile := searched_createScratchFile root draw s
  rw [createScratchDirectory, DiskProgram.runIn_bind]
  generalize (createScratchFile root draw).runIn s = outcome at hfile ⊢
  obtain ⟨answer, after, events⟩ := outcome
  cases answer with
  | error e => exact hfile.le
  | ok path =>
    obtain ⟨n, d, free⟩ := hfile.exists_vacancy rfl
    exact le_replaceWithDirectory free hfile.le

end UserStorage.Scratch
