import UserStorage.Proofs.Storage.Probing
import UserStorage.Service.Requests

/-!
# What a denial says

A probe denies a file that granted nothing when it was asked for its rights. On the disk that the
probe leaves, an entry is at the path, or what stands in the place of the containing directory is
no directory in which entries can be made. A path that goes up nowhere still grants nothing there.
A path with `..` may lead elsewhere once its containing directory is made, and its rights are not
asked for again.

## Main definitions

* `Storage.Denial`: what a denial says about the disks before and after

## Main results

* `Storage.privateFileIn_runOn`: a request for a file by the run of its probe
* `Storage.denial_of_denied`: every denial says this, and the request fails for want of rights
-/

namespace UserStorage.Storage

variable {home name file p : String} {disk after : Disk}

/-- What a denial of a file under a home says about the disks before and after the probe. -/
structure Denial (home file : String) (before after : Disk) : Prop where
  /-- The file granted nothing when it was asked. -/
  mute : Mute file before
  /-- An entry is in the way, or no entry can be made. -/
  cause : (after.lookup? false file).isSome = true ∨
    (after.lookup? true (containingDirectory home file)).isSome = true ∧
      after.allowsMaking (containingDirectory home file) = false
  /-- The file grants nothing still, unless its path goes up and something was made. -/
  still : ".." ∉ Path.pieces file ∨ after = before → Mute file after

/-- A denial comes from a last look that found an entry, in a directory that was there or was
made, or from what is in the directory's place. -/
theorem Probing.denied_cases {directory : String}
    {outcome : Outcome Disk (Except StorageError Probe)}
    (h : Probing file directory disk outcome) (hd : outcome.answer = .ok (.denied p)) :
    p = file ∧ Mute file disk ∧
      ((outcome.state = disk ∧ ((outcome.state.lookup? false file).isSome = true ∨
          (outcome.state.lookup? true directory).isSome = true ∧
            outcome.state.allowsMaking directory = false)) ∨
        (disk.lookup? true directory = none ∧
          Making directory (Path.ancestors directory) disk (.ok ()) outcome.state ∧
          (outcome.state.lookup? false file).isSome = true)) := by
  cases h with
  | usable => cases hd
  | ready mute _ settling =>
    cases settling with
    | taken seen =>
      cases hd
      exact ⟨rfl, mute, Or.inl ⟨rfl, Or.inl seen⟩⟩
    | vacant => cases hd
  | shut mute seen forbids =>
    cases hd
    exact ⟨rfl, mute, Or.inl ⟨rfl, Or.inr ⟨seen, forbids⟩⟩⟩
  | unmade => cases hd
  | made mute unseen making settling =>
    cases settling with
    | taken seen =>
      cases hd
      exact ⟨rfl, mute, Or.inr ⟨unseen, making, seen⟩⟩
    | vacant => cases hd

/-- Nothing is denied in a directory that had to be made, unless the path goes up. -/
theorem mute_of_made (mute : Mute (filePath home name) disk)
    (unseen : disk.lookup? true (containingDirectory home (filePath home name)) = none)
    (making : Making (containingDirectory home (filePath home name))
      (Path.ancestors (containingDirectory home (filePath home name))) disk (.ok ()) after)
    (h : ".." ∉ Path.pieces (filePath home name) ∨ after = disk) :
    Mute (filePath home name) after := by
  rcases h with hdots | rfl
  · -- either nothing was made after all, or the file is behind a directory that holds nothing
    rcases eq_or_unseen_of_making unseen making hdots with rfl | hnone
    · exact mute
    · exact mute_of_unseen (hnone true)
  · exact mute

/-- A request for a file answers, leaves and reports what the probe does; a denial it reports once
more and turns into an error. -/
theorem privateFileIn_runOn (home name : String) (disk : Disk) :
    (privateFileIn home name).runOn disk =
      match (accessibleFile home name).runOn disk with
      | ⟨.error e, after, events⟩ => ⟨.error e, after, events⟩
      | ⟨.ok (.accessible handle), after, events⟩ => ⟨.ok handle, after, events⟩
      | ⟨.ok (.denied path), after, events⟩ =>
        ⟨.error (.insufficientRights path), after, events ++ [.fileDenied path]⟩ := by
  rw [privateFileIn, DiskProgram.runOn_bind]
  generalize (accessibleFile home name).runOn disk = outcome
  obtain ⟨answer, after, events⟩ := outcome
  rcases answer with e | handle | path
  · exact congrArg (Outcome.mk _ _) (List.append_nil events)
  · exact congrArg (Outcome.mk _ _) (List.append_nil events)
  · rfl

/-- A request for a file that is denied fails for want of rights, and the disk stays as it is. -/
theorem privateFileIn_of_denied
    (h : ((accessibleFile home name).runOn disk).answer = .ok (.denied p)) :
    ((privateFileIn home name).runOn disk).answer = .error (.insufficientRights p) ∧
      ((privateFileIn home name).runOn disk).state =
        ((accessibleFile home name).runOn disk).state := by
  rw [privateFileIn_runOn]
  generalize (accessibleFile home name).runOn disk = outcome at h ⊢
  obtain ⟨answer, after, events⟩ := outcome
  subst h
  exact ⟨rfl, rfl⟩

/-- A probe denies the path that it was asked for, with the cause that a denial gives, and a
request for the file then fails for want of rights and leaves the same disk. -/
theorem denial_of_denied (h : ((accessibleFile home name).runOn disk).answer = .ok (.denied p)) :
    p = filePath home name ∧ Denial home p disk ((accessibleFile home name).runOn disk).state ∧
      ((privateFileIn home name).runOn disk).answer = .error (.insufficientRights p) ∧
      ((privateFileIn home name).runOn disk).state =
        ((accessibleFile home name).runOn disk).state := by
  obtain ⟨rfl, mute, hcases⟩ := (probing_accessibleFile home name disk).denied_cases h
  refine ⟨rfl, ?_, privateFileIn_of_denied h⟩
  rcases hcases with ⟨hsame, hcause⟩ | ⟨unseen, making, hseen⟩
  · refine ⟨mute, hcause, fun _ => ?_⟩
    rw [hsame]
    exact mute
  · exact ⟨mute, Or.inl hseen, mute_of_made mute unseen making⟩

/-- A home that must not be written denies what it does not hold. -/
theorem denial_in_shut_home :
    ∃ disk : Disk, ((accessibleFile "shut" "x").runOn disk).answer = .ok (.denied "shut/x") ∧
      Denial "shut" "shut/x" disk ((accessibleFile "shut" "x").runOn disk).state := by
  have h : ((accessibleFile "shut" "x").runOn
      (Disk.bare.adding "shut" [] (.directory ⟨0o555⟩))).answer = .ok (.denied "shut/x") := by
    decide +kernel
  exact ⟨_, h, (denial_of_denied h).2.1⟩

/-- A home that goes up from a missing directory, and a home that is a file: the first denial is
decided by rights that were asked for before the missing directory was made, the second has no
directory behind it. -/
theorem denied_yet_granted_or_homeless :
    ∃ disk : Disk,
      ((accessibleFile "a/../b" "f").runOn disk).answer = .ok (.denied "a/../b/f") ∧
      (((accessibleFile "a/../b" "f").runOn disk).state.grants "a/../b/f" .read = true ∧
        ((accessibleFile "a/../b" "f").runOn disk).state.grants "a/../b/f" .write = true) ∧
      ((accessibleFile "b/f" "x").runOn disk).answer = .ok (.denied "b/f/x") ∧
      (((accessibleFile "b/f" "x").runOn disk).state.lookup? false "b/f/x").isSome = false ∧
      ((accessibleFile "b/f" "x").runOn disk).state.showsDirectory "b/f" = false := by
  refine ⟨(Disk.bare.adding "b" [] (.directory ⟨0o755⟩)).adding "f" ["b"] (.file ⟨0o600⟩ .empty),
    ?_⟩
  decide +kernel

end UserStorage.Storage
