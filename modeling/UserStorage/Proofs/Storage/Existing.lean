import UserStorage.Proofs.Disk.Holding
import UserStorage.Proofs.Service.Lasting
import UserStorage.Proofs.Storage.Conflict
import UserStorage.Proofs.Storage.Repetition

/-!
# Directories that are there and cannot be found

A request makes an attempt at the directory that it needs exactly where it does not see it. A
directory that is there is not seen when the caller may not search a directory on the way. So the
request then tries to make a directory that exists, which fails for the same want of a right, and
answers that the directory could not be made. Where every directory on the way may be searched no
directory that is there is taken for a missing one.

## Main definitions

* `DiskProgram.Attempts`: the program, run alone, tries to make a directory at a path
* `Storage.MissesIfRefused`: what a request answers that needs a directory which is there

## Main results

* `Storage.attempts_privateDirectory_iff`, `Storage.attempts_accessibleFile_iff`: when a request
  tries to make its directory
* `Storage.missesIfRefused`: a directory that is there is missed exactly where the caller is refused
-/

namespace UserStorage

namespace DiskProgram

variable {α β : Type} {path : String} {disk after : Disk}

/-- The calls that a program makes when it is run alone on a disk. -/
def callsOn (p : DiskProgram α) (disk : Disk) : List DiskCall :=
  Program.calls (S := diskCalls) Disk.perform p disk

/-- Run alone on the disk, the program tries to make a directory at the path. -/
def Attempts (p : DiskProgram α) (disk : Disk) (path : String) : Prop :=
  DiskCall.makeDirectory path ∈ p.callsOn disk

theorem attempts_bind_iff {p : DiskProgram α} {f : α → DiskProgram β} :
    (p >>= f).Attempts disk path ↔
      p.Attempts disk path ∨
        (f (p.runOn disk).answer).Attempts (p.runOn disk).state path := by
  have h : (p >>= f).callsOn disk =
      p.callsOn disk ++ (f (p.runOn disk).answer).callsOn (p.runOn disk).state :=
    Program.calls_bind p f disk
  rw [Attempts, h]
  exact List.mem_append

/-- A program that only looks tries to make nothing. -/
theorem not_attempts_of_looks {p : DiskProgram α}
    (h : Program.Only (S := diskCalls) (Storage.LooksOrMakes fun _ => False) p) :
    ¬ p.Attempts disk path :=
  fun hmem => h.of_mem_calls hmem

/-- Behind a look, what the rest of the program tries to make depends on its answer. -/
theorem attempts_look_bind_iff {p : DiskProgram α} {f : α → DiskProgram β} {a : α}
    (h : Program.Only (S := diskCalls) (Storage.LooksOrMakes fun _ => False) p)
    (hrun : p.runOn disk = ⟨a, disk, []⟩) :
    (p >>= f).Attempts disk path ↔ (f a).Attempts disk path := by
  rw [attempts_bind_iff, hrun, or_iff_right (not_attempts_of_looks h)]

theorem attempts_report_bind_iff {e : Event} {f : Unit → DiskProgram β} :
    (Program.report e >>= f : DiskProgram β).Attempts disk path ↔ (f ()).Attempts disk path :=
  Iff.rfl

end DiskProgram

namespace Storage

open DiskProgram

variable {home name path directory : String} {disk : Disk}

/-! ## Attempts -/

/-- Making a directory begins with an attempt at the directory itself. -/
theorem attempts_createDirectory (hne : path ≠ "") (disk : Disk) :
    (createDirectory path).Attempts disk path := by
  have hask : (DiskProgram.makeDirectory path).Attempts disk path := List.mem_singleton_self _
  have hwithin (ancestors : List String) : (makeWithin path ancestors).Attempts disk path := by
    cases ancestors with
    | nil =>
      rw [makeWithin, if_neg hne]
      exact attempts_bind_iff.mpr (Or.inl hask)
    | cons parent others =>
      rw [makeWithin, if_neg hne]
      exact attempts_bind_iff.mpr (Or.inl hask)
  exact attempts_bind_iff.mpr (Or.inl (hwithin (Path.ancestors path)))

/-- A request tries to make its directory exactly where nothing is seen. -/
theorem attempts_privateDirectory_iff (home name : String) (disk : Disk) :
    (privateDirectory home name).Attempts disk (directoryPath home name) ↔
      disk.lookup? true (directoryPath home name) = none := by
  have hne : directoryPath home name ≠ "" := Path.withTrailingSeparator_append_ne_empty home name
  unfold privateDirectory
  generalize directoryPath home name = directory at hne ⊢
  simp only
  rw [attempts_look_bind_iff (only_isSeen _ directory) (isSeen_runOn directory disk)]
  cases hseen : disk.lookup? true directory with
  | some e =>
    rw [Option.isSome_some, if_pos rfl,
      attempts_look_bind_iff (only_isDirectory _ directory) (isDirectory_runOn directory disk)]
    refine iff_of_false (not_attempts_of_looks ?_) (by simp)
    split_ifs
    · exact (only_measure _ directory).bind fun handle => .done _
    · exact .note _ (.done _)
  | none =>
    rw [Option.isSome_none, if_neg (by decide)]
    exact iff_of_true (attempts_bind_iff.mpr (Or.inl (attempts_createDirectory hne disk))) rfl

/-- A probe tries to make the containing directory exactly where the file grants nothing and the
directory is not seen. -/
theorem attempts_accessibleFile_iff (disk : Disk)
    (hne : containingDirectory home (filePath home name) ≠ "") :
    (accessibleFile home name).Attempts disk (containingDirectory home (filePath home name)) ↔
      Mute (filePath home name) disk ∧
        disk.lookup? true (containingDirectory home (filePath home name)) = none := by
  unfold accessibleFile
  generalize filePath home name = file at hne ⊢
  generalize hdirectory : containingDirectory home file = directory at hne ⊢
  simp only [hdirectory]
  have hread : (DiskProgram.grants file .read).runOn disk = ⟨disk.grants file .read, disk, []⟩ :=
    rfl
  have hwrite : (DiskProgram.grants file .write).runOn disk =
      ⟨disk.grants file .write, disk, []⟩ := rfl
  rw [attempts_look_bind_iff (only_grants _ file .read) hread,
    attempts_look_bind_iff (only_grants _ file .write) hwrite]
  by_cases mute : Mute file disk
  · rw [mute.1, mute.2, if_neg (by decide),
      attempts_look_bind_iff (only_isSeen _ directory) (isSeen_runOn directory disk)]
    cases hseen : disk.lookup? true directory with
    | some e =>
      rw [Option.isSome_some, if_pos rfl]
      refine iff_of_false (not_attempts_of_looks ?_) (by simp)
      refine (only_grantsMaking _ directory).bind fun may => ?_
      split_ifs
      · exact only_vacantOrDenied _ file
      · exact .note _ (.done _)
    | none =>
      rw [Option.isSome_none, if_neg (by decide), attempts_report_bind_iff]
      exact iff_of_true (attempts_bind_iff.mpr (Or.inl (attempts_createDirectory hne disk)))
        ⟨mute, rfl⟩
  · have hany : (disk.grants file .read || disk.grants file .write) = true := by
      by_contra hnone
      exact mute (by simpa [Mute] using hnone)
    rw [if_pos hany]
    exact iff_of_false (not_attempts_of_looks (.done _)) fun h => mute h.1

/-! ## Directories that are there -/

/-- What a request answers that needs a directory which is there. -/
structure MissesIfRefused {α : Type} (directory : String) (disk : Disk)
    (request : DiskProgram (Except StorageError α)) : Prop where
  unchanged : (request.runOn disk).state = disk
  /-- The directory is said to be one that could not be made exactly where the caller is refused on
  the way to it. -/
  failed_iff :
    (∃ cause, (request.runOn disk).answer = .error (.directoryNotCreated directory cause)) ↔
      disk.Refuses directory
  /-- There, and only there, the request has tried to make it. -/
  attempts_iff : request.Attempts disk directory ↔ disk.Refuses directory
  /-- The cause is the missing right, or a link in the directory's place. -/
  cause_cases {cause : IoError}
    (h : (request.runOn disk).answer = .error (.directoryNotCreated directory cause)) :
    cause = .system .accessDenied ∨
      cause = .system .alreadyExists ∧ ∃ n d target,
        disk.place directory = .ok (some (n, d)) ∧ disk.tree.get? (n :: d) = some (.link target)

/-- Where the caller is refused on the way to a directory that is there, making it fails at the
first attempt. -/
theorem Making.eq_of_refuses {ancestors : List String} {answer : Except IoError Unit} {after : Disk}
    (h : Making directory ancestors disk answer after) (holds : disk.Holds directory)
    (refuses : disk.Refuses directory) : ∃ cause, answer = .error cause ∧ after = disk ∧
      (cause = .system .accessDenied ∨
        cause = .system .alreadyExists ∧ ∃ n d target, disk.place directory = .ok (some (n, d)) ∧
          disk.tree.get? (n :: d) = some (.link target)) := by
  have hne : directory ≠ "" := holds.exists_trek.1.ne_empty
  have hno := Disk.showsDirectory_of_unseen refuses.unseen
  rcases holds.vacancy_cases refuses with taken | ⟨taken, link⟩
  · obtain ⟨hanswer, hafter⟩ := h.eq_of_refused hne taken (by decide) hno
    exact ⟨_, hanswer, hafter, Or.inl rfl⟩
  · obtain ⟨hanswer, hafter⟩ := h.eq_of_refused hne taken (by decide) hno
    exact ⟨_, hanswer, hafter, Or.inr ⟨rfl, link⟩⟩

namespace MissesIfRefused

variable {α : Type} {request : DiskProgram (Except StorageError α)}

/-- A request that finds its directory. -/
theorem of_found (found : ¬ disk.Refuses directory) (hstate : (request.runOn disk).state = disk)
    (hanswer : ∀ cause, (request.runOn disk).answer ≠ .error (.directoryNotCreated directory cause))
    (hattempts : ¬ request.Attempts disk directory) : MissesIfRefused directory disk request where
  unchanged := hstate
  failed_iff := iff_of_false (fun ⟨cause, h⟩ => hanswer cause h) found
  attempts_iff := iff_of_false hattempts found
  cause_cases h := absurd h (hanswer _)

/-- A request that is refused, and fails as making its directory does. -/
theorem of_refuses {after : Disk} {cause : IoError} (holds : disk.Holds directory)
    (refuses : disk.Refuses directory)
    (making : Making directory (Path.ancestors directory) disk (.error cause) after)
    (hstate : (request.runOn disk).state = after)
    (hanswer : (request.runOn disk).answer = .error (.directoryNotCreated directory cause))
    (hattempts : request.Attempts disk directory) : MissesIfRefused directory disk request := by
  obtain ⟨cause', hcause, rfl, hcases⟩ := making.eq_of_refuses holds refuses
  obtain rfl := Except.error.inj hcause
  refine ⟨hstate, iff_of_true ⟨cause, hanswer⟩ refuses, iff_of_true hattempts refuses, fun h => ?_⟩
  rw [hanswer] at h
  cases h
  exact hcases

end MissesIfRefused

theorem missesIfRefused_privateDirectory (home name : String) {disk : Disk}
    (holds : disk.Holds (directoryPath home name)) :
    MissesIfRefused (directoryPath home name) disk (privateDirectory home name) := by
  have hattempts := attempts_privateDirectory_iff home name disk
  have hobtaining := obtaining_privateDirectory home name disk
  have hshows := holds.showsDirectory_iff
  generalize directoryPath home name = directory at holds hattempts hobtaining hshows ⊢
  by_cases refuses : disk.Refuses directory
  · have unseen := refuses.unseen
    generalize hrun : (privateDirectory home name).runOn disk = outcome at hobtaining
    cases hobtaining with
    | found dir => exact absurd refuses (hshows.mp dir)
    | conflict seen => simp [unseen] at seen
    | unmade _ making =>
      exact .of_refuses holds refuses making (by rw [hrun]) (by rw [hrun]) (hattempts.mpr unseen)
    | made _ making =>
      obtain ⟨cause, hanswer, -⟩ := making.eq_of_refuses holds refuses
      cases hanswer
  · have dir := hshows.mpr refuses
    have hrun := hobtaining.eq_of_showsDirectory dir
    refine .of_found refuses (by rw [hrun]) (fun cause h => ?_) fun h => ?_
    · rw [hrun] at h
      cases h
    · exact Disk.lookup?_ne_none_of_showsDirectory dir (hattempts.mp h)

theorem missesIfRefused_accessibleFile (home name : String) {disk : Disk}
    (holds : disk.Holds (containingDirectory home (filePath home name))) :
    MissesIfRefused (containingDirectory home (filePath home name)) disk
      (accessibleFile home name) := by
  have hne := holds.exists_trek.1.ne_empty
  have hattempts := attempts_accessibleFile_iff disk hne
  have hprobing := probing_accessibleFile home name disk
  have hhidden : disk.showsDirectory (containingDirectory home (filePath home name)) = false →
      containingDirectory home (filePath home name) ≠ "" → ∀ followLast,
        disk.lookup? followLast (filePath home name) = none :=
    hidden_of_containingDirectory
  have hshows := holds.showsDirectory_iff
  generalize filePath home name = file at holds hne hattempts hprobing hhidden hshows ⊢
  generalize containingDirectory home file = directory at *
  generalize hrun : (accessibleFile home name).runOn disk = outcome at hprobing
  by_cases refuses : disk.Refuses directory
  · have unseen := refuses.unseen
    have mute : Mute file disk :=
      mute_of_unseen (hhidden (Disk.showsDirectory_of_unseen unseen) hne true)
    cases hprobing with
    | usable grants => exact absurd mute grants
    | ready _ allows =>
      rw [Disk.allowsMaking, Disk.showsDirectory_of_unseen unseen] at allows
      cases allows
    | shut _ seen => simp [unseen] at seen
    | unmade _ _ making =>
      exact .of_refuses holds refuses making (by rw [hrun]) (by rw [hrun])
        (hattempts.mpr ⟨mute, unseen⟩)
    | made _ _ making =>
      obtain ⟨cause, hanswer, -⟩ := making.eq_of_refuses holds refuses
      cases hanswer
  · have hseen := Disk.lookup?_ne_none_of_showsDirectory (hshows.mpr refuses)
    have hfound : outcome.state = disk ∧
        ∀ cause, outcome.answer ≠ .error (.directoryNotCreated directory cause) := by
      cases hprobing with
      | usable => exact ⟨rfl, fun cause h => by cases h⟩
      | ready _ _ settling =>
        refine ⟨settling.state_eq, fun cause h => ?_⟩
        cases settling <;> cases h
      | shut => exact ⟨rfl, fun cause h => by cases h⟩
      | unmade _ unseen => exact absurd unseen hseen
      | made _ unseen => exact absurd unseen hseen
    rw [← hrun] at hfound
    exact .of_found refuses hfound.1 hfound.2 fun h => hseen (hattempts.mp h).2

/-- A directory that is there, be it the one that is to contain a file or one that is asked for, is
said to be one that could not be made, after an attempt to make it, exactly where the caller may not
search a directory on the way to it. Nothing is changed in either case. -/
theorem missesIfRefused (home name : String) (disk : Disk) :
    (disk.Holds (containingDirectory home (filePath home name)) →
      MissesIfRefused (containingDirectory home (filePath home name)) disk
        (accessibleFile home name)) ∧
      (disk.Holds (directoryPath home name) →
        MissesIfRefused (directoryPath home name) disk (privateDirectory home name)) :=
  ⟨missesIfRefused_accessibleFile home name, missesIfRefused_privateDirectory home name⟩

/-- A disk with a directory behind one that may not be searched. -/
def diskBehindShut : Disk :=
  (Disk.bare.adding "a" [] (.directory ⟨0o600⟩)).adding "app" ["a"] (.directory ⟨0o755⟩)

theorem holds_behind_shut : diskBehindShut.Holds "a/app" :=
  ⟨by decide +kernel, ["app", "a"], by decide +kernel, by decide +kernel⟩

/-- A directory behind one that may not be searched is said to be one that could not be made, when
it is asked for and when it is to contain a file. -/
theorem missed_behind_shut : diskBehindShut.Holds "a/app" ∧
    (∃ cause, ((accessibleFile "a/app" "f").runOn diskBehindShut).answer =
      .error (.directoryNotCreated "a/app" cause)) ∧
    ∃ cause, ((privateDirectory "a" "app").runOn diskBehindShut).answer =
      .error (.directoryNotCreated "a/app" cause) := by
  have hfile : containingDirectory "a/app" (filePath "a/app" "f") = "a/app" := by decide +kernel
  have hdirectory : directoryPath "a" "app" = "a/app" := by decide +kernel
  have refuses : diskBehindShut.Refuses "a/app" := by
    rw [Disk.Refuses]
    decide +kernel
  have file := (missesIfRefused "a/app" "f" diskBehindShut).1 (hfile.symm ▸ holds_behind_shut)
  have directory :=
    (missesIfRefused "a" "app" diskBehindShut).2 (hdirectory.symm ▸ holds_behind_shut)
  rw [hfile] at file
  rw [hdirectory] at directory
  exact ⟨holds_behind_shut, file.failed_iff.mpr refuses, directory.failed_iff.mpr refuses⟩

end Storage

end UserStorage
