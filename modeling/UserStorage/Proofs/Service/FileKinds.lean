import UserStorage.Proofs.Disk.Nameless
import UserStorage.Proofs.Service.Rights

/-!
# Directories in the answers for files

A request for a file asks what its path grants before it asks for anything else, and never for the
kind of what is there. So a directory that grants reading or writing is answered like a file that is
there, and that is the only way to a handle for a directory: one that grants nothing is denied, and
the handle of a file that is not there leads nowhere. A path that ends in a slash or in a dot leads
to a directory or nowhere, and no file is made at it; so every handle for such a path is either that
of a directory or one for a file that there can never be.

## Main definitions

* `Storage.FileKinds`: what the handles for a file say about the kind of what they lead to

## Main results

* `Desk.fileKinds`: what the handles of a service with a registered configuration lead to
-/

namespace UserStorage

namespace Storage

variable {home name file : String} {disk : Disk} {handle : Handle}

/-! ## Handles for directories -/

/-- What the handles for a file say about the kind of what they lead to. -/
structure FileKinds (file : String) (before : Disk)
    (outcome : Outcome Disk (Except StorageError Handle)) : Prop where
  path_eq {handle : Handle} (h : outcome.answer = .ok handle) : handle.path = file
  /-- A handle leads to a directory exactly where one was there that grants something. -/
  directory_iff : (∃ handle, outcome.answer = .ok handle ∧
      outcome.state.showsDirectory handle.path = true) ↔
    before.showsDirectory file = true ∧ ¬ Mute file before
  /-- Such a directory is answered as a file that is there, and nothing is done. -/
  eq_of_directory (h : before.showsDirectory file = true) (grants : ¬ Mute file before) : outcome =
    ⟨.ok ⟨file, true, before.grants file .read, before.grants file .write⟩, before, []⟩
  /-- The handle of a file that is not there leads nowhere. -/
  absent {handle : Handle} (h : outcome.answer = .ok handle) (absent : handle.isPresent = false) :
    outcome.state.lookup? false handle.path = none
  /-- A handle for a path that ends in no name is that of a directory, or of a file that cannot be
  made. -/
  nameless {handle : Handle} (h : outcome.answer = .ok handle)
    (nameless : Path.endsNameless file = true) :
    if handle.isPresent then outcome.state.showsDirectory handle.path = true
    else ∀ disk : Disk, (disk.makeFile handle.path).1 ≠ .ok ()

/-- A file that grants something is seen. -/
theorem exists_lookup?_of_not_mute (h : ¬ Mute file disk) :
    ∃ e, disk.lookup? true file = some e := by
  rw [← Option.ne_none_iff_exists']
  exact fun unseen => h (mute_of_unseen unseen)

/-- A request for a file that grants something answers with what it grants. -/
theorem privateFileIn_runOn_of_not_mute (h : ¬ Mute (filePath home name) disk) :
    (privateFileIn home name).runOn disk =
      ⟨.ok ⟨filePath home name, true, disk.grants (filePath home name) .read,
        disk.grants (filePath home name) .write⟩, disk, []⟩ := by
  have hprobing := probing_accessibleFile home name disk
  rw [privateFileIn_runOn]
  generalize (accessibleFile home name).runOn disk = outcome at hprobing ⊢
  cases hprobing with
  | usable => rfl
  | ready mute => exact absurd mute h
  | shut mute => exact absurd mute h
  | unmade mute => exact absurd mute h
  | made mute => exact absurd mute h

/-- A probe that answers with a handle although the file grants nothing has seen no entry last. -/
theorem Probing.absent_of_mute {directory : String}
    {outcome : Outcome Disk (Except StorageError Probe)}
    (h : Probing file directory disk outcome) (mute : Mute file disk)
    (ha : outcome.answer = .ok (.accessible handle)) :
    handle = ⟨file, false, false, true⟩ ∧ outcome.state.lookup? false file = none := by
  cases h with
  | usable grants => exact absurd mute grants
  | ready _ _ settling =>
    cases settling with
    | taken => cases ha
    | vacant unseen =>
      cases ha
      exact ⟨rfl, unseen⟩
  | shut => cases ha
  | unmade => cases ha
  | made _ _ _ settling =>
    cases settling with
    | taken => cases ha
    | vacant unseen =>
      cases ha
      exact ⟨rfl, unseen⟩

/-- What the handles for a file lead to. -/
theorem fileKinds_privateFileIn (home name : String) (disk : Disk) :
    FileKinds (filePath home name) disk ((privateFileIn home name).runOn disk) := by
  by_cases mute : Mute (filePath home name) disk
  · have habsent {handle : Handle}
        (h : ((privateFileIn home name).runOn disk).answer = .ok handle) :
        handle = ⟨filePath home name, false, false, true⟩ ∧
          ((privateFileIn home name).runOn disk).state.lookup? false (filePath home name) =
            none := by
      rw [state_privateFileIn_runOn]
      exact (probing_accessibleFile home name disk).absent_of_mute mute
        (Desk.accessible_of_privateFileIn h)
    refine ⟨fun h => ?_, ⟨?_, fun h => absurd mute h.2⟩, fun _ grants => absurd mute grants,
      fun h _ => ?_, fun h nameless => ?_⟩
    · rw [(habsent h).1]
    · rintro ⟨handle, h, shows⟩
      obtain ⟨rfl, unseen⟩ := habsent h
      exact absurd (Disk.lookup?_eq_none_of_false unseen true)
        (Disk.lookup?_ne_none_of_showsDirectory shows)
    · rw [(habsent h).1]
      exact (habsent h).2
    · rw [(habsent h).1]
      exact fun disk => Disk.makeFile_ne_ok_of_endsNameless nameless
  · rw [privateFileIn_runOn_of_not_mute mute]
    refine ⟨fun h => ?_, ⟨?_, fun h => ⟨_, rfl, h.1⟩⟩, fun _ _ => rfl, fun h absent => ?_,
      fun h nameless => ?_⟩
    · rw [← Except.ok.inj h]
    · rintro ⟨handle, h, shows⟩
      obtain rfl := Except.ok.inj h
      exact ⟨shows, mute⟩
    · rw [← Except.ok.inj h] at absent
      cases absent
    · obtain rfl := Except.ok.inj h
      obtain ⟨e, he⟩ := exists_lookup?_of_not_mute mute
      rw [if_pos rfl, Disk.showsDirectory, he]
      exact Disk.isDirectory_of_endsNameless he nameless

end Storage

namespace Desk

variable {desk : Desk} {id : ConfigurationId}

/-- What the handles for files lead to that a service with a registered configuration answers
with. -/
theorem fileKinds (h : desk.slot = some id) (name : String) (disk : Disk) :
    Storage.FileKinds (Storage.filePath (desk.values id).homeRoot name) disk
      ((desk.requestFile name).runOn disk) := by
  have hhome : desk.requestHome = .ok (desk.values id).homeRoot := requestHome_of_slot h
  rw [requestFile, withHome, hhome]
  exact Storage.fileKinds_privateFileIn _ name disk

/-- A disk with a directory under the home root. -/
def diskWithCache : Disk :=
  (Disk.bare.adding "app" [] (.directory ⟨0o755⟩)).adding "cache" ["app"] (.directory ⟨0o755⟩)

/-- A directory asked for as a file is answered like one that is there. -/
theorem fileKinds_of_directory : (configured "." "app").slot = some 0 ∧
    diskWithCache.showsDirectory "./app/cache" = true ∧
    (((configured "." "app").requestFile "cache").runOn diskWithCache).answer =
      .ok ⟨"./app/cache", true, true, true⟩ ∧
    ∃ handle, (((configured "." "app").requestFile "cache").runOn diskWithCache).answer =
        .ok handle ∧
      (((configured "." "app").requestFile "cache").runOn diskWithCache).state.showsDirectory
        handle.path = true := by
  have hslot : (configured "." "app").slot = some 0 := rfl
  have hfile : Storage.filePath ((configured "." "app").values 0).homeRoot "cache" =
      "./app/cache" := by decide +kernel
  have shows : diskWithCache.showsDirectory "./app/cache" = true := by decide +kernel
  have grants : ¬ Storage.Mute "./app/cache" diskWithCache := by
    rintro ⟨hread, -⟩
    exact absurd hread (by decide +kernel)
  have kinds := fileKinds hslot "cache" diskWithCache
  rw [hfile] at kinds
  refine ⟨hslot, shows, ?_, kinds.directory_iff.mpr ⟨shows, grants⟩⟩
  rw [kinds.eq_of_directory shows grants]
  decide +kernel

end Desk

end UserStorage
