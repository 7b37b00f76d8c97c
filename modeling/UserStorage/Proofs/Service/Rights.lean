import UserStorage.Proofs.Service.Additions
import UserStorage.Proofs.Service.HomeRoot
import UserStorage.Proofs.Storage.FreshFile

/-!
# What handles grant

A handle for a file grants something: its flags are the rights of the file that is there, and one
for a file that is not there says that it can be made. That holds on the disk that the request
leaves, as long as the containing directory was seen, and so was asked for its rights, or comes out
of the request as a new directory under a mask that keeps the rights of its owner.

A handle for a directory tells the rights of the directory that its path leads to on that disk,
whatever they are. A directory that was there may grant nothing, and one that had to be made grants
what the mask has left.

## Main definitions

* `Storage.ComesToAllow`: the containing directory of a file will allow making entries in it
* `Storage.FileRights`, `Storage.DirectoryRights`: what a handle says about the disks before and
  after the request
* `Desk.HandleRights`: what the handles of a service say

## Main results

* `Storage.Probing.fileRights`, `Storage.Obtaining.directoryRights`: what the runs on a disk answer
* `Desk.handleRights`: what the handles of a service with a registered configuration say
-/

namespace UserStorage

namespace Storage

variable {home file directory : String} {disk : Disk} {handle : Handle}

/-! ## Files -/

/-- On the disk before a request, the containing directory of a file is seen, or it is one that the
request has to make anew, and the mask keeps its owner's rights. -/
def ComesToAllow (directory file : String) (disk : Disk) : Prop :=
  (disk.lookup? true directory).isSome = true ∨
    directory ≠ "" ∧ ".." ∉ Path.pieces file ∧ disk.MaskKeepsMaking

/-- What a handle for a file says about the disks before and after the request. -/
structure FileRights (directory : String) (before after : Disk) (handle : Handle) : Prop where
  /-- The handle grants something. -/
  some_flag : handle.isReadable = true ∨ handle.isWritable = true
  /-- The flags of a file that is there are its rights. -/
  present : handle.isPresent = true →
    handle.isReadable = after.grants handle.path .read ∧
      handle.isWritable = after.grants handle.path .write
  /-- A file that is not there can only be made. -/
  absent : handle.isPresent = false → handle.isReadable = false
  /-- The directory in which it is to be made allows that. -/
  allows : handle.isPresent = false → ComesToAllow directory handle.path before →
    after.allowsMaking directory = true

/-- A handle of the last look grants what the directory allows. -/
theorem Settling.fileRights {outcome : Outcome Disk (Except StorageError Probe)} {before : Disk}
    (h : Settling file disk outcome) (ha : outcome.answer = .ok (.accessible handle))
    (allows : ComesToAllow directory file before → disk.allowsMaking directory = true) :
    FileRights directory before outcome.state handle := by
  cases h with
  | taken => cases ha
  | vacant =>
    cases ha
    exact ⟨Or.inr rfl, fun h => (Bool.false_ne_true h).elim, fun _ => rfl, fun _ => allows⟩

/-- What a probe answers with grants something on the disk that it leaves. -/
theorem Probing.fileRights {home name : String}
    {outcome : Outcome Disk (Except StorageError Probe)}
    (h : Probing (filePath home name) (containingDirectory home (filePath home name)) disk outcome)
    (ha : outcome.answer = .ok (.accessible handle)) :
    FileRights (containingDirectory home (filePath home name)) disk outcome.state handle := by
  have hforward : ".." ∉ Path.pieces (filePath home name) →
      ".." ∉ Path.pieces (containingDirectory home (filePath home name)) :=
    forward_containingDirectory
  generalize filePath home name = file at h hforward ⊢
  generalize containingDirectory home file = directory at h hforward ⊢
  cases h with
  | usable grants =>
    cases ha
    refine ⟨?_, fun _ => ⟨rfl, rfl⟩, fun absent => ?_, fun absent => ?_⟩
    · by_contra hnone
      rw [not_or, Bool.not_eq_true, Bool.not_eq_true] at hnone
      exact grants hnone
    · cases absent
    · cases absent
  | ready mute allows settling => exact settling.fileRights ha fun _ => allows
  | shut => cases ha
  | unmade => cases ha
  | made mute unseen making settling =>
    refine settling.fileRights ha fun hcomes => ?_
    -- the directory was not seen, so it is new and has the rights that the mask has left
    rcases hcomes with hseen | ⟨hne, hdots, hmask⟩
    · simp [unseen] at hseen
    · have hnew := making.leadsToNew rfl hne (hforward hdots) unseen
      exact (hnew.allowsMaking_iff making.le).mpr hmask

/-! ## Directories -/

/-- What a handle for a directory says about the disks before and after the request. -/
structure DirectoryRights (before after : Disk) (handle : Handle) : Prop where
  /-- The path leads to a directory. -/
  shows : handle.isPresent = true ∧ after.showsDirectory handle.path = true
  /-- The flags are the rights of the directory. -/
  flags : handle.isReadable = after.grants handle.path .read ∧
    handle.isWritable = after.grants handle.path .writeAndSearch
  /-- A directory that had to be made has the rights that the mask leaves. -/
  made : before.lookup? true handle.path = none → ".." ∉ Path.pieces handle.path →
    handle.isReadable = !before.umask.ownerMayRead ∧
      handle.isWritable = (!before.umask.ownerMayWrite && !before.umask.ownerMaySearch)

/-- The handle of a directory that a disk shows. -/
theorem directoryRights_handleAt {before after : Disk} (h : after.showsDirectory directory = true)
    (made : before.lookup? true directory = none → ".." ∉ Path.pieces directory →
      Disk.LeadsToNew before after directory) (hmask : before.umask = after.umask) :
    DirectoryRights before after (handleAt directory after) where
  shows := ⟨h, h⟩
  flags := ⟨rfl, Disk.allowsMaking_eq_grants h⟩
  made unseen hdots := by
    have hnew := made unseen hdots
    rw [hmask]
    exact ⟨hnew.grants_read, hnew.allowsMaking⟩

/-- What a request for a directory answers with tells the rights of the directory. -/
theorem Obtaining.directoryRights {outcome : Outcome Disk (Except StorageError Handle)}
    (h : Obtaining directory disk outcome) (hne : directory ≠ "")
    (ha : outcome.answer = .ok handle) : DirectoryRights disk outcome.state handle := by
  cases h with
  | found dir =>
    cases ha
    exact directoryRights_handleAt dir
      (fun unseen => absurd unseen (Disk.lookup?_ne_none_of_showsDirectory dir)) rfl
  | conflict => cases ha
  | unmade => cases ha
  | made unseen making =>
    cases ha
    exact directoryRights_handleAt (making.showsDirectory_of_ok hne)
      (fun _ hdots => making.leadsToNew rfl hne hdots unseen) making.le.2.2

end Storage

/-! ## Services -/

namespace Desk

variable {desk : Desk} {id : ConfigurationId}

/-- What the handles of a service say that has this home root. -/
structure HandleRights (desk : Desk) (home : String) : Prop where
  file {disk : Disk} {name : String} {handle : Handle}
    (h : ((desk.requestFile name).runOn disk).answer = .ok handle) :
    Storage.FileRights (Storage.containingDirectory home handle.path) disk
      ((desk.requestFile name).runOn disk).state handle
  directory {disk : Disk} {name : String} {handle : Handle}
    (h : ((desk.requestDirectory name).runOn disk).answer = .ok handle) :
    Storage.DirectoryRights disk ((desk.requestDirectory name).runOn disk).state handle
  segments {disk : Disk} {parts : List String} {handle : Handle}
    (h : ((desk.requestSegments parts).runOn disk).answer = .ok handle) :
    Storage.DirectoryRights disk ((desk.requestSegments parts).runOn disk).state handle

/-- A request for a file is answered with a handle when the probe is. -/
theorem accessible_of_privateFileIn {home name : String} {disk : Disk} {handle : Handle}
    (h : ((privateFileIn home name).runOn disk).answer = .ok handle) :
    ((Storage.accessibleFile home name).runOn disk).answer = .ok (.accessible handle) := by
  rw [Storage.privateFileIn_runOn] at h
  generalize (Storage.accessibleFile home name).runOn disk = outcome at h ⊢
  obtain ⟨answer, after, events⟩ := outcome
  rcases answer with e | other | path
  · cases h
  · obtain rfl : other = handle := Except.ok.inj h
    rfl
  · cases h

/-- What the handles of a service with a registered configuration say. -/
theorem handleRights (h : desk.slot = some id) :
    desk.HandleRights (desk.values id).homeRoot := by
  have hhome : desk.requestHome = .ok (desk.values id).homeRoot := requestHome_of_slot h
  generalize (desk.values id).homeRoot = home at hhome ⊢
  have hdirectory {disk : Disk} {name : String} {handle : Handle}
      (ha : ((desk.requestDirectory name).runOn disk).answer = .ok handle) :
      Storage.DirectoryRights disk ((desk.requestDirectory name).runOn disk).state handle := by
    rw [requestDirectory, withHome, hhome] at ha ⊢
    exact (Storage.obtaining_privateDirectory home name disk).directoryRights
      (Path.withTrailingSeparator_append_ne_empty home name) ha
  refine ⟨fun {disk name handle} ha => ?_, hdirectory, hdirectory⟩
  rw [requestFile, withHome, hhome] at ha ⊢
  have hpath := Storage.shownPath?_privateFileIn (p := handle.path) (by rw [ha]; rfl)
  rw [Storage.state_privateFileIn_runOn, hpath]
  exact (Storage.probing_accessibleFile home name disk).fileRights (accessible_of_privateFileIn ha)

/-- A disk with a home root in which one directory grants nothing. -/
def diskWithShutDirectory : Disk :=
  (Disk.bare.adding "app" [] (.directory ⟨0o755⟩)).adding "shut" ["app"] (.directory ⟨0o000⟩)

/-- A file that can be made where nothing is yet, and the directory that had to be made for it. -/
theorem handleRights_under_missing_home : (configured "." "app").slot = some 0 ∧
    (((configured "." "app").requestFile "x").runOn Disk.bare).answer =
      .ok ⟨"./app/x", false, false, true⟩ ∧
    Storage.ComesToAllow "./app" "./app/x" Disk.bare ∧
    (((configured "." "app").requestFile "x").runOn Disk.bare).state.allowsMaking "./app" =
      true := by
  have hslot : (configured "." "app").slot = some 0 := rfl
  have h : (((configured "." "app").requestFile "x").runOn Disk.bare).answer =
      .ok ⟨"./app/x", false, false, true⟩ := by decide +kernel
  have hdirectory : Storage.containingDirectory ((configured "." "app").values 0).homeRoot
      "./app/x" = "./app" := by decide +kernel
  have hcomes : Storage.ComesToAllow "./app" "./app/x" Disk.bare :=
    Or.inr ⟨by decide, by decide +kernel, by decide +kernel⟩
  have hallows := ((handleRights hslot).file h).allows rfl
  rw [hdirectory] at hallows
  exact ⟨hslot, h, hcomes, hallows hcomes⟩

/-- A directory that was there is answered with whatever it grants, here nothing; and a file is said
to be one that can be made in a directory that had to be made for it, whatever the mask has left of
the rights of that, here nothing too. -/
theorem handles_without_rights :
    (((configured "." "app").requestDirectory "shut").runOn diskWithShutDirectory).answer =
        .ok ⟨"./app/shut", true, false, false⟩ ∧
      (((configured "." "app").requestFile "x").runOn { Disk.bare with umask := ⟨0o300⟩ }).answer =
        .ok ⟨"./app/x", false, false, true⟩ ∧
      (((configured "." "app").requestFile "x").runOn
        { Disk.bare with umask := ⟨0o300⟩ }).state.grants "./app" .writeAndSearch = false := by
  decide +kernel

end Desk

end UserStorage
