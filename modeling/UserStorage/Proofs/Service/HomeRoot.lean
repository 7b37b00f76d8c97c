import Mathlib.Data.List.TakeWhile
import UserStorage.Proofs.Storage.Denial
import UserStorage.Proofs.Storage.Obtaining

/-!
# The home root in the paths of answers

Files and directories are looked for under one home root, which the registered configuration gives.
A directory's path begins with the root as it is, a file's path with the root without the blanks in
front of it. The two are the same exactly when the configured location begins with no blank; then a
file whose name begins with a directory's name lies in that directory.

## Main definitions

* `Text.trimStart`, `Text.BeginsBlank`: a string without the blanks in front of it
* `Storage.shownPath?`: the path in an answer that is about the thing asked for
* `Desk.RootedPaths`: how the paths in answers are made

## Main results

* `Desk.rootedPaths`: the paths in the answers of a service with a registered configuration
-/

namespace UserStorage

/-! ## Blanks in front of a string -/

namespace Text

/-- A string without the blanks in front of it. -/
def trimStart (s : String) : String := String.ofList (s.toList.dropWhile isBlank)

/-- The string begins with a blank. -/
def BeginsBlank (s : String) : Prop := s.toList.head?.any isBlank = true

instance (s : String) : Decidable (BeginsBlank s) := inferInstanceAs (Decidable (_ = _))

theorem dropWhile_isBlank_append_cons (cs : List Char) {c : Char} (h : isBlank c = false)
    (ds : List Char) : (cs ++ c :: ds).dropWhile isBlank = cs.dropWhile isBlank ++ c :: ds := by
  rw [List.dropWhile_append, List.dropWhile_cons_of_neg (by simp [h])]
  split_ifs with hempty
  · rw [List.isEmpty_iff.mp hempty, List.nil_append]
  · rfl

/-- The blanks in front of a slash go, whatever stands behind it. -/
theorem trimStart_append_slash (s t : String) :
    trimStart (s ++ "/" ++ t) = trimStart s ++ "/" ++ t := by
  apply String.toList_inj.mp
  have h := dropWhile_isBlank_append_cons s.toList (c := '/') (by decide) t.toList
  simpa [trimStart] using h

/-- A string that ends with a slash loses only blanks in front of it. -/
theorem trim_append_slash (s : String) : trim (s ++ "/") = trimStart s ++ "/" := by
  apply String.toList_inj.mp
  have h := dropWhile_isBlank_append_cons s.toList (c := '/') (by decide) []
  simp [trim, trimChars, trimStart, h, show isBlank '/' = false by decide]

theorem trimStart_eq_self_iff (s : String) : trimStart s = s ↔ ¬ BeginsBlank s := by
  have hlist : trimStart s = s ↔ s.toList.dropWhile isBlank = s.toList := by
    rw [← String.toList_inj, trimStart, String.toList_ofList]
  rw [hlist, List.dropWhile_eq_self_iff, BeginsBlank]
  cases s.toList <;> simp

theorem beginsBlank_append_slash (s t : String) : BeginsBlank (s ++ "/" ++ t) ↔ BeginsBlank s := by
  rw [BeginsBlank, BeginsBlank, String.toList_append, String.toList_append]
  cases s.toList with
  | nil => simp [show isBlank '/' = false by decide]
  | cons c cs => simp

end Text

namespace Path

theorem withTrailingSeparator_append_slash (s : String) :
    withTrailingSeparator (s ++ "/") = s ++ "/" := by
  rw [withTrailingSeparator, if_pos (by simp)]

/-- A home root ends with a slash and begins as its location does. -/
theorem exists_composeHome_eq (location name : String) :
    ∃ s, composeHome location name = s ++ "/" ∧
      (Text.BeginsBlank s ↔ Text.BeginsBlank location) := by
  obtain ⟨s, hs, hlocation⟩ := withTrailingSeparator_eq location
  obtain ⟨t, ht, -⟩ := withTrailingSeparator_eq name
  refine ⟨s ++ "/" ++ t, ?_, ?_⟩
  · rw [composeHome, hs, ht]
    simp only [String.append_assoc]
  · rw [Text.beginsBlank_append_slash]
    rcases hlocation with rfl | rfl
    · rfl
    · have h := Text.beginsBlank_append_slash s ""
      rw [String.append_empty] at h
      exact h.symm

end Path

namespace Storage

/-- The path in an answer that is about the thing asked for: that of a handle, of missing rights or
of a conflict. -/
def shownPath? : Except StorageError Handle → Option String
  | .ok handle => some handle.path
  | .error (.insufficientRights path) | .error (.pathConflict path) => some path
  | .error _ => none

variable {home name p : String} {disk : Disk}

theorem shownPath?_privateDirectory
    (h : shownPath? ((privateDirectory home name).runOn disk).answer = some p) :
    p = directoryPath home name := by
  have hobtaining := obtaining_privateDirectory home name disk
  generalize (privateDirectory home name).runOn disk = outcome at h hobtaining
  generalize directoryPath home name = directory at hobtaining ⊢
  cases hobtaining <;> cases h <;> rfl

theorem shownPath?_privateFileIn
    (h : shownPath? ((privateFileIn home name).runOn disk).answer = some p) :
    p = filePath home name := by
  have hprobing := probing_accessibleFile home name disk
  rw [privateFileIn_runOn] at h
  generalize (accessibleFile home name).runOn disk = outcome at h hprobing
  generalize filePath home name = file at hprobing ⊢
  obtain ⟨answer, after, events⟩ := outcome
  -- a directory that could not be made is told with its own path and shows none of the file
  rcases hprobing.answer_cases with ⟨handle, rfl, hpath⟩ | rfl | ⟨cause, rfl⟩
  · exact (Option.some.inj h).symm.trans hpath
  · exact (Option.some.inj h).symm
  · cases h

end Storage

namespace Desk

variable {desk : Desk} {id : ConfigurationId}

/-- How a service makes the paths in its answers from the home root of a configuration. -/
structure RootedPaths (desk : Desk) (location home : String) : Prop where
  requestHome_eq : desk.requestHome = .ok home
  /-- A directory's path begins with the home root as it is. -/
  directory {disk : Disk} {d p : String}
    (h : Storage.shownPath? ((desk.requestDirectory d).runOn disk).answer = some p) : p = home ++ d
  /-- A file's path begins with the home root without the blanks in front. -/
  file {disk : Disk} {f p : String}
    (h : Storage.shownPath? ((desk.requestFile f).runOn disk).answer = some p) :
    p = Text.trimStart home ++ f
  file_iff {disk : Disk} {f p : String}
    (h : Storage.shownPath? ((desk.requestFile f).runOn disk).answer = some p) :
    p = home ++ f ↔ ¬ Text.BeginsBlank location
  /-- A file named behind a directory is looked for in it, but for the blanks in front. -/
  nested {disk later : Disk} {d f p : String} {handle : Handle}
    (hd : ((desk.requestDirectory d).runOn disk).answer = .ok handle)
    (h : Storage.shownPath? ((desk.requestFile (d ++ "/" ++ f)).runOn later).answer = some p) :
    p = Text.trimStart handle.path ++ "/" ++ f
  nested_iff {disk later : Disk} {d f p : String} {handle : Handle}
    (hd : ((desk.requestDirectory d).runOn disk).answer = .ok handle)
    (h : Storage.shownPath? ((desk.requestFile (d ++ "/" ++ f)).runOn later).answer = some p) :
    p = handle.path ++ "/" ++ f ↔ ¬ Text.BeginsBlank location

theorem requestHome_of_slot (h : desk.slot = some id) : desk.requestHome =
    .ok (Path.composeHome (desk.values id).location (desk.values id).name) := by
  obtain ⟨slot, values⟩ := desk
  subst h
  rfl

/-- The paths in the answers of a service with a registered configuration. -/
theorem rootedPaths (h : desk.slot = some id) :
    desk.RootedPaths (desk.values id).location
      (Path.composeHome (desk.values id).location (desk.values id).name) := by
  have hhome := requestHome_of_slot h
  obtain ⟨s, hs, hblank⟩ :=
    Path.exists_composeHome_eq (desk.values id).location (desk.values id).name
  rw [hs] at hhome ⊢
  have hdirectory {disk : Disk} {d p : String}
      (hp : Storage.shownPath? ((desk.requestDirectory d).runOn disk).answer = some p) :
      p = s ++ "/" ++ d := by
    rw [requestDirectory, withHome, hhome] at hp
    rw [Storage.shownPath?_privateDirectory hp, Storage.directoryPath,
      Path.withTrailingSeparator_append_slash]
  have hfile {disk : Disk} {f p : String}
      (hp : Storage.shownPath? ((desk.requestFile f).runOn disk).answer = some p) :
      p = Text.trimStart s ++ "/" ++ f := by
    rw [requestFile, withHome, hhome] at hp
    rw [Storage.shownPath?_privateFileIn hp, Storage.filePath, Text.trim_append_slash,
      Path.withTrailingSeparator_append_slash]
  have hhandle {disk : Disk} {d : String} {handle : Handle}
      (hd : ((desk.requestDirectory d).runOn disk).answer = .ok handle) :
      handle.path = s ++ "/" ++ d := hdirectory (by rw [hd]; rfl)
  have hiff (t : String) :
      Text.trimStart s ++ "/" ++ t = s ++ "/" ++ t ↔ ¬ Text.BeginsBlank (desk.values id).location := by
    rw [← hblank, ← Text.trimStart_eq_self_iff, String.append_assoc, String.append_assoc,
      String.append_left_inj]
  have hstart : Text.trimStart (s ++ "/") = Text.trimStart s ++ "/" := by
    have h := Text.trimStart_append_slash s ""
    rwa [String.append_empty, String.append_empty] at h
  exact {
    requestHome_eq := hhome
    directory := hdirectory
    file := fun hp => by rw [hfile hp, hstart]
    file_iff := fun hp => by rw [hfile hp, hiff]
    nested := fun hd hp => by
      rw [hfile hp, hhandle hd, Text.trimStart_append_slash]
      simp only [String.append_assoc]
    nested_iff := fun {_ _ d f _ _} hd hp => by
      have hpath : s ++ "/" ++ d ++ "/" ++ f = s ++ "/" ++ (d ++ "/" ++ f) := by
        simp only [String.append_assoc]
      rw [hfile hp, hhandle hd, hpath, hiff] }

/-- A service whose one configuration has these values. -/
def configured (location name : String) : Desk := ⟨some 0, fun _ => ⟨location, name⟩⟩

/-- Under a location that begins with no blank, a file named behind a directory lies in it. -/
theorem rootedPaths_configured_base :
    ∃ (disk : Disk) (handle : Handle) (p : String), (configured "base" "app").slot = some 0 ∧
      (((configured "base" "app").requestDirectory "d").runOn disk).answer = .ok handle ∧
      Storage.shownPath? (((configured "base" "app").requestFile ("d" ++ "/" ++ "f")).runOn
        (((configured "base" "app").requestDirectory "d").runOn disk).state).answer = some p ∧
      p = handle.path ++ "/" ++ "f" := by
  have hd : (((configured "base" "app").requestDirectory "d").runOn Disk.bare).answer =
      .ok ⟨"base/app/d", true, true, true⟩ := by decide +kernel
  have hf : Storage.shownPath? (((configured "base" "app").requestFile ("d" ++ "/" ++ "f")).runOn
      (((configured "base" "app").requestDirectory "d").runOn Disk.bare).state).answer =
      some "base/app/d/f" := by decide +kernel
  have hslot : (configured "base" "app").slot = some 0 := rfl
  have rooted := rootedPaths hslot
  exact ⟨Disk.bare, _, _, hslot, hd, hf, (rooted.nested_iff hd hf).mpr (by decide +kernel)⟩

/-- Under a location that begins with a blank, a file named behind a directory lies in another
tree. -/
theorem file_not_in_directory_of_blank_location :
    (configured " base" "app").requestHome = .ok " base/app/" ∧
      (((configured " base" "app").requestDirectory "d").runOn Disk.bare).answer =
        .ok ⟨" base/app/d", true, true, true⟩ ∧
      Storage.shownPath? (((configured " base" "app").requestFile "d/f").runOn
        (((configured " base" "app").requestDirectory "d").runOn Disk.bare).state).answer =
        some "base/app/d/f" ∧
      "base/app/d/f" ≠ " base/app/" ++ "d/f" ∧
      "base/app/d/f" ≠ " base/app/d" ++ "/" ++ "f" := by
  decide +kernel

end Desk

end UserStorage
