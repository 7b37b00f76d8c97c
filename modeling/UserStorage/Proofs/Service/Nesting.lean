import UserStorage.Proofs.Service.HomeRoot
import UserStorage.Proofs.Service.Lasting
import UserStorage.Proofs.Storage.Conflict
import UserStorage.Proofs.Storage.Repetition

/-!
# Lists of segments nest

The path of a list of segments is that of its beginning, a slash, and the rest. Whatever the
segments are, dots and slashes among them, a walk along the longer path passes the shorter one and
goes on from there, so it passes a directory. So once a list has been answered with a handle, every
beginning of it names a directory that is there, down to the empty list, which names the home root.

## Main definitions

* `Desk.Nests`: what the answer for a list of segments says about a beginning of it

## Main results

* `Storage.showsDirectory_of_segments`: where a list leads to a directory, its beginning does
* `Desk.segments_nest`: every beginning of a list that was answered with a handle
-/

namespace UserStorage

theorem Path.slashed_append_slash (path : String) : Slashed (path ++ "/") path 1 where
  eq_append := rfl
  pieces_eq := by
    have h := pieces_append_slash path ""
    rwa [String.append_empty] at h

namespace Storage

variable {home : String} {xs ys : List String} {disk : Disk}

/-- The path of two lists of segments, one slash between the two. -/
theorem directoryPath_append (home : String) (hx : xs ≠ []) (hy : ys ≠ []) :
    directoryPath home (Path.ofPieces (xs ++ ys)) =
      directoryPath home (Path.ofPieces xs) ++ "/" ++ Path.ofPieces ys := by
  rw [Path.ofPieces_append hx hy]
  simp only [directoryPath, String.append_assoc]

/-- What stands before a slash on the way to a directory is a directory. -/
theorem showsDirectory_of_append_slash {path rest : String} (hne : path ≠ "")
    (h : disk.showsDirectory (path ++ "/" ++ rest) = true) : disk.showsDirectory path = true := by
  obtain ⟨e, he⟩ := Option.ne_none_iff_exists'.mp (Disk.lookup?_ne_none_of_showsDirectory h)
  have hclosed : disk.showsDirectory (path ++ "/") = true := Disk.showsDirectory_of_append he
  have hseen := Disk.lookup?_ne_none_of_showsDirectory hclosed
  exact Disk.showsDirectory_of_slashed (Path.slashed_append_slash path) hne (by decide)
    (Option.isSome_iff_ne_none.mpr hseen)

/-- Where a list of segments leads to a directory, every beginning of the list does. -/
theorem showsDirectory_of_segments
    (h : disk.showsDirectory (directoryPath home (Path.ofPieces (xs ++ ys))) = true) :
    disk.showsDirectory (directoryPath home (Path.ofPieces xs)) = true := by
  by_cases hy : ys = []
  · rwa [hy, List.append_nil] at h
  by_cases hx : xs = []
  · subst hx
    obtain ⟨s, hs, -⟩ := Path.withTrailingSeparator_eq home
    obtain ⟨e, he⟩ := Option.ne_none_iff_exists'.mp (Disk.lookup?_ne_none_of_showsDirectory h)
    rw [directoryPath, hs] at he
    have hempty : Path.ofPieces [] = "" := rfl
    rw [directoryPath, hs, hempty, String.append_empty]
    exact Disk.showsDirectory_of_append he
  · rw [directoryPath_append home hx hy] at h
    exact showsDirectory_of_append_slash (Path.withTrailingSeparator_append_ne_empty home _) h

end Storage

namespace Desk

variable {desk : Desk} {xs ys : List String} {disk : Disk} {handle : Handle}

/-- What the answer for a list of segments says about a beginning `xs` of it, which is asked for
next and answered with `outer`. -/
structure Nests (desk : Desk) (xs ys : List String) (after : Disk) (handle outer : Handle) :
    Prop where
  /-- The beginning is found, and nothing is changed for it. -/
  runOn_eq : (desk.requestSegments xs).runOn after = ⟨.ok outer, after, []⟩
  present : outer.isPresent = true
  shows : after.showsDirectory outer.path = true
  /-- The empty list names the home root. -/
  home_eq : xs = [] → desk.requestHome = .ok outer.path
  /-- What follows the beginning follows it in the path, after one slash. -/
  path_eq : xs ≠ [] → ys ≠ [] → handle.path = outer.path ++ "/" ++ Path.ofPieces ys

/-- A request for segments that is answered with a handle has a home root to look under. -/
theorem exists_home_of_requestSegments
    (h : ((desk.requestSegments xs).runOn disk).answer = .ok handle) :
    ∃ home, desk.requestHome = .ok home ∧ Path.withTrailingSeparator home = home := by
  cases hslot : desk.slot with
  | some id =>
    obtain ⟨s, hs, -⟩ :=
      Path.exists_composeHome_eq (desk.values id).location (desk.values id).name
    exact ⟨_, requestHome_of_slot hslot, by rw [hs, Path.withTrailingSeparator_append_slash]⟩
  | none =>
    obtain ⟨slot, values⟩ := desk
    subst hslot
    cases h

/-- A list of one segment is a plain name. Every beginning of a list of segments that was answered
with a handle names a private directory, which is found without a change. -/
theorem segments_nest (desk : Desk) :
    (∀ name, desk.requestSegments [name] = desk.requestDirectory name) ∧
      ∀ (xs ys : List String) (disk : Disk) (handle : Handle),
        ((desk.requestSegments (xs ++ ys)).runOn disk).answer = .ok handle →
          ∃ outer, desk.Nests xs ys ((desk.requestSegments (xs ++ ys)).runOn disk).state handle
            outer := by
  refine ⟨fun name => ?_, fun xs ys disk handle h => ?_⟩
  · have single : Path.ofPieces [name] = name := by simp [Path.ofPieces, Path.glue]
    rw [requestSegments, single]
  obtain ⟨home, hhome, hclosed⟩ := exists_home_of_requestSegments h
  have hrequest (segments : List String) : desk.requestSegments segments =
      Storage.privateDirectory home (Path.ofPieces segments) := by
    rw [requestSegments, requestDirectory, withHome, hhome]
  simp only [hrequest] at h ⊢
  obtain ⟨shows, hhandle⟩ :=
    (Storage.obtaining_privateDirectory home (Path.ofPieces (xs ++ ys)) disk).eq_handleAt_of_ok
      (Path.withTrailingSeparator_append_ne_empty home _) h
  generalize ((Storage.privateDirectory home (Path.ofPieces (xs ++ ys))).runOn disk).state = after
    at shows hhandle ⊢
  have houter := Storage.showsDirectory_of_segments shows
  refine ⟨Storage.handleAt (Storage.directoryPath home (Path.ofPieces xs)) after, ?_, houter,
    houter, fun hx => ?_, fun hx hy => ?_⟩
  · rw [hrequest]
    exact (Storage.obtaining_privateDirectory home (Path.ofPieces xs) after).eq_of_showsDirectory
      houter
  · subst hx
    have hroot : Storage.directoryPath home (Path.ofPieces []) = home := by
      rw [Storage.directoryPath, hclosed]
      exact String.append_empty
    rw [hhome]
    exact congrArg Except.ok hroot.symm
  · rw [hhandle]
    exact Storage.directoryPath_append home hx hy

/-- Segments that go up and stand still, one of them with a slash in it: what stands before them is
found again. -/
theorem segments_nest_through_dots :
    ∃ outer : Handle, outer.path = "./app/a/.." ∧
      (((configured "." "app").requestSegments (["a", ".."] ++ ["", "b/c"])).runOn
        Disk.bare).answer = .ok ⟨"./app/a/..//b/c", true, true, true⟩ ∧
      (((configured "." "app").requestSegments ["a", ".."]).runOn
        (((configured "." "app").requestSegments (["a", ".."] ++ ["", "b/c"])).runOn
          Disk.bare).state).answer = .ok outer ∧ outer.isPresent = true := by
  have h : (((configured "." "app").requestSegments (["a", ".."] ++ ["", "b/c"])).runOn
      Disk.bare).answer = .ok ⟨"./app/a/..//b/c", true, true, true⟩ := by decide +kernel
  obtain ⟨outer, nests⟩ := (segments_nest (configured "." "app")).2 _ _ Disk.bare _ h
  have hpath : "./app/a/..//b/c" = outer.path ++ "/" ++ Path.ofPieces ["", "b/c"] :=
    nests.path_eq (by decide) (by decide)
  have hsame : "./app/a/..//b/c" = "./app/a/.." ++ "/" ++ Path.ofPieces ["", "b/c"] := by
    decide +kernel
  rw [hsame, String.append_assoc, String.append_assoc, String.append_left_inj] at hpath
  exact ⟨outer, hpath.symm, h, by rw [nests.runOn_eq], nests.present⟩

end Desk

end UserStorage
