import UserStorage.Proofs.Disk.Vacancy

/-!
# Paths that end in no name

A path that ends in a slash or in a dot leads to a directory or nowhere, and no file is made at it.

## Main definitions

* `Path.endsNameless`: the last piece of a path is no name

## Main results

* `Disk.isDirectory_of_endsNameless`: what is seen at such a path is a directory
* `Disk.makeFile_ne_ok_of_endsNameless`: such a path makes no file
-/

namespace UserStorage

namespace Path

/-- The last piece of the path is no name: behind a slash it is empty, and a dot there names a
directory by its place. -/
def endsNameless (path : String) : Bool :=
  (pieces path).getLast?.any fun last => last == "" || last == "." || last == ".."

theorem exists_pieces_of_endsNameless {path : String} (h : endsNameless path = true) :
    ∃ before last, pieces path = before ++ [last] ∧ ¬ Tree.IsName last := by
  cases hp : (pieces path).getLast? with
  | none => simp [endsNameless, hp] at h
  | some last =>
    obtain ⟨before, hpieces⟩ := List.getLast?_eq_some_iff.mp hp
    refine ⟨before, last, hpieces, fun hname => ?_⟩
    simp [endsNameless, hp, hname.ne_empty, hname.ne_dot, hname.ne_dotDot] at h

theorem exists_pieces_of_not_endsNameless {path : String} (h : endsNameless path = false) :
    ∃ before last, pieces path = before ++ [last] ∧ isIdle last = false := by
  obtain ⟨before, last, hp⟩ : ∃ before last, pieces path = before ++ [last] :=
    ⟨_, _, (List.dropLast_concat_getLast (pieces_ne_nil path)).symm⟩
  refine ⟨before, last, hp, isIdle_eq_false_iff.mpr ⟨?_, ?_⟩⟩
  · rintro rfl
    simp [endsNameless, hp] at h
  · rintro rfl
    simp [endsNameless, hp] at h

end Path

namespace Disk

variable {disk : Disk} {path : String} {followLast : Bool}

/-- An empty piece at the end of others stands behind a slash. -/
theorem asksForDirectory_of_pieces {ps : List String} (hne : ps ≠ [])
    (h : Path.pieces path = ps ++ [""]) : asksForDirectory path = true := by
  have hpath : path = Path.ofPieces ps ++ "/" := by
    rw [← Path.ofPieces_pieces path, h, Path.ofPieces_append hne (by simp)]
    exact String.append_empty
  simp [asksForDirectory, hpath]

/-- What is seen at a path that ends in no name is a directory. -/
theorem isDirectory_of_endsNameless {e : Entry} (h : disk.lookup? followLast path = some e)
    (hp : Path.endsNameless path = true) : e.isDirectory = true := by
  obtain ⟨before, last, hpieces, hlast⟩ := Path.exists_pieces_of_endsNameless hp
  obtain ⟨-, l, hw, he⟩ := lookup?_eq_some_iff.mp h
  rw [hpieces] at hw
  obtain ⟨d, left, m, r, ht, -, -, hturn⟩ := exists_turn_of_walk hw
  obtain ⟨k, rfl, hk⟩ := Tree.isDirectory_of_turn hlast hturn
  rw [Tree.walk_append_of_trek ht (by simp), Tree.walk_cons_stand hturn, Tree.walk_nil] at hw
  obtain rfl : k = l := Except.ok.inj hw
  rwa [Tree.isDirectory, he] at hk

/-- A path that ends in no name and leads to no directory is not seen. -/
theorem unseen_of_endsNameless (hp : Path.endsNameless path = true)
    (hno : disk.showsDirectory path = false) : disk.lookup? true path = none := by
  cases hl : disk.lookup? true path with
  | none => rfl
  | some e =>
    rw [showsDirectory, hl, Option.any_some, isDirectory_of_endsNameless hl hp] at hno
    cases hno

/-- No file is made at a path that ends in no name. -/
theorem makeFile_ne_ok_of_endsNameless (hp : Path.endsNameless path = true) :
    (disk.makeFile path).1 ≠ .ok () := by
  intro h
  rw [makeFile] at h
  cases hv : disk.vacancy path with
  | error e => simp [hv] at h
  | ok p =>
    obtain ⟨hplace, -⟩ := vacancy_eq_ok_iff.mp hv
    obtain ⟨-, hname, -, before, slashes, -, -, hpieces, hempty, -⟩ := place_eq_some_iff.mp hplace
    obtain ⟨before', last, hpieces', hlast⟩ := Path.exists_pieces_of_endsNameless hp
    have hasks : asksForDirectory path = true := by
      rcases List.eq_nil_or_concat slashes with rfl | ⟨slashes', s, rfl⟩
      · have hsame := List.append_inj_right' (hpieces.symm.trans hpieces') rfl
        rw [← List.singleton_inj.mp hsame] at hlast
        exact absurd hname hlast
      · obtain rfl := hempty s (by simp)
        have hends : Path.pieces path = (before ++ p.1 :: slashes') ++ [""] := by
          rw [hpieces]
          simp
        exact asksForDirectory_of_pieces (by simp) hends
    simp [hv, hasks] at h

end Disk

end UserStorage
