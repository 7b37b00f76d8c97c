import Mathlib.Data.List.DropRight
import UserStorage.Proofs.Storage.Obtaining

/-!
# Something else in the place of a directory

A request for a directory looks behind the path as it stands, through links and with the slashes at
its end. So an entry in the place of the directory that is none itself, and no link to one, is told
as a conflict only when the path ends in no slash and the look finds something. In front of slashes,
and behind a link that leads nowhere, nothing is seen; then one attempt to make the directory is
made, and it fails because its entry exists already. Nothing is changed in either case.

## Main definitions

* `Path.withoutTrailingSeparators`, `Path.Slashed`: a path with slashes at its end
* `Disk.Occupied`: an entry is at the path, which leads to no directory
* `Storage.Obstructed`: what a request for a directory answers then

## Main results

* `Disk.Occupied.exists_vacancy_eq`: no directory is made there
* `Storage.obstructed_of_occupied`: every request for a directory answers so
-/

namespace UserStorage

namespace Path

/-- A path without the slashes at its end. -/
def withoutTrailingSeparators (path : String) : String :=
  String.ofList (path.toList.rdropWhile (· == '/'))

/-- Each slash at the end of some characters leaves an empty run behind it. -/
theorem exists_runs_rdropWhile (cs : List Char) :
    ∃ n, cs = cs.rdropWhile (· == '/') ++ List.replicate n '/' ∧
      runs cs = runs (cs.rdropWhile (· == '/')) ++ List.replicate n [] := by
  -- the slashes are dropped from the end, so the induction takes the last character first
  induction cs using List.reverseRecOn with
  | nil => exact ⟨0, rfl, rfl⟩
  | append_singleton cs c ih =>
    by_cases hc : c = '/'
    · subst hc
      obtain ⟨n, hcs, hruns⟩ := ih
      rw [List.rdropWhile_concat_pos _ _ _ (by rfl)]
      refine ⟨n + 1, ?_, ?_⟩
      · rw [List.replicate_succ', ← List.append_assoc, ← hcs]
      · rw [List.replicate_succ', ← List.append_assoc, ← hruns, runs_append_slash]
        rfl
    · rw [List.rdropWhile_concat_neg _ _ _ (by simpa using hc)]
      exact ⟨0, by simp, by simp⟩

/-- A path that is another one with slashes at its end. -/
structure Slashed (path bare : String) (n : Nat) : Prop where
  eq_append : path = bare ++ String.ofList (List.replicate n '/')
  pieces_eq : pieces path = pieces bare ++ List.replicate n ""

/-- A path is what is left of it without the slashes at its end, with those slashes. -/
theorem exists_slashed (path : String) : ∃ n, Slashed path (withoutTrailingSeparators path) n := by
  obtain ⟨n, hcs, hruns⟩ := exists_runs_rdropWhile path.toList
  refine ⟨n, ?_, ?_⟩
  · apply String.toList_inj.mp
    simpa [withoutTrailingSeparators] using hcs
  · simp [pieces, withoutTrailingSeparators, hruns]

namespace Slashed

variable {path bare : String} {n : Nat}

theorem ne_empty (h : Slashed path bare n) (hne : bare ≠ "") : path ≠ "" := by
  rintro rfl
  exact hne (String.append_eq_empty_iff.mp h.eq_append.symm).1

theorem startOf_eq (h : Slashed path bare n) (hne : bare ≠ "") (cwd : Location) :
    Tree.startOf cwd path = Tree.startOf cwd bare := by
  rw [Tree.startOf, Tree.startOf, h.eq_append, isAbsolute_append hne]

theorem hasNul_eq (h : Slashed path bare n) : hasNul path = hasNul bare := by
  have hslashes : ¬ '\x00' ∈ List.replicate n '/' := fun hmem => by
    cases List.eq_of_mem_replicate hmem
  simp [hasNul, h.eq_append, hslashes]

theorem eq_of_zero (h : Slashed path bare 0) : path = bare := by
  simpa using h.eq_append

/-- The last piece that is not empty is the same. -/
theorem splitLast_eq (h : Slashed path bare n) :
    Tree.splitLast (pieces path) = Tree.splitLast (pieces bare) := by
  have hempty : ∀ p ∈ (List.replicate n "").reverse, (p == "") = true := by
    intro p hp
    simp [List.eq_of_mem_replicate (List.mem_reverse.mp hp)]
  rw [Tree.splitLast, Tree.splitLast, h.pieces_eq, List.reverse_append,
    List.dropWhile_append_of_pos hempty]

end Slashed

end Path

namespace Disk

variable {disk : Disk} {path bare : String} {n : Nat}

/-- An entry that is no directory, and no link that leads to one, is at the path. -/
def Occupied (disk : Disk) (path : String) : Prop :=
  (disk.lookup? false path).isSome = true ∧ disk.showsDirectory path = false

instance : Decidable (disk.Occupied path) := inferInstanceAs (Decidable (_ ∧ _))

theorem Occupied.exists_entry (h : disk.Occupied path) :
    ∃ e, disk.lookup? false path = some e ∧ Path.Admissible path := by
  obtain ⟨e, he⟩ := Option.isSome_iff_exists.mp h.1
  exact ⟨e, he, (lookup?_eq_some_iff.mp he).1⟩

/-- Slashes behind a path do not change where its entry is made. -/
theorem vacancy_of_slashed (h : Path.Slashed path bare n) (ha : Path.Admissible path)
    (hbare : Path.Admissible bare) : disk.vacancy path = disk.vacancy bare := by
  have hstart := h.startOf_eq hbare.ne_empty disk.cwd
  have hplace : disk.place path = disk.place bare := by
    cases hs : Tree.splitLast (Path.pieces bare) with
    | none =>
      rw [place_of_splitLast_none ha (h.splitLast_eq.trans hs), place_of_splitLast_none hbare hs]
    | some p =>
      rw [place_of_splitLast ha (h.splitLast_eq.trans hs), place_of_splitLast hbare hs, hstart]
  rw [vacancy, vacancy, hplace]

/-- A path that is too long makes no entry. -/
theorem vacancy_of_too_long (hnul : hasNul path = false) (hne : path ≠ "")
    (hsize : maxPathBytes < path.utf8ByteSize) :
    disk.vacancy path = .error (.system .nameTooLong) := by
  rw [vacancy, place, hnul, Tree.resolveParent, Tree.accept, if_neg hne, if_pos hsize]
  rfl

/-- Behind slashes only a directory is seen. -/
theorem showsDirectory_of_slashed (h : Path.Slashed path bare n) (hne : bare ≠ "") (hn : n ≠ 0)
    (seen : (disk.lookup? true path).isSome = true) : disk.showsDirectory bare = true := by
  obtain ⟨e, he⟩ := Option.isSome_iff_exists.mp seen
  obtain ⟨ha, l, hw, -⟩ := lookup?_eq_some_iff.mp he
  obtain ⟨k, rfl⟩ := Nat.exists_eq_succ_of_ne_zero hn
  rw [h.pieces_eq, List.replicate_succ] at hw
  obtain ⟨d, left, m, r, ht, hm, -, -⟩ := exists_turn_of_walk hw
  rw [h.startOf_eq hne] at ht
  have hbare : Path.Admissible bare := (h.eq_append ▸ ha).of_append hne
  exact showsDirectory_iff.mpr ⟨d, m, ⟨hbare, left, ht⟩, hm⟩

/-- A look finds the same behind a path as at the path itself, unless that is a link. -/
theorem lookup?_true_of_not_link {e : Entry} (h : disk.lookup? false path = some e)
    (hkind : e.kind ≠ .link) : disk.lookup? true path = some e := by
  obtain ⟨ha, l, hw, he⟩ := lookup?_eq_some_iff.mp h
  obtain ⟨before, last, hp⟩ : ∃ before last, Path.pieces path = before ++ [last] :=
    ⟨_, _, (List.dropLast_concat_getLast (Path.pieces_ne_nil path)).symm⟩
  rw [hp] at hw
  obtain ⟨d, left, m, r, ht, hm, -, hturn⟩ := exists_turn_of_walk hw
  rw [Tree.walk_append_of_trek ht (by simp), Tree.walk_cons, hturn] at hw
  cases r with
  | stand l' =>
    obtain rfl : l' = l := by simpa [Tree.walk_nil] using hw
    refine lookup?_true_eq_some_iff.mpr ⟨l', ⟨ha, left, ?_⟩, he⟩
    rw [hp, Tree.trek_append_of_ok ht, Tree.trek_cons_stand hturn, Tree.trek_nil]
  | link target =>
    obtain rfl : last :: d = l := by simpa using hw
    rw [Tree.get?_of_turn_link hturn] at he
    cases he
    exact absurd rfl hkind

namespace Occupied

/-- Where something else is in the way, a path that leads somewhere ends in no slash. -/
theorem eq_of_seen (h : disk.Occupied bare) (hs : Path.Slashed path bare n)
    (seen : (disk.lookup? true path).isSome = true) : bare = path := by
  by_contra hbare
  obtain ⟨e, -, ha⟩ := h.exists_entry
  have hn : n ≠ 0 := fun hn => hbare ((hn ▸ hs).eq_of_zero).symm
  have dir := showsDirectory_of_slashed hs ha.ne_empty hn seen
  rw [h.2] at dir
  cases dir

theorem showsDirectory_eq_false (h : disk.Occupied bare) (hs : Path.Slashed path bare n) :
    disk.showsDirectory path = false := by
  cases hseen : disk.lookup? true path with
  | none => exact showsDirectory_of_unseen hseen
  | some e =>
    rw [← h.eq_of_seen hs (by rw [hseen]; rfl)]
    exact h.2

/-- An attempt to make a directory where something else is fails, and not for want of an
ancestor. -/
theorem exists_vacancy_eq (h : disk.Occupied bare) (hs : Path.Slashed path bare n) :
    ∃ cause, disk.vacancy path = .error cause ∧ cause.kind ≠ .notFound ∧
      (path.utf8ByteSize ≤ maxPathBytes → cause = .system .alreadyExists) := by
  obtain ⟨e, he, ha⟩ := h.exists_entry
  have hnul : hasNul path = false := hs.hasNul_eq.trans ha.nulFree
  have hne : path ≠ "" := hs.ne_empty ha.ne_empty
  -- the slashes may make a path too long that was short enough without them
  by_cases hsize : path.utf8ByteSize ≤ maxPathBytes
  · refine ⟨.system .alreadyExists, ?_, by decide, fun _ => rfl⟩
    rw [vacancy_of_slashed hs ⟨hnul, hne, hsize⟩ ha, vacancy_of_lookup? he]
  · exact ⟨_, vacancy_of_too_long hnul hne (Nat.lt_of_not_le hsize), by decide,
      fun hle => absurd hle hsize⟩

end Occupied

end Disk

namespace Storage

variable {directory bare : String} {disk after : Disk} {n : Nat}

/-- A run whose first attempt fails, and not for want of an ancestor, is that attempt. -/
theorem Making.eq_of_refused {ancestors : List String} {answer : Except IoError Unit}
    {cause : IoError} (h : Making directory ancestors disk answer after) (hne : directory ≠ "")
    (taken : disk.vacancy directory = .error cause) (complete : cause.kind ≠ .notFound)
    (other : disk.showsDirectory directory = false) : answer = .error cause ∧ after = disk := by
  have notLacks {e : IoError} (lacks : Lacks directory disk e) : False := by
    obtain rfl : cause = e := by simpa [taken] using lacks.1
    exact complete lacks.2
  cases h with
  | empty => exact absurd rfl hne
  | once _ _ attempt =>
    cases attempt with
    | made free => simp [taken] at free
    | settled _ dir => simp [other] at dir
    | refused taken' =>
      rw [taken] at taken'
      cases taken'
      exact ⟨rfl, rfl⟩
  | lost _ lacks => exact (notLacks lacks).elim
  | orphan _ lacks => exact (notLacks lacks).elim
  | again _ lacks => exact (notLacks lacks).elim

/-- What a request for a directory answers where something else is in its place. -/
structure Obstructed (directory : String) (disk : Disk)
    (outcome : Outcome Disk (Except StorageError Handle)) : Prop where
  /-- Nothing is changed. -/
  unchanged : outcome.state = disk
  /-- It is a conflict exactly when the path ends in no slash and a look finds something behind
  it. -/
  conflict_iff : outcome.answer = .error (.pathConflict directory) ↔
    Path.withoutTrailingSeparators directory = directory ∧
      (disk.lookup? true directory).isSome = true
  /-- Something that is no link is a conflict exactly when the path ends in no slash. -/
  conflict_iff_of_not_link {e : Entry}
    (found : disk.lookup? false (Path.withoutTrailingSeparators directory) = some e)
    (kind : e.kind ≠ .link) : outcome.answer = .error (.pathConflict directory) ↔
      Path.withoutTrailingSeparators directory = directory
  /-- Otherwise the directory could not be made, for its entry exists already. -/
  otherwise (other : outcome.answer ≠ .error (.pathConflict directory)) :
    ∃ cause, outcome.answer = .error (.directoryNotCreated directory cause) ∧
      (directory.utf8ByteSize ≤ maxPathBytes → cause = .system .alreadyExists)

/-- Where something else is in the way, the look that follows links decides between the errors. -/
theorem Obtaining.cases_of_occupied {outcome : Outcome Disk (Except StorageError Handle)}
    (h : Obtaining directory disk outcome) (occupied : disk.Occupied bare)
    (hs : Path.Slashed directory bare n) :
    outcome.state = disk ∧
      ((disk.lookup? true directory).isSome = true ∧
          outcome.answer = .error (.pathConflict directory) ∨
        disk.lookup? true directory = none ∧
          ∃ cause, outcome.answer = .error (.directoryNotCreated directory cause) ∧
            (directory.utf8ByteSize ≤ maxPathBytes → cause = .system .alreadyExists)) := by
  have other := occupied.showsDirectory_eq_false hs
  obtain ⟨cause, taken, complete, hcause⟩ := occupied.exists_vacancy_eq hs
  obtain ⟨-, -, ha⟩ := occupied.exists_entry
  have hne : directory ≠ "" := hs.ne_empty ha.ne_empty
  cases h with
  | found dir => simp [other] at dir
  | conflict seen => exact ⟨rfl, Or.inl ⟨seen, rfl⟩⟩
  | unmade unseen making =>
    obtain ⟨hanswer, hafter⟩ := making.eq_of_refused hne taken complete other
    cases hanswer
    exact ⟨hafter, Or.inr ⟨unseen, _, rfl, hcause⟩⟩
  | made _ making =>
    obtain ⟨hanswer, -⟩ := making.eq_of_refused hne taken complete other
    cases hanswer

/-- What the runs of a request answer where something else is in the way. -/
theorem Obtaining.obstructed {outcome : Outcome Disk (Except StorageError Handle)}
    (h : Obtaining directory disk outcome)
    (occupied : disk.Occupied (Path.withoutTrailingSeparators directory)) :
    Obstructed directory disk outcome := by
  obtain ⟨n, hs⟩ := Path.exists_slashed directory
  obtain ⟨unchanged, hcases⟩ := h.cases_of_occupied occupied hs
  have hconflict : outcome.answer = .error (.pathConflict directory) ↔
      (disk.lookup? true directory).isSome = true := by
    rcases hcases with ⟨seen, hanswer⟩ | ⟨unseen, cause, hanswer, -⟩
    · exact iff_of_true hanswer seen
    · exact iff_of_false (by simp [hanswer]) (by simp [unseen])
  refine ⟨unchanged, ?_, fun found kind => ?_, fun other => ?_⟩
  · exact hconflict.trans ⟨fun seen => ⟨occupied.eq_of_seen hs seen, seen⟩, And.right⟩
  · rw [hconflict]
    refine ⟨occupied.eq_of_seen hs, fun closed => ?_⟩
    rw [closed] at found
    rw [Disk.lookup?_true_of_not_link found kind]
    rfl
  · rcases hcases with ⟨-, hanswer⟩ | ⟨-, hrest⟩
    · exact absurd hanswer other
    · exact hrest

/-- Where something else than a directory is at the place of a requested directory, the request
fails and changes nothing. It is a conflict when the path ends in no slash and leads somewhere. -/
theorem obstructed_of_occupied (home name : String) (disk : Disk)
    (occupied : disk.Occupied (Path.withoutTrailingSeparators (directoryPath home name))) :
    Obstructed (directoryPath home name) disk ((privateDirectory home name).runOn disk) :=
  (obtaining_privateDirectory home name disk).obstructed occupied

/-- A disk on which a file has the name of the home. -/
def obstructedDisk : Disk := Disk.bare.adding "app" [] (.file ⟨0o644⟩ .empty)

/-- A file in the place of the home itself is no conflict, for the path of the home ends in a slash.
Asked for by its name in the directory above, the same file is one. -/
theorem no_conflict_at_home :
    ((privateDirectory "app" "").runOn obstructedDisk).answer =
        .error (.directoryNotCreated "app/" (.system .alreadyExists)) ∧
      ((privateDirectory "app" "").runOn obstructedDisk).state = obstructedDisk ∧
      ((privateDirectory "." "app").runOn obstructedDisk).answer =
        .error (.pathConflict "./app") := by
  have home := obstructed_of_occupied "app" "" obstructedDisk (by decide +kernel)
  have above := obstructed_of_occupied "." "app" obstructedDisk (by decide +kernel)
  have slashed : Path.withoutTrailingSeparators (directoryPath "app" "") ≠
      directoryPath "app" "" := by decide +kernel
  refine ⟨?_, home.unchanged, ?_⟩
  · obtain ⟨cause, hanswer, hcause⟩ := home.otherwise fun h => slashed (home.conflict_iff.mp h).1
    rw [hanswer, hcause (by decide +kernel)]
    rfl
  · exact above.conflict_iff.mpr (by decide +kernel)

/-- A link that leads nowhere is no conflict either. -/
example :
    ((privateDirectory "." "link").runOn (Disk.bare.adding "link" [] (.link "nowhere"))).answer =
      .error (.directoryNotCreated "./link" (.system .alreadyExists)) := by
  decide +kernel

end Storage

end UserStorage
