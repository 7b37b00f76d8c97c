import UserStorage.Proofs.Disk.Gains
import UserStorage.Proofs.Storage.FreshFile

/-!
# Asking twice for a file

A probe that is repeated at once leaves the disk as the first one has left it. It answers as the
first one did, unless that one has made directories and what it answered rests on looks that it took
before: the file may have come into sight meanwhile, and the containing directory is asked for its
rights only when it is there already. A path that goes up nowhere comes into sight by no making, so
there the answers differ only under a mask that takes from an owner the right to make entries in the
directory that has just been made.

## Main definitions

* `Storage.SameAnswer`: two answers that differ in the cause of a failure at most
* `Storage.Outdated`: what a probe has answered does not hold on the disk that it has left
* `Storage.Repetition`: what a second probe answers after the first

## Main results

* `Storage.Making.eq_of_error`: a run that fails is not taken further by another one
* `Storage.repetition_of_file`: every probe is repeated so
-/

namespace UserStorage

namespace Disk

variable {disk : Disk} {followLast : Bool}

/-- What is closed by a slash in front of something that is seen is a directory. -/
theorem showsDirectory_of_append {s rest : String} {e : Entry}
    (h : disk.lookup? followLast (s ++ "/" ++ rest) = some e) :
    disk.showsDirectory (s ++ "/") = true := by
  obtain ⟨ha, l, hw, -⟩ := lookup?_eq_some_iff.mp h
  have hne : s ++ "/" ≠ "" := by simp
  obtain ⟨first, body, hrest⟩ := List.exists_cons_of_ne_nil (Path.pieces_ne_nil rest)
  rw [Path.pieces_append_slash, hrest] at hw
  obtain ⟨d, left, m, r, ht, hm, -, -⟩ := exists_turn_of_walk hw
  refine showsDirectory_iff.mpr ⟨d, m, ⟨ha.of_append hne, left, ?_⟩, hm⟩
  have hslash := Path.pieces_append_slash s ""
  rw [String.append_empty, Path.pieces_empty] at hslash
  rw [Tree.startOf, Path.isAbsolute_append hne] at ht
  rw [Tree.startOf, hslash, Tree.trek_append_of_ok ht]
  exact Tree.trek_empty (by simp) hm

end Disk

namespace Storage

variable {home name path file directory : String} {disk after : Disk}

/-! ## Making a directory twice -/

namespace Making

variable {ancestors : List String} {cause : IoError}

/-- After a run that has failed, another run for the same path changes nothing. -/
theorem eq_of_error (h : Making path ancestors disk (.error cause) after)
    (ha : ancestors = Path.ancestors path) {answer' : Except IoError Unit} {after' : Disk}
    (h' : Making path ancestors after answer' after') : after' = after := by
  -- by induction on the first run: what it could not make is not made by the second
  generalize hanswer : (Except.error cause : Except IoError Unit) = answer at h
  induction h generalizing cause answer' after' with
  | empty => cases hanswer
  | once _ complete attempt =>
    subst hanswer
    cases attempt with
    | refused taken =>
      exact h'.eq_of_taken taken fun _ lacks => absurd ⟨taken, lacks⟩ (complete _)
  | lost _ lacks => exact h'.eq_of_taken lacks.1 fun heq => by cases heq
  | @orphan path parent others disk after _ e _ _ above ih =>
    obtain ⟨hparent, rfl⟩ := exists_parent_of_ancestors ha
    have hno := above.showsDirectory_of_error rfl
    cases hv : after.vacancy path with
    | ok p =>
      obtain ⟨hplace, -⟩ := Disk.vacancy_eq_ok_iff.mp hv
      obtain ⟨d, m, hd⟩ := Disk.exists_parent_of_place hplace hparent above.ne_empty_of_error
      rw [Disk.showsDirectory_iff.mpr ⟨d, m, hd⟩] at hno
      cases hno
    | error taken =>
      refine h'.eq_of_taken hv fun heq _ above' => ?_
      obtain ⟨rfl, rfl⟩ := List.cons.inj heq
      exact ih rfl above' rfl
  | @again path parent others disk mid after _ _ _ _ above attempt =>
    subst hanswer
    obtain ⟨hparent, rfl⟩ := exists_parent_of_ancestors ha
    cases attempt with
    | refused taken =>
      refine h'.eq_of_taken taken fun heq _ above' => ?_
      obtain ⟨rfl, rfl⟩ := List.cons.inj heq
      by_cases hroot : parent = ""
      · subst hroot
        exact above'.eq_of_empty
      · obtain ⟨d, m, hd⟩ := Disk.showsDirectory_iff.mp (above.showsDirectory_of_ok hroot)
        exact above'.eq_of_lookup? (Disk.lookup?_of_leadsToDirectory hd)

/-- A path that goes up nowhere and was not seen is not seen after a run that fails. -/
theorem unseen_of_error (h : Making path ancestors disk (.error cause) after)
    (ha : ancestors = Path.ancestors path) (hdots : ".." ∉ Path.pieces path)
    (unseen : disk.lookup? true path = none) : after.lookup? true path = none := by
  cases h with
  | once _ _ attempt =>
    cases attempt with
    | refused => exact unseen
  | lost => exact unseen
  | orphan _ _ above =>
    obtain ⟨hparent, rfl⟩ := exists_parent_of_ancestors ha
    exact Disk.lookup?_eq_none_of_parent (above.showsDirectory_of_error rfl) hparent
      above.ne_empty_of_error
  | again _ _ above attempt =>
    obtain ⟨hparent, rfl⟩ := exists_parent_of_ancestors ha
    have hmid := above.unseen_of_parent hparent hdots unseen fun hroot hs => by
      obtain ⟨cut⟩ := Path.exists_cut hparent hroot
      exact above.leadsToNew rfl hroot (cut.forward hdots) hs
    cases attempt with
    | refused => exact hmid

end Making

/-! ## Probing twice -/

/-- Two answers of probes that are the same, but for the cause why a directory was not made. -/
inductive SameAnswer : Except StorageError Probe → Except StorageError Probe → Prop
  | probe (p : Probe) : SameAnswer (.ok p) (.ok p)
  | directoryNotCreated (path : String) (cause cause' : IoError) :
      SameAnswer (.error (.directoryNotCreated path cause)) (.error (.directoryNotCreated path cause'))

/-- What a probe has answered where the containing directory was not seen does not hold on the disk
that it has left. The file has come into sight and grants something, or it is not there and what is
seen in the place of its directory does not allow making it. -/
def Outdated (directory file : String) (before after : Disk) : Prop :=
  Mute file before ∧ before.lookup? true directory = none ∧
    (¬ Mute file after ∨ (after.lookup? true directory).isSome = true ∧
      after.allowsMaking directory = false ∧ after.lookup? false file = none)

theorem not_outdated_self (directory file : String) (disk : Disk) :
    ¬ Outdated directory file disk disk := by
  rintro ⟨mute, unseen, grants | ⟨seen, -⟩⟩
  · exact grants mute
  · simp [unseen] at seen

/-- A file that is seen has its containing directory in front of it, unless that is the working
directory. -/
theorem showsDirectory_containingDirectory {followLast : Bool} {e : Entry}
    (h : disk.lookup? followLast (filePath home name) = some e)
    (hne : containingDirectory home (filePath home name) ≠ "") :
    disk.showsDirectory (containingDirectory home (filePath home name)) = true := by
  cases hp : Path.parent? (filePath home name) with
  | some parent =>
    rw [containingDirectory, hp, Option.getD_some] at hne ⊢
    exact Disk.showsDirectory_parent_of_lookup? h hp hne
  | none =>
    obtain ⟨s, hs, -⟩ := Path.withTrailingSeparator_eq (Text.trim home)
    rw [containingDirectory, hp, Option.getD_none, hs]
    rw [filePath, hs] at h
    exact Disk.showsDirectory_of_append h

theorem hidden_of_containingDirectory
    (hno : disk.showsDirectory (containingDirectory home (filePath home name)) = false)
    (hne : containingDirectory home (filePath home name) ≠ "") (followLast : Bool) :
    disk.lookup? followLast (filePath home name) = none := by
  by_contra seen
  obtain ⟨e, he⟩ := Option.ne_none_iff_exists'.mp seen
  rw [showsDirectory_containingDirectory he hne] at hno
  cases hno

/-- What a second probe answers after the first one. -/
structure Repetition (directory file : String) (disk : Disk)
    (first second : Outcome Disk (Except StorageError Probe)) : Prop where
  /-- It leaves the disk as it is. -/
  unchanged : second.state = first.state
  /-- It answers the same unless the first answer is outdated. -/
  same_iff : SameAnswer first.answer second.answer ↔ ¬ Outdated directory file disk first.state

/-- The second probe after one that could not make the containing directory. -/
theorem Probing.repetition_of_unmade {cause : IoError} {events : List Event}
    {second : Outcome Disk (Except StorageError Probe)} (mute : Mute file disk)
    (unseen : disk.lookup? true directory = none)
    (making : Making directory (Path.ancestors directory) disk (.error cause) after)
    (hidden : after.lookup? false file = none) (h : Probing file directory after second) :
    Repetition directory file disk ⟨.error (.directoryNotCreated directory cause), after, events⟩
      second := by
  have hno := making.showsDirectory_of_error rfl
  have still : Mute file after := mute_of_unseen (Disk.lookup?_eq_none_of_false hidden true)
  have forbids : after.allowsMaking directory = false := by
    rw [Disk.allowsMaking, hno, Bool.false_and]
  cases h with
  | usable grants => exact absurd still grants
  | ready _ allows =>
    rw [forbids] at allows
    cases allows
  | shut _ seen =>
    have outdated : Outdated directory file disk after :=
      ⟨mute, unseen, Or.inr ⟨seen, forbids, hidden⟩⟩
    exact ⟨rfl, iff_of_false (fun same => by cases same) (not_not.mpr outdated)⟩
  | unmade _ unseen' making' =>
    refine ⟨making.eq_of_error rfl making', iff_of_true (.directoryNotCreated _ _ _) ?_⟩
    rintro ⟨-, -, grants | ⟨seen, -⟩⟩
    · exact grants still
    · simp [unseen'] at seen
  | made _ _ making' =>
    obtain rfl := making.eq_of_error rfl making'
    rw [making'.showsDirectory_of_ok making.ne_empty_of_error] at hno
    cases hno

/-- The second probe after one that has made the containing directory. -/
theorem Probing.repetition_of_made {first second : Outcome Disk (Except StorageError Probe)}
    (mute : Mute file disk) (unseen : disk.lookup? true directory = none)
    (shows : after.showsDirectory directory = true) (settling : Settling file after first)
    (h : Probing file directory after second) : Repetition directory file disk first second := by
  have seen := Disk.lookup?_ne_none_of_showsDirectory shows
  cases settling with
  | taken found =>
    have upToDate (still : Mute file after) : ¬ Outdated directory file disk after := by
      rintro ⟨-, -, grants | ⟨-, -, hidden⟩⟩
      · exact grants still
      · simp [hidden] at found
    cases h with
    | usable grants =>
      have outdated : Outdated directory file disk after := ⟨mute, unseen, Or.inl grants⟩
      exact ⟨rfl, iff_of_false (fun same => by cases same) (not_not.mpr outdated)⟩
    | ready still _ settling' =>
      cases settling' with
      | taken => exact ⟨rfl, iff_of_true (.probe _) (upToDate still)⟩
      | vacant hidden => simp [hidden] at found
    | shut still => exact ⟨rfl, iff_of_true (.probe _) (upToDate still)⟩
    | unmade _ unseen' => exact absurd unseen' seen
    | made _ unseen' => exact absurd unseen' seen
  | vacant hidden =>
    have still : Mute file after := mute_of_unseen (Disk.lookup?_eq_none_of_false hidden true)
    cases h with
    | usable grants => exact absurd still grants
    | ready _ allows settling' =>
      cases settling' with
      | taken found => simp [hidden] at found
      | vacant =>
        refine ⟨rfl, iff_of_true (.probe _) ?_⟩
        rintro ⟨-, -, grants | ⟨-, forbids, -⟩⟩
        · exact grants still
        · rw [allows] at forbids
          cases forbids
    | shut _ seen forbids =>
      -- the directory was not asked for its rights when it had just been made
      have outdated : Outdated directory file disk after :=
        ⟨mute, unseen, Or.inr ⟨seen, forbids, hidden⟩⟩
      exact ⟨rfl, iff_of_false (fun same => by cases same) (not_not.mpr outdated)⟩
    | unmade _ unseen' => exact absurd unseen' seen
    | made _ unseen' => exact absurd unseen' seen

theorem Probing.sameAnswer_self {outcome : Outcome Disk (Except StorageError Probe)}
    (h : Probing file directory disk outcome) : SameAnswer outcome.answer outcome.answer := by
  rcases h.answer_cases with ⟨handle, hanswer, -⟩ | hanswer | ⟨cause, hanswer⟩
  · rw [hanswer]
    exact .probe _
  · rw [hanswer]
    exact .probe _
  · rw [hanswer]
    exact .directoryNotCreated _ _ _

/-- A probe and the one after it, which is the same one where nothing was changed. -/
theorem Probing.repetition {first second : Outcome Disk (Except StorageError Probe)}
    (h₁ : Probing (filePath home name) (containingDirectory home (filePath home name)) disk first)
    (h₂ : Probing (filePath home name) (containingDirectory home (filePath home name)) first.state
      second) (again : first.state = disk → second = first) :
    Repetition (containingDirectory home (filePath home name)) (filePath home name) disk first
      second := by
  by_cases hsame : first.state = disk
  · obtain rfl := again hsame
    refine ⟨rfl, iff_of_true h₁.sameAnswer_self ?_⟩
    rw [hsame]
    exact not_outdated_self _ _ _
  cases h₁ with
  | usable => exact absurd rfl hsame
  | ready _ _ settling => exact absurd settling.state_eq hsame
  | shut => exact absurd rfl hsame
  | unmade mute unseen making =>
    have hidden := hidden_of_containingDirectory (making.showsDirectory_of_error rfl)
      making.ne_empty_of_error false
    exact repetition_of_unmade mute unseen making hidden h₂
  | @made after outcome mute unseen making settling =>
    have hne : containingDirectory home (filePath home name) ≠ "" := by
      intro hempty
      rw [hempty] at making
      exact hsame (settling.state_eq.trans making.eq_of_empty)
    have h₂ : Probing _ _ outcome.state second := h₂
    rw [settling.state_eq] at h₂
    have repetition :=
      repetition_of_made mute unseen (making.showsDirectory_of_ok hne) settling h₂
    exact ⟨repetition.unchanged, repetition.same_iff⟩

/-- The containing directory has just been made, under a mask that takes from its owner the right to
make entries in it. -/
structure MadeShut (directory file : String) (before after : Disk) : Prop where
  mute : Mute file before
  unseen : before.lookup? true directory = none
  named : directory ≠ ""
  shows : after.showsDirectory directory = true
  mask : ¬ before.MaskKeepsMaking

/-- A directory that could not be made is still not seen, unless its path goes up. -/
theorem not_outdated_of_unmade {cause : IoError}
    (unseen : disk.lookup? true (containingDirectory home (filePath home name)) = none)
    (making : Making (containingDirectory home (filePath home name))
      (Path.ancestors (containingDirectory home (filePath home name))) disk (.error cause) after)
    (hdots : ".." ∉ Path.pieces (filePath home name)) :
    ¬ Outdated (containingDirectory home (filePath home name)) (filePath home name) disk after := by
  have hidden := hidden_of_containingDirectory (making.showsDirectory_of_error rfl)
    making.ne_empty_of_error true
  rintro ⟨-, -, grants | ⟨seen, -⟩⟩
  · exact grants (mute_of_unseen hidden)
  · simp [making.unseen_of_error rfl (forward_containingDirectory hdots) unseen] at seen

/-- A directory that has been made holds nothing and has the rights that the mask has left, unless
its path goes up. -/
theorem outdated_iff_madeShut_of_made (mute : Mute (filePath home name) disk)
    (unseen : disk.lookup? true (containingDirectory home (filePath home name)) = none)
    (making : Making (containingDirectory home (filePath home name))
      (Path.ancestors (containingDirectory home (filePath home name))) disk (.ok ()) after)
    (hdots : ".." ∉ Path.pieces (filePath home name)) :
    Outdated (containingDirectory home (filePath home name)) (filePath home name) disk after ↔
      MadeShut (containingDirectory home (filePath home name)) (filePath home name) disk after := by
  by_cases hne : containingDirectory home (filePath home name) = ""
  · have hsame : after = disk := by
      rw [hne] at making
      exact making.eq_of_empty
    rw [hsame]
    exact iff_of_false (not_outdated_self _ _ _) fun h => h.named hne
  have shows := making.showsDirectory_of_ok hne
  have hnew := making.leadsToNew rfl hne (forward_containingDirectory hdots) unseen
  have hidden : ∀ followLast, after.lookup? followLast (filePath home name) = none := by
    rcases eq_or_unseen_of_making unseen making hdots with rfl | hidden
    · exact absurd unseen (Disk.lookup?_ne_none_of_showsDirectory shows)
    · exact hidden
  have hallows : after.allowsMaking (containingDirectory home (filePath home name)) = false ↔
      ¬ disk.MaskKeepsMaking := by
    rw [← hnew.allowsMaking_iff making.le, Bool.not_eq_true]
  constructor
  · rintro ⟨-, -, grants | ⟨-, forbids, -⟩⟩
    · exact absurd (mute_of_unseen (hidden true)) grants
    · exact ⟨mute, unseen, hne, shows, hallows.mp forbids⟩
  · intro h
    exact ⟨mute, unseen, Or.inr ⟨Option.isSome_iff_ne_none.mpr
      (Disk.lookup?_ne_none_of_showsDirectory shows), hallows.mpr h.mask, hidden false⟩⟩

/-- What is answered for a path that goes up nowhere is outdated only where the mask shuts the
directory that has been made. -/
theorem Probing.outdated_iff_madeShut {outcome : Outcome Disk (Except StorageError Probe)}
    (h : Probing (filePath home name) (containingDirectory home (filePath home name)) disk outcome)
    (hdots : ".." ∉ Path.pieces (filePath home name)) :
    Outdated (containingDirectory home (filePath home name)) (filePath home name) disk
        outcome.state ↔
      MadeShut (containingDirectory home (filePath home name)) (filePath home name) disk
        outcome.state := by
  cases h with
  | usable grants => exact iff_of_false (fun h => grants h.1) fun h => grants h.mute
  | ready _ allows =>
    have seen := Disk.lookup?_ne_none_of_showsDirectory (Disk.showsDirectory_of_allowsMaking allows)
    exact iff_of_false (fun h => seen h.2.1) fun h => seen h.unseen
  | shut _ seen =>
    exact iff_of_false (fun h => by simp [h.2.1] at seen) fun h => by simp [h.unseen] at seen
  | unmade _ unseen making =>
    refine iff_of_false (not_outdated_of_unmade unseen making hdots) fun h => ?_
    have shows := h.shows
    rw [making.showsDirectory_of_error rfl] at shows
    cases shows
  | @made after outcome mute unseen making settling =>
    show Outdated _ _ disk outcome.state ↔ MadeShut _ _ disk outcome.state
    rw [settling.state_eq]
    exact outdated_iff_madeShut_of_made mute unseen making hdots

/-- A probe that is repeated at once changes nothing more, and answers the same unless the first
answer is outdated. For a path that goes up nowhere that takes a mask that shuts the containing
directory when it is made. -/
theorem repetition_of_file (home name : String) (disk : Disk) :
    let first := (accessibleFile home name).runOn disk
    let second := (accessibleFile home name).runOn first.state
    Repetition (containingDirectory home (filePath home name)) (filePath home name) disk first
        second ∧
      (".." ∉ Path.pieces (filePath home name) →
        (Outdated (containingDirectory home (filePath home name)) (filePath home name) disk
            first.state ↔
          MadeShut (containingDirectory home (filePath home name)) (filePath home name) disk
            first.state)) := by
  intro first second
  have h₁ : Probing _ _ disk first := probing_accessibleFile home name disk
  have h₂ : Probing _ _ first.state second := probing_accessibleFile home name first.state
  exact ⟨h₁.repetition h₂ fun hsame => congrArg (accessibleFile home name).runOn hsame,
    h₁.outdated_iff_madeShut⟩

/-- Under a mask that takes writing and searching, the directory that the first probe makes promises
a file that cannot be made, and the second probe denies it. -/
theorem repetition_under_shutting_mask :
    let disk : Disk := { Disk.bare with umask := ⟨0o300⟩ }
    let first := (accessibleFile "app" "x").runOn disk
    let second := (accessibleFile "app" "x").runOn first.state
    first.answer = .ok (.accessible ⟨"app/x", false, false, true⟩) ∧ second.state = first.state ∧
      ¬ SameAnswer first.answer second.answer := by
  intro disk first second
  obtain ⟨repetition, forward⟩ := repetition_of_file "app" "x" disk
  have hdots : ".." ∉ Path.pieces (filePath "app" "x") := by decide +kernel
  have unseen : disk.lookup? true (containingDirectory "app" (filePath "app" "x")) = none :=
    Option.isNone_iff_eq_none.mp (by decide +kernel)
  have made : MadeShut (containingDirectory "app" (filePath "app" "x")) (filePath "app" "x") disk
      first.state :=
    ⟨⟨by decide +kernel, by decide +kernel⟩, unseen, by decide +kernel, by decide +kernel,
      by decide +kernel⟩
  exact ⟨by decide +kernel, repetition.unchanged,
    fun same => repetition.same_iff.mp same ((forward hdots).mpr made)⟩

end Storage

end UserStorage
