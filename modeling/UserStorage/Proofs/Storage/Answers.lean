import UserStorage.Proofs.Service.Additions
import UserStorage.Proofs.Storage.Denial

/-!
# What requests answer

A request for a directory is answered with a handle exactly when the path leads to a directory on
the disk that the request leaves, and every error names that path. A conflict leaves the disk as it
was. A making that fails may leave ancestors of the path, but never the directory.

A probe for a file has four answers, and which one it gives can be told from the disks before and
after it: by the rights of the file before it, by what is seen of the containing directory before
and after it, and by what is found at the file's path in the end. The empty path, which is the
containing directory of a single component, stands for the working directory. It is never seen, and
there is nothing to make.

## Main definitions

* `Storage.DirectoryAnswer`: what a request for a directory answers
* `Storage.FileAnswer`: what a probe for a file answers
* `Storage.Verdict`, `Storage.verdictOf`, `Storage.Verdict.Holds`: its four answers, and which of
  them is right

## Main results

* `Storage.answer_of_directory`: every request for a directory answers so
* `Storage.answer_of_file`: every probe for a file answers so
-/

namespace UserStorage

namespace Disk

variable {disk before after : Disk} {path : String}

/-- Of what is gained along some paths nothing is where a path leads that leads to no directory. -/
theorem GainsAlong.of_cons {paths : List String} (h : GainsAlong (path :: paths) before after)
    (hno : after.showsDirectory path = false) : GainsAlong paths before after where
  gains := h.gains
  exists_leadsTo {l e} he new := by
    obtain ⟨q, hq, hl⟩ := h.exists_leadsTo he new
    rcases List.mem_cons.mp hq with rfl | hq
    · have hdir : after.tree.get? l = some (.directory (Mode.full.without before.umask)) :=
        he.trans (congrArg some (h.gains.new_eq he new))
      rw [showsDirectory_iff.mpr ⟨l, _, hl, hdir⟩] at hno
      cases hno
    · exact ⟨q, hq, hl⟩

end Disk

namespace Storage

variable {home name file directory : String} {disk before after : Disk}

/-! ## Directories -/

/-- What a request for a directory answers, by the disks before and after it. -/
structure DirectoryAnswer (directory : String) (before : Disk)
    (outcome : Outcome Disk (Except StorageError Handle)) : Prop where
  /-- There is a handle exactly when the path leads to a directory in the end. -/
  ok_iff : (∃ handle, outcome.answer = .ok handle) ↔
    outcome.state.showsDirectory directory = true
  /-- The handle tells what is measured in the end. -/
  ok_eq {handle : Handle} (h : outcome.answer = .ok handle) :
    handle = ⟨directory, true, outcome.state.grants directory .read,
      outcome.state.grants directory .writeAndSearch⟩
  /-- An error names the path. A conflict has changed nothing, and a making that has failed may have
  made ancestors, but the path leads to no directory. -/
  error_cases {e : StorageError} (h : outcome.answer = .error e) :
    (e = .pathConflict directory ∧ outcome.state = before) ∨
      ∃ cause, e = .directoryNotCreated directory cause ∧
        outcome.state.showsDirectory directory = false ∧
        before.GainsAlong (Path.ancestors directory) outcome.state

/-- A handle is answered for a directory that the disk shows then. -/
theorem directoryAnswer_handleAt (h : after.showsDirectory directory = true) (events : List Event) :
    DirectoryAnswer directory before ⟨.ok (handleAt directory after), after, events⟩ where
  ok_iff := ⟨fun _ => h, fun _ => ⟨_, rfl⟩⟩
  ok_eq {handle} heq := by
    cases heq
    rw [handleAt, Disk.allowsMaking, h, Bool.true_and]
  error_cases heq := by cases heq

/-- What the runs of a request answer. -/
theorem Obtaining.directoryAnswer {outcome : Outcome Disk (Except StorageError Handle)}
    (h : Obtaining directory disk outcome) (hne : directory ≠ "") :
    DirectoryAnswer directory disk outcome := by
  have gains := h.gainsAlong
  cases h with
  | found dir => exact directoryAnswer_handleAt dir _
  | conflict _ other =>
    exact {
      ok_iff := by simp [other]
      ok_eq := fun heq => by cases heq
      error_cases := fun heq => Or.inl ⟨(Except.error.inj heq).symm, rfl⟩ }
  | unmade _ making =>
    have hno := making.showsDirectory_of_error rfl
    exact {
      ok_iff := by simp [hno]
      ok_eq := fun heq => by cases heq
      error_cases := fun heq =>
        Or.inr ⟨_, (Except.error.inj heq).symm, hno, gains.of_cons hno⟩ }
  | made _ making => exact directoryAnswer_handleAt (making.showsDirectory_of_ok hne) _

/-- A request for a directory answers with a handle exactly when the path leads to a directory in
the end, and with an error that names the path otherwise. -/
theorem answer_of_directory (home name : String) (disk : Disk) :
    DirectoryAnswer (directoryPath home name) disk ((privateDirectory home name).runOn disk) :=
  (obtaining_privateDirectory home name disk).directoryAnswer
    (Path.withTrailingSeparator_append_ne_empty home name)

/-- Under a mask that takes all rights the first ancestor is made, and nothing in it. -/
example :
    let outcome := (privateDirectory "base/app" "d").runOn { Disk.bare with umask := ⟨0o777⟩ }
    outcome.answer = .error (.directoryNotCreated "base/app/d" (.system .accessDenied)) ∧
      outcome.state.showsDirectory "base" = true := by
  decide +kernel

/-! ## Files -/

/-- The directory that is to hold a file allowed making before, or it was not seen and is a directory
in the end. The empty path stands for the working directory, which is not made. -/
def Housed (directory : String) (before after : Disk) : Prop :=
  before.allowsMaking directory = true ∨
    before.lookup? true directory = none ∧
      (directory = "" ∨ after.showsDirectory directory = true)

/-- The file grants nothing before, in the end nothing is found at its path, and it has a directory
to be made in. -/
structure EndsVacant (directory file : String) (before after : Disk) : Prop where
  mute : Mute file before
  unseen : ∀ followLast, after.lookup? followLast file = none
  housed : Housed directory before after

/-- The file grants nothing before, and its directory was not seen and is none in the end. -/
structure StaysMissing (directory file : String) (before after : Disk) : Prop where
  mute : Mute file before
  unseen : before.lookup? true directory = none
  named : directory ≠ ""
  missing : after.showsDirectory directory = false

/-- What a probe for a file answers. -/
inductive FileAnswer (directory file : String) (before : Disk) :
    Outcome Disk (Except StorageError Probe) → Prop
  /-- The flags of a file that grants something are what it has granted, and nothing is changed. -/
  | usable {events : List Event} (grants : ¬ Mute file before) :
      FileAnswer directory file before
        ⟨.ok (.accessible ⟨file, true, before.grants file .read, before.grants file .write⟩), before,
          events⟩
  /-- A file that is not there can be made, and not be read. -/
  | vacant {after : Disk} {events : List Event}
      (vacant : EndsVacant directory file before after) :
      FileAnswer directory file before ⟨.ok (.accessible ⟨file, false, false, true⟩), after, events⟩
  /-- The error names the directory. -/
  | homeless {after : Disk} {events : List Event} {cause : IoError}
      (missing : StaysMissing directory file before after) :
      FileAnswer directory file before
        ⟨.error (.directoryNotCreated directory cause), after, events⟩
  /-- In all other cases the file is denied. -/
  | denied {after : Disk} {events : List Event} (mute : Mute file before)
      (taken : ¬ EndsVacant directory file before after)
      (found : ¬ StaysMissing directory file before after) :
      FileAnswer directory file before ⟨.ok (.denied file), after, events⟩

/-- The four answers of a probe. -/
inductive Verdict
  | usable | vacant | homeless | denied
  deriving DecidableEq, Repr

/-- Which of the four an answer is. -/
def verdictOf : Except StorageError Probe → Verdict
  | .ok (.accessible ⟨_, true, _, _⟩) => .usable
  | .ok (.accessible ⟨_, false, _, _⟩) => .vacant
  | .error _ => .homeless
  | .ok (.denied _) => .denied

/-- What has to be so on the disks before and after a probe for each of its answers. -/
def Verdict.Holds (directory file : String) (before after : Disk) : Verdict → Prop
  | usable => ¬ Mute file before
  | vacant => EndsVacant directory file before after
  | homeless => StaysMissing directory file before after
  | denied => Mute file before ∧ ¬ EndsVacant directory file before after ∧
      ¬ StaysMissing directory file before after

/-- What has a directory does not lack it. -/
theorem Housed.not_staysMissing (h : Housed directory before after) :
    ¬ StaysMissing directory file before after := by
  intro missing
  rcases h with allows | ⟨-, rfl | shows⟩
  · have shows := Disk.showsDirectory_of_allowsMaking allows
    exact Disk.lookup?_ne_none_of_showsDirectory shows missing.unseen
  · exact missing.named rfl
  · rw [missing.missing] at shows
    cases shows

/-- A probe gives each of its answers exactly when it is right: no two of them are right at once. -/
theorem FileAnswer.verdict_iff {outcome : Outcome Disk (Except StorageError Probe)}
    (h : FileAnswer directory file before outcome) (verdict : Verdict) :
    verdictOf outcome.answer = verdict ↔ verdict.Holds directory file before outcome.state := by
  cases h with
  | usable grants =>
    cases verdict with
    | usable => exact iff_of_true rfl grants
    | vacant => exact iff_of_false nofun fun h => grants h.mute
    | homeless => exact iff_of_false nofun fun h => grants h.mute
    | denied => exact iff_of_false nofun fun h => grants h.1
  | vacant vacant =>
    cases verdict with
    | usable => exact iff_of_false nofun fun h => h vacant.mute
    | vacant => exact iff_of_true rfl vacant
    | homeless => exact iff_of_false nofun vacant.housed.not_staysMissing
    | denied => exact iff_of_false nofun fun h => h.2.1 vacant
  | homeless missing =>
    cases verdict with
    | usable => exact iff_of_false nofun fun h => h missing.mute
    | vacant => exact iff_of_false nofun fun h => h.housed.not_staysMissing missing
    | homeless => exact iff_of_true rfl missing
    | denied => exact iff_of_false nofun fun h => h.2.2 missing
  | denied mute taken found =>
    cases verdict with
    | usable => exact iff_of_false nofun fun h => h mute
    | vacant => exact iff_of_false nofun taken
    | homeless => exact iff_of_false nofun found
    | denied => exact iff_of_true rfl ⟨mute, taken, found⟩

/-- What the last look answers for a file that has a directory. -/
theorem Settling.fileAnswer {outcome : Outcome Disk (Except StorageError Probe)}
    (h : Settling file after outcome) (mute : Mute file before)
    (housed : Housed directory before after) (events : List Event) :
    FileAnswer directory file before { outcome with events := events ++ outcome.events } := by
  cases h with
  | taken seen =>
    refine .denied mute (fun vacant => ?_) housed.not_staysMissing
    rw [vacant.unseen false] at seen
    cases seen
  | vacant unseen => exact .vacant ⟨mute, Disk.lookup?_eq_none_of_false unseen, housed⟩

/-- What the runs of a probe answer. -/
theorem Probing.fileAnswer {outcome : Outcome Disk (Except StorageError Probe)}
    (h : Probing file directory disk outcome) : FileAnswer directory file disk outcome := by
  cases h with
  | usable grants => exact .usable grants
  | ready mute allows settling => exact settling.fileAnswer mute (Or.inl allows) []
  | shut mute seen forbids =>
    have hseen : disk.lookup? true directory ≠ none := by
      intro unseen
      rw [unseen] at seen
      cases seen
    refine .denied mute (fun vacant => ?_) fun missing => hseen missing.unseen
    rcases vacant.housed with allows | ⟨unseen, -⟩
    · rw [forbids] at allows
      cases allows
    · exact hseen unseen
  | unmade mute unseen making =>
    exact .homeless ⟨mute, unseen, making.ne_empty_of_error, making.showsDirectory_of_error rfl⟩
  | made mute unseen making settling =>
    refine settling.fileAnswer mute (Or.inr ⟨unseen, ?_⟩) _
    by_cases hne : directory = ""
    · exact Or.inl hne
    · exact Or.inr (making.showsDirectory_of_ok hne)

/-- A probe for a file answers for the exact path, and gives each of its four answers exactly when
the disks before and after it say so. -/
theorem answer_of_file (home name : String) (disk : Disk) :
    FileAnswer (containingDirectory home (filePath home name)) (filePath home name) disk
        ((accessibleFile home name).runOn disk) ∧
      ∀ verdict, verdictOf ((accessibleFile home name).runOn disk).answer = verdict ↔
        verdict.Holds (containingDirectory home (filePath home name)) (filePath home name) disk
          ((accessibleFile home name).runOn disk).state := by
  have answer := (probing_accessibleFile home name disk).fileAnswer
  exact ⟨answer, answer.verdict_iff⟩

/-- A disk whose working directory does not allow making entries. -/
def diskInShutDirectory : Disk :=
  { Disk.bare.adding "shut" [] (.directory ⟨0o555⟩) with cwd := ["shut"] }

/-- A single component has the empty path for its containing directory. That is not seen, and it is
no directory in the end either, yet there is no error, for it stands for the working directory; and
the file is not denied where the working directory does not allow making. -/
theorem vacant_without_directory :
    containingDirectory "a" (filePath "a" "") = "" ∧ Mute (filePath "a" "") diskInShutDirectory ∧
      diskInShutDirectory.lookup? true "" = none ∧
      ((accessibleFile "a" "").runOn diskInShutDirectory).state.showsDirectory "" = false ∧
      diskInShutDirectory.allowsMaking "." = false ∧
      ((accessibleFile "a" "").runOn diskInShutDirectory).answer =
        .ok (.accessible ⟨"a/", false, false, true⟩) := by
  have hparent : containingDirectory "a" (filePath "a" "") = "" := by decide +kernel
  have mute : Mute (filePath "a" "") diskInShutDirectory :=
    ⟨by decide +kernel, by decide +kernel⟩
  have unseen : diskInShutDirectory.lookup? true "" = none :=
    Option.isNone_iff_eq_none.mp (by decide +kernel)
  refine ⟨hparent, mute, unseen, ?_⟩
  decide +kernel

end Storage

end UserStorage
