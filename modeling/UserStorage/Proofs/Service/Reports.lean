import UserStorage.Proofs.Service.Independence

/-!
# What a service reports

The warnings and errors among the events of a request tell how it was answered: none with a handle,
two warnings for want of rights, one error when a directory could not be made or something else is in
its place. Without a configuration nothing is reported at all.

The other events tell what was made. A request for a directory reports a new one exactly when it
answers with a handle and the disk has changed. A request for a file reports a new home exactly when
the directory that is to hold the file was not seen before and is there in the end, with one
exception. A single component has the empty path for its parent, which stands for the working
directory: it is never seen, and making it does nothing and succeeds. So a home is reported that was
not made, whenever such a file grants nothing.

## Main definitions

* `Event.graveLevels`: the warnings and errors among some events
* `Event.homesCreated`, `Event.directoriesCreated`: what some events report as made
* `Disk.ComesToShow`: a path was not seen and leads to a directory in the end
* `Storage.Tells`: the warnings and errors tell the answer
* `Storage.DirectoryReport`, `Storage.HomeReport`: the reports tell what was made
* `Desk.Reports`: what a service reports

## Main results

* `Disk.tree_ne_of_comesToShow`: a path that comes to lead to a directory has changed the tree
* `Storage.tells_privateDirectory`, `Storage.tells_privateFileIn`: the answers and their levels
* `Storage.directoryReport_privateDirectory`, `Storage.homeReport_privateFileIn`: the reports
* `Desk.reports_of_requests`: every service reports so
* `Desk.home_reported_without_directory`: a home that is reported and not made
-/

namespace UserStorage

/-- The levels of the warnings and errors among some events, in order. -/
def Event.graveLevels (events : List Event) : List Level :=
  (events.map Event.level).filter fun level => level.rank ≤ Level.warn.rank

/-- The homes that some events report as made. -/
def Event.homesCreated (events : List Event) : List String :=
  events.filterMap fun
    | .homeCreated directory => some directory
    | _ => none

/-- The private directories that some events report as made. -/
def Event.directoriesCreated (events : List Event) : List String :=
  events.filterMap fun
    | .privateDirectoryCreated directory => some directory
    | _ => none

namespace Disk

variable {disk before after : Disk} {path : String}

/-- The empty path is never seen. -/
theorem lookup?_empty (disk : Disk) (followLast : Bool) : disk.lookup? followLast "" = none := by
  by_contra seen
  obtain ⟨e, he⟩ := Option.ne_none_iff_exists'.mp seen
  exact (lookup?_eq_some_iff.mp he).1.ne_empty rfl

/-- The path is not seen at first and leads to a directory in the end. -/
def ComesToShow (path : String) (before after : Disk) : Prop :=
  before.lookup? true path = none ∧ after.showsDirectory path = true

theorem not_comesToShow_self (path : String) (disk : Disk) : ¬ ComesToShow path disk disk := by
  rintro ⟨unseen, shows⟩
  exact lookup?_ne_none_of_showsDirectory shows unseen

/-- That takes a change of the tree. -/
theorem tree_ne_of_comesToShow (hle : before ≤ after) (h : ComesToShow path before after) :
    after.tree ≠ before.tree := by
  intro htree
  have hsame : after = before := by
    refine eq_of_le_of_le ⟨?_, hle.2.1.symm, hle.2.2.symm⟩ hle
    rw [htree]
  subst hsame
  exact not_comesToShow_self path _ h

end Disk

namespace Storage

variable {directory file home name : String} {disk : Disk}

/-! ## Answers -/

/-- The levels of the warnings and errors that go with an answer. -/
def graveLevelsOf : Except StorageError Handle → List Level
  | .ok _ | .error .configurationUnavailable => []
  | .error (.insufficientRights _) => [.warn, .warn]
  | .error _ => [.error]

/-- The warnings and errors of a request are those that go with its answer. -/
structure Tells (outcome : Outcome Disk (Except StorageError Handle)) : Prop where
  graveLevels_eq : Event.graveLevels outcome.events = graveLevelsOf outcome.answer
  /-- Without a configuration nothing is reported. -/
  silent (h : outcome.answer = .error .configurationUnavailable) : outcome.events = []

theorem tells_privateDirectory (home name : String) (disk : Disk) :
    Tells ((privateDirectory home name).runOn disk) := by
  have hobtaining := obtaining_privateDirectory home name disk
  generalize (privateDirectory home name).runOn disk = outcome at hobtaining ⊢
  cases hobtaining <;> exact ⟨rfl, nofun⟩

theorem tells_privateFileIn (home name : String) (disk : Disk) :
    Tells ((privateFileIn home name).runOn disk) := by
  have hprobing := probing_accessibleFile home name disk
  rw [privateFileIn_runOn]
  generalize (accessibleFile home name).runOn disk = outcome at hprobing ⊢
  cases hprobing with
  | usable => exact ⟨rfl, nofun⟩
  | ready _ _ settling => cases settling <;> exact ⟨rfl, nofun⟩
  | shut => exact ⟨rfl, nofun⟩
  | unmade => exact ⟨rfl, nofun⟩
  | made _ _ _ settling => cases settling <;> exact ⟨rfl, nofun⟩

/-! ## Directories -/

/-- A request for a directory reports that it has made it exactly when it answers with a handle and
something has been made. -/
structure DirectoryReport (before : Disk)
    (outcome : Outcome Disk (Except StorageError Handle)) : Prop where
  created {handle : Handle} (h : outcome.answer = .ok handle)
    (changed : outcome.state.tree ≠ before.tree) :
    Event.directoriesCreated outcome.events = [handle.path]
  not_created (h : (∀ handle, outcome.answer ≠ .ok handle) ∨ outcome.state.tree = before.tree) :
    Event.directoriesCreated outcome.events = []

/-- A request that leaves the disk as it is reports no directory. -/
theorem directoryReport_of_same {answer : Except StorageError Handle} {events : List Event}
    (hevents : Event.directoriesCreated events = []) : DirectoryReport disk ⟨answer, disk, events⟩ := by
  constructor
  · intro handle _ changed
    exact absurd rfl changed
  · intro _
    exact hevents

theorem directoryReport_privateDirectory (home name : String) (disk : Disk) :
    DirectoryReport disk ((privateDirectory home name).runOn disk) := by
  have hne : directoryPath home name ≠ "" := Path.withTrailingSeparator_append_ne_empty home name
  have hobtaining := obtaining_privateDirectory home name disk
  generalize (privateDirectory home name).runOn disk = outcome at hobtaining ⊢
  generalize directoryPath home name = directory at hobtaining hne
  cases hobtaining with
  | found => exact directoryReport_of_same rfl
  | conflict => exact directoryReport_of_same rfl
  | unmade =>
    constructor
    · intro handle h
      cases h
    · intro _
      rfl
  | made unseen making =>
    constructor
    · intro handle h _
      cases h
      rfl
    · rintro (failed | unchanged)
      · exact absurd rfl (failed _)
      · have comes : Disk.ComesToShow directory disk _ := ⟨unseen, making.showsDirectory_of_ok hne⟩
        exact absurd unchanged (Disk.tree_ne_of_comesToShow making.le comes)

/-! ## Homes -/

/-- What calls for a report of a new home: the directory that is to hold the file comes to lead to a
directory, or it is the empty path and the file grants nothing. -/
def ReportsHome (directory file : String) (before after : Disk) : Prop :=
  Disk.ComesToShow directory before after ∨ directory = "" ∧ Mute file before

/-- What a request for a file reports of the directory that is to hold it. -/
structure HomeReport (directory file : String) (before : Disk)
    (outcome : Outcome Disk (Except StorageError Handle)) : Prop where
  created (h : ReportsHome directory file before outcome.state) :
    Event.homesCreated outcome.events = [directory]
  not_created (h : ¬ ReportsHome directory file before outcome.state) :
    Event.homesCreated outcome.events = []
  /-- Nothing is made for the empty path. -/
  unchanged (h : directory = "") : outcome.state = before

/-- A request that leaves the disk as it is reports no home, unless the directory is the empty
path. -/
theorem homeReport_of_same {answer : Except StorageError Handle} {events : List Event}
    (hevents : Event.homesCreated events = []) (found : directory = "" → ¬ Mute file disk) :
    HomeReport directory file disk ⟨answer, disk, events⟩ where
  created h := by
    rcases h with comes | ⟨hempty, mute⟩
    · exact absurd comes (Disk.not_comesToShow_self directory disk)
    · exact absurd mute (found hempty)
  not_created _ := hevents
  unchanged _ := rfl

theorem homeReport_privateFileIn (home name : String) (disk : Disk) :
    HomeReport (containingDirectory home (filePath home name)) (filePath home name) disk
      ((privateFileIn home name).runOn disk) := by
  have hprobing := probing_accessibleFile home name disk
  rw [privateFileIn_runOn]
  generalize (accessibleFile home name).runOn disk = outcome at hprobing ⊢
  generalize filePath home name = file at hprobing ⊢
  generalize containingDirectory home file = directory at hprobing ⊢
  cases hprobing with
  | usable grants => exact homeReport_of_same rfl fun _ => grants
  | ready _ allows settling =>
    have hnamed : directory ≠ "" := by
      rintro rfl
      have shows := Disk.showsDirectory_of_allowsMaking allows
      exact Disk.lookup?_ne_none_of_showsDirectory shows (disk.lookup?_empty true)
    cases settling <;> exact homeReport_of_same rfl fun hempty => absurd hempty hnamed
  | shut _ seen =>
    refine homeReport_of_same rfl fun hempty => ?_
    rw [hempty, Disk.lookup?_empty] at seen
    cases seen
  | unmade _ _ making =>
    have hno := making.showsDirectory_of_error rfl
    constructor
    · rintro (comes | ⟨hempty, -⟩)
      · rw [comes.2] at hno
        cases hno
      · exact absurd hempty making.ne_empty_of_error
    · intro _
      rfl
    · intro hempty
      exact absurd hempty making.ne_empty_of_error
  | @made after _ mute unseen making settling =>
    -- whatever the last look finds, the home has been reported before it
    have hreports : ReportsHome directory file disk after := by
      by_cases hempty : directory = ""
      · exact Or.inr ⟨hempty, mute⟩
      · exact Or.inl ⟨unseen, making.showsDirectory_of_ok hempty⟩
    have hsame (hempty : directory = "") : after = disk := by
      subst hempty
      exact making.eq_of_empty
    cases settling with
    | taken => exact ⟨fun _ => rfl, fun h => absurd hreports h, hsame⟩
    | vacant => exact ⟨fun _ => rfl, fun h => absurd hreports h, hsame⟩

end Storage

/-! ## Services -/

namespace Desk

/-- What a service reports, for each kind of request. -/
structure Reports (desk : Desk) : Prop where
  file_tells (name : String) (disk : Disk) : Storage.Tells ((desk.requestFile name).runOn disk)
  directory_tells (name : String) (disk : Disk) :
    Storage.Tells ((desk.requestDirectory name).runOn disk)
  segments_tells (parts : List String) (disk : Disk) :
    Storage.Tells ((desk.requestSegments parts).runOn disk)
  directory (name : String) (disk : Disk) :
    Storage.DirectoryReport disk ((desk.requestDirectory name).runOn disk)
  segments (parts : List String) (disk : Disk) :
    Storage.DirectoryReport disk ((desk.requestSegments parts).runOn disk)
  file {home : String} (h : desk.requestHome = .ok home) (name : String) (disk : Disk) :
    Storage.HomeReport (Storage.containingDirectory home (Storage.filePath home name))
      (Storage.filePath home name) disk ((desk.requestFile name).runOn disk)

/-- A request without a home root fails, and does and reports nothing. -/
theorem withHome_cases {α : Type} (desk : Desk)
    (request : String → DiskProgram (Except StorageError α)) :
    (∃ home, desk.requestHome = .ok home ∧ desk.withHome request = request home) ∨
      ∀ disk, (desk.withHome request).runOn disk = ⟨.error .configurationUnavailable, disk, []⟩ := by
  cases hslot : desk.slot with
  | some id =>
    have hhome := requestHome_of_slot hslot
    exact Or.inl ⟨_, hhome, by rw [withHome, hhome]⟩
  | none =>
    refine Or.inr fun disk => ?_
    rw [withHome, requestHome_of_slot_none hslot]
    rfl

/-- The warnings and errors of a service tell its answers, and its other events tell what it has
made, but for a home without a name. -/
theorem reports_of_requests (desk : Desk) : desk.Reports := by
  have directory_tells (name : String) (disk : Disk) :
      Storage.Tells ((desk.requestDirectory name).runOn disk) := by
    rcases desk.withHome_cases fun home => Storage.privateDirectory home name with
      ⟨home, -, hrequest⟩ | hrun
    · rw [requestDirectory, hrequest]
      exact Storage.tells_privateDirectory home name disk
    · rw [requestDirectory, hrun]
      exact ⟨rfl, fun _ => rfl⟩
  have directory (name : String) (disk : Disk) :
      Storage.DirectoryReport disk ((desk.requestDirectory name).runOn disk) := by
    rcases desk.withHome_cases fun home => Storage.privateDirectory home name with
      ⟨home, -, hrequest⟩ | hrun
    · rw [requestDirectory, hrequest]
      exact Storage.directoryReport_privateDirectory home name disk
    · rw [requestDirectory, hrun]
      exact Storage.directoryReport_of_same rfl
  refine ⟨fun name disk => ?_, directory_tells, fun parts => directory_tells _, directory,
    fun parts => directory _, fun {home} h name disk => ?_⟩
  · rcases desk.withHome_cases fun home => privateFileIn home name with ⟨home, -, hrequest⟩ | hrun
    · rw [requestFile, hrequest]
      exact Storage.tells_privateFileIn home name disk
    · rw [requestFile, hrun]
      exact ⟨rfl, fun _ => rfl⟩
  · rw [requestFile, withHome, h]
    exact Storage.homeReport_privateFileIn home name disk

/-- In an empty working directory, the home `a/./` and a file without a name give the path `a/./`,
whose parent is empty. A home is reported, and nothing has been made. -/
theorem home_reported_without_directory :
    (configured "a" ".").requestHome = .ok "a/./" ∧
      Storage.containingDirectory "a/./" (Storage.filePath "a/./" "") = "" ∧
      Event.homesCreated (((configured "a" ".").requestFile "").runOn Disk.bare).events = [""] ∧
      (((configured "a" ".").requestFile "").runOn Disk.bare).state = Disk.bare ∧
      ∀ path, ¬ Disk.ComesToShow path Disk.bare
        (((configured "a" ".").requestFile "").runOn Disk.bare).state := by
  have hhome : (configured "a" ".").requestHome = .ok "a/./" := by decide
  have hempty : Storage.containingDirectory "a/./" (Storage.filePath "a/./" "") = "" := by
    decide +kernel
  have mute : Storage.Mute (Storage.filePath "a/./" "") Disk.bare :=
    Storage.mute_of_unseen (by decide +kernel)
  have report := (reports_of_requests (configured "a" ".")).file hhome "" Disk.bare
  have hstate := report.unchanged hempty
  have hevents := report.created (Or.inr ⟨hempty, mute⟩)
  rw [hempty] at hevents
  refine ⟨hhome, hempty, hevents, hstate, fun path => ?_⟩
  rw [hstate]
  exact Disk.not_comesToShow_self path Disk.bare

end Desk

end UserStorage
