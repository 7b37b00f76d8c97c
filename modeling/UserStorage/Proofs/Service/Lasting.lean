import UserStorage.Proofs.Scratch.Additions
import UserStorage.Proofs.Service.Independence
import UserStorage.Proofs.Storage.Racing
import UserStorage.Proofs.Storage.Tolerance

/-!
# Private directories last

A private directory that has been obtained is obtained again, with the same handle and without a
change to the disk, whatever has been asked in between: of the service, under whatever
configurations, or for scratch entries. None of this takes anything away that was on the disk, also
when it fails or something interferes with it, and what a path leads to on a disk it leads to on
every disk that has grown from it.

## Main definitions

* `Demand`, `Session.meet`: what may be asked in between, and what a session is after it
* `Session.meetAll`: a session after some demands

## Main results

* `Storage.Obtaining.eq_of_showsDirectory`: a request for a directory that is there
* `Session.le_meet`, `Session.le_meetAll`: demands take nothing away
* `Session.directory_lasts`: a directory that has been obtained is obtained again
-/

namespace UserStorage

/-! ## Directories that are there -/

namespace Storage

variable {directory : String} {disk after : Disk} {handle : Handle}
  {outcome : Outcome Disk (Except StorageError Handle)}

/-- The handle of a directory tells what its path leads to. -/
theorem handleAt_congr (h : after.lookup? true directory = disk.lookup? true directory) :
    handleAt directory after = handleAt directory disk := by
  simp only [handleAt, Disk.allowsMaking, Disk.showsDirectory, Disk.grants, h]

/-- The handle of a directory is the same on every disk that has grown. -/
theorem handleAt_of_le (h : disk ≤ after) (dir : disk.showsDirectory directory = true) :
    handleAt directory after = handleAt directory disk := by
  obtain ⟨l, m, hl⟩ := Disk.showsDirectory_iff.mp dir
  have hlook := Disk.lookup?_of_leadsToDirectory hl
  exact handleAt_congr ((Disk.lookup?_mono h hlook).trans hlook.symm)

/-- A request for a directory that is there answers with its handle and does nothing. -/
theorem Obtaining.eq_of_showsDirectory (h : Obtaining directory disk outcome)
    (dir : disk.showsDirectory directory = true) :
    outcome = ⟨.ok (handleAt directory disk), disk, []⟩ := by
  have hseen := Disk.lookup?_ne_none_of_showsDirectory dir
  cases h with
  | found => rfl
  | conflict _ other =>
    rw [dir] at other
    cases other
  | unmade unseen => exact absurd unseen hseen
  | made unseen => exact absurd unseen hseen

/-- A request that ends well leaves the directory there, and its handle is measured then. -/
theorem Obtaining.eq_handleAt_of_ok (h : Obtaining directory disk outcome) (hne : directory ≠ "")
    (ha : outcome.answer = .ok handle) :
    outcome.state.showsDirectory directory = true ∧ handle = handleAt directory outcome.state := by
  cases h with
  | found dir => exact ⟨dir, (Except.ok.inj ha).symm⟩
  | conflict => cases ha
  | unmade => cases ha
  | made _ making => exact ⟨making.showsDirectory_of_ok hne, (Except.ok.inj ha).symm⟩

end Storage

/-! ## What takes nothing away -/

namespace Desk

/-- Whatever a service is asked, it makes no call that takes anything away. -/
theorem only_serve (desk : Desk) (request : Request) :
    Program.Only (S := diskCalls) Storage.Adds (desk.serve request) := by
  have hfile (name : String) :
      Program.Only (S := diskCalls) Storage.Adds (desk.requestFile name) := by
    rw [requestFile, withHome]
    cases desk.requestHome with
    | error e => exact .done _
    | ok home =>
      refine ((Storage.only_accessibleFile home name).mono Storage.LooksOrMakes.adds).bind
        fun answer => ?_
      cases answer with
      | error e => exact .done _
      | ok probe =>
        cases probe with
        | accessible handle => exact .done _
        | denied path => exact .note _ (.done _)
  have hdirectory (name : String) :
      Program.Only (S := diskCalls) Storage.Adds (desk.requestDirectory name) := by
    rw [requestDirectory, withHome]
    cases desk.requestHome with
    | error e => exact .done _
    | ok home => exact (Storage.only_privateDirectory home name).mono Storage.LooksOrMakes.adds
  cases request with
  | home => exact .done _
  | file name => exact (hfile name).bind fun _ => .done _
  | directory name => exact (hdirectory name).bind fun _ => .done _
  | segments parts => exact (hdirectory (Path.ofPieces parts)).bind fun _ => .done _

end Desk

/-- What may be asked: an operation of the service, or a request, also for a scratch entry, with
whose calls something may interfere. -/
inductive Demand
  | operation (operation : Operation)
  | disturbed (request : Request) (interference : Interference)
  | scratchFile (root : String) (draw : Nat → String) (interference : Interference)
  | scratchDirectory (root : String) (draw : Nat → String) (interference : Interference)

namespace Session

variable {session : Session} {name : String} {handle : Handle}

/-- The session after a demand, whatever has been answered. -/
def meet (session : Session) : Demand → Session
  | .operation operation => session.step operation
  | .disturbed request interference =>
    { session with
      disk := ((session.desk.serve request).runDisturbed interference session.disk).state }
  | .scratchFile root draw interference =>
    { session with
      disk := ((Scratch.createScratchFile root draw).runDisturbed interference session.disk).state }
  | .scratchDirectory root draw interference =>
    { session with
      disk :=
        ((Scratch.createScratchDirectory root draw).runDisturbed interference session.disk).state }

/-- The session after some demands. -/
def meetAll (session : Session) (demands : List Demand) : Session := demands.foldl meet session

/-- A demand takes nothing away from the disk. -/
theorem le_meet (session : Session) (demand : Demand) :
    session.disk ≤ (session.meet demand).disk := by
  cases demand with
  | operation operation => exact (session.step_gainsAlong operation).gains.le
  | disturbed request interference =>
    have hle := DiskProgram.le_runIn_of_adds (session.desk.only_serve request)
      ⟨session.disk, interference⟩
    dsimp only [meet, DiskProgram.state_runDisturbed] at hle ⊢
    exact hle
  | scratchFile root draw interference =>
    have hle := (Scratch.searched_createScratchFile root draw ⟨session.disk, interference⟩).le
    dsimp only [meet, DiskProgram.state_runDisturbed] at hle ⊢
    exact hle
  | scratchDirectory root draw interference =>
    have hle := Scratch.le_createScratchDirectory root draw ⟨session.disk, interference⟩
    dsimp only [meet, DiskProgram.state_runDisturbed] at hle ⊢
    exact hle

theorem le_meetAll (session : Session) (demands : List Demand) :
    session.disk ≤ (session.meetAll demands).disk := by
  induction demands generalizing session with
  | nil => exact le_rfl
  | cons demand demands ih => exact (session.le_meet demand).trans (ih _)

/-- A directory that has been obtained is obtained again under the same values, with the same
handle and without a change to the disk, whatever has been asked meanwhile. -/
theorem directory_lasts
    (obtained : ((session.desk.requestDirectory name).runOn session.disk).answer = .ok handle)
    (demands : List Demand)
    (same : ((session.step (.directory name)).meetAll demands).desk.settings? =
      session.desk.settings?) :
    (((session.step (.directory name)).meetAll demands).desk.requestDirectory name).runOn
        ((session.step (.directory name)).meetAll demands).disk =
      ⟨.ok handle, ((session.step (.directory name)).meetAll demands).disk, []⟩ := by
  have hle := (session.step (.directory name)).le_meetAll demands
  rw [Desk.requestDirectory_congr same]
  generalize ((session.step (.directory name)).meetAll demands).disk = later at hle ⊢
  simp only [step, Desk.requestDirectory, Desk.withHome] at obtained hle ⊢
  cases hhome : session.desk.requestHome with
  | error e =>
    rw [hhome] at obtained
    cases obtained
  | ok home =>
    rw [hhome] at obtained hle
    have hne := Path.withTrailingSeparator_append_ne_empty home name
    -- the directory is there when it has been obtained, and so it is on what the disk has grown to
    obtain ⟨dir, rfl⟩ :=
      (Storage.obtaining_privateDirectory home name session.disk).eq_handleAt_of_ok hne obtained
    rw [(Storage.obtaining_privateDirectory home name later).eq_of_showsDirectory
      (Disk.showsDirectory_mono hle dir), Storage.handleAt_of_le hle dir]

/-- A service with a registered configuration, over a disk that holds nothing yet. -/
def opened : Session := fresh.step (.register 0)

/-- Demands that replace the configuration and restore it, fail, and make scratch entries where the
directory is. -/
def eventfulDemands : List Demand :=
  [.operation (.register 1), .operation (.reconfigure 1 ⟨"base/app/d", "e"⟩),
    .operation (.file "f"), .disturbed (.directory "g") { making := some (0, .refused .noSpace) },
    .scratchDirectory "base/app/d" Scratch.tagOf { removing := some .directoryFirst },
    .scratchFile "nowhere" Scratch.tagOf {}, .operation (.register 0)]

/-- A directory is obtained again after all of that. -/
theorem directory_lasts_through_eventfulDemands :
    ((opened.desk.requestDirectory "d").runOn opened.disk).answer =
        .ok ⟨"base/app/d", true, true, true⟩ ∧
      ((opened.step (.directory "d")).meetAll eventfulDemands).desk.settings? =
        opened.desk.settings? ∧
      ((((opened.step (.directory "d")).meetAll eventfulDemands).desk.requestDirectory "d").runOn
          ((opened.step (.directory "d")).meetAll eventfulDemands).disk).answer =
        .ok ⟨"base/app/d", true, true, true⟩ := by
  have obtained : ((opened.desk.requestDirectory "d").runOn opened.disk).answer =
      .ok ⟨"base/app/d", true, true, true⟩ := by decide +kernel
  have same : ((opened.step (.directory "d")).meetAll eventfulDemands).desk.settings? =
      opened.desk.settings? := rfl
  exact ⟨obtained, same, congrArg Outcome.answer (directory_lasts obtained eventfulDemands same)⟩

end Session

end UserStorage
