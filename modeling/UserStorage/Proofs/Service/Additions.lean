import UserStorage.Proofs.Storage.Denial
import UserStorage.Proofs.Storage.Gaining
import UserStorage.Proofs.Storage.Obtaining

/-!
# What the operations of a service add

A service at a desk changes a disk by its requests for files and directories only, and these only
add: directories made under the disk's mask, each where the directory that was asked for, or that
is to hold the file that was asked for, or one of its lexical ancestors leads when the request is
over. This holds however a request ends, and over a run of any number of operations.

## Main definitions

* `Disk.GainsAlong`: a disk has gained directories where some paths lead
* `Session`, `Operation`: a desk with a disk, and what may be asked there
* `Operation.paths`: the paths along which an operation may make directories
* `Session.after`: a run of operations

## Main results

* `Storage.Making.gainsAlong`, `Storage.Obtaining.gainsAlong`, `Storage.Probing.gainsAlong`: what
  the runs on a disk add
* `Session.step_gainsAlong`: what one operation adds
* `Session.gains_of_operations`: what a run of operations adds
-/

namespace UserStorage

namespace Disk

/-- A disk has gained directories, each where one of some paths leads. -/
structure GainsAlong (paths : List String) (before after : Disk) : Prop where
  gains : before.Gains after
  exists_leadsTo {l : Location} {e : Entry} (h : after.tree.get? l = some e)
    (new : before.tree.get? l = none) : ∃ q ∈ paths, after.LeadsTo q l

theorem GainsAlong.refl (paths : List String) (disk : Disk) : GainsAlong paths disk disk where
  gains := .refl disk
  exists_leadsTo h new := by
    rw [h] at new
    cases new

/-- Along no path nothing is gained. -/
theorem GainsAlong.eq_of_nil {before after : Disk} (h : GainsAlong [] before after) :
    after = before := by
  have hle : after ≤ before := by
    refine ⟨fun l e he => ?_, h.gains.le.2.1.symm, h.gains.le.2.2.symm⟩
    cases hold : before.tree.get? l with
    | none =>
      obtain ⟨q, hq, -⟩ := h.exists_leadsTo he hold
      cases hq
    | some e' => exact (Tree.get?_of_le h.gains.le.1 hold).symm.trans he
  exact eq_of_le_of_le hle h.gains.le

end Disk

namespace Storage

variable {path directory file home name : String} {disk after : Disk}

theorem Making.gainsAlong {ancestors : List String} {answer : Except IoError Unit}
    (h : Making path ancestors disk answer after) : disk.GainsAlong (path :: ancestors) after where
  gains := h.gains
  exists_leadsTo := h.exists_leadsTo_of_new

/-- A request for a directory gains along the directory's path. -/
theorem Obtaining.gainsAlong {outcome : Outcome Disk (Except StorageError Handle)}
    (h : Obtaining directory disk outcome) :
    disk.GainsAlong (directory :: Path.ancestors directory) outcome.state := by
  cases h with
  | found => exact .refl _ disk
  | conflict => exact .refl _ disk
  | unmade _ making => exact making.gainsAlong
  | made _ making => exact making.gainsAlong

/-- A probe for a file gains along the path of the directory that is to hold it. -/
theorem Probing.gainsAlong {outcome : Outcome Disk (Except StorageError Probe)}
    (h : Probing file directory disk outcome) :
    disk.GainsAlong (directory :: Path.ancestors directory) outcome.state := by
  cases h with
  | usable => exact .refl _ disk
  | ready _ _ settling =>
    rw [settling.state_eq]
    exact .refl _ disk
  | shut => exact .refl _ disk
  | unmade _ _ making => exact making.gainsAlong
  | made _ _ making settling =>
    show disk.GainsAlong _ (Outcome.state _)
    rw [settling.state_eq]
    exact making.gainsAlong

/-- Whether a probe is denied or not, the disk is left as the probe left it. -/
theorem state_privateFileIn_runOn (home name : String) (disk : Disk) :
    ((privateFileIn home name).runOn disk).state = ((accessibleFile home name).runOn disk).state := by
  rw [privateFileIn_runOn]
  generalize (accessibleFile home name).runOn disk = outcome
  obtain ⟨answer, after, events⟩ := outcome
  rcases answer with e | handle | path <;> rfl

end Storage

/-! ## Runs of operations -/

/-- A desk with the disk on which its requests are carried out. -/
structure Session where
  desk : Desk
  disk : Disk

/-- What may be asked of a service. The values of a configuration may change meanwhile. -/
inductive Operation
  | register (id : ConfigurationId)
  | unregister (id : ConfigurationId)
  | reconfigure (id : ConfigurationId) (settings : HomeSettings)
  | home
  | file (name : String)
  | directory (name : String)
  | segments (parts : List String)

/-- The directory that an operation may make: the one that is asked for, or the one that is to hold
the file that is asked for. Without a home root there is none. -/
def Operation.target? (desk : Desk) : Operation → Option String
  | register _ | unregister _ | reconfigure .. | home => none
  | file name => desk.requestHome.toOption.map fun root =>
    Storage.containingDirectory root (Storage.filePath root name)
  | directory name => desk.requestHome.toOption.map fun root => Storage.directoryPath root name
  | segments parts =>
    desk.requestHome.toOption.map fun root => Storage.directoryPath root (Path.ofPieces parts)

/-- The paths along which an operation may make directories. -/
def Operation.paths (desk : Desk) (operation : Operation) : List String :=
  (operation.target? desk).elim [] fun path => path :: Path.ancestors path

namespace Session

/-- The session after an operation, whatever it has answered. -/
def step (session : Session) : Operation → Session
  | .register id => { session with desk := ((register id).runAt session.desk).state }
  | .unregister id => { session with desk := ((unregister id).runAt session.desk).state }
  | .reconfigure id settings => { session with desk := session.desk.setValues id settings }
  | .home => { session with desk := (resolveHome.runAt session.desk).state }
  | .file name =>
    { session with disk := ((session.desk.requestFile name).runOn session.disk).state }
  | .directory name =>
    { session with disk := ((session.desk.requestDirectory name).runOn session.disk).state }
  | .segments parts =>
    { session with disk := ((session.desk.requestSegments parts).runOn session.disk).state }

/-- The session after a run of operations. -/
def after (session : Session) (operations : List Operation) : Session :=
  operations.foldl step session

theorem after_append (session : Session) (first second : List Operation) :
    session.after (first ++ second) = (session.after first).after second := by
  simp [after]

/-- What one operation adds. -/
theorem step_gainsAlong (session : Session) (operation : Operation) :
    session.disk.GainsAlong (operation.paths session.desk) (session.step operation).disk := by
  cases operation with
  | file name =>
    simp only [step, Operation.paths, Operation.target?, Desk.requestFile, Desk.withHome]
    cases session.desk.requestHome with
    | error e => exact .refl _ _
    | ok root =>
      simp only [Storage.state_privateFileIn_runOn]
      exact (Storage.probing_accessibleFile root name session.disk).gainsAlong
  | directory name =>
    simp only [step, Operation.paths, Operation.target?, Desk.requestDirectory, Desk.withHome]
    cases session.desk.requestHome with
    | error e => exact .refl _ _
    | ok root => exact (Storage.obtaining_privateDirectory root name session.disk).gainsAlong
  | segments parts =>
    simp only [step, Operation.paths, Operation.target?, Desk.requestSegments,
      Desk.requestDirectory, Desk.withHome]
    cases session.desk.requestHome with
    | error e => exact .refl _ _
    | ok root =>
      exact (Storage.obtaining_privateDirectory root (Path.ofPieces parts) session.disk).gainsAlong
  | _ => exact .refl _ _

/-- A run of operations gains directories and changes nothing else. -/
theorem gains_after (session : Session) (operations : List Operation) :
    session.disk.Gains (session.after operations).disk := by
  induction operations generalizing session with
  | nil => exact .refl _
  | cons operation operations ih => exact (session.step_gainsAlong operation).gains.trans (ih _)

/-- Whatever has been asked of a service, only directories made under the mask have been added to
its disk, and what is asked next adds some where the directory in question or an ancestor of it
leads. What asks for no directory changes nothing. -/
theorem gains_of_operations (start : Session) (operations : List Operation) (next : Operation) :
    start.disk.Gains (start.after operations).disk ∧
      (start.after operations).disk.GainsAlong (next.paths (start.after operations).desk)
        (start.after (operations ++ [next])).disk ∧
      (next.target? (start.after operations).desk = none →
        (start.after (operations ++ [next])).disk = (start.after operations).disk) := by
  have hstep := (start.after operations).step_gainsAlong next
  have hnext : start.after (operations ++ [next]) = (start.after operations).step next := by
    rw [after_append]
    rfl
  rw [hnext]
  refine ⟨start.gains_after operations, hstep, fun hnone => ?_⟩
  rw [Operation.paths, hnone] at hstep
  exact hstep.eq_of_nil

/-- A service with nothing registered yet, over a disk that holds nothing yet. -/
def fresh : Session := ⟨⟨none, fun _ => ⟨"base", "app"⟩⟩, Disk.bare⟩

/-- A request for a file makes the directory that is to hold it, and resolving the home root after
that changes nothing. -/
theorem gains_of_file_and_home :
    Operation.home.target? (fresh.after [.register 0, .file "a/f"]).desk = none ∧
      (fresh.after [.register 0, .file "a/f"]).disk.showsDirectory "base/app/a" = true ∧
      (fresh.after ([.register 0, .file "a/f"] ++ [.home])).disk =
        (fresh.after [.register 0, .file "a/f"]).disk := by
  have hnone : Operation.home.target? (fresh.after [.register 0, .file "a/f"]).desk = none := rfl
  have hmade : (fresh.after [.register 0, .file "a/f"]).disk.showsDirectory "base/app/a" = true := by
    decide +kernel
  obtain ⟨-, -, hsame⟩ := gains_of_operations fresh [.register 0, .file "a/f"] .home
  exact ⟨hnone, hmade, hsame hnone⟩

end Session

end UserStorage
