import Mathlib.Data.List.Induction
import UserStorage.Proofs.Service.Additions
import UserStorage.Proofs.Service.HomeRoot

/-!
# A service remembers nothing

What a service does with a request depends on the values that the registered configuration gives
at that moment, and on the disk. Of everything that was asked before only the registration is left:
the object that was registered last, unless that very object has been unregistered since. Its
values are those it was given last, while it was registered or not.

## Main definitions

* `Desk.settings?`, `Desk.freshWith`: the values in force, and a new service with such values
* `Request`, `Desk.serve`: what a service answers, and how
* `RegisteredLast`: which object a run of operations leaves registered
* `Session.Remembers`: all that a service knows of a run of operations

## Main results

* `Desk.serve_congr`: a service serves by the values in force
* `Session.slot_after_iff`, `Session.values_after`: the registration after a run
* `Session.remembers_registration`: nothing else is remembered of a run
-/

namespace UserStorage

/-! ## Serving by the values in force -/

/-- The requests that a service answers. -/
inductive Request
  | home
  | file (name : String)
  | directory (name : String)
  | segments (parts : List String)

/-- The operation of a run that makes a request. -/
def Request.operation : Request → Operation
  | home => .home
  | file name => .file name
  | directory name => .directory name
  | segments parts => .segments parts

/-- What a request is answered with. -/
inductive Answer
  | home (root : String)
  | handle (handle : Handle)

namespace Desk

variable {desk other : Desk} {id : ConfigurationId}

/-- The values that the registered configuration gives now. -/
def settings? (desk : Desk) : Option HomeSettings := desk.slot.map desk.values

/-- A new service, at which a new configuration with some values has been registered. -/
def freshWith (settings : HomeSettings) : Desk :=
  ((register 0).runAt { slot := none, values := fun _ => settings }).state

/-- How a service answers a request. -/
def serve (desk : Desk) : Request → DiskProgram (Except StorageError Answer)
  | .home => return desk.requestHome.map .home
  | .file name => Except.map .handle <$> desk.requestFile name
  | .directory name => Except.map .handle <$> desk.requestDirectory name
  | .segments parts => Except.map .handle <$> desk.requestSegments parts

theorem requestHome_of_settings? {settings : HomeSettings} (h : desk.settings? = some settings) :
    desk.requestHome = .ok settings.homeRoot := by
  obtain ⟨id, hslot, rfl⟩ := Option.map_eq_some_iff.mp h
  exact requestHome_of_slot hslot

theorem requestHome_of_slot_none (h : desk.slot = none) :
    desk.requestHome = .error .configurationUnavailable := by
  obtain ⟨slot, values⟩ := desk
  subst h
  rfl

theorem settings?_eq_none_iff : desk.settings? = none ↔ desk.slot = none := Option.map_eq_none_iff

theorem settings?_freshWith (settings : HomeSettings) :
    (freshWith settings).settings? = some settings := rfl

theorem requestHome_congr (h : desk.settings? = other.settings?) :
    desk.requestHome = other.requestHome := by
  cases hs : desk.settings? with
  | none =>
    rw [requestHome_of_slot_none (settings?_eq_none_iff.mp hs),
      requestHome_of_slot_none (settings?_eq_none_iff.mp (h ▸ hs))]
  | some settings => rw [requestHome_of_settings? hs, requestHome_of_settings? (h ▸ hs)]

theorem requestFile_congr (h : desk.settings? = other.settings?) (name : String) :
    desk.requestFile name = other.requestFile name := by
  rw [requestFile, requestFile, withHome, withHome, requestHome_congr h]

theorem requestDirectory_congr (h : desk.settings? = other.settings?) (name : String) :
    desk.requestDirectory name = other.requestDirectory name := by
  rw [requestDirectory, requestDirectory, withHome, withHome, requestHome_congr h]

/-- Two services serve alike when the same values are in force, whatever objects give them. -/
theorem serve_congr (h : desk.settings? = other.settings?) (request : Request) :
    desk.serve request = other.serve request := by
  cases request with
  | home => rw [serve, serve, requestHome_congr h]
  | file name => rw [serve, serve, requestFile_congr h]
  | directory name => rw [serve, serve, requestDirectory_congr h]
  | segments parts =>
    rw [serve, serve, requestSegments, requestSegments, requestDirectory_congr h]

/-- Without a registration every request fails and leaves the disk as it is. -/
theorem serve_runOn_of_slot_none (h : desk.slot = none) (request : Request) (disk : Disk) :
    (desk.serve request).runOn disk = ⟨.error .configurationUnavailable, disk, []⟩ := by
  have hhome := requestHome_of_slot_none h
  cases request with
  | home => rw [serve, hhome]; rfl
  | file name => rw [serve, requestFile, withHome, hhome]; rfl
  | directory name => rw [serve, requestDirectory, withHome, hhome]; rfl
  | segments parts => rw [serve, requestSegments, requestDirectory, withHome, hhome]; rfl

end Desk

/-- A program whose answer is passed on in another form changes the disk as it does by itself. -/
theorem DiskProgram.state_map_runOn {α β : Type} (f : α → β) (p : DiskProgram α) (disk : Disk) :
    ((f <$> p).runOn disk).state = (p.runOn disk).state :=
  Program.state_map_run (S := diskCalls) Disk.perform f p disk

/-- The object was registered last in a run of operations, and was not unregistered after that. -/
def RegisteredLast (id : ConfigurationId) (operations : List Operation) : Prop :=
  ∃ earlier later, operations = earlier ++ .register id :: later ∧
    (∀ other, .register other ∉ later) ∧ .unregister id ∉ later

/-- The values that an operation gives to an object. -/
def Operation.valuesFor? (id : ConfigurationId) : Operation → Option HomeSettings
  | reconfigure other settings => if other = id then some settings else none
  | _ => none

theorem not_registeredLast_nil (id : ConfigurationId) : ¬ RegisteredLast id [] := by
  rintro ⟨earlier, later, h, -⟩
  simp at h

theorem registeredLast_snoc_iff (id : ConfigurationId) (operations : List Operation)
    (next : Operation) : RegisteredLast id (operations ++ [next]) ↔
      next = .register id ∨ RegisteredLast id operations ∧
        (∀ other, next ≠ .register other) ∧ next ≠ .unregister id := by
  constructor
  · rintro ⟨earlier, later, h, hregister, hunregister⟩
    -- the last operation is the registration itself, or one of those that came after it
    rcases List.eq_nil_or_concat later with rfl | ⟨later, last, rfl⟩
    · exact Or.inl (List.singleton_inj.mp (List.append_inj' h rfl).2)
    · rw [List.concat_eq_append] at h hregister hunregister
      rw [← List.cons_append, ← List.append_assoc] at h
      obtain ⟨rfl, hlast⟩ := List.append_inj' h rfl
      obtain rfl := List.singleton_inj.mp hlast
      simp only [List.mem_append, List.mem_singleton, not_or] at hregister hunregister
      exact Or.inr ⟨⟨earlier, later, rfl, fun other => (hregister other).1, hunregister.1⟩,
        fun other heq => (hregister other).2 heq.symm, fun heq => hunregister.2 heq.symm⟩
  · rintro (rfl | ⟨⟨earlier, later, rfl, hregister, hunregister⟩, hnext, hkept⟩)
    · exact ⟨operations, [], rfl, fun _ => List.not_mem_nil, List.not_mem_nil⟩
    · refine ⟨earlier, later ++ [next], by simp, fun other => ?_, ?_⟩
      · rw [List.mem_append, List.mem_singleton, not_or]
        exact ⟨hregister other, fun heq => hnext other heq.symm⟩
      · rw [List.mem_append, List.mem_singleton, not_or]
        exact ⟨hunregister, fun heq => hkept heq.symm⟩

/-- Whether the slot is cleared or not, what is done after that is a report at most, and what is
answered is whether it was. -/
theorem unregister_runAt (id : ConfigurationId) (desk : Desk) :
    ((unregister id).runAt desk).answer = (Desk.perform (.clear id) desk).1 ∧
      ((unregister id).runAt desk).state = (Desk.perform (.clear id) desk).2 := by
  have hrest (cleared : Bool) (later : Desk) :
      let outcome := (if cleared then do
          Program.report .configurationUnregistered
          return true
        else return false : DeskProgram Bool).run Desk.perform later
      outcome.answer = cleared ∧ outcome.state = later := by
    cases cleared <;> exact ⟨rfl, rfl⟩
  have hrun : (unregister id).runAt desk = _ :=
    Program.run_bind (S := deskCalls) Desk.perform (DeskProgram.clear id) _ desk
  rw [hrun]
  exact hrest _ _

theorem state_resolveHome_runAt (desk : Desk) : (resolveHome.runAt desk).state = desk := by
  obtain ⟨slot, values⟩ := desk
  cases slot <;> rfl

namespace Session

variable {start : Session}

theorem after_snoc (session : Session) (operations : List Operation) (next : Operation) :
    session.after (operations ++ [next]) = (session.after operations).step next := by
  rw [after_append]
  rfl

theorem slot_step_unregister (session : Session) (id : ConfigurationId) :
    (session.step (.unregister id)).desk.slot =
      if session.desk.slot = some id then none else session.desk.slot := by
  show (((unregister id).runAt session.desk).state).slot = _
  rw [(unregister_runAt _ _).2, Desk.perform]
  split <;> rfl

/-- What one operation does to the slot. -/
theorem slot_step_iff (session : Session) (operation : Operation) (id : ConfigurationId) :
    (session.step operation).desk.slot = some id ↔
      operation = .register id ∨ session.desk.slot = some id ∧
        (∀ other, operation ≠ .register other) ∧ operation ≠ .unregister id := by
  cases operation with
  | register other =>
    have hslot : (session.step (.register other)).desk.slot = some other := rfl
    simp [hslot]
  | unregister other =>
    rw [slot_step_unregister]
    split_ifs with h
    · simp [h]
    · simp only [reduceCtorEq, ne_eq, not_false_eq_true, implies_true, true_and, false_or,
        Operation.unregister.injEq, iff_self_and]
      rintro hslot rfl
      exact h hslot
  | home =>
    have hslot : (session.step .home).desk = session.desk := state_resolveHome_runAt session.desk
    simp [hslot]
  | _ => simp [step, Desk.setValues]

/-- From an empty slot, a run registers the object that it has registered last. -/
theorem slot_after_iff (fresh : start.desk.slot = none) (operations : List Operation)
    (id : ConfigurationId) :
    (start.after operations).desk.slot = some id ↔ RegisteredLast id operations := by
  -- both sides change in the same way with every operation at the end of the run
  induction operations using List.reverseRecOn with
  | nil =>
    exact ⟨fun h => absurd (fresh.symm.trans h) (by simp),
      fun h => absurd h (not_registeredLast_nil id)⟩
  | append_singleton operations next ih =>
    rw [after_snoc, slot_step_iff, registeredLast_snoc_iff, ih]

/-- What one operation does to the values of an object. -/
theorem values_step (session : Session) (operation : Operation) (id : ConfigurationId) :
    (session.step operation).desk.values id =
      (operation.valuesFor? id).getD (session.desk.values id) := by
  cases operation with
  | reconfigure other settings =>
    by_cases h : other = id
    · simp [step, Desk.setValues, Operation.valuesFor?, h]
    · simp [step, Desk.setValues, Operation.valuesFor?, h, Ne.symm h]
  | unregister other =>
    show (((unregister other).runAt session.desk).state).values id = _
    rw [(unregister_runAt _ _).2, Desk.perform]
    split <;> rfl
  | home =>
    show ((resolveHome.runAt session.desk).state).values id = _
    rw [state_resolveHome_runAt]
    rfl
  | _ => rfl

/-- After a run an object has the values that it was given last. -/
theorem values_after (start : Session) (operations : List Operation) (id : ConfigurationId) :
    (start.after operations).desk.values id =
      (operations.filterMap (Operation.valuesFor? id)).getLast?.getD (start.desk.values id) := by
  induction operations using List.reverseRecOn with
  | nil => rfl
  | append_singleton operations next ih =>
    rw [after_snoc, values_step, ih, List.filterMap_append, List.getLast?_append]
    cases hnext : next.valuesFor? id <;> simp [hnext]

/-- The operation of a request changes the disk as the service does that serves it. -/
theorem step_operation (session : Session) (request : Request) :
    session.step request.operation =
      { session with disk := ((session.desk.serve request).runOn session.disk).state } := by
  cases request with
  | home =>
    show (⟨(resolveHome.runAt session.desk).state, session.disk⟩ : Session) = _
    rw [state_resolveHome_runAt]
    rfl
  | _ =>
    simp only [Request.operation, step, Desk.serve, DiskProgram.state_map_runOn]

/-- All that a service knows of a run of operations: which object it has been left with, the
values which that object has now, and the disk. -/
structure Remembers (start : Session) (operations : List Operation) : Prop where
  slot_iff (id : ConfigurationId) :
    (start.after operations).desk.slot = some id ↔ RegisteredLast id operations
  values_eq (id : ConfigurationId) : (start.after operations).desk.values id =
    (operations.filterMap (Operation.valuesFor? id)).getLast?.getD (start.desk.values id)
  /-- A request is served as a new service would serve it with these values on this disk. -/
  serve_eq {id : ConfigurationId} (h : RegisteredLast id operations) (request : Request) :
    ((start.after operations).desk.serve request).runOn (start.after operations).disk =
      ((Desk.freshWith ((start.after operations).desk.values id)).serve request).runOn
        (start.after operations).disk
  serve_eq_error (h : ∀ id, ¬ RegisteredLast id operations) (request : Request) :
    ((start.after operations).desk.serve request).runOn (start.after operations).disk =
      ⟨.error .configurationUnavailable, (start.after operations).disk, []⟩
  /-- What is left of a request is the disk that it was served on. -/
  after_request (request : Request) : start.after (operations ++ [request.operation]) =
    { start.after operations with
      disk := (((start.after operations).desk.serve request).runOn
        (start.after operations).disk).state }

/-- A service that had nothing registered remembers of a run of operations only the registration. -/
theorem remembers_registration (fresh : start.desk.slot = none) (operations : List Operation) :
    start.Remembers operations where
  slot_iff := slot_after_iff fresh operations
  values_eq := values_after start operations
  serve_eq {id} h request := by
    have hslot := (slot_after_iff fresh operations id).mpr h
    have hsettings : (start.after operations).desk.settings? =
        (Desk.freshWith ((start.after operations).desk.values id)).settings? := by
      rw [Desk.settings?_freshWith, Desk.settings?, hslot, Option.map_some]
    rw [Desk.serve_congr hsettings]
  serve_eq_error h request := by
    have hslot : (start.after operations).desk.slot = none :=
      Option.eq_none_iff_forall_ne_some.mpr fun id hid =>
        h id ((slot_after_iff fresh operations id).mp hid)
    exact Desk.serve_runOn_of_slot_none hslot request _
  after_request request := by rw [after_snoc, step_operation]

/-- A run in which an object has been replaced, is unregistered late and is given other values. -/
def staleRun : List Operation :=
  [.register 0, .directory "a", .register 1, .unregister 0, .reconfigure 1 ⟨"other", "app"⟩]

/-- The object that replaced another one stays registered when the other one is unregistered. -/
theorem remembers_registration_of_staleRun :
    fresh.desk.slot = none ∧ RegisteredLast 1 staleRun ∧
      (fresh.after staleRun).desk.slot = some 1 ∧
      ((fresh.after staleRun).desk.serve (.directory "a")).runOn (fresh.after staleRun).disk =
        ((Desk.freshWith ⟨"other", "app"⟩).serve (.directory "a")).runOn
          (fresh.after staleRun).disk := by
  have hfresh : fresh.desk.slot = none := rfl
  have hlast : RegisteredLast 1 staleRun :=
    ⟨[.register 0, .directory "a"], [.unregister 0, .reconfigure 1 ⟨"other", "app"⟩], rfl,
      by simp, by simp⟩
  have remembers := remembers_registration hfresh staleRun
  exact ⟨hfresh, hlast, (remembers.slot_iff 1).mpr hlast, remembers.serve_eq hlast _⟩

end Session

end UserStorage
