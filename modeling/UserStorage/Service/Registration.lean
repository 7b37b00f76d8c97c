import UserStorage.HomeSettings
import UserStorage.Program.Basic

/-!
# The registered configuration

A service asks one registered configuration for the home directory's location and name, anew for
every request. Configurations are objects: registering, and clearing a registration, go by their
identity, and an object's values may change while it is registered. Taking the registered object
out of its slot and reading its two values are separate steps.

## Main definitions

* `ConfigurationId`: the identity of a configuration object
* `Desk`: a slot with the values of all configuration objects
* `DeskCall`, `DeskProgram`, `Desk.perform`: the steps at a desk
* `register`, `unregister`, `resolveHome`: what callers do there
-/

namespace UserStorage

/-- The identity of a configuration object. -/
abbrev ConfigurationId := Nat

/-- The slot for the registered configuration, and the values of every configuration object. -/
structure Desk where
  slot : Option ConfigurationId
  values : ConfigurationId → HomeSettings

/-- The steps at a desk. -/
inductive DeskCall
  | snapshot
  | locationOf (id : ConfigurationId)
  | nameOf (id : ConfigurationId)
  | put (id : ConfigurationId)
  /-- Clears the slot if it holds this object, and tells whether it did. -/
  | clear (id : ConfigurationId)
  deriving DecidableEq, Repr

/-- What a step at a desk is replied with. -/
def DeskCall.Reply : DeskCall → Type
  | snapshot => Option ConfigurationId
  | locationOf _ | nameOf _ => String
  | put _ => Unit
  | clear _ => Bool

/-- The steps at a desk and their replies. -/
def deskCalls : Signature := ⟨DeskCall, DeskCall.Reply⟩

/-- Programs of steps at a desk. -/
abbrev DeskProgram := Program deskCalls

namespace Desk

/-- What a step does to a desk, and its reply. -/
def perform : (c : DeskCall) → Desk → c.Reply × Desk
  | .snapshot, desk => (desk.slot, desk)
  | .locationOf id, desk => ((desk.values id).location, desk)
  | .nameOf id, desk => ((desk.values id).name, desk)
  | .put id, desk => ((), { desk with slot := some id })
  | .clear id, desk =>
    if desk.slot = some id then (true, { desk with slot := none }) else (false, desk)

/-- The desk at which one object has other values; it stays the same object. -/
def setValues (desk : Desk) (id : ConfigurationId) (s : HomeSettings) : Desk :=
  { desk with values := fun other => if other = id then s else desk.values other }

end Desk

namespace DeskProgram

/-- The registered object, if there is one. -/
def snapshot : DeskProgram (Option ConfigurationId) := .ask (S := deskCalls) .snapshot

/-- The location that an object gives. -/
def locationOf (id : ConfigurationId) : DeskProgram String := .ask (S := deskCalls) (.locationOf id)

/-- The directory name that an object gives. -/
def nameOf (id : ConfigurationId) : DeskProgram String := .ask (S := deskCalls) (.nameOf id)

/-- Puts an object into the slot. -/
def put (id : ConfigurationId) : DeskProgram Unit := .ask (S := deskCalls) (.put id)

/-- Clears the slot if it holds the object. -/
def clear (id : ConfigurationId) : DeskProgram Bool := .ask (S := deskCalls) (.clear id)

end DeskProgram

/-- Registers a configuration in the place of whatever was registered. -/
def register (id : ConfigurationId) : DeskProgram Unit := do
  DeskProgram.put id
  Program.report .configurationRegistered

/-- Clears the registration if it is that of the given object, and tells whether it was. -/
def unregister (id : ConfigurationId) : DeskProgram Bool := do
  if ← DeskProgram.clear id then
    Program.report .configurationUnregistered
    return true
  else return false

/-- The home root that the registered configuration gives now. -/
def resolveHome : DeskProgram (Except StorageError String) := do
  match ← DeskProgram.snapshot with
  | none => return .error .configurationUnavailable
  | some id =>
    let location ← DeskProgram.locationOf id
    let name ← DeskProgram.nameOf id
    return .ok (Path.composeHome location name)

/-- A program of steps at a desk, run alone. -/
def DeskProgram.runAt {α : Type} (p : DeskProgram α) (desk : Desk) : Outcome Desk α :=
  Program.run Desk.perform p desk

end UserStorage
