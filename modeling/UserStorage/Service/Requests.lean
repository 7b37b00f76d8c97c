import UserStorage.Scratch
import UserStorage.Service.Registration
import UserStorage.Storage.PrivateDirectory
import UserStorage.Storage.PrivateFile

/-!
# Service requests

What an application asks of the service: private files and directories under the home root of the
registered configuration. Every request resolves the home root first and remembers nothing.

## Main definitions

* `privateFileIn`: a private file under a home root, or the error of insufficient rights
* `Desk.requestHome`, `Desk.requestFile`, `Desk.requestDirectory`, `Desk.requestSegments`: the
  requests at a desk
* `Desk.linkText`, `Desk.serviceText`: how a registration and a service show themselves
-/

namespace UserStorage

/-- A private file under a home root; one that is denied is an error of insufficient rights. -/
def privateFileIn (home name : String) : DiskProgram (Except StorageError Handle) := do
  match ← Storage.accessibleFile home name with
  | .error e => return .error e
  | .ok (.accessible handle) => return .ok handle
  | .ok (.denied path) =>
    Program.report (.fileDenied path)
    return .error (.insufficientRights path)

namespace Desk

/-- The home root at a desk. -/
def requestHome (desk : Desk) : Except StorageError String := (resolveHome.runAt desk).answer

/-- A request that needs the home root and fails without one. -/
def withHome {α : Type} (desk : Desk) (request : String → DiskProgram (Except StorageError α)) :
    DiskProgram (Except StorageError α) :=
  match desk.requestHome with
  | .ok home => request home
  | .error e => return .error e

/-- A private file. It may not be there, but then it can be made. -/
def requestFile (desk : Desk) (name : String) : DiskProgram (Except StorageError Handle) :=
  desk.withHome fun home => privateFileIn home name

/-- A private directory, made if it is missing. -/
def requestDirectory (desk : Desk) (name : String) : DiskProgram (Except StorageError Handle) :=
  desk.withHome fun home => Storage.privateDirectory home name

/-- The private directory whose name is made of some segments. -/
def requestSegments (desk : Desk) (segments : List String) :
    DiskProgram (Except StorageError Handle) :=
  desk.requestDirectory (Path.ofPieces segments)

/-- How a registration shows itself. -/
def linkText (desk : Desk) : String :=
  "ConfigurationLink \x7b is_set: " ++ (if desk.slot.isSome then "true" else "false") ++ " \x7d"

/-- How a service shows itself. -/
def serviceText (desk : Desk) : String :=
  "FileAccessService \x7b configuration: " ++ desk.linkText ++ " \x7d"

end Desk

end UserStorage
