import UserStorage.HomeSettings
import UserStorage.Settings.Environment
import UserStorage.Settings.File
import UserStorage.Text.Blank

/-!
# Loading the home settings

The home settings are looked up in three layers: defaults, the settings file, the environment. Each
setting has to be there, to have a text and not to be blank; what is wrong with the location is told
before what is wrong with the name.

The default location is the user's home directory. It comes from the variable `HOME`, and where that
is not set or empty, from the user database. That is not described: what it says of the user's
account is given with the `Host`, as the formats of settings files are.

## Main definitions

* `Host`: what else is found where a program runs
* `LoadError`: why the settings could not be loaded
* `layers`: the settings of all three layers
* `load`: the home settings of a disk and an environment
-/

namespace UserStorage.Settings

/-- What else is found where a program runs, besides a disk and an environment. Without further
notice there are the formats that are described, and the user has no account. -/
structure Host where
  /-- The formats of settings files, in the order in which a file is looked for. -/
  formats : List Format := [.toml, .json]
  /-- The home directory of the user's account, if the user database tells one. -/
  accountHome? : Option String := none

/-- The settings that have no text. -/
inductive Shape
  | null | array | table
  deriving DecidableEq, Repr

/-- How a setting without text is called. -/
def Shape.name : Shape → String
  | null => "unit value"
  | array => "sequence"
  | table => "map"

/-- Why the settings could not be loaded. -/
inductive LoadError
  /-- The file is no table in its format. -/
  | malformed (source : String)
  /-- The setting has no text. -/
  | noText (key : String) (found : Shape) (source : Option String)
  /-- The setting is not there. -/
  | missing (key : String)
  /-- The setting is a string of blanks. -/
  | blank (key : String)
  deriving DecidableEq, Repr

/-- The text of an error. -/
def LoadError.message : LoadError → String
  | malformed source => "no table of settings in " ++ source
  | noText key found source =>
    "invalid type: " ++ found.name ++ ", expected a string for key `" ++ key ++ "`" ++
      (source.map (" in " ++ ·)).getD ""
  | missing key => "missing field `" ++ key ++ "`"
  | blank key => key ++ " cannot be empty"

/-- The key of the home directory's location. -/
def locationKey : String := "home_dir_location"

/-- The key of the name of the directory in the home directory. -/
def nameKey : String := "home_dir_name"

/-- The name of the directory in the home directory, when no other is given. -/
def defaultName : String := ".sip-communicator"

/-- The path of the settings file without its extension, when no other is given. -/
def defaultStem : String := "fileaccess"

/-- The user's home directory: the one that the environment tells, or else that of the account. An
empty path is none. -/
def homeDirectory? (env : Environment) (host : Host) : Option String :=
  ((env.get? "HOME").filter (· ≠ "")).or (host.accountHome?.filter (· ≠ ""))

/-- The default settings. The location has a default only where the user has a home directory. -/
def defaults (env : Environment) (host : Host) : List (String × Setting) :=
  (nameKey, .scalar defaultName) ::
    ((homeDirectory? env host).map fun home => (locationKey, .scalar home)).toList

/-- The settings of all layers: the defaults, the file, the environment. -/
def layers (disk : Disk) (env : Environment) (stem : String) (host : Host) :
    Except LoadError Layers := do
  let file ← (disk.fileAssignments host.formats stem).mapError .malformed
  return ((Layers.assignAll [] (defaults env host)).assignAll file).assignAll env.assignments

/-- The text of a setting, where it is there; it is an error if it has none. -/
def Layers.text (layers : Layers) (key : String) : Except LoadError (Option String) :=
  match layers.lookup key with
  | none => .ok none
  | some (.scalar s) => .ok (some s)
  | some (.null source) => .error (.noText key .null source)
  | some (.array source _) => .error (.noText key .array source)
  | some (.table _) => .error (.noText key .table none)

/-- The text of a setting that has to be there. -/
def present (key : String) : Option String → Except LoadError String
  | some s => .ok s
  | none => .error (.missing key)

/-- A setting that is not blank. -/
def notBlank (key text : String) : Except LoadError Unit :=
  if Text.trim text = "" then .error (.blank key) else .ok ()

/-- The home settings of a disk and an environment, where the settings file has the path `stem`
without its extension. The texts are not trimmed. -/
def load (disk : Disk) (env : Environment) (stem : String) (host : Host := {}) :
    Except LoadError HomeSettings := do
  let found ← layers disk env stem host
  let location ← found.text locationKey
  let name ← found.text nameKey
  let location ← present locationKey location
  let name ← present nameKey name
  notBlank locationKey location
  notBlank nameKey name
  return { location, name }

end UserStorage.Settings
