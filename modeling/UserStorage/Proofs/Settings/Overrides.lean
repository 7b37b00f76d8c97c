import Mathlib.Data.List.Permutation
import UserStorage.Proofs.Settings.Resolution

/-!
# Which spelling of the variables is read

Variables whose names in lower case begin with `sc_` are meant for the settings, but only those
that go on with a second underscore assign to one. A location and a name that are given with one
underscore are passed over; given with two they are the home settings, whatever the file says.

## Main definitions

* `Environment.isReserved`, `Environment.unreserved`: the variables meant for settings, and an
  environment without them
* `Environment.Overrides`: an environment that gives both home settings, in some spelling, and
  nothing else of the kind

## Main results

* `Settings.load_congr`: what is read of an environment
* `Environment.Overrides.assignments_eq_nil`, `Environment.Overrides.assignments_perm`: what the
  two spellings assign
* `Settings.load_of_overrides`: one underscore is passed over, two decide
-/

namespace UserStorage

open Settings

/-! ## What is read of an environment -/

namespace Environment

variable {env : Environment} {keep : String × String → Bool}

/-- Variables that assign to no setting may be left out. -/
theorem assignments_filter (h : ∀ entry ∈ env, keep entry = false → key? entry.1 = none) :
    assignments (env.filter keep) = assignments env := by
  induction env with
  | nil => rfl
  | cons entry rest ih =>
    have hrest := ih fun other hmem => h other (List.mem_cons_of_mem _ hmem)
    obtain ⟨name, value⟩ := entry
    cases hkeep : keep (name, value) with
    | true => rw [List.filter_cons_of_pos hkeep, assignments_cons, assignments_cons, hrest]
    | false =>
      have hkey : key? name = none := h _ List.mem_cons_self hkeep
      rw [List.filter_cons_of_neg (by simp [hkeep]), assignments_cons, hkey, hrest]
      rfl

/-- A variable is still there when others are left out. -/
theorem get?_filter {name : String} (h : ∀ value, keep (name, value) = true) :
    get? (env.filter keep) name = env.get? name := by
  induction env with
  | nil => rfl
  | cons entry rest ih =>
    obtain ⟨other, value⟩ := entry
    rw [get?] at ih ⊢
    by_cases hname : name = other
    · subst hname
      rw [List.filter_cons_of_pos (h value), lookup_cons_eq, get?, lookup_cons_eq, if_pos rfl,
        if_pos rfl]
    · rw [get?, lookup_cons_eq, if_neg hname, List.filter_cons]
      split_ifs
      · rw [lookup_cons_eq, if_neg hname]
        exact ih
      · exact ih

end Environment

/-- Of an environment only the user's home directory and what assigns to settings is read. -/
theorem Settings.load_congr {env other : Environment} (home : env.get? "HOME" = other.get? "HOME")
    (same : env.assignments = other.assignments) (disk : Disk) (stem : String) (host : Host) :
    load disk env stem host = load disk other stem host := by
  rw [load, load, layers, layers, defaults, defaults, homeDirectory?, homeDirectory?, home, same]

/-! ## The variables for settings -/

namespace Environment

variable {env : Environment} {settings : HomeSettings} {start : String}

/-- The variable is meant for a setting. -/
def isReserved (name : String) : Bool := ['s', 'c', '_'].isPrefixOf (name.toList.map lowerCase)

/-- An environment without the variables that are meant for settings. -/
def unreserved (env : Environment) : Environment := env.filter fun entry => !isReserved entry.1

/-- Of the variables meant for settings there are two: the location and the name, spelled with a
beginning. -/
def Overrides (env : Environment) (start : String) (settings : HomeSettings) : Prop :=
  (env.filter fun entry => isReserved entry.1).Perm
    [(start ++ "HOME_DIR_LOCATION", settings.location), (start ++ "HOME_DIR_NAME", settings.name)]

/-- Only variables that are meant for settings assign to one. -/
theorem key?_eq_none_of_not_isReserved {name : String} (h : isReserved name = false) :
    key? name = none := by
  rw [key?]
  refine if_neg fun hstart => ?_
  have hprefix := List.isPrefixOf_iff_prefix.mp hstart
  have hreserved : ['s', 'c', '_'] <+: name.toList.map lowerCase :=
    List.IsPrefix.trans (List.prefix_append ['s', 'c', '_'] ['_']) hprefix
  rw [isReserved, List.isPrefixOf_iff_prefix.mpr hreserved] at h
  exact Bool.noConfusion h

theorem assignments_unreserved (env : Environment) : env.unreserved.assignments = [] := by
  refine List.filterMap_eq_nil_iff.mpr ?_
  rintro ⟨name, value⟩ hmem
  have hreserved : isReserved name = false := by
    simpa using (List.mem_filter.mp hmem).2
  show (key? name).map _ = none
  rw [key?_eq_none_of_not_isReserved hreserved, Option.map_none]

theorem get?_unreserved {name : String} (h : isReserved name = false) :
    env.unreserved.get? name = env.get? name :=
  get?_filter fun _ => by simp [h]

/-- All assignments of an environment that gives the home settings. -/
theorem Overrides.assignments (h : env.Overrides start settings) :
    env.assignments.Perm (Environment.assignments
      [(start ++ "HOME_DIR_LOCATION", settings.location),
        (start ++ "HOME_DIR_NAME", settings.name)]) := by
  have hreserved : Environment.assignments (env.filter fun entry => isReserved entry.1) =
      env.assignments :=
    assignments_filter fun _ _ hnot => key?_eq_none_of_not_isReserved hnot
  rw [← hreserved]
  exact h.filterMap _

/-- With one underscore nothing is assigned. -/
theorem Overrides.assignments_eq_nil (h : env.Overrides "SC_" settings) : env.assignments = [] := by
  have hlocation : key? ("SC_" ++ "HOME_DIR_LOCATION") = none := by decide +kernel
  have hname : key? ("SC_" ++ "HOME_DIR_NAME") = none := by decide +kernel
  have hperm := h.assignments
  rw [assignments_cons, assignments_cons, hlocation, hname] at hperm
  exact List.perm_nil.mp hperm

/-- With two underscores both settings are assigned to. -/
theorem Overrides.assignments_perm (h : env.Overrides "SC__" settings) :
    env.assignments.Perm
      [(locationKey, .scalar settings.location), (nameKey, .scalar settings.name)] := by
  have hlocation : key? ("SC__" ++ "HOME_DIR_LOCATION") = some locationKey := by decide +kernel
  have hname : key? ("SC__" ++ "HOME_DIR_NAME") = some nameKey := by decide +kernel
  have hperm := h.assignments
  rw [assignments_cons, assignments_cons, hlocation, hname] at hperm
  exact hperm

end Environment

/-! ## The two spellings -/

namespace Settings

variable {disk : Disk} {stem : String} {fields : List (String × Data)} {env : Environment}
  {settings : HomeSettings} {host : Host}

/-- What is found after a text was assigned to a setting. -/
theorem Layers.lookup_assign_scalar {key : String} (names : Key.Names key) (found : Layers)
    (text name : String) : (found.assign key (.scalar text)).lookup name =
      if name = key then some (.scalar text) else found.lookup name := by
  rw [lookup_assign, names]
  rfl

/-- What is found when a source assigns to both settings and to nothing else. -/
theorem lookup_assignAll_of_perm {source : List (String × Setting)} {location name : String}
    (h : source.Perm [(locationKey, .scalar location), (nameKey, .scalar name)]) (found : Layers) :
    (found.assignAll source).lookup locationKey = some (.scalar location) ∧
      (found.assignAll source).lookup nameKey = some (.scalar name) := by
  have hassign := Layers.lookup_assign_scalar isSettingName_locationKey.names
  have hassignName := Layers.lookup_assign_scalar isSettingName_nameKey.names
  have hne : locationKey ≠ nameKey := by decide
  -- neither assignment comes near the other's setting, so their order does not matter
  rcases List.perm_pair.mp h with rfl | rfl
  · simp [Layers.assignAll, hassign, hassignName, hne]
  · simp [Layers.assignAll, hassign, hassignName, hne.symm]

/-- Home settings that are assigned by the environment are loaded, whatever the file says. -/
theorem load_of_assignments_perm (table : disk.SettingsTable host.formats stem fields)
    (h : env.assignments.Perm
      [(locationKey, .scalar settings.location), (nameKey, .scalar settings.name)])
    (location : Text.trim settings.location ≠ "") (name : Text.trim settings.name ≠ "") :
    load disk env stem host = .ok settings := by
  obtain ⟨source, hfound⟩ := exists_layers table env
  obtain ⟨hlocation, hname⟩ := lookup_assignAll_of_perm h
    ((Layers.assignAll [] (defaults env host)).assignAll (Setting.ofFields source fields))
  have hlocationText : Layers.text _ locationKey = .ok (some settings.location) :=
    text_of_lookup hlocation
  have hnameText : Layers.text _ nameKey = .ok (some settings.name) := text_of_lookup hname
  rw [load_of_text hfound hlocationText hnameText]
  dsimp only
  rw [if_neg location, if_neg name]

/-- Home settings that are given by variables with one underscore are passed over: what is loaded is
what the file and the defaults say. Given with two underscores, they are what is loaded. -/
theorem load_of_overrides (table : disk.SettingsTable host.formats stem fields)
    (location : Text.trim settings.location ≠ "") (name : Text.trim settings.name ≠ "") :
    (∀ env : Environment, env.Overrides "SC_" settings →
      load disk env stem host = load disk env.unreserved stem host) ∧
    (∀ env : Environment, env.Overrides "SC__" settings →
      load disk env stem host = .ok settings) := by
  constructor
  · intro env h
    have hhome : env.get? "HOME" = env.unreserved.get? "HOME" :=
      (Environment.get?_unreserved (by decide +kernel)).symm
    have hassignments : env.assignments = env.unreserved.assignments := by
      rw [h.assignments_eq_nil, Environment.assignments_unreserved]
    exact load_congr hhome hassignments disk stem host
  · intro env h
    exact load_of_assignments_perm table h.assignments_perm location name

/-- A disk without a settings file. -/
def plainDisk : Disk := ⟨Tree.bare ⟨0o755⟩, [], ⟨0o022⟩⟩

/-- An environment that gives the home settings of an application in some spelling. -/
def applicationVariables (start : String) : Environment :=
  [("HOME", "/home/alice"), (start ++ "HOME_DIR_LOCATION", "/srv"), (start ++ "HOME_DIR_NAME", "app")]

/-- An application's settings with one underscore leave the user with the defaults. -/
theorem load_of_overrides_applicationVariables :
    (applicationVariables "SC_").Overrides "SC_" ⟨"/srv", "app"⟩ ∧
      load plainDisk (applicationVariables "SC_") "fileaccess" =
        .ok ⟨"/home/alice", ".sip-communicator"⟩ ∧
      (applicationVariables "SC__").Overrides "SC__" ⟨"/srv", "app"⟩ ∧
      load plainDisk (applicationVariables "SC__") "fileaccess" = .ok ⟨"/srv", "app"⟩ := by
  have table : plainDisk.SettingsTable ({} : Host).formats "fileaccess" [] :=
    .absent (Option.isNone_iff_eq_none.mp (by decide +kernel))
  have single : (applicationVariables "SC_").Overrides "SC_" ⟨"/srv", "app"⟩ := by
    unfold Environment.Overrides
    decide +kernel
  have doubled : (applicationVariables "SC__").Overrides "SC__" ⟨"/srv", "app"⟩ := by
    unfold Environment.Overrides
    decide +kernel
  have location : Text.trim (⟨"/srv", "app"⟩ : HomeSettings).location ≠ "" := by decide +kernel
  have name : Text.trim (⟨"/srv", "app"⟩ : HomeSettings).name ≠ "" := by decide +kernel
  have hdefaults : load plainDisk (applicationVariables "SC_").unreserved "fileaccess" =
      .ok ⟨"/home/alice", ".sip-communicator"⟩ := by decide +kernel
  have hload := load_of_overrides table location name
  exact ⟨single, (hload.1 _ single).trans hdefaults, doubled, hload.2 _ doubled⟩

end Settings

end UserStorage
