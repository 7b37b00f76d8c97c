import UserStorage.Disk.Call
import UserStorage.Path.Name
import UserStorage.Settings.Layer
import UserStorage.Settings.Names
import UserStorage.Tree.Listing

/-!
# The settings file

Settings may come from a file, which is given by its path without extension. A file at exactly this
path is taken first, and then a format has to have its extension; otherwise each extension of each
format is put behind the path in turn. A file that is not there, that may not be read or that holds
no UTF-8 gives no settings. One that is no table in its format is an error.

Which formats there are, and in which order they are gone through, is not fixed here. TOML and JSON
are described; of another format only the table that it makes of a text is asked for.

## Main definitions

* `Format`, `Format.toml`, `Format.json`: the formats of settings files
* `Disk.settingsFile?`: the file of a path without extension
* `Disk.fileAssignments`: what the file assigns
-/

namespace UserStorage

namespace Settings

/-- A format of settings files. -/
structure Format where
  /-- The extensions of files in the format. -/
  extensions : List String
  /-- The table that a text is in the format, if it is one. -/
  parse : String → Option (List (String × Data))
  /-- No name stands twice in a table. -/
  namedOnce {text : String} {fields : List (String × Data)} (h : parse text = some fields) :
    NamedOnce fields

namespace Format

/-- Texts in TOML. -/
def toml : Format where
  extensions := ["toml"]
  parse text := (Toml.parse text).bind Data.fields?
  namedOnce h := by
    obtain ⟨d, hparse, hfields⟩ := Option.bind_eq_some_iff.mp h
    obtain rfl := Data.eq_table_of_fields? hfields
    exact Toml.namedOnce_of_parse hparse

/-- Texts in JSON. -/
def json : Format where
  extensions := ["json"]
  parse text := (Json.parse text).bind Data.fields?
  namedOnce h := by
    obtain ⟨d, hparse, hfields⟩ := Option.bind_eq_some_iff.mp h
    obtain rfl := Data.eq_table_of_fields? hfields
    exact Json.namedOnce_of_parse hparse

/-- The format that has the extension of a path, if one of some formats has. -/
def ofPath? (formats : List Format) (path : String) : Option Format :=
  formats.find? fun format => (Path.extension? path).getD "" ∈ format.extensions

/-- The paths that get an extension of one of some formats, in order. -/
def candidates (formats : List Format) (path : String) : List (String × Format) :=
  formats.flatMap fun format =>
    format.extensions.map fun extension => (Path.appendExtension path extension, format)

end Format

end Settings

namespace Disk

open Settings

/-- The path of the working directory. -/
def cwdPath (disk : Disk) : String := Location.path disk.cwd

/-- The path leads to a regular file. -/
def isFile (disk : Disk) (path : String) : Bool :=
  (disk.lookup? true path).map Entry.kind == some .file

/-- The text of the file that a path leads to: the file has to grant reading and to be UTF-8. -/
def readText? (disk : Disk) (path : String) : Option String :=
  match disk.lookup? true path with
  | some (.file mode content) => if mode.ownerMayRead then String.fromUTF8? content else none
  | _ => none

/-- The settings file of a path without extension, and its format. -/
def settingsFile? (disk : Disk) (formats : List Format) (stem : String) :
    Option (String × Format) :=
  let path := Path.under disk.cwdPath stem
  if disk.isFile path then (Format.ofPath? formats path).map (path, ·)
  else (Format.candidates formats path).find? fun (file, _) => disk.isFile file

/-- The assignments of the settings file, in its order; an error names the file, as it is seen from
the working directory, when that is no table in its format. -/
def fileAssignments (disk : Disk) (formats : List Format) (stem : String) :
    Except String (List (String × Setting)) :=
  let found := do
    let (file, format) ← disk.settingsFile? formats stem
    return (file, format, ← disk.readText? file)
  match found with
  | none => .ok []
  | some (file, format, text) =>
    let source := Path.relativeTo file disk.cwdPath
    match format.parse text with
    | none => .error source
    | some fields => .ok (Setting.ofFields source fields)

end Disk

end UserStorage
