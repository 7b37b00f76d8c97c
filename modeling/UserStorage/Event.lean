import UserStorage.StorageError

/-!
# Log events

What the library reports while it works: each event has a level, the target it is filed under and
a text.

## Main definitions

* `Level`: the levels of a log, from errors down to traces
* `Event`: the events, with `Event.level`, `Event.target` and `Event.message`
-/

namespace UserStorage

/-- The levels of a log, the gravest first. -/
inductive Level
  | error | warn | info | debug | trace
  deriving DecidableEq, Repr

namespace Level

/-- The rank of a level: the graver, the lower. -/
def rank : Level → Nat
  | error => 1
  | warn => 2
  | info => 3
  | debug => 4
  | trace => 5

/-- The name of a level. -/
def name : Level → String
  | error => "ERROR"
  | warn => "WARN"
  | info => "INFO"
  | debug => "DEBUG"
  | trace => "TRACE"

end Level

/-- What the library reports. -/
inductive Event
  | configurationRegistered
  | configurationUnregistered
  | creatingHome (directory : String)
  | homeCreated (directory : String)
  | homeNotCreated (directory : String) (cause : IoError)
  | directoryNotWritable (directory file : String)
  | existingFileDenied (file : String)
  | directoryConflict (directory : String)
  | directoryNotCreated (directory : String) (cause : IoError)
  | privateDirectoryCreated (directory : String)
  | fileDenied (file : String)
  | scratchFileNotCreated (cause : IoError)
  | scratchFileCreated (path : String)
  | placeholderNotDeleted (path : String) (cause : IoError)
  | scratchDirectoryNotCreated (path : String) (cause : IoError)
  | scratchDirectoryCreated (path : String)
  | settingsLoaded (location name : String)
  | settingsNotLoaded (reason : String)
  | requestFailed (error : StorageError)
  deriving DecidableEq, Repr

namespace Event

/-- The level of an event. -/
def level : Event → Level
  | homeNotCreated .. | directoryConflict _ | directoryNotCreated .. | scratchFileNotCreated _
  | placeholderNotDeleted .. | scratchDirectoryNotCreated .. | settingsNotLoaded _
  | requestFailed _ => .error
  | directoryNotWritable .. | existingFileDenied _ | fileDenied _ => .warn
  | privateDirectoryCreated _ | scratchDirectoryCreated _ | settingsLoaded .. => .info
  | configurationRegistered | configurationUnregistered | creatingHome _ | homeCreated _
  | scratchFileCreated _ => .debug

/-- The target an event is filed under. -/
def target : Event → String
  | configurationRegistered | configurationUnregistered => "sc_fileaccess::service::registry"
  | creatingHome _ | homeCreated _ | homeNotCreated .. | directoryNotWritable ..
  | existingFileDenied _ | directoryConflict _ | directoryNotCreated ..
  | privateDirectoryCreated _ => "sc_fileaccess::storage::operations"
  | fileDenied _ => "sc_fileaccess::service::core"
  | scratchFileNotCreated _ | scratchFileCreated _ | placeholderNotDeleted ..
  | scratchDirectoryNotCreated .. | scratchDirectoryCreated _ =>
    "sc_fileaccess::temp::operations"
  | settingsLoaded .. | settingsNotLoaded _ => "sc_fileaccess"
  | requestFailed _ => "sc_fileaccess::error::handlers"

/-- The text of an event. -/
def message : Event → String
  | configurationRegistered => "New configuration service registered."
  | configurationUnregistered => "Configuration service unregistered."
  | creatingHome directory => "Creating home directory : " ++ directory
  | homeCreated directory => "Home directory created : " ++ directory
  | homeNotCreated directory cause =>
    "Could not create the home directory : " ++ directory ++ ": " ++ cause.text
  | directoryNotWritable directory file =>
    "Directory " ++ directory ++ " is not writable, cannot provide " ++ file
  | existingFileDenied file => "Insufficient rights on existing file " ++ file
  | directoryConflict directory =>
    "Could not create directory because a file exists with this name: " ++ directory
  | directoryNotCreated directory cause =>
    "Could not create directory " ++ directory ++ ": " ++ cause.text
  | privateDirectoryCreated directory => "Created private directory " ++ directory
  | fileDenied file =>
    "Insufficient rights to access " ++ file ++ " in current user's home directory"
  | scratchFileNotCreated cause => "Could not create temporary file: " ++ cause.text
  | scratchFileCreated path => "Created temporary file " ++ path
  | placeholderNotDeleted path cause =>
    "Could not delete temporary file " ++ path ++ " to make room for a directory: " ++ cause.text
  | scratchDirectoryNotCreated path cause =>
    "Could not create temporary directory " ++ path ++ ": " ++ cause.text
  | scratchDirectoryCreated path => "Created temporary directory " ++ path
  | settingsLoaded location name =>
    "Home directory location " ++ location ++ ", name " ++ name
  | settingsNotLoaded reason => "Failed to load configuration: " ++ reason
  | requestFailed error => "File access error: " ++ error.message

/-- An event on one line: its level, its target and its text. -/
def line (e : Event) : String := e.level.name ++ " " ++ e.target ++ " " ++ e.message

end Event

end UserStorage
