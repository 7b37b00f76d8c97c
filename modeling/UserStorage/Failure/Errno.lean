/-!
# System errors

The errors with which an operating system refuses a call: their number, their text and the kind
that callers tell them apart by.

## Main definitions

* `FailureKind`: what a failed operation failed of, as far as callers care
* `Errno`: the errors of the system, with `Errno.number`, `Errno.text` and `Errno.kind`
-/

namespace UserStorage

/-- What a failed operation failed of. -/
inductive FailureKind
  | permissionDenied | notFound | interrupted | inputOutputError | wouldBlock | outOfMemory
  | resourceBusy | alreadyExists | crossesDevices | notADirectory | isADirectory | invalidInput
  | tooManyOpenFiles | executableFileBusy | fileTooLarge | storageFull | readOnlyFilesystem
  | tooManyLinks | invalidFilename | directoryNotEmpty | filesystemLoop | staleNetworkFileHandle
  | quotaExceeded | other
  deriving DecidableEq, Repr

/-- The name a kind is reported under. -/
def FailureKind.label : FailureKind → String
  | permissionDenied => "PermissionDenied"
  | notFound => "NotFound"
  | interrupted => "Interrupted"
  | inputOutputError => "InputOutputError"
  | wouldBlock => "WouldBlock"
  | outOfMemory => "OutOfMemory"
  | resourceBusy => "ResourceBusy"
  | alreadyExists => "AlreadyExists"
  | crossesDevices => "CrossesDevices"
  | notADirectory => "NotADirectory"
  | isADirectory => "IsADirectory"
  | invalidInput => "InvalidInput"
  | tooManyOpenFiles => "TooManyOpenFiles"
  | executableFileBusy => "ExecutableFileBusy"
  | fileTooLarge => "FileTooLarge"
  | storageFull => "StorageFull"
  | readOnlyFilesystem => "ReadOnlyFilesystem"
  | tooManyLinks => "TooManyLinks"
  | invalidFilename => "InvalidFilename"
  | directoryNotEmpty => "DirectoryNotEmpty"
  | filesystemLoop => "FilesystemLoop"
  | staleNetworkFileHandle => "StaleNetworkFileHandle"
  | quotaExceeded => "QuotaExceeded"
  | other => "Other"

/-- The errors of the system. -/
inductive Errno
  | notPermitted | notFound | interrupted | inputOutput | tryAgain | outOfMemory | accessDenied
  | busy | alreadyExists | crossDevice | notDirectory | isDirectory | invalidArgument
  | tooManyOpenInSystem | tooManyOpen | textBusy | fileTooLarge | noSpace | readOnly
  | tooManyLinks | nameTooLong | notEmpty | linkLoop | staleHandle | quotaExceeded
  deriving DecidableEq, Repr

namespace Errno

/-- Every error of the system. -/
def all : List Errno :=
  [notPermitted, notFound, interrupted, inputOutput, tryAgain, outOfMemory, accessDenied, busy,
    alreadyExists, crossDevice, notDirectory, isDirectory, invalidArgument, tooManyOpenInSystem,
    tooManyOpen, textBusy, fileTooLarge, noSpace, readOnly, tooManyLinks, nameTooLong, notEmpty,
    linkLoop, staleHandle, quotaExceeded]

/-- The number of an error. -/
def number : Errno → Nat
  | notPermitted => 1
  | notFound => 2
  | interrupted => 4
  | inputOutput => 5
  | tryAgain => 11
  | outOfMemory => 12
  | accessDenied => 13
  | busy => 16
  | alreadyExists => 17
  | crossDevice => 18
  | notDirectory => 20
  | isDirectory => 21
  | invalidArgument => 22
  | tooManyOpenInSystem => 23
  | tooManyOpen => 24
  | textBusy => 26
  | fileTooLarge => 27
  | noSpace => 28
  | readOnly => 30
  | tooManyLinks => 31
  | nameTooLong => 36
  | notEmpty => 39
  | linkLoop => 40
  | staleHandle => 116
  | quotaExceeded => 122

/-- The error of a number. -/
def ofNumber? (n : Nat) : Option Errno := all.find? (·.number == n)

/-- The text of an error. -/
def text : Errno → String
  | notPermitted => "Operation not permitted"
  | notFound => "No such file or directory"
  | interrupted => "Interrupted system call"
  | inputOutput => "Input/output error"
  | tryAgain => "Resource temporarily unavailable"
  | outOfMemory => "Cannot allocate memory"
  | accessDenied => "Permission denied"
  | busy => "Device or resource busy"
  | alreadyExists => "File exists"
  | crossDevice => "Invalid cross-device link"
  | notDirectory => "Not a directory"
  | isDirectory => "Is a directory"
  | invalidArgument => "Invalid argument"
  | tooManyOpenInSystem => "Too many open files in system"
  | tooManyOpen => "Too many open files"
  | textBusy => "Text file busy"
  | fileTooLarge => "File too large"
  | noSpace => "No space left on device"
  | readOnly => "Read-only file system"
  | tooManyLinks => "Too many links"
  | nameTooLong => "File name too long"
  | notEmpty => "Directory not empty"
  | linkLoop => "Too many levels of symbolic links"
  | staleHandle => "Stale file handle"
  | quotaExceeded => "Disk quota exceeded"

/-- The kind of an error. -/
def kind : Errno → FailureKind
  | notPermitted | accessDenied => .permissionDenied
  | notFound => .notFound
  | interrupted => .interrupted
  | inputOutput => .inputOutputError
  | tryAgain => .wouldBlock
  | outOfMemory => .outOfMemory
  | busy => .resourceBusy
  | alreadyExists => .alreadyExists
  | crossDevice => .crossesDevices
  | notDirectory => .notADirectory
  | isDirectory => .isADirectory
  | invalidArgument => .invalidInput
  | tooManyOpenInSystem | tooManyOpen => .tooManyOpenFiles
  | textBusy => .executableFileBusy
  | fileTooLarge => .fileTooLarge
  | noSpace => .storageFull
  | readOnly => .readOnlyFilesystem
  | tooManyLinks => .tooManyLinks
  | nameTooLong => .invalidFilename
  | notEmpty => .directoryNotEmpty
  | linkLoop => .filesystemLoop
  | staleHandle => .staleNetworkFileHandle
  | quotaExceeded => .quotaExceeded

end Errno

end UserStorage
