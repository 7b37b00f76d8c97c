import UserStorage.Failure.Errno
import UserStorage.Text.Quoted

/-!
# Failures of input and output

What an operation on the file system answers when it fails: mostly an error of the system, but a
path with a NUL character is refused before the system sees it, and the search for an unused
scratch name may give up.

## Main definitions

* `IoError`: the causes, with `IoError.text` and `IoError.kind`
-/

namespace UserStorage

/-- The causes for which an operation on the file system fails. -/
inductive IoError
  /-- The system refused the call. -/
  | system (errno : Errno)
  /-- The path holds a NUL character. -/
  | nulInPath
  /-- No unused scratch name was found. -/
  | namesExhausted
  /-- A cause given as text. -/
  | message (text : String)
  /-- A cause together with the path it was met at. -/
  | atPath (path : String) (cause : IoError)
  deriving DecidableEq, Repr

namespace IoError

/-- The text of a failure. -/
def text : IoError → String
  | system e => e.text ++ " (os error " ++ toString e.number ++ ")"
  | nulInPath => "file name contained an unexpected NUL byte"
  | namesExhausted => "too many temporary files exist"
  | message t => t
  | atPath path cause => cause.text ++ " at path " ++ Text.quoted path

/-- The kind of a failure; the path it was met at does not change it. -/
def kind : IoError → FailureKind
  | system e => e.kind
  | nulInPath => .invalidInput
  | namesExhausted => .alreadyExists
  | message _ => .other
  | atPath _ cause => cause.kind

end IoError

end UserStorage
