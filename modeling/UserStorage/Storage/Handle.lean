/-!
# Handles

What a storage request answers with: the path that was asked for, and what it granted at the
moment it was looked at.

## Main definitions

* `Handle`: a path with its access flags
* `Probe`: the outcome of looking for a private file
-/

namespace UserStorage

/-- A path with what it granted when it was resolved. -/
structure Handle where
  path : String
  isPresent : Bool
  isReadable : Bool
  isWritable : Bool
  deriving DecidableEq, Repr

/-- The outcome of looking for a private file. -/
inductive Probe
  /-- The file is usable, or can be made in its directory. -/
  | accessible (handle : Handle)
  /-- Neither the file nor its directory grants what is needed. -/
  | denied (path : String)
  deriving DecidableEq, Repr

end UserStorage
