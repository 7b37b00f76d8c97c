import UserStorage.Path.Parent

/-!
# File names, extensions and relative paths

What else is read off a path without looking at a disk: the components it names, the last of them
with its extension, a path put behind another, and a path as seen from a directory.

## Main definitions

* `Path.components`: the components of a path, the root first
* `Path.fileName?`, `Path.extension?`: the last component, when it is a name, and its extension
* `Path.appendExtension`: a path whose file name got one more extension
* `Path.under`: a path taken relative to a directory
* `Path.relativeTo`: an absolute path as seen from another
-/

namespace UserStorage.Path

/-- The components of a path as text: the root of an absolute path is `/`, a leading `.` of a
relative one stays, other idle pieces are no components. -/
def components (path : String) : List String :=
  match pieces path with
  | [] => []
  | first :: body =>
    let named := body.filter (!isIdle ·)
    if first = "" then (if isAbsolute path then ["/"] else []) ++ named else first :: named

/-- The pieces of a path in reverse, from its last component on. -/
def fromLastComponent (path : String) : List String := (pieces path).reverse.dropWhile isIdle

/-- The last component of a path, unless that is `..`; idle pieces behind it do not count. -/
def fileName? (path : String) : Option String :=
  match fromLastComponent path with
  | [] => none
  | name :: _ => if name = ".." then none else some name

/-- What follows the last dot of a file name; a dot at the start of the name begins no extension. -/
def extensionOf? (name : String) : Option String :=
  let cs := name.toList.reverse
  match cs.dropWhile (· != '.') with
  | [] => none
  | _ :: stem => if stem = [] then none else some (String.ofList (cs.takeWhile (· != '.')).reverse)

/-- The extension of the file that a path names. -/
def extension? (path : String) : Option String := (fileName? path).bind extensionOf?

/-- The path whose file name has `.extension` behind it. What follows the file name in the path is
dropped; a path that names no file stays as it is. -/
def appendExtension (path extension : String) : String :=
  match fromLastComponent path with
  | [] => path
  | name :: before =>
    if name = ".." then path else ofPieces ((name ++ "." ++ extension) :: before).reverse

/-- The path `path` taken from the directory `base`: an absolute path is itself, a relative one
follows the base after a slash. -/
def under (base path : String) : String :=
  if isAbsolute path then path
  else if base = "" then path
  else withTrailingSeparator base ++ path

/-- Two lists without their longest common beginning. -/
def dropCommon : List String → List String → List String × List String
  | p :: ps, q :: qs => if p = q then dropCommon ps qs else (p :: ps, q :: qs)
  | ps, qs => (ps, qs)

/-- An absolute path as seen from the absolute directory `base`: one `..` for each component of
the base that the two do not share, then the rest of the path. -/
def relativeTo (path base : String) : String :=
  let (down, up) := dropCommon (components path) (components base)
  ofPieces (up.map (fun _ => "..") ++ down)

end UserStorage.Path
