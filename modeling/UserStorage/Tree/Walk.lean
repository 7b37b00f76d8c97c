import UserStorage.Failure.Errno
import UserStorage.Path.Pieces
import UserStorage.Tree.Basic

/-!
# Walking a path

Where a path leads in a tree. The walk goes piece by piece from a directory. An empty piece stays
and only asks that there is a directory; any other piece needs the right to search the directory
it is looked up in. A link is followed, by walking its target's pieces before what is left, unless
it stands at the very end and the caller wants the link itself. At most 40 links are followed.

So a path with a slash at its end leads to a directory or nowhere, and `a/..` leads nowhere unless
there is a directory `a`.

## Main definitions

* `Tree.walk`: the walk along some pieces
* `Tree.resolve`: where a path leads
* `Tree.resolveParent`: the directory and the name that a path is made or removed at
-/

namespace UserStorage

/-- Which directories may be searched, by their permission bits. -/
abbrev Searchable := Mode → Bool

/-- Permission bits do not count. -/
def Searchable.all : Searchable := fun _ => true

/-- A name may have 255 bytes. -/
def maxNameBytes : Nat := 255

/-- A path may have 4095 bytes. -/
def maxPathBytes : Nat := 4095

/-- A walk may follow 40 links. -/
def maxLinks : Nat := 40

namespace Tree

/-- Where a walk along a path begins: at the root, or at the working directory. -/
def startOf (cwd : Location) (path : String) : Location :=
  if Path.isAbsolute path then [] else cwd

/-- The walk from `cur` along some pieces, up to the first link that has to be followed: there it
goes on with `follow`, given the directory that the link's target starts from and the pieces of
the target before those that are left. -/
def advance (t : Tree) (may : Searchable) (followLast : Bool)
    (follow : Location → List String → Except Errno Location) :
    Location → List String → Except Errno Location
  | cur, [] => .ok cur
  | cur, piece :: rest =>
    match t.get? cur with
    | some (.directory m) =>
      if piece = "" then t.advance may followLast follow cur rest
      else if !may m then .error .accessDenied
      else if piece = "." then t.advance may followLast follow cur rest
      else if piece = ".." then t.advance may followLast follow cur.tail rest
      else if maxNameBytes < piece.utf8ByteSize then .error .nameTooLong
      else match t.get? (piece :: cur) with
        | none => .error .notFound
        | some (.link target) =>
          if rest.isEmpty && !followLast then .ok (piece :: cur)
          else follow (startOf cur target) (Path.pieces target ++ rest)
        | some _ => t.advance may followLast follow (piece :: cur) rest
    | some _ => .error .notDirectory
    | none => .error .notFound

/-- The walk from a location along some pieces, following at most `links` links. -/
def walk (t : Tree) (may : Searchable) (followLast : Bool) :
    Nat → Location → List String → Except Errno Location
  | 0 => t.advance may followLast fun _ _ => .error .linkLoop
  | links + 1 => t.advance may followLast (t.walk may followLast links)

/-- A path is refused at once when it is empty or too long. -/
def accept (path : String) : Except Errno Unit :=
  if path = "" then .error .notFound
  else if maxPathBytes < path.utf8ByteSize then .error .nameTooLong
  else .ok ()

/-- The location a path leads to. With `followLast` a link at its end is followed too. -/
def resolve (t : Tree) (may : Searchable) (cwd : Location) (followLast : Bool) (path : String) :
    Except Errno Location := do
  accept path
  t.walk may followLast maxLinks (startOf cwd path) (Path.pieces path)

/-- The pieces before the last one that is not empty, and that one; the slashes behind it are
dropped. A path of slashes has none. -/
def splitLast (ps : List String) : Option (List String × String) :=
  match ps.reverse.dropWhile (· == "") with
  | [] => none
  | last :: before => some (before.reverse, last)

/-- What a path that is to be made or removed names: the directory it is looked up in, which must
grant searching, and its last piece. `none` stands for the root, `.` and `..`, which are in no
directory by that name. -/
def resolveParent (t : Tree) (may : Searchable) (cwd : Location) (path : String) :
    Except Errno (Option (Name × Location)) := do
  accept path
  match splitLast (Path.pieces path) with
  | none => .ok none
  | some (before, last) =>
    let d ← t.walk may true maxLinks (startOf cwd path) (before ++ ["."])
    if last = "." ∨ last = ".." then .ok none
    else if maxNameBytes < last.utf8ByteSize then .error .nameTooLong
    else .ok (some (last, d))

end Tree

end UserStorage
