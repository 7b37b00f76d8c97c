import UserStorage.Path.Pieces

/-!
# The lexical parent of a path

What is left of a path without its last component, read off the string alone. Empty pieces and `.`
pieces are no components, a leading `.` of a relative path excepted; `..` is a component like any
other, so the parent of `a/..` is `a`, whatever `a` may be on a disk.

## Main definitions

* `Path.ancestors`: the parent of a path, the parent of that and so on
* `Path.parent?`: the lexical parent; the root and the empty path have none
-/

namespace UserStorage.Path

/-- The pieces that are no components: a repeated slash leaves the empty one, and `.` stays where
it is. -/
def isIdle (piece : String) : Bool := piece == "" || piece == "."

/-- What remains of some pieces, last piece first, as one component after the other is taken off;
the pieces that are idle at the new end go with each. -/
def above : List String → List (List String)
  | [] => []
  | p :: ps => if isIdle p then above ps else ps.dropWhile isIdle :: above ps

/-- The pieces of the ancestors, nearest first. The piece before the first slash of an absolute
path stands for the root, a leading `.` for the working directory, which is the last ancestor of
every relative path. -/
def ancestorPieces : List String → List (List String)
  | [] => []
  | first :: body =>
    if first = "" ∧ body ≠ [] then
      (above body.reverse).map fun rest => if rest = [] then ["", ""] else "" :: rest.reverse
    else if first = "." then
      (above body.reverse).map (fun rest => "." :: rest.reverse) ++ [[]]
    else (above (first :: body).reverse).map List.reverse

/-- The lexical ancestors of a path, nearest first. Those of an absolute path end with the root,
those of a relative path with the empty path. -/
def ancestors (path : String) : List String := (ancestorPieces (pieces path)).map ofPieces

/-- The lexical parent of a path. A single relative component has the empty path as its parent;
the root and the empty path have none. -/
def parent? (path : String) : Option String := (ancestors path).head?

end UserStorage.Path
