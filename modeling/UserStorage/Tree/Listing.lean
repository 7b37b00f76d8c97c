import UserStorage.Path.Pieces
import UserStorage.Tree.Basic

/-!
# Listing a tree

One line for each entry below a directory: a letter for its kind, the permission bits, and its path
as seen from that directory; a link shows its target instead of bits.

## Main definitions

* `Entry.line`: the line of one entry
* `Location.path`: the absolute path of a location
* `Tree.listing`: the lines of all that lies below a directory
-/

namespace UserStorage

/-- The line of an entry at a path. -/
def Entry.line (path : String) : Entry → String
  | directory m => "d " ++ m.octal ++ " " ++ path
  | file m _ => "f " ++ m.octal ++ " " ++ path
  | fifo m => "p " ++ m.octal ++ " " ++ path
  | link target => "l " ++ path ++ " -> " ++ target

/-- The absolute path of a location. -/
def Location.path (l : Location) : String := "/" ++ Path.ofPieces l.reverse

namespace Tree

/-- The names that lead from the directory `base` down to a location below it. -/
def below? (base l : Location) : Option (List Name) :=
  if isWithin base l ∧ base ≠ l then some (l.take (l.length - base.length)).reverse else none

/-- A line for each entry below the directory `base`. -/
def listing (t : Tree) (base : Location) : List String :=
  t.entries.toList.filterMap fun (l, e) =>
    (below? base l).map fun names => e.line (Path.ofPieces names)

end Tree

end UserStorage
