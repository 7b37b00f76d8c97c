import UserStorage.Tree.Edit
import UserStorage.Tree.Listing

/-!
# The tree of a listing

Reads the lines of a listing back into a tree. A listing shows no content, so files are empty; the
entries come in any order, and a line that shows no entry is passed over.

## Main definitions

* `Entry.ofLine?`: the path and the entry that a line shows
* `Tree.ofListing`: the tree that some lines show
-/

namespace UserStorage

/-- The path and the entry that a line shows. -/
def Entry.ofLine? (line : String) : Option (String × Entry) :=
  match line.splitOn " " with
  | "l" :: words =>
    match (String.intercalate " " words).splitOn " -> " with
    | [path, target] => some (path, .link target)
    | _ => none
  | kind :: digits :: words => do
    let mode ← Mode.ofOctal? digits
    let path := String.intercalate " " words
    match kind with
    | "d" => return (path, .directory mode)
    | "f" => return (path, .file mode .empty)
    | "p" => return (path, .fifo mode)
    | _ => none
  | _ => none

/-- The tree that some lines show below its root. Entries nearer to the root are put in place
first. -/
def Tree.ofListing (rootMode : Mode) (lines : List String) : Tree :=
  let entries := (lines.filterMap Entry.ofLine?).mergeSort fun (p, _) (q, _) =>
    (Path.pieces p).length ≤ (Path.pieces q).length
  entries.foldl (fun t (path, e) => t.edit [] (.put path e)) (Tree.bare rootMode)

end UserStorage
