import UserStorage.Tree.Walk

/-!
# Edits from outside

Changes to a tree by somebody whom permission bits do not stop, at paths taken from a base
directory: an entry put in place, an entry taken away with all below it, other permission bits.
An edit at a path that leads nowhere changes nothing.

## Main definitions

* `Edit`, `Tree.edit`: the edits, and a tree after one
-/

namespace UserStorage

/-- The changes that somebody can make to a tree from outside. -/
inductive Edit
  /-- Puts an entry at a path; an entry there that is no directory makes room for it. -/
  | put (path : String) (entry : Entry)
  /-- Takes away the entry at a path and all below it. -/
  | takeAway (path : String)
  /-- Gives the entry that a path leads to other permission bits. -/
  | setMode (path : String) (mode : Mode)

namespace Tree

/-- A tree after an edit, whose path is taken from the directory `base`. -/
def edit (t : Tree) (base : Location) : Edit → Tree
  | .put path e =>
    match t.resolveParent Searchable.all base path with
    | .ok (some (n, d)) => (t.remove (n :: d)).add n d e
    | _ => t
  | .takeAway path =>
    match t.resolveParent Searchable.all base path with
    | .ok (some (n, d)) => t.removeAll (n :: d)
    | _ => t
  | .setMode path m =>
    match t.resolve Searchable.all base true path with
    | .ok l => t.setMode l m
    | .error _ => t

end Tree

end UserStorage
