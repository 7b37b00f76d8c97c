import Std.Data.ExtTreeMap.Lemmas
import UserStorage.Tree.Mode

/-!
# Trees of entries

A tree gives each location the entry it holds: a directory, a file with its content, a FIFO, or a
symbolic link with its target. A location lists the names from the entry up to the root, so that
the containing directory of a location is its tail. The root is a directory and every other entry
lies in one; both are part of the type, and each operation keeps them.

Two trees with the same entries are equal, whatever was done to get them.

## Main definitions

* `Entry`, `Location`, `Tree`
* `Tree.get?`: the entry at a location
* `Tree.add`, `Tree.remove`, `Tree.removeAll`, `Tree.setMode`: the changes a tree may undergo

## Main results

* `Tree.ext`: a tree is determined by its entries
* `Tree.get?_add`, `Tree.get?_remove`: the entries after a change
-/

namespace UserStorage

/-- The name of an entry in its directory. -/
abbrev Name := String

/-- A place in a tree: the names from the entry up to the root, which is the empty list. -/
abbrev Location := List Name

/-- What a tree can hold at a location. -/
inductive Entry
  | directory (mode : Mode)
  | file (mode : Mode) (content : ByteArray)
  | fifo (mode : Mode)
  | link (target : String)

namespace Entry

/-- The entry is a directory. -/
def isDirectory : Entry → Bool
  | directory _ => true
  | _ => false

/-- The permission bits of an entry; a link has none of its own. -/
def mode? : Entry → Option Mode
  | directory m | file m _ | fifo m => some m
  | link _ => none

/-- The entry with other permission bits. -/
def withMode (m : Mode) : Entry → Entry
  | directory _ => directory m
  | file _ content => file m content
  | fifo _ => fifo m
  | link target => link target

@[simp] theorem isDirectory_withMode (m : Mode) (e : Entry) :
    (e.withMode m).isDirectory = e.isDirectory := by cases e <;> rfl

end Entry

/-- A tree of entries: the root is a directory, and so is what contains an entry. -/
structure Tree where
  /-- The entries by location. -/
  entries : Std.ExtTreeMap Location Entry
  root_isDirectory : (entries[([] : Location)]?).any Entry.isDirectory = true
  parent_isDirectory : ∀ (n : Name) (d : Location), (entries[n :: d]?).isSome = true →
    (entries[d]?).any Entry.isDirectory = true

namespace Tree

/-- The entry at a location. -/
def get? (t : Tree) (l : Location) : Option Entry := t.entries[l]?

/-- There is a directory at the location. -/
def isDirectory (t : Tree) (l : Location) : Bool := (t.get? l).any Entry.isDirectory

/-- A tree is determined by its entries. -/
theorem ext {t u : Tree} (h : ∀ l, t.get? l = u.get? l) : t = u := by
  have : t.entries = u.entries := Std.ExtTreeMap.ext_getElem? h
  cases t; cases u; cases this; rfl

theorem isDirectory_root (t : Tree) : t.isDirectory [] = true := t.root_isDirectory

/-- What contains an entry is a directory. -/
theorem isDirectory_of_get? (t : Tree) {n : Name} {d : Location} {e : Entry}
    (h : t.get? (n :: d) = some e) : t.isDirectory d = true :=
  t.parent_isDirectory n d (by simpa [get?] using congrArg Option.isSome h)

/-- The tree that holds nothing but its root. -/
def bare (m : Mode) : Tree where
  entries := (∅ : Std.ExtTreeMap Location Entry).insert [] (.directory m)
  root_isDirectory := by simp [Entry.isDirectory]
  parent_isDirectory := by simp [Std.ExtTreeMap.getElem?_insert]

theorem any_insert_of_ne (t : Tree) {k l : Location} (e : Entry) (ne : l ≠ k) :
    ((t.entries.insert k e)[l]?).any Entry.isDirectory = t.isDirectory l := by
  simp [isDirectory, get?, Std.ExtTreeMap.getElem?_insert, Ne.symm ne]

/-- The tree with a new entry in the directory `d`. Nothing changes where there is no such
directory, or where it holds the name already. -/
def add (t : Tree) (n : Name) (d : Location) (e : Entry) : Tree :=
  if h : t.isDirectory d = true ∧ (t.get? (n :: d)).isNone = true then
    { entries := t.entries.insert (n :: d) e
      root_isDirectory := by
        rw [any_insert_of_ne t e (by simp)]
        exact t.root_isDirectory
      parent_isDirectory := by
        intro m c hc
        have dir : t.isDirectory c = true := by
          by_cases same : n :: d = m :: c
          · injection same with _ same
            exact same ▸ h.1
          · rw [Std.ExtTreeMap.getElem?_insert, if_neg (by simpa using same)] at hc
            exact t.parent_isDirectory m c hc
        have ne : c ≠ n :: d := by
          rintro rfl
          simp [isDirectory, Option.isNone_iff_eq_none.mp h.2] at dir
        rw [any_insert_of_ne t e ne, dir] }
  else t

/-- The tree without the entry at the location, unless that is a directory. -/
def remove (t : Tree) (l : Location) : Tree :=
  if h : t.isDirectory l = false then
    { entries := t.entries.erase l
      root_isDirectory := by
        have ne : l ≠ [] := by
          rintro rfl
          simp [t.isDirectory_root] at h
        simpa [Std.ExtTreeMap.getElem?_erase, ne] using t.root_isDirectory
      parent_isDirectory := by
        intro m c hc
        rw [Std.ExtTreeMap.getElem?_erase] at hc
        split at hc
        · simp at hc
        have dir : t.isDirectory c = true := t.parent_isDirectory m c hc
        have ne : l ≠ c := by
          rintro rfl
          simp [h] at dir
        simpa [Std.ExtTreeMap.getElem?_erase, ne, isDirectory, get?] using dir }
  else t

/-- The location lies at `l` or below it. -/
def isWithin (l k : Location) : Bool := l.isSuffixOf k

theorem isWithin_of_tail {l d : Location} (n : Name) (h : isWithin l d = true) :
    isWithin l (n :: d) = true := by
  rw [isWithin, List.isSuffixOf_iff_suffix] at *
  exact h.trans (List.suffix_cons n d)

/-- The tree without the entry at the location and without all that lies below it; the root
stays. -/
def removeAll (t : Tree) (l : Location) : Tree :=
  if h : l = [] then t
  else
    { entries := t.entries.filter fun k _ => !isWithin l k
      root_isDirectory := by
        have keep : isWithin l [] = false := by
          cases l with
          | nil => exact absurd rfl h
          | cons n d => simp [isWithin, List.isSuffixOf]
        simpa [Std.ExtTreeMap.getElem?_filter', keep] using t.root_isDirectory
      parent_isDirectory := by
        intro m c hc
        rw [Std.ExtTreeMap.getElem?_filter', Option.isSome_filter] at hc
        have keep : isWithin l c = false := by
          by_cases within : isWithin l c = true
          · simp [isWithin_of_tail m within] at hc
          · simpa using within
        have dir := t.parent_isDirectory m c (by cases h : t.entries[m :: c]? <;> simp_all)
        simpa [Std.ExtTreeMap.getElem?_filter', keep] using dir }

/-- The tree with other permission bits on the entry at the location; links have none. -/
def setMode (t : Tree) (l : Location) (m : Mode) : Tree :=
  match h : t.get? l with
  | none => t
  | some e =>
    have same (k : Location) :
        ((t.entries.insert l (e.withMode m))[k]?).any Entry.isDirectory = t.isDirectory k := by
      by_cases eq : l = k
      · subst eq
        simp [isDirectory, h]
      · exact any_insert_of_ne t _ (Ne.symm eq)
    { entries := t.entries.insert l (e.withMode m)
      root_isDirectory := by rw [same, t.isDirectory_root]
      parent_isDirectory := by
        intro n c hc
        rw [same]
        apply t.parent_isDirectory n c
        by_cases eq : l = n :: c
        · subst eq
          simpa [get?] using congrArg Option.isSome h
        · simpa [Std.ExtTreeMap.getElem?_insert, eq] using hc }

/-! ## The entries after a change -/

theorem get?_bare (m : Mode) (l : Location) :
    (bare m).get? l = if l = [] then some (.directory m) else none := by
  by_cases h : l = []
  · simp [get?, bare, h]
  · simp [get?, bare, h, Ne.symm h]

theorem get?_add {t : Tree} {n : Name} {d : Location} (dir : t.isDirectory d = true)
    (free : t.get? (n :: d) = none) (e : Entry) (l : Location) :
    (t.add n d e).get? l = if l = n :: d then some e else t.get? l := by
  rw [add, dif_pos ⟨dir, by simp [free]⟩]
  by_cases h : l = n :: d
  · simp [get?, h]
  · simp [get?, Std.ExtTreeMap.getElem?_insert, h, Ne.symm h]

theorem get?_remove {t : Tree} {k : Location} (leaf : t.isDirectory k = false) (l : Location) :
    (t.remove k).get? l = if l = k then none else t.get? l := by
  rw [remove, dif_pos leaf]
  by_cases h : l = k
  · simp [get?, h]
  · simp [get?, Std.ExtTreeMap.getElem?_erase, h, Ne.symm h]

end Tree

end UserStorage
