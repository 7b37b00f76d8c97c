import UserStorage.Proofs.Disk.Gains
import UserStorage.Proofs.Path.Pieces
import UserStorage.Scratch

/-!
# The places of scratch names

A scratch name stands behind the scratch root and is no path of its own. So all scratch names have
their places in one directory, which the root leads to, and that is the same as long as the disk
only grows. What is at such a place is what a look at the path finds.

## Main definitions

* `Disk.Hosts`: the directory that scratch names have their places in

## Main results

* `Scratch.place_pathIn_iff`: the place of a scratch name
* `Scratch.eq_of_hosts`, `Scratch.place_of_hosts`: the host of a disk that has grown
* `Scratch.lookup?_pathIn`, `Scratch.isDirectory_of_showsDirectory`: looks at a scratch path
* `Scratch.fileName?_pathIn`: the name can be read off the path
-/

namespace UserStorage

/-- A string without slashes is its only piece. -/
theorem Path.pieces_of_slashFree {p : String} (h : '/' ∉ p.toList) : pieces p = [p] := by
  rw [pieces, runs_eq_singleton h]
  simp

namespace Scratch

variable {root tag : String} {n k : Name} {d : Location} {disk after start : Disk} {e : Entry}

/-! ## Names and paths -/

theorem toList_nameOf (tag : String) :
    (nameOf tag).toList = "SIPCOMM".toList ++ tag.toList ++ "TEMP".toList := by
  simp [nameOf, nameStart, nameEnd]

/-- A scratch name is a name, whatever its tag. -/
theorem isName_nameOf (tag : String) : Tree.IsName (nameOf tag) := by
  have hlength : 11 ≤ (nameOf tag).toList.length := by
    rw [toList_nameOf]
    simp
  have hne {s : String} (hs : s.toList.length < 11) : nameOf tag ≠ s := by
    rintro rfl
    omega
  exact ⟨hne (by decide), hne (by decide), hne (by decide)⟩

/-- The tags of numbers hold no slash. -/
theorem slashFree_tagOf (number : Nat) : '/' ∉ (tagOf number).toList := by
  have hcharacters : '/' ∉ tagCharacters := by decide
  have hdigits (count n : Nat) : '/' ∉ tagDigits count n := by
    induction count generalizing n with
    | zero => exact List.not_mem_nil
    | succ count ih =>
      have hlt : n % tagCharacters.length < tagCharacters.length := Nat.mod_lt _ (by decide)
      rw [tagDigits, List.getD_eq_getElem?_getD, List.getElem?_eq_getElem hlt, Option.getD_some,
        List.mem_cons, not_or]
      exact ⟨fun heq => hcharacters (heq ▸ List.getElem_mem hlt), ih _⟩
  rw [tagOf, String.toList_ofList]
  exact hdigits 6 number

theorem slashFree_nameOf (h : '/' ∉ tag.toList) : '/' ∉ (nameOf tag).toList := by
  rw [toList_nameOf]
  simp [h]

/-- The pieces of the scratch root, without what stands behind its last slash. -/
def hostPieces (root : String) : List String :=
  (Path.pieces (Path.withTrailingSeparator root)).dropLast

/-- A name stands behind the pieces of the root. -/
theorem pieces_pathIn (root : String) (hn : '/' ∉ n.toList) :
    Path.pieces (pathIn root n) = hostPieces root ++ [n] := by
  obtain ⟨s, hs, -⟩ := Path.withTrailingSeparator_eq root
  have hhost : hostPieces root = Path.pieces s := by
    have hslash := Path.pieces_append_slash s ""
    rw [String.append_empty, Path.pieces_empty] at hslash
    rw [hostPieces, hs, hslash, List.dropLast_concat]
  rw [pathIn, hs, Path.pieces_append_slash, Path.pieces_of_slashFree hn, hhost]

theorem isAbsolute_pathIn (root : String) (n : Name) :
    Path.isAbsolute (pathIn root n) = Path.isAbsolute (Path.withTrailingSeparator root) := by
  obtain ⟨s, hs, -⟩ := Path.withTrailingSeparator_eq root
  rw [pathIn, hs, Path.isAbsolute, Path.isAbsolute]
  cases h : s.toList <;> simp [h]

/-- The name can be read off the path. -/
theorem fileName?_pathIn (root : String) (hn : '/' ∉ n.toList) (hname : Tree.IsName n) :
    Path.fileName? (pathIn root n) = some n := by
  have hidle : Path.isIdle n = false := Path.isIdle_eq_false_iff.mpr ⟨hname.ne_empty, hname.ne_dot⟩
  rw [Path.fileName?, Path.fromLastComponent, pieces_pathIn root hn, List.reverse_append,
    List.reverse_singleton, List.singleton_append, List.dropWhile_cons_of_neg (by simp [hidle])]
  exact if_neg hname.ne_dotDot

theorem pathIn_injective (root : String) : Function.Injective (pathIn root) := by
  intro n k h
  rw [← String.toList_inj] at h ⊢
  simpa [pathIn] using h

theorem asksForDirectory_pathIn (root : String) (hn : '/' ∉ n.toList) (hne : n ≠ "") :
    Disk.asksForDirectory (pathIn root n) = false :=
  Disk.asksForDirectory_eq_false (pieces_pathIn root hn) hne

end Scratch

/-! ## The host -/

/-- The directory that scratch names have their places in: the one that the root leads to, when it
grants searching. -/
def Disk.Hosts (disk : Disk) (root : String) (d : Location) : Prop :=
  ∃ left m, disk.tree.trek Mode.ownerMaySearch maxLinks
      (Tree.startOf disk.cwd (Path.withTrailingSeparator root)) (Scratch.hostPieces root) =
        .ok (d, left) ∧
    disk.tree.get? d = some (.directory m) ∧ m.ownerMaySearch = true

namespace Scratch

variable {root tag : String} {n k : Name} {d d' : Location} {disk after start : Disk} {e : Entry}

theorem startOf_pathIn (root : String) (n : Name) (cwd : Location) :
    Tree.startOf cwd (pathIn root n) = Tree.startOf cwd (Path.withTrailingSeparator root) := by
  rw [Tree.startOf, Tree.startOf, isAbsolute_pathIn]

/-- The place of a scratch name is in the host. -/
theorem place_pathIn_iff (hn : '/' ∉ n.toList) (hne : n ≠ "") :
    disk.place (pathIn root n) = .ok (some (k, d)) ↔ k = n ∧ Path.Admissible (pathIn root n) ∧
      Tree.IsName n ∧ n.utf8ByteSize ≤ maxNameBytes ∧ disk.Hosts root d := by
  rw [Disk.place_eq_some_iff_of_pieces (pieces_pathIn root hn) hne, startOf_pathIn]
  rfl

/-- What has a place under its own name is a name without slashes. -/
theorem name_of_place (h : disk.place (pathIn root n) = .ok (some (n, d))) :
    '/' ∉ n.toList ∧ Tree.IsName n := by
  obtain ⟨-, hname, -, before, slashes, -, -, hp, -⟩ := Disk.place_eq_some_iff.mp h
  exact ⟨Path.slashFree_of_mem_pieces (by rw [hp]; simp), hname⟩

theorem hosts_of_place (h : disk.place (pathIn root n) = .ok (some (n, d))) :
    disk.Hosts root d := by
  obtain ⟨hn, hname⟩ := name_of_place h
  exact ((place_pathIn_iff hn hname.ne_empty).mp h).2.2.2.2

/-- On a disk that has grown the host is the same. -/
theorem eq_of_hosts (h : start ≤ disk) (hd : start.Hosts root d) (hd' : disk.Hosts root d') :
    d = d' := by
  obtain ⟨left, m, ht, -⟩ := hd
  obtain ⟨left', m', ht', -⟩ := hd'
  have hlater := Tree.trek_mono h.1 ht
  rw [h.2.1, ht'] at hlater
  exact ((Prod.mk.inj (Except.ok.inj hlater)).1).symm

/-- A scratch name has its place from the beginning when the host is there from the beginning. -/
theorem place_of_hosts (h : start ≤ disk) (hd : start.Hosts root d')
    (hp : disk.place (pathIn root n) = .ok (some (n, d))) :
    start.place (pathIn root n) = .ok (some (n, d)) := by
  obtain ⟨hn, hname⟩ := name_of_place hp
  obtain ⟨-, ha, -, hsize, hhost⟩ := (place_pathIn_iff hn hname.ne_empty).mp hp
  obtain rfl := eq_of_hosts h hd hhost
  exact (place_pathIn_iff hn hname.ne_empty).mpr ⟨rfl, ha, hname, hsize, hd⟩

/-! ## Looks at scratch paths -/

/-- A look at a scratch path finds what is at its place. -/
theorem lookup?_pathIn (h : disk.place (pathIn root n) = .ok (some (n, d))) :
    disk.lookup? false (pathIn root n) = disk.tree.get? (n :: d) :=
  Disk.lookup?_false_of_place h (pieces_pathIn root (name_of_place h).1)

/-- A scratch path whose place holds no link leads there. -/
theorem leadsTo_pathIn (h : disk.place (pathIn root n) = .ok (some (n, d)))
    (he : disk.tree.get? (n :: d) = some e) (hlink : ∀ target, e ≠ .link target) :
    disk.LeadsTo (pathIn root n) (n :: d) := by
  obtain ⟨hn, hname⟩ := name_of_place h
  obtain ⟨-, ha, -, hsize, left, m, ht, hm, hmay⟩ := (place_pathIn_iff hn hname.ne_empty).mp h
  refine ⟨ha, left, ?_⟩
  have hturn : disk.tree.turn Mode.ownerMaySearch d n = .ok (.stand (n :: d)) := by
    rw [Tree.turn_name hm hmay hname hsize, he]
    cases e with
    | link target => exact absurd rfl (hlink target)
    | _ => rfl
  rw [pieces_pathIn root hn, startOf_pathIn, Tree.trek_append_of_ok ht, Tree.trek_cons_stand hturn,
    Tree.trek_nil]

/-- A scratch path whose place holds no link is seen to lead to a directory when one is there. -/
theorem isDirectory_of_showsDirectory (h : disk.place (pathIn root n) = .ok (some (n, d)))
    (he : disk.tree.get? (n :: d) = some e) (hlink : ∀ target, e ≠ .link target)
    (hdir : disk.showsDirectory (pathIn root n) = true) : e.isDirectory = true := by
  obtain ⟨l, m, hl, hm⟩ := Disk.showsDirectory_iff.mp hdir
  obtain rfl := hl.unique (leadsTo_pathIn h he hlink)
  rw [he] at hm
  obtain rfl := Option.some.inj hm
  rfl

end Scratch

end UserStorage
