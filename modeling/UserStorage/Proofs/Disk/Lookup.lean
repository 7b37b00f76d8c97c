import Mathlib.Data.List.TakeWhile
import UserStorage.Disk.Call
import UserStorage.Proofs.Tree.Growth

/-!
# Where paths lead on a disk

A path that holds no NUL character, is not empty and not too long leads to a location when the trek
along its pieces does. What a look answers, and where an entry is made, follow from that: an entry
can be made at a path exactly behind a directory that grants searching, under a name that is not
taken.

## Main definitions

* `Path.Admissible`: the paths that are looked at all
* `Disk.LeadsTo`: the location that a path leads to
* `Disk.LeadsToDirectory`: the path leads to a directory with some permission bits

## Main results

* `Disk.lookup?_mono`: what a look finds it finds on every disk that has grown
* `Disk.place_eq_some_iff`, `Disk.place_eq_some_iff_of_pieces`: where a path makes an entry
* `Disk.place_of_lookup?`: where something is seen, the place is taken
-/

namespace UserStorage

/-- A path that is looked at: it holds no NUL character, is not empty and not too long. -/
structure Path.Admissible (path : String) : Prop where
  nulFree : hasNul path = false
  ne_empty : path ≠ ""
  size_le : path.utf8ByteSize ≤ maxPathBytes

/-- A beginning of an admissible path is admissible, unless it is empty. -/
theorem Path.Admissible.of_append {p rest : String} (h : Path.Admissible (p ++ rest))
    (hne : p ≠ "") : Path.Admissible p where
  nulFree := by
    have := h.nulFree
    simp only [hasNul, String.toList_append, List.contains_append] at this
    exact (Bool.or_eq_false_iff.mp this).1
  ne_empty := hne
  size_le := by
    have := h.size_le
    rw [String.utf8ByteSize_append] at this
    omega

theorem Path.Admissible.parent {path q : String} (h : Path.Admissible path)
    (hq : Path.parent? path = some q) (hne : q ≠ "") : Path.Admissible q := by
  obtain ⟨rest, hrest⟩ := Path.exists_eq_append_of_parent? hq
  exact (hrest ▸ h).of_append hne

namespace Tree

theorem accept_eq_ok_iff {path : String} :
    accept path = .ok () ↔ path ≠ "" ∧ path.utf8ByteSize ≤ maxPathBytes := by
  unfold accept
  split_ifs with he hs
  · simp [he]
  · simp only [false_iff, not_and, Nat.not_le]
    exact fun _ => hs
  · simp only [true_iff]
    exact ⟨he, Nat.not_lt.mp hs⟩

theorem resolve_eq_ok_iff {t : Tree} {may : Searchable} {cwd l : Location} {followLast : Bool}
    {path : String} :
    t.resolve may cwd followLast path = .ok l ↔
      (path ≠ "" ∧ path.utf8ByteSize ≤ maxPathBytes) ∧
        t.walk may followLast maxLinks (startOf cwd path) (Path.pieces path) = .ok l := by
  rw [resolve, ← accept_eq_ok_iff]
  cases accept path with
  | error e => simp [bind, Except.bind]
  | ok u => simp [bind, Except.bind]

/-- A path without a last piece has empty ones only. -/
theorem eq_empty_of_splitLast_eq_none {ps : List String} (h : splitLast ps = none) :
    ∀ p ∈ ps, p = "" := by
  unfold splitLast at h
  split at h
  · next hd =>
    intro p hp
    simpa using List.dropWhile_eq_nil_iff.mp hd p (List.mem_reverse.mpr hp)
  · cases h

/-- What stands before the last piece that is not empty. -/
theorem splitLast_eq_some_iff {ps before : List String} {last : String} :
    splitLast ps = some (before, last) ↔
      last ≠ "" ∧ ∃ slashes, (∀ s ∈ slashes, s = "") ∧ ps = before ++ last :: slashes := by
  constructor
  · intro h
    unfold splitLast at h
    split at h
    · simp at h
    · next l b hd =>
      simp only [Option.some.injEq, Prod.mk.injEq] at h
      obtain ⟨rfl, rfl⟩ := h
      have hl : l ≠ "" := by
        have := List.head?_dropWhile_not (· == "") ps.reverse
        simpa [hd] using this
      refine ⟨hl, (ps.reverse.takeWhile (· == "")).reverse, ?_, ?_⟩
      · intro s hs
        simpa using List.mem_takeWhile_imp (List.mem_reverse.mp hs)
      · have := List.takeWhile_append_dropWhile (p := (· == "")) (l := ps.reverse)
        rw [hd] at this
        simpa using (congrArg List.reverse this).symm
  · rintro ⟨hl, slashes, hs, rfl⟩
    have hd : (before ++ last :: slashes).reverse.dropWhile (· == "") =
        last :: before.reverse := by
      simp only [List.reverse_append, List.reverse_cons, List.append_assoc]
      rw [List.dropWhile_append_of_pos (by simpa using hs)]
      simp [hl]
    rw [splitLast, hd]
    simp

end Tree

namespace Disk

/-- The location that a path leads to, all links being followed. -/
def LeadsTo (disk : Disk) (path : String) (l : Location) : Prop :=
  Path.Admissible path ∧ ∃ left,
    disk.tree.trek Mode.ownerMaySearch maxLinks (Tree.startOf disk.cwd path) (Path.pieces path) =
      .ok (l, left)

/-- The path leads to a directory with these permission bits. -/
def LeadsToDirectory (disk : Disk) (path : String) (l : Location) (m : Mode) : Prop :=
  disk.LeadsTo path l ∧ disk.tree.get? l = some (.directory m)

/-- A disk has grown to another: entries have been added and nothing else has changed. -/
instance : Preorder Disk where
  le a b := a.tree ≤ b.tree ∧ a.cwd = b.cwd ∧ a.umask = b.umask
  le_refl a := ⟨le_rfl, rfl, rfl⟩
  le_trans a b c h₁ h₂ := ⟨h₁.1.trans h₂.1, h₁.2.1.trans h₂.2.1, h₁.2.2.trans h₂.2.2⟩

/-- Two disks are equal when each has grown to the other. -/
theorem eq_of_le_of_le {a b : Disk} (hab : a ≤ b) (hba : b ≤ a) : a = b := by
  obtain ⟨htree, hcwd, humask⟩ := hab
  cases a
  cases b
  exact congr (congr (congrArg Disk.mk (le_antisymm htree hba.1)) hcwd) humask

variable {disk after : Disk} {path : String} {followLast : Bool}

theorem le_adding (disk : Disk) (n : Name) (d : Location) (e : Entry) :
    disk ≤ disk.adding n d e :=
  ⟨Tree.le_add disk.tree n d e, rfl, rfl⟩

theorem LeadsTo.mono (h : disk ≤ after) {l : Location} (hl : disk.LeadsTo path l) :
    after.LeadsTo path l := by
  obtain ⟨ha, left, ht⟩ := hl
  exact ⟨ha, left, h.2.1 ▸ Tree.trek_mono h.1 ht⟩

theorem LeadsTo.unique {l k : Location} (hl : disk.LeadsTo path l) (hk : disk.LeadsTo path k) :
    l = k := by
  obtain ⟨-, left, hl⟩ := hl
  obtain ⟨-, left', hk⟩ := hk
  rw [hl] at hk
  cases hk
  rfl

/-! ## Looks -/

/-- What a look finds, by the walk. -/
theorem lookup?_eq_some_iff {e : Entry} :
    disk.lookup? followLast path = some e ↔ Path.Admissible path ∧ ∃ l,
      disk.tree.walk Mode.ownerMaySearch followLast maxLinks (Tree.startOf disk.cwd path)
        (Path.pieces path) = .ok l ∧ disk.tree.get? l = some e := by
  constructor
  · intro h
    by_cases hn : hasNul path = true
    · simp [lookup?, hn] at h
    rw [lookup?, if_neg hn] at h
    cases hr : disk.tree.resolve Mode.ownerMaySearch disk.cwd followLast path with
    | error e => simp [hr] at h
    | ok l =>
      rw [hr] at h
      obtain ⟨⟨hne, hs⟩, hw⟩ := Tree.resolve_eq_ok_iff.mp hr
      exact ⟨⟨by simpa using hn, hne, hs⟩, l, hw, h⟩
  · rintro ⟨ha, l, hw, he⟩
    have hr := Tree.resolve_eq_ok_iff.mpr ⟨⟨ha.ne_empty, ha.size_le⟩, hw⟩
    rw [lookup?, ha.nulFree, hr]
    simpa using he

/-- What a look that follows all links finds. -/
theorem lookup?_true_eq_some_iff {e : Entry} :
    disk.lookup? true path = some e ↔
      ∃ l, disk.LeadsTo path l ∧ disk.tree.get? l = some e := by
  rw [lookup?_eq_some_iff]
  constructor
  · rintro ⟨ha, l, hw, he⟩
    rw [Tree.walk_true] at hw
    cases ht : disk.tree.trek Mode.ownerMaySearch maxLinks (Tree.startOf disk.cwd path)
        (Path.pieces path) with
    | error e => rw [ht] at hw; exact absurd hw (by simp [Except.map])
    | ok s =>
      rw [ht] at hw
      obtain rfl : s.1 = l := by simpa [Except.map] using hw
      exact ⟨s.1, ⟨ha, s.2, ht⟩, he⟩
  · rintro ⟨l, ⟨ha, left, ht⟩, he⟩
    exact ⟨ha, l, by rw [Tree.walk_true, ht]; rfl, he⟩

theorem lookup?_of_leadsToDirectory {l : Location} {m : Mode}
    (h : disk.LeadsToDirectory path l m) : disk.lookup? true path = some (.directory m) :=
  lookup?_true_eq_some_iff.mpr ⟨l, h⟩

theorem exists_leadsToDirectory {m : Mode} (h : disk.lookup? true path = some (.directory m)) :
    ∃ l, disk.LeadsToDirectory path l m :=
  lookup?_true_eq_some_iff.mp h

/-- What a look finds it finds on every disk that has grown. -/
theorem lookup?_mono (h : disk ≤ after) {e : Entry} (he : disk.lookup? followLast path = some e) :
    after.lookup? followLast path = some e := by
  obtain ⟨ha, l, hw, hl⟩ := lookup?_eq_some_iff.mp he
  exact lookup?_eq_some_iff.mpr
    ⟨ha, l, h.2.1 ▸ Tree.walk_mono h.1 hw, Tree.get?_of_le h.1 hl⟩

/-- A look at what a path names itself finds something where one that follows its last link
does. -/
theorem lookup?_false_isSome {e : Entry} (h : disk.lookup? true path = some e) :
    ∃ e', disk.lookup? false path = some e' := by
  obtain ⟨l, ⟨ha, left, ht⟩, -⟩ := lookup?_true_eq_some_iff.mp h
  -- the two looks differ at the last piece only, and there either leads to an entry
  obtain ⟨before, last, hp⟩ : ∃ before last, Path.pieces path = before ++ [last] :=
    ⟨_, _, (List.dropLast_concat_getLast (Path.pieces_ne_nil path)).symm⟩
  rw [hp] at ht
  obtain ⟨d, k, hd, hlast⟩ := Tree.exists_of_trek_append ht
  have hw : ∃ l', disk.tree.walk Mode.ownerMaySearch false maxLinks
      (Tree.startOf disk.cwd path) (Path.pieces path) = .ok l' ∧
      (disk.tree.get? l').isSome = true := by
    rw [hp, Tree.walk_append_of_trek hd (by simp), Tree.walk_cons]
    rw [Tree.trek_cons] at hlast
    cases hturn : disk.tree.turn Mode.ownerMaySearch d last with
    | error e => simp [hturn] at hlast
    | ok r =>
      cases r with
      | stand l' => exact ⟨l', Tree.walk_nil _ _ _, Tree.isSome_of_turn_stand hturn⟩
      | link target =>
        exact ⟨last :: d, by simp, Option.isSome_iff_exists.mpr ⟨_, Tree.get?_of_turn_link hturn⟩⟩
  obtain ⟨l', hw, hs⟩ := hw
  obtain ⟨e', he'⟩ := Option.isSome_iff_exists.mp hs
  exact ⟨e', lookup?_eq_some_iff.mpr ⟨ha, l', hw, he'⟩⟩

/-- What is not found at a path itself is not found behind it. -/
theorem lookup?_eq_none_of_false (h : disk.lookup? false path = none) (followLast : Bool) :
    disk.lookup? followLast path = none := by
  cases followLast with
  | false => exact h
  | true =>
    by_contra seen
    obtain ⟨e, he⟩ := Option.ne_none_iff_exists'.mp seen
    obtain ⟨e', he'⟩ := lookup?_false_isSome he
    rw [h] at he'
    cases he'

/-! ## Places -/

/-- A walk passes every piece: what stands before it leads to a directory, which grants searching
unless the piece is empty. -/
theorem exists_turn_of_walk {links : Nat} {cur l : Location} {before rest : List String}
    {piece : String}
    (h : disk.tree.walk Mode.ownerMaySearch followLast links cur (before ++ piece :: rest) =
      .ok l) :
    ∃ d left m r, disk.tree.trek Mode.ownerMaySearch links cur before = .ok (d, left) ∧
      disk.tree.get? d = some (.directory m) ∧ (piece ≠ "" → m.ownerMaySearch = true) ∧
      disk.tree.turn Mode.ownerMaySearch d piece = .ok r := by
  rw [Tree.walk_append _ _ _ _ (by simp)] at h
  cases ht : disk.tree.trek Mode.ownerMaySearch links cur before with
  | error e => rw [ht] at h; exact absurd h (by simp [Except.bind])
  | ok s =>
    rw [ht] at h
    simp only [Except.bind] at h
    rw [Tree.walk_cons] at h
    cases hturn : disk.tree.turn Mode.ownerMaySearch s.1 piece with
    | error e => simp [hturn] at h
    | ok r =>
      obtain ⟨m, hm, hmay⟩ := Tree.directory_of_turn hturn
      exact ⟨s.1, s.2, m, r, rfl, hm, hmay, hturn⟩

/-- The walk to the directory that an entry is made in. -/
theorem walk_dot_eq_ok_iff {links : Nat} {cur d : Location} {before : List String} :
    disk.tree.walk Mode.ownerMaySearch true links cur (before ++ ["."]) = .ok d ↔
      ∃ left m, disk.tree.trek Mode.ownerMaySearch links cur before = .ok (d, left) ∧
        disk.tree.get? d = some (.directory m) ∧ m.ownerMaySearch = true := by
  constructor
  · intro h
    obtain ⟨d', left, m, r, ht, hm, hmay, hturn⟩ := exists_turn_of_walk h
    rw [Tree.walk_append_of_trek ht (by simp),
      Tree.walk_cons_stand (Tree.turn_dot hm (hmay (by decide))), Tree.walk_nil] at h
    obtain rfl : d' = d := by simpa using h
    exact ⟨left, m, ht, hm, hmay (by decide)⟩
  · rintro ⟨left, m, ht, hm, hmay⟩
    rw [Tree.walk_append_of_trek ht (by simp), Tree.walk_cons_stand (Tree.turn_dot hm hmay),
      Tree.walk_nil]

theorem admissible_of_place {x : Option (Name × Location)} (h : disk.place path = .ok x) :
    Path.Admissible path := by
  by_cases hn : hasNul path = true
  · simp [place, hn] at h
  rw [place, if_neg hn, Tree.resolveParent] at h
  cases hacc : Tree.accept path with
  | error e => simp [hacc, bind, Except.bind, Except.mapError] at h
  | ok u =>
    obtain ⟨hne, hsize⟩ := Tree.accept_eq_ok_iff.mp hacc
    exact ⟨by simpa using hn, hne, hsize⟩

/-- The place of an admissible path that has a last piece, by the walk to its directory. -/
theorem place_of_splitLast (ha : Path.Admissible path) {first : List String} {last : String}
    (hs : Tree.splitLast (Path.pieces path) = some (first, last)) :
    disk.place path =
      match disk.tree.walk Mode.ownerMaySearch true maxLinks (Tree.startOf disk.cwd path)
        (first ++ ["."]) with
      | .error e => .error (.system e)
      | .ok d =>
        if last = "." ∨ last = ".." then .ok none
        else if maxNameBytes < last.utf8ByteSize then .error (.system .nameTooLong)
        else .ok (some (last, d)) := by
  have hacc := Tree.accept_eq_ok_iff.mpr ⟨ha.ne_empty, ha.size_le⟩
  rw [place, ha.nulFree, if_neg (by decide), Tree.resolveParent, hacc, hs]
  cases hw : disk.tree.walk Mode.ownerMaySearch true maxLinks (Tree.startOf disk.cwd path)
      (first ++ ["."]) with
  | error e => simp [hw, bind, Except.bind, Except.mapError]
  | ok d =>
    simp only [hw, bind, Except.bind]
    split_ifs <;> rfl

/-- A path without a last piece is the root, which has no place. -/
theorem place_of_splitLast_none (ha : Path.Admissible path)
    (hs : Tree.splitLast (Path.pieces path) = none) : disk.place path = .ok none := by
  have hacc := Tree.accept_eq_ok_iff.mpr ⟨ha.ne_empty, ha.size_le⟩
  rw [place, ha.nulFree, if_neg (by decide), Tree.resolveParent, hacc, hs]
  rfl

/-- What a path makes is made behind a directory that grants searching, under a name that is not
too long; slashes behind the name do not count. -/
theorem place_eq_some_iff {n : Name} {d : Location} :
    disk.place path = .ok (some (n, d)) ↔ Path.Admissible path ∧ Tree.IsName n ∧
      n.utf8ByteSize ≤ maxNameBytes ∧ ∃ before slashes left m,
        Path.pieces path = before ++ n :: slashes ∧ (∀ s ∈ slashes, s = "") ∧
        disk.tree.trek Mode.ownerMaySearch maxLinks (Tree.startOf disk.cwd path) before =
          .ok (d, left) ∧
        disk.tree.get? d = some (.directory m) ∧ m.ownerMaySearch = true := by
  constructor
  · intro h
    have ha := admissible_of_place h
    cases hs : Tree.splitLast (Path.pieces path) with
    | none =>
      rw [place_of_splitLast_none ha hs] at h
      cases h
    | some p =>
      obtain ⟨before, last⟩ := p
      obtain ⟨hlast, slashes, hempty, hp⟩ := Tree.splitLast_eq_some_iff.mp hs
      rw [place_of_splitLast ha hs] at h
      cases hw : disk.tree.walk Mode.ownerMaySearch true maxLinks
          (Tree.startOf disk.cwd path) (before ++ ["."]) with
      | error e => simp [hw] at h
      | ok d' =>
        rw [hw] at h
        dsimp only at h
        split_ifs at h with hdots hlong
        · cases h
        · obtain ⟨rfl, rfl⟩ := Prod.mk.inj (Option.some.inj (Except.ok.inj h))
          obtain ⟨left, m, ht, hm, hmay⟩ := walk_dot_eq_ok_iff.mp hw
          exact ⟨ha, ⟨hlast, fun h => hdots (Or.inl h), fun h => hdots (Or.inr h)⟩,
            Nat.not_lt.mp hlong, before, slashes, left, m, hp, hempty, ht, hm, hmay⟩
  · rintro ⟨ha, hname, hlong, before, slashes, left, m, hp, hempty, ht, hm, hmay⟩
    have hs := Tree.splitLast_eq_some_iff.mpr ⟨hname.ne_empty, slashes, hempty, hp⟩
    rw [place_of_splitLast ha hs, walk_dot_eq_ok_iff.mpr ⟨left, m, ht, hm, hmay⟩]
    simp [hname.ne_dot, hname.ne_dotDot, Nat.not_lt.mpr hlong]

/-- A path whose last piece is not empty makes its entry under that piece. -/
theorem place_eq_some_iff_of_pieces {ps : List String} {last n : Name} {d : Location}
    (hp : Path.pieces path = ps ++ [last]) (hne : last ≠ "") :
    disk.place path = .ok (some (n, d)) ↔ n = last ∧ Path.Admissible path ∧ Tree.IsName last ∧
      last.utf8ByteSize ≤ maxNameBytes ∧ ∃ left m,
        disk.tree.trek Mode.ownerMaySearch maxLinks (Tree.startOf disk.cwd path) ps =
          .ok (d, left) ∧
        disk.tree.get? d = some (.directory m) ∧ m.ownerMaySearch = true := by
  rw [place_eq_some_iff]
  constructor
  · rintro ⟨ha, hname, hsize, before, slashes, left, m, hpieces, hslashes, ht, hm, hmay⟩
    have hlast := Tree.splitLast_eq_some_iff.mpr ⟨hname.ne_empty, slashes, hslashes, hpieces⟩
    rw [Tree.splitLast_eq_some_iff.mpr ⟨hne, [], by simp, hp⟩] at hlast
    obtain ⟨rfl, rfl⟩ := Prod.mk.inj (Option.some.inj hlast)
    exact ⟨rfl, ha, hname, hsize, left, m, ht, hm, hmay⟩
  · rintro ⟨rfl, ha, hname, hsize, left, m, ht, hm, hmay⟩
    exact ⟨ha, hname, hsize, ps, [], left, m, hp, by simp, ht, hm, hmay⟩

/-- Entries are made in directories. -/
theorem isDirectory_of_place {n : Name} {d : Location}
    (h : disk.place path = .ok (some (n, d))) : disk.tree.isDirectory d = true := by
  obtain ⟨-, -, -, -, -, -, m, -, -, -, hm, -⟩ := place_eq_some_iff.mp h
  rw [Tree.isDirectory, hm]
  rfl

/-- Where something is seen, the place is taken: it is the root, a dot, or holds an entry. -/
theorem place_of_lookup? {e : Entry} (h : disk.lookup? followLast path = some e) :
    disk.place path = .ok none ∨
      ∃ n d, disk.place path = .ok (some (n, d)) ∧ (disk.tree.get? (n :: d)).isSome = true := by
  obtain ⟨ha, l, hw, -⟩ := lookup?_eq_some_iff.mp h
  cases hs : Tree.splitLast (Path.pieces path) with
  | none => exact Or.inl (place_of_splitLast_none ha hs)
  | some p =>
    obtain ⟨before, last⟩ := p
    obtain ⟨hlast, slashes, hempty, hp⟩ := Tree.splitLast_eq_some_iff.mp hs
    rw [hp] at hw
    obtain ⟨d, left, m, r, ht, hm, hmay, hturn⟩ := exists_turn_of_walk hw
    by_cases hdots : last = "." ∨ last = ".."
    · left
      rw [place_of_splitLast ha hs, walk_dot_eq_ok_iff.mpr ⟨left, m, ht, hm, hmay hlast⟩]
      simp [hdots]
    · right
      have hname : Tree.IsName last :=
        ⟨hlast, fun h => hdots (Or.inl h), fun h => hdots (Or.inr h)⟩
      refine ⟨last, d, place_eq_some_iff.mpr ⟨ha, hname, ?_, before, slashes, left, m, hp, hempty,
        ht, hm, hmay hlast⟩, ?_⟩
      · exact Tree.size_le_of_turn hname hturn
      · by_contra hfree
        obtain ⟨e, he⟩ := Tree.turn_eq_error_of_get?_eq_none Mode.ownerMaySearch hname
          (Option.isNone_iff_eq_none.mp (by simpa using hfree))
        rw [he] at hturn
        exact absurd hturn (by simp)

end Disk

end UserStorage
