import UserStorage.Proofs.Disk.Lookup

/-!
# Entries and the directories they are in

The lexical parent of a path and the directory that its last component is looked up in are the same
place, as long as the parent leads anywhere: a path is seen only behind a parent that is a
directory, and behind a directory that holds nothing nothing is seen. A path makes an entry where
none is seen, in a directory that may be written; what it makes there it then leads to.

## Main definitions

* `Disk.newFile`: the file that is made on a disk
* `Disk.showsDirectory`: the path is seen to lead to a directory
* `Disk.LeadsToNew`: the path leads to an empty directory that an earlier disk did not have
* `Disk.bare`: a disk that holds nothing yet

## Main results

* `Disk.exists_parent_of_lookup?`, `Disk.showsDirectory_parent`: the parent of what is seen is a
  directory
* `Disk.lookup?_eq_none_of_bare`: nothing is seen in a directory that holds nothing
* `Disk.place_of_parent`, `Disk.lookup?_false_of_get?`: a last component behind its parent
* `Disk.lookup?_false_of_place`: a look finds what is at the place of the path
* `Disk.vacancy_of_place`, `Disk.vacancy_eq_ok_iff`: when a place is vacant
* `Disk.vacancy_of_lookup?`: no entry is made where one is seen
* `Disk.leadsToNew_of_vacancy`: a new directory is where its path leads
* `Disk.LeadsToNew.unseen`: nothing is seen behind a new directory
-/

namespace UserStorage

/-- A trek along the parent's pieces ends where it ends along those that the path shares with
it. -/
theorem Path.Cut.trek_eq {path q : String} (cut : Path.Cut path q) (t : Tree) (may : Searchable)
    (links : Nat) (cwd : Location) :
    t.trek may links (Tree.startOf cwd q) (Path.pieces q) =
      t.trek may links (Tree.startOf cwd path) cut.core := by
  have hstart : Tree.startOf cwd q = Tree.startOf cwd path := by
    rw [Tree.startOf, Tree.startOf, cut.isAbsolute_eq]
  rcases cut.core_eq with ⟨hc, -⟩ | ⟨hc, hq⟩
  · rw [hc, hstart]
  · have habs : Path.isAbsolute q = true := Path.isAbsolute_iff.mpr ⟨[""], by simp, hq⟩
    have hroot : Tree.startOf cwd q = [] := by rw [Tree.startOf, habs]; rfl
    obtain ⟨m, hm⟩ : ∃ m, t.get? [] = some (.directory m) := by
      have := t.isDirectory_root
      cases hg : t.get? [] with
      | none => simp [Tree.isDirectory, hg] at this
      | some e => cases e <;> simp_all [Tree.isDirectory, Entry.isDirectory]
    rw [← hstart, hroot, hc, hq, Tree.trek_empty (by simp) hm, Tree.trek_empty (by simp) hm]

namespace Disk

variable {disk after : Disk} {path q : String} {followLast : Bool}

/-! ## A path and its parent -/

theorem leadsTo_parent_iff (cut : Path.Cut path q) (ha : Path.Admissible q) {d : Location} :
    disk.LeadsTo q d ↔ ∃ left, disk.tree.trek Mode.ownerMaySearch maxLinks
      (Tree.startOf disk.cwd path) cut.core = .ok (d, left) := by
  rw [LeadsTo, cut.trek_eq]
  exact ⟨fun h => h.2, fun h => ⟨ha, h⟩⟩

/-- The parent of what is seen is a directory that grants searching. -/
theorem exists_parent_of_lookup? {e : Entry} (h : disk.lookup? followLast path = some e)
    (hq : Path.parent? path = some q) (hne : q ≠ "") :
    ∃ d m, disk.LeadsToDirectory q d m ∧ m.ownerMaySearch = true := by
  obtain ⟨cut⟩ := Path.exists_cut hq hne
  obtain ⟨ha, l, hw, -⟩ := lookup?_eq_some_iff.mp h
  -- the walk passes the component that the parent lacks, which it looks up in a directory; the
  -- idle pieces before that component have not moved it away from the parent
  rw [cut.pieces_eq, ← List.append_assoc] at hw
  obtain ⟨d, left, m, r, ht, hm, hmay, -⟩ := exists_turn_of_walk hw
  obtain ⟨d', left', hcore, hgap⟩ := Tree.exists_of_trek_append ht
  obtain ⟨rfl, rfl⟩ := Tree.eq_of_trek_idle cut.gap_idle hgap
  have hname := (Path.isIdle_eq_false_iff.mp cut.name_named).1
  exact ⟨d, m, ⟨(leadsTo_parent_iff cut (ha.parent hq hne)).mpr ⟨_, hcore⟩, hm⟩, hmay hname⟩

/-- Nothing is seen behind a directory that holds nothing, except by going up from it. -/
theorem lookup?_eq_none_of_bare {d : Location} (cut : Path.Cut path q) (hdots : cut.name ≠ "..")
    (hd : disk.LeadsTo q d) (hbare : ∀ n, disk.tree.get? (n :: d) = none) :
    disk.lookup? followLast path = none := by
  cases h : disk.lookup? followLast path with
  | none => rfl
  | some e =>
    obtain ⟨ha, l, hw, -⟩ := lookup?_eq_some_iff.mp h
    obtain ⟨left, hcore⟩ := (leadsTo_parent_iff cut hd.1).mp hd
    rw [cut.pieces_eq, ← List.append_assoc] at hw
    obtain ⟨d', left', m, r, ht, hm, hmay, hturn⟩ := exists_turn_of_walk hw
    rw [Tree.trek_append_of_ok hcore] at ht
    obtain ⟨rfl, rfl⟩ := Tree.eq_of_trek_idle cut.gap_idle ht
    obtain ⟨hempty, hdot⟩ := Path.isIdle_eq_false_iff.mp cut.name_named
    obtain ⟨e, he⟩ := Tree.turn_eq_error_of_get?_eq_none Mode.ownerMaySearch
      ⟨hempty, hdot, hdots⟩ (hbare cut.name)
    rw [he] at hturn
    exact absurd hturn (by simp)

/-- A look at a path that ends in a name finds what is at the path's place. -/
theorem lookup?_false_of_place {ps : List String} {n : Name} {d : Location}
    (h : disk.place path = .ok (some (n, d))) (hp : Path.pieces path = ps ++ [n]) :
    disk.lookup? false path = disk.tree.get? (n :: d) := by
  cases he : disk.tree.get? (n :: d) with
  | some e =>
    obtain ⟨-, hname, -⟩ := place_eq_some_iff.mp h
    obtain ⟨-, ha, -, hsize, left, m, ht, hm, hmay⟩ :=
      (place_eq_some_iff_of_pieces hp hname.ne_empty).mp h
    refine lookup?_eq_some_iff.mpr ⟨ha, n :: d, ?_, he⟩
    rw [hp, Tree.walk_append_of_trek ht (by simp), Tree.walk_cons,
      Tree.turn_name hm hmay hname hsize, he]
    cases e with
    | link target => rfl
    | _ => exact Tree.walk_nil _ _ _
  | none =>
    by_contra hseen
    obtain ⟨e, he'⟩ := Option.ne_none_iff_exists'.mp hseen
    rcases place_of_lookup? he' with hplace | ⟨n', d', hplace, htaken⟩
    · rw [h] at hplace
      cases hplace
    · rw [h] at hplace
      cases hplace
      simp [he] at htaken

section LastComponent

variable {d : Location} {m : Mode}

theorem pieces_of_tail_nil (cut : Path.Cut path q) (htail : cut.tail = []) :
    Path.pieces path = (cut.core ++ cut.gap) ++ [cut.name] := by
  rw [cut.pieces_eq, htail, List.append_assoc]

/-- A path that ends in a name makes its entry in the directory that its parent leads to. -/
theorem place_of_parent (cut : Path.Cut path q) (ha : Path.Admissible path)
    (htail : cut.tail = []) (hname : Tree.IsName cut.name)
    (hsize : cut.name.utf8ByteSize ≤ maxNameBytes) (hq : disk.LeadsToDirectory q d m)
    (hm : m.ownerMaySearch = true) : disk.place path = .ok (some (cut.name, d)) := by
  obtain ⟨left, hcore⟩ := (leadsTo_parent_iff cut hq.1.1).mp hq.1
  refine (place_eq_some_iff_of_pieces (pieces_of_tail_nil cut htail) hname.ne_empty).mpr
    ⟨rfl, ha, hname, hsize, left, m, ?_, hq.2, hm⟩
  rw [Tree.trek_append_of_ok hcore]
  exact Tree.trek_idle cut.gap_idle hq.2 hm

/-- A path that ends in a name is seen when the directory that its parent leads to holds that
name. -/
theorem lookup?_false_of_get? (cut : Path.Cut path q) (ha : Path.Admissible path)
    (htail : cut.tail = []) (hname : Tree.IsName cut.name)
    (hsize : cut.name.utf8ByteSize ≤ maxNameBytes) (hq : disk.LeadsToDirectory q d m)
    (hm : m.ownerMaySearch = true) {e : Entry} (he : disk.tree.get? (cut.name :: d) = some e) :
    disk.lookup? false path = some e := by
  have hplace := place_of_parent cut ha htail hname hsize hq hm
  rw [lookup?_false_of_place hplace (pieces_of_tail_nil cut htail), he]

end LastComponent

/-! ## Making entries -/

/-- The empty file that is made under the disk's mask. -/
def newFile (disk : Disk) : Entry := .file (newFileMode.without disk.umask) .empty

theorem newFile_of_le (h : disk ≤ after) : after.newFile = disk.newFile := by
  rw [newFile, newFile, h.2.2]

theorem newDirectory_of_le (h : disk ≤ after) : after.newDirectory = disk.newDirectory := by
  rw [newDirectory, newDirectory, h.2.2]

/-- Only a path whose last piece is empty asks for a directory. -/
theorem asksForDirectory_eq_false {path last : String} {ps : List String}
    (hp : Path.pieces path = ps ++ [last]) (hne : last ≠ "") : asksForDirectory path = false := by
  by_contra hasks
  have hslash : path.toList.getLast? = some '/' := by simpa [asksForDirectory] using hasks
  obtain ⟨cs, hcs⟩ := List.getLast?_eq_some_iff.mp hslash
  have eq : path = String.ofList cs ++ "/" ++ "" := by
    apply String.toList_inj.mp
    simpa using hcs
  have hpieces := Path.pieces_append_slash (String.ofList cs) ""
  rw [← eq, hp, Path.pieces_empty] at hpieces
  exact hne (List.singleton_inj.mp (List.append_inj' hpieces rfl).2)

theorem mayChange_of_directory {d : Location} {m : Mode}
    (h : disk.tree.get? d = some (.directory m)) : disk.mayChange d = m.ownerMayWrite := by
  simp [mayChange, h, Entry.mode?]

/-- A place is vacant when it is free and its directory may be changed. -/
theorem vacancy_of_place {n : Name} {d : Location} (h : disk.place path = .ok (some (n, d))) :
    disk.vacancy path =
      if (disk.tree.get? (n :: d)).isSome then .error (.system .alreadyExists)
      else if !disk.mayChange d then .error (.system .accessDenied)
      else .ok (n, d) := by
  rw [vacancy, h]
  rfl

/-- A path makes an entry at a free place in a directory that may be changed. -/
theorem vacancy_eq_ok_iff {n : Name} {d : Location} :
    disk.vacancy path = .ok (n, d) ↔
      disk.place path = .ok (some (n, d)) ∧ disk.tree.get? (n :: d) = none ∧
        disk.mayChange d = true := by
  cases hp : disk.place path with
  | error e => simp [vacancy, hp, bind, Except.bind]
  | ok p =>
    cases p with
    | none => simp [vacancy, hp, bind, Except.bind]
    | some p =>
      obtain ⟨n', d'⟩ := p
      rw [vacancy_of_place hp]
      constructor
      · intro h
        -- a name that is taken is told before missing rights, so what is left is free and open
        split_ifs at h with htaken hshut
        cases h
        exact ⟨rfl, by simpa using htaken, by simpa using hshut⟩
      · rintro ⟨heq, hfree, hmay⟩
        cases heq
        simp [hfree, hmay]

/-- At a vacant place an addition adds its entry and nothing else. -/
theorem get?_adding_of_vacancy {n : Name} {d : Location} (h : disk.vacancy path = .ok (n, d))
    (e : Entry) (l : Location) :
    (disk.adding n d e).tree.get? l = if l = n :: d then some e else disk.tree.get? l := by
  obtain ⟨hplace, hfree, -⟩ := vacancy_eq_ok_iff.mp h
  exact Tree.get?_add (isDirectory_of_place hplace) hfree e l

/-- No entry is made where one is seen. -/
theorem vacancy_of_lookup? {e : Entry} (h : disk.lookup? followLast path = some e) :
    disk.vacancy path = .error (.system .alreadyExists) := by
  rcases place_of_lookup? h with hp | ⟨n, d, hp, htaken⟩
  · rw [vacancy, hp]
    rfl
  · rw [vacancy_of_place hp, if_pos htaken]

/-- The path is seen to lead to a directory. -/
def showsDirectory (disk : Disk) (path : String) : Bool :=
  (disk.lookup? true path).any Entry.isDirectory

theorem showsDirectory_iff :
    disk.showsDirectory path = true ↔ ∃ d m, disk.LeadsToDirectory path d m := by
  rw [showsDirectory]
  constructor
  · intro h
    cases hl : disk.lookup? true path with
    | none => simp [hl] at h
    | some e =>
      cases e with
      | directory m =>
        obtain ⟨d, hd⟩ := exists_leadsToDirectory hl
        exact ⟨d, m, hd⟩
      | _ => simp [hl, Entry.isDirectory] at h
  · rintro ⟨d, m, h⟩
    rw [lookup?_of_leadsToDirectory h]
    rfl

/-- What is not seen is no directory. -/
theorem showsDirectory_of_unseen (h : disk.lookup? true path = none) :
    disk.showsDirectory path = false := by
  rw [showsDirectory, h, Option.any_none]

theorem lookup?_ne_none_of_showsDirectory (h : disk.showsDirectory path = true) :
    disk.lookup? true path ≠ none := by
  intro unseen
  rw [showsDirectory_of_unseen unseen] at h
  cases h

/-- The parent of what is seen is seen to be a directory. -/
theorem showsDirectory_parent_of_lookup? {e : Entry} (h : disk.lookup? followLast path = some e)
    (hq : Path.parent? path = some q) (hne : q ≠ "") : disk.showsDirectory q = true := by
  obtain ⟨d, m, hd, -⟩ := exists_parent_of_lookup? h hq hne
  exact showsDirectory_iff.mpr ⟨d, m, hd⟩

/-- Nothing is seen behind a parent that is no directory. -/
theorem lookup?_eq_none_of_parent (hno : disk.showsDirectory q = false)
    (hq : Path.parent? path = some q) (hne : q ≠ "") : disk.lookup? followLast path = none := by
  by_contra seen
  obtain ⟨e, he⟩ := Option.ne_none_iff_exists'.mp seen
  rw [showsDirectory_parent_of_lookup? he hq hne] at hno
  cases hno

theorem showsDirectory_parent (h : disk.showsDirectory path = true)
    (hq : Path.parent? path = some q) (hne : q ≠ "") : disk.showsDirectory q = true := by
  obtain ⟨d, m, hd⟩ := showsDirectory_iff.mp h
  exact showsDirectory_parent_of_lookup? (lookup?_of_leadsToDirectory hd) hq hne

/-- The path leads to an empty directory, made under the disk's mask, that the earlier disk did
not have. -/
def LeadsToNew (before after : Disk) (path : String) : Prop :=
  ∃ l, after.LeadsTo path l ∧ after.tree.get? l = some after.newDirectory ∧
    before.tree.get? l = none ∧ ∀ n, after.tree.get? (n :: l) = none

theorem LeadsToNew.showsDirectory {before : Disk} (h : LeadsToNew before after path) :
    after.showsDirectory path = true := by
  obtain ⟨l, hl, hd, -, -⟩ := h
  exact showsDirectory_iff.mpr ⟨l, _, hl, hd⟩

/-- What is new after a step was new before it. -/
theorem LeadsToNew.of_le {before mid : Disk} (h : before ≤ mid) (hnew : LeadsToNew mid after path) :
    LeadsToNew before after path := by
  obtain ⟨l, hl, hd, hfree, hbare⟩ := hnew
  exact ⟨l, hl, hd, Tree.get?_eq_none_of_le h.1 hfree, hbare⟩

/-- Behind a new directory nothing is seen, unless the path goes up. -/
theorem LeadsToNew.unseen {before : Disk} (h : LeadsToNew before after q)
    (cut : Path.Cut path q) (hdots : ".." ∉ Path.pieces path) :
    after.lookup? followLast path = none := by
  obtain ⟨l, hl, -, -, hbare⟩ := h
  exact lookup?_eq_none_of_bare cut (cut.name_ne_dotDot hdots) hl hbare

/-- A directory that is made is where its path leads then. -/
theorem leadsToNew_of_vacancy {n : Name} {d : Location} (h : disk.vacancy path = .ok (n, d)) :
    LeadsToNew disk (disk.adding n d disk.newDirectory) path := by
  obtain ⟨hplace, hfree, -⟩ := vacancy_eq_ok_iff.mp h
  obtain ⟨ha, hname, hsize, before, slashes, left, m, hp, hempty, ht, hm, hmay⟩ :=
    place_eq_some_iff.mp hplace
  have hget := get?_adding_of_vacancy h disk.newDirectory
  have hle : disk.tree ≤ (disk.adding n d disk.newDirectory).tree := Tree.le_add _ _ _ _
  have hnew : (disk.adding n d disk.newDirectory).tree.get? (n :: d) = some disk.newDirectory :=
    (hget _).trans (if_pos rfl)
  refine ⟨n :: d, ⟨ha, left, ?_⟩, hnew, hfree, fun c => ?_⟩
  · have hturn : (disk.adding n d disk.newDirectory).tree.turn Mode.ownerMaySearch d n =
        .ok (.stand (n :: d)) := by
      rw [Tree.turn_name (Tree.get?_of_le hle hm) hmay hname hsize, hnew]
      rfl
    have hbefore : (disk.adding n d disk.newDirectory).tree.trek Mode.ownerMaySearch maxLinks
        (Tree.startOf (disk.adding n d disk.newDirectory).cwd path) before = .ok (d, left) :=
      Tree.trek_mono hle ht
    rw [hp, Tree.trek_append_of_ok hbefore, Tree.trek_cons_stand hturn]
    exact Tree.trek_empty hempty hnew
  · rw [hget, if_neg (by simp)]
    exact Tree.get?_cons_eq_none hfree c

/-- A directory that is made can be seen. -/
theorem showsDirectory_of_vacancy {n : Name} {d : Location} (h : disk.vacancy path = .ok (n, d)) :
    (disk.adding n d disk.newDirectory).showsDirectory path = true :=
  (leadsToNew_of_vacancy h).showsDirectory

/-- A disk that holds nothing but its root, which anybody may search. -/
def bare : Disk := ⟨Tree.bare ⟨0o755⟩, [], ⟨0o022⟩⟩

end Disk

end UserStorage
