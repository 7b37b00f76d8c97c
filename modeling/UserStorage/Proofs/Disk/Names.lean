import UserStorage.Proofs.Disk.Vacancy
import UserStorage.Proofs.Path.Names

/-!
# Following the names of a path

Empty pieces are skipped on the way to a directory, so an ordinary path leads where its names lead,
and each beginning of the names leads somewhere or nowhere. Whether a path makes an entry is seen
from its names: all but the last one have to lead to a directory that takes entries and holds none
under the last. Where two or more names are missing there, the system answers that something on the
way is not found.

## Main definitions

* `Disk.LeadsAlong`: where some names lead from the start of a path
* `Disk.TakesEntries`: a directory in which entries can be made

## Main results

* `Tree.trek_filter`, `Tree.trek_of_trek_filter`: empty pieces are skipped
* `Disk.not_leadsAlong_of_free`: names lead nowhere behind a missing one
* `Disk.vacancy_of_names`, `Disk.exists_of_vacancy`: when one name is missing
* `Disk.vacancy_eq_notFound_of_names`: when more are
-/

namespace UserStorage

namespace Tree

variable {t : Tree} {may : Searchable} {links left : Nat} {cur l : Location} {ps : List String}
  {m : Mode}

/-- A trek along pieces goes along those that are not empty. -/
theorem trek_filter {s : Location × Nat} (h : t.trek may links cur ps = .ok s) :
    t.trek may links cur (ps.filter (· ≠ "")) = .ok s := by
  induction ps generalizing cur links with
  | nil => exact h
  | cons p ps ih =>
    rw [← List.singleton_append] at h
    obtain ⟨mid, left, hp, hps⟩ := exists_of_trek_append h
    by_cases hempty : p = ""
    · have hidle : Path.AllIdle [p] := .cons (Path.isIdle_iff.mpr (Or.inl hempty)) .nil
      obtain ⟨rfl, rfl⟩ := eq_of_trek_idle hidle hp
      rw [List.filter_cons_of_neg (by simpa using hempty)]
      exact ih hps
    · rw [List.filter_cons_of_pos (by simpa using hempty), ← List.singleton_append,
        trek_append_of_ok hp]
      exact ih hps

/-- A trek to a directory starts from one. -/
theorem exists_directory_of_trek (h : t.trek may links cur ps = .ok (l, left))
    (hl : t.get? l = some (.directory m)) : ∃ m', t.get? cur = some (.directory m') := by
  cases ps with
  | nil =>
    rw [trek_nil] at h
    cases h
    exact ⟨m, hl⟩
  | cons p ps =>
    rw [trek_cons] at h
    cases hturn : t.turn may cur p with
    | error e => simp [hturn] at h
    | ok r =>
      obtain ⟨m', hm', -⟩ := directory_of_turn hturn
      exact ⟨m', hm'⟩

/-- Where the pieces that are not empty lead to a directory, all pieces do. -/
theorem trek_of_trek_filter (h : t.trek may links cur (ps.filter (· ≠ "")) = .ok (l, left))
    (hl : t.get? l = some (.directory m)) : t.trek may links cur ps = .ok (l, left) := by
  induction ps generalizing cur links with
  | nil => exact h
  | cons p ps ih =>
    by_cases hempty : p = ""
    · subst hempty
      rw [List.filter_cons_of_neg (by simp)] at h
      obtain ⟨m', hm'⟩ := exists_directory_of_trek h hl
      rw [trek_cons_stand (turn_empty hm')]
      exact ih h
    · rw [List.filter_cons_of_pos (by simpa using hempty), ← List.singleton_append] at h
      obtain ⟨mid, left', hp, hps⟩ := exists_of_trek_append h
      rw [← List.singleton_append, trek_append_of_ok hp]
      exact ih hps

end Tree

namespace Disk

variable {disk after : Disk} {path : String} {found others : List Name} {n : Name}
  {d l : Location} {m : Mode}

/-- Where some names lead from the start of a path. -/
def LeadsAlong (disk : Disk) (path : String) (ns : List Name) (l : Location) : Prop :=
  ∃ left, disk.tree.trek Mode.ownerMaySearch maxLinks (Tree.startOf disk.cwd path) ns =
    .ok (l, left)

/-- A directory that may be searched and written. -/
def TakesEntries (disk : Disk) (d : Location) : Prop :=
  ∃ m, disk.tree.get? d = some (.directory m) ∧ m.ownerMayWrite = true ∧ m.ownerMaySearch = true

theorem LeadsAlong.mono (hle : disk ≤ after) (h : disk.LeadsAlong path found l) :
    after.LeadsAlong path found l := by
  obtain ⟨left, ht⟩ := h
  exact ⟨left, hle.2.1 ▸ Tree.trek_mono hle.1 ht⟩

/-- Some names lead alike from paths that start at the same place. -/
theorem leadsAlong_congr {q : String} (h : Path.isAbsolute q = Path.isAbsolute path) :
    disk.LeadsAlong q found l ↔ disk.LeadsAlong path found l := by
  rw [LeadsAlong, LeadsAlong, Tree.startOf, Tree.startOf, h]

/-- A path leads where its names lead. -/
theorem LeadsTo.leadsAlong (h : disk.LeadsTo path l) : disk.LeadsAlong path (Path.names path) l := by
  obtain ⟨-, left, ht⟩ := h
  exact ⟨left, Tree.trek_filter ht⟩

/-- Names lead into a directory behind them. -/
theorem LeadsAlong.snoc (h : disk.LeadsAlong path found d) (hd : disk.tree.get? d = some (.directory m))
    (hm : m.ownerMaySearch = true) (hn : Tree.IsName n) (hsize : n.utf8ByteSize ≤ maxNameBytes)
    {m' : Mode} (hnext : disk.tree.get? (n :: d) = some (.directory m')) :
    disk.LeadsAlong path (found ++ [n]) (n :: d) := by
  obtain ⟨left, ht⟩ := h
  have hturn : disk.tree.turn Mode.ownerMaySearch d n = .ok (.stand (n :: d)) := by
    rw [Tree.turn_name hd hm hn hsize, hnext]
  refine ⟨left, ?_⟩
  rw [Tree.trek_append_of_ok ht, Tree.trek_cons_stand hturn, Tree.trek_nil]

/-- Names lead nowhere behind a missing one. -/
theorem not_leadsAlong_of_free (h : disk.LeadsAlong path found d) (hn : Tree.IsName n)
    (free : disk.tree.get? (n :: d) = none) : ¬ disk.LeadsAlong path (found ++ n :: others) l := by
  rintro ⟨left', ht'⟩
  obtain ⟨left, ht⟩ := h
  obtain ⟨e, he⟩ := Tree.turn_eq_error_of_get?_eq_none Mode.ownerMaySearch hn free
  rw [Tree.trek_append_of_ok ht, Tree.trek_cons, he] at ht'
  cases ht'

/-! ## Making entries -/

/-- A path makes an entry where its last name is missing in a directory that takes entries. -/
theorem vacancy_of_names (hpath : Path.Ordinary path) (hnames : Path.names path = found ++ [n])
    (h : disk.LeadsAlong path found d) (takes : disk.TakesEntries d)
    (free : disk.tree.get? (n :: d) = none) : disk.vacancy path = .ok (n, d) := by
  obtain ⟨left, ht⟩ := h
  obtain ⟨m, hd, hw, hs⟩ := takes
  have hmem : n ∈ Path.names path := by rw [hnames]; simp
  have hne : path ≠ "" := by
    rintro rfl
    cases hmem
  obtain ⟨before, slashes, hpieces, hbefore, hslashes⟩ := Path.exists_pieces_of_names hnames
  refine vacancy_eq_ok_iff.mpr ⟨place_eq_some_iff.mpr ⟨hpath.admissible hne, hpath.isName hmem,
    hpath.size hmem, before, slashes, left, m, hpieces, Path.eq_empty_of_filter_eq_nil hslashes, ?_,
    hd, hs⟩, free, (mayChange_of_directory hd).trans hw⟩
  rw [← hbefore] at ht
  exact Tree.trek_of_trek_filter ht hd

/-- A path that makes an entry lacks just its last name, in a directory that takes entries. -/
theorem exists_of_vacancy (h : disk.vacancy path = .ok (n, d)) :
    ∃ found, Path.names path = found ++ [n] ∧ disk.LeadsAlong path found d ∧
      disk.TakesEntries d ∧ disk.tree.get? (n :: d) = none := by
  obtain ⟨hplace, free, hchange⟩ := vacancy_eq_ok_iff.mp h
  obtain ⟨-, hn, -, before, slashes, left, m, hpieces, hslashes, ht, hd, hs⟩ :=
    place_eq_some_iff.mp hplace
  refine ⟨before.filter (· ≠ ""), ?_, ⟨left, Tree.trek_filter ht⟩,
    ⟨m, hd, (mayChange_of_directory hd).symm.trans hchange, hs⟩, free⟩
  have hslashes' : slashes.filter (· ≠ "") = [] :=
    List.filter_eq_nil_iff.mpr fun p hp => by simpa using hslashes p hp
  rw [Path.names, hpieces, List.filter_append, List.filter_cons_of_pos (by simpa using hn.ne_empty),
    hslashes']

/-- Where more than the last name is missing, something on the way is not found. -/
theorem vacancy_eq_notFound_of_names {last : Name} (hpath : Path.Ordinary path)
    (hnames : Path.names path = found ++ n :: (others ++ [last])) (h : disk.LeadsAlong path found d)
    (takes : disk.TakesEntries d) (free : disk.tree.get? (n :: d) = none) :
    disk.vacancy path = .error (.system .notFound) := by
  obtain ⟨left, ht⟩ := h
  obtain ⟨m, hd, hw, hs⟩ := takes
  have hmem : n ∈ Path.names path := by rw [hnames]; simp
  have hlast : last ∈ Path.names path := by rw [hnames]; simp
  have hne : path ≠ "" := by
    rintro rfl
    cases hmem
  obtain ⟨before, after, hpieces, hbefore, hafter⟩ := Path.exists_pieces_of_names hnames
  obtain ⟨gap, slashes, rfl, -, hslashes⟩ := Path.exists_pieces_of_names hafter
  have hsplit : Tree.splitLast (Path.pieces path) = some (before ++ n :: gap, last) :=
    Tree.splitLast_eq_some_iff.mpr ⟨(hpath.isName hlast).ne_empty, slashes,
      Path.eq_empty_of_filter_eq_nil hslashes, by simp [hpieces]⟩
  have hturn : disk.tree.turn Mode.ownerMaySearch d n = .error .notFound := by
    rw [Tree.turn_name hd hs (hpath.isName hmem) (hpath.size hmem), free]
  have hwalk : disk.tree.walk Mode.ownerMaySearch true maxLinks (Tree.startOf disk.cwd path)
      ((before ++ n :: gap) ++ ["."]) = .error .notFound := by
    rw [← hbefore] at ht
    rw [List.append_assoc, Tree.walk_append_of_trek (Tree.trek_of_trek_filter ht hd) (by simp),
      List.cons_append, Tree.walk_cons, hturn]
  rw [vacancy, place_of_splitLast (hpath.admissible hne) hsplit, hwalk]
  rfl

end Disk

end UserStorage
