import UserStorage.Proofs.Disk.Vacancy

/-!
# What is there, and what may be found

A look goes through directories that the caller may search. A walk that ignores permission bits
goes further, but no other way: where it passes, the walk of a look passes too or is stopped by a
directory that may not be searched. So a directory that is there is either seen, or refused for want
of the right to search; and where it is refused no entry is made, be it for the same want of a right
or, behind a link, because the link is an entry already.

## Main definitions

* `Disk.Holds`: a directory is there, whether or not the caller may get to it
* `Disk.Refuses`: the caller may not search a directory on the way

## Main results

* `Tree.trek_of_all`: treks with and without permission bits
* `Disk.Holds.showsDirectory_iff`: a directory that is there is seen or refused
* `Disk.Holds.vacancy_cases`: why no entry is made where one is refused
-/

namespace UserStorage

namespace Tree

variable {t : Tree} {may : Searchable}

/-- A piece that is passed without regard to permission bits is passed, unless it is looked up in a
directory that may not be searched. -/
theorem turn_of_all {cur : Location} {m : Mode} {piece : String} {r : Turn}
    (hm : t.get? cur = some (.directory m)) (h : t.turn Searchable.all cur piece = .ok r) :
    t.turn may cur piece = if piece = "" ∨ may m = true then .ok r else .error .accessDenied := by
  rw [turn_of_directory hm] at h ⊢
  by_cases hempty : piece = ""
  · rw [if_pos hempty] at h
    rw [if_pos hempty, if_pos (Or.inl hempty), h]
  · cases hmay : may m with
    | true =>
      rw [if_neg hempty] at h
      rw [if_neg hempty, if_pos (Or.inr rfl)]
      exact h
    | false =>
      rw [if_neg hempty, if_pos (by rfl), if_neg (by simpa using hempty)]

/-- A trek that is made without regard to permission bits can be made, unless a directory on its way
may not be searched. -/
theorem trek_of_all (may : Searchable) {links : Nat} {cur : Location} {ps : List String}
    {s : Location × Nat} (h : t.trek Searchable.all links cur ps = .ok s) :
    t.trek may links cur ps = .ok s ∨ t.trek may links cur ps = .error .accessDenied := by
  induction links, cur, ps using t.trek_induction Searchable.all with
  | nil links cur =>
    rw [trek_nil] at h
    rw [trek_nil]
    exact Or.inl h
  | cons links cur p rest ihStand ihLink =>
    rw [trek_cons] at h ⊢
    cases hturn : t.turn Searchable.all cur p with
    | error e => simp [hturn] at h
    | ok r =>
      obtain ⟨m, hm, -⟩ := directory_of_turn hturn
      rw [hturn] at h
      rw [turn_of_all hm hturn]
      split_ifs
      · cases r with
        | stand l => exact ihStand l hturn h
        | link target =>
          cases links with
          | zero => simp at h
          | succ left => exact ihLink left target rfl hturn h
      · exact Or.inr rfl

/-- A trek through a first piece was in a directory. -/
theorem exists_directory_of_trek_cons {links : Nat} {cur : Location} {p : String}
    {rest : List String} {s : Location × Nat} (h : t.trek may links cur (p :: rest) = .ok s) :
    ∃ m r, t.get? cur = some (.directory m) ∧ t.turn may cur p = .ok r := by
  rw [trek_cons] at h
  cases hturn : t.turn may cur p with
  | error e => simp [hturn] at h
  | ok r =>
    obtain ⟨m, hm, -⟩ := directory_of_turn hturn
    exact ⟨m, r, hm, rfl⟩

/-- Empty pieces are passed whatever the permission bits are. -/
theorem trek_empty_of_all {links : Nat} {cur : Location} {ps : List String} {s : Location × Nat}
    (hi : ∀ p ∈ ps, p = "") (h : t.trek Searchable.all links cur ps = .ok s) :
    t.trek may links cur ps = .ok s := by
  cases ps with
  | nil => rwa [trek_nil] at h ⊢
  | cons p ps =>
    obtain ⟨m, r, hm, -⟩ := exists_directory_of_trek_cons h
    rwa [trek_empty hi hm] at h ⊢

end Tree

namespace Disk

variable {disk : Disk} {path : String}

/-- The path leads to a directory when permission bits do not count. -/
def Holds (disk : Disk) (path : String) : Prop :=
  hasNul path = false ∧
    ∃ l, disk.tree.resolve Searchable.all disk.cwd true path = .ok l ∧
      disk.tree.isDirectory l = true

/-- A directory on the way along the path may not be searched. -/
def Refuses (disk : Disk) (path : String) : Prop :=
  disk.tree.resolve Mode.ownerMaySearch disk.cwd true path = .error .accessDenied

theorem resolve_of_admissible {may : Searchable} (ha : Path.Admissible path) :
    disk.tree.resolve may disk.cwd true path =
      (disk.tree.trek may maxLinks (Tree.startOf disk.cwd path) (Path.pieces path)).map
        Prod.fst := by
  rw [Tree.resolve, Tree.accept_eq_ok_iff.mpr ⟨ha.ne_empty, ha.size_le⟩, ← Tree.walk_true]
  rfl

/-- Nothing is seen where the caller is refused. -/
theorem Refuses.unseen (h : disk.Refuses path) : disk.lookup? true path = none := by
  rw [Refuses] at h
  rw [lookup?, h]
  split_ifs <;> rfl

namespace Holds

/-- The way to a directory that is there. -/
theorem exists_trek (h : disk.Holds path) : Path.Admissible path ∧ ∃ l left m,
    disk.tree.trek Searchable.all maxLinks (Tree.startOf disk.cwd path) (Path.pieces path) =
      .ok (l, left) ∧ disk.tree.get? l = some (.directory m) := by
  obtain ⟨hnul, l, hresolve, hdir⟩ := h
  obtain ⟨⟨hne, hsize⟩, -⟩ := Tree.resolve_eq_ok_iff.mp hresolve
  have ha : Path.Admissible path := ⟨hnul, hne, hsize⟩
  rw [resolve_of_admissible ha] at hresolve
  cases ht : disk.tree.trek Searchable.all maxLinks (Tree.startOf disk.cwd path)
      (Path.pieces path) with
  | error e =>
    rw [ht] at hresolve
    cases hresolve
  | ok s =>
    rw [ht] at hresolve
    obtain rfl : s.1 = l := Except.ok.inj hresolve
    cases he : disk.tree.get? s.1 with
    | none => simp [Tree.isDirectory, he] at hdir
    | some e =>
      cases e with
      | directory m => exact ⟨ha, s.1, s.2, m, rfl, he⟩
      | _ => simp [Tree.isDirectory, he, Entry.isDirectory] at hdir

/-- A directory that is there is seen, unless the caller is refused on the way. -/
theorem showsDirectory_iff (h : disk.Holds path) :
    disk.showsDirectory path = true ↔ ¬ disk.Refuses path := by
  obtain ⟨ha, l, left, m, ht, hm⟩ := h.exists_trek
  rcases Tree.trek_of_all Mode.ownerMaySearch ht with hsame | hdenied
  · have shows := Disk.showsDirectory_iff.mpr ⟨l, m, ⟨ha, left, hsame⟩, hm⟩
    refine iff_of_true shows fun hrefuses => ?_
    rw [Refuses, resolve_of_admissible ha, hsame] at hrefuses
    cases hrefuses
  · have hrefuses : disk.Refuses path := by
      rw [Refuses, resolve_of_admissible ha, hdenied]
      rfl
    refine iff_of_false (fun shows => ?_) (not_not_intro hrefuses)
    exact lookup?_ne_none_of_showsDirectory shows hrefuses.unseen

theorem trek_of_refuses (h : disk.Holds path) (hrefuses : disk.Refuses path) :
    disk.tree.trek Mode.ownerMaySearch maxLinks (Tree.startOf disk.cwd path) (Path.pieces path) =
      .error .accessDenied := by
  obtain ⟨ha, l, left, m, ht, -⟩ := h.exists_trek
  rcases Tree.trek_of_all Mode.ownerMaySearch ht with hsame | hdenied
  · rw [Refuses, resolve_of_admissible ha, hsame] at hrefuses
    cases hrefuses
  · exact hdenied

/-- Where the caller is refused on the way to a directory that is there, no entry is made: the way
to its place is refused too, or a link is at the place, behind which the caller is refused. -/
theorem vacancy_cases (h : disk.Holds path) (hrefuses : disk.Refuses path) :
    disk.vacancy path = .error (.system .accessDenied) ∨
      disk.vacancy path = .error (.system .alreadyExists) ∧ ∃ n d target,
        disk.place path = .ok (some (n, d)) ∧ disk.tree.get? (n :: d) = some (.link target) := by
  obtain ⟨ha, l, left, m, ht, hm⟩ := h.exists_trek
  have hdenied := h.trek_of_refuses hrefuses
  have hplace {e : Errno} (he : disk.place path = .error (.system e)) :
      disk.vacancy path = .error (.system e) := by
    rw [vacancy, he]
    rfl
  cases hs : Tree.splitLast (Path.pieces path) with
  | none =>
    rw [Tree.trek_empty_of_all (Tree.eq_empty_of_splitLast_eq_none hs) ht] at hdenied
    cases hdenied
  | some p =>
    obtain ⟨before, last⟩ := p
    obtain ⟨hlast, slashes, hempty, hp⟩ := Tree.splitLast_eq_some_iff.mp hs
    rw [hp] at ht hdenied
    obtain ⟨d, k, hbefore, hrest⟩ := Tree.exists_of_trek_append ht
    obtain ⟨md, r, hd, hturn⟩ := Tree.exists_directory_of_trek_cons hrest
    rcases Tree.trek_of_all Mode.ownerMaySearch hbefore with hsame | hstopped
    · by_cases hmay : md.ownerMaySearch = true
      · have hturn' : disk.tree.turn Mode.ownerMaySearch d last = .ok r := by
          rw [Tree.turn_of_all hd hturn, if_pos (Or.inr hmay)]
        rw [Tree.trek_append_of_ok hsame] at hdenied
        cases r with
        | stand l' =>
          rw [Tree.trek_cons_stand hturn] at hrest
          rw [Tree.trek_cons_stand hturn', Tree.trek_empty_of_all hempty hrest] at hdenied
          cases hdenied
        | link target =>
          right
          have hname : Tree.IsName last := by
            by_contra hnot
            obtain ⟨l', hstand, -⟩ := Tree.isDirectory_of_turn hnot hturn
            cases hstand
          have hlink := Tree.get?_of_turn_link hturn
          have hat : disk.place path = .ok (some (last, d)) :=
            place_eq_some_iff.mpr ⟨ha, hname, Tree.size_le_of_turn hname hturn, before, slashes, k,
              md, hp, hempty, hsame, hd, hmay⟩
          refine ⟨?_, last, d, target, hat, hlink⟩
          rw [vacancy_of_place hat, hlink]
          rfl
      · left
        refine hplace ?_
        have hdot : disk.tree.turn Mode.ownerMaySearch d "." = .error .accessDenied :=
          Tree.turn_of_shut hd (by simpa using hmay) (by decide)
        rw [place_of_splitLast ha hs, Tree.walk_append_of_trek hsame (by simp), Tree.walk_cons,
          hdot]
    · left
      refine hplace ?_
      rw [place_of_splitLast ha hs, Tree.walk_append _ _ _ _ (by simp), hstopped]
      rfl

end Holds

end Disk

end UserStorage
