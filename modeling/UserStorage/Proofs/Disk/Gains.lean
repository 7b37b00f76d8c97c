import UserStorage.Proofs.Disk.Vacancy
import UserStorage.Proofs.Tree.Agreement

/-!
# Disks that gain directories

A disk gains directories when entries are added that are all directories made under its mask, and
nothing else changes. Two disks that have gained directories from the same one agree, however
they came by them: what a path leads to on the one it leads to on the other, or something on the
way has not been made there yet. So on a disk that has gained directories a making succeeds as it
would have before, unless the directory is there already.

## Main definitions

* `Disk.Gains`: one disk has gained directories to become another

## Main results

* `Disk.Gains.agrees`: two disks that have gained directories from the same one agree
* `Disk.gains_adding`: a new directory
* `Disk.exists_parent_of_place`: behind the parent of a path that has a place is a directory
* `Disk.Gains.vacancy`: a making on a disk that has gained directories
* `Disk.vacancy_eq_notFound`: a making behind a parent that is not there yet
-/

namespace UserStorage

namespace Tree

/-- After an addition a tree holds what it held, and perhaps the new entry. -/
theorem get?_add_cases {t : Tree} {n : Name} {d l : Location} {e e' : Entry}
    (h : (t.add n d e).get? l = some e') : t.get? l = some e' ∨ l = n :: d ∧ e' = e := by
  by_cases hd : t.isDirectory d = true ∧ (t.get? (n :: d)).isNone = true
  · rw [get?_add hd.1 (Option.isNone_iff_eq_none.mp hd.2)] at h
    split_ifs at h with hl
    · exact Or.inr ⟨hl, (Option.some.inj h).symm⟩
    · exact Or.inl h
  · rw [add, dif_neg hd] at h
    exact Or.inl h

end Tree

namespace Disk

variable {disk after before mid : Disk} {path q : String} {n : Name} {d : Location}

/-! ## Places by the walk to them -/

/-- A path that has a place on one of two disks that agree has the same on the other, or something
on the way is missing there. -/
theorem place_of_agrees (h : disk.tree.Agrees after.tree) (hcwd : disk.cwd = after.cwd)
    {x : Option (Name × Location)} (hx : after.place path = .ok x) :
    disk.place path = .ok x ∨ disk.place path = .error (.system .notFound) := by
  have ha := admissible_of_place hx
  cases hs : Tree.splitLast (Path.pieces path) with
  | none =>
    rw [place_of_splitLast_none ha hs] at hx ⊢
    exact Or.inl hx
  | some p =>
    obtain ⟨first, last⟩ := p
    rw [place_of_splitLast ha hs] at hx
    rw [place_of_splitLast ha hs, hcwd]
    cases hw : after.tree.walk Mode.ownerMaySearch true maxLinks (Tree.startOf after.cwd path)
        (first ++ ["."]) with
    | error e => simp [hw] at hx
    | ok d =>
      rw [hw] at hx
      rcases Tree.walk_true_of_agrees h hw with heq | hmiss
      · exact Or.inl (by rw [heq]; exact hx)
      · exact Or.inr (by rw [hmiss])

/-- Of two ways to cut some pieces, one at the last piece that is not empty, the other at a
component, the one at the component comes first. -/
theorem exists_eq_append_of_cut {ps first gap slashes tail : List String} {last name : String}
    (hlast : ps = first ++ last :: slashes) (hslashes : ∀ s ∈ slashes, s = "")
    (hname : ps = gap ++ name :: tail) (hne : name ≠ "") : ∃ rest, first = gap ++ rest := by
  rcases List.append_eq_append_iff.mp (hlast.symm.trans hname) with
    ⟨rest, hrest, htail⟩ | ⟨rest, hrest, -⟩
  · cases rest with
    | nil => exact ⟨[], by simpa using hrest.symm⟩
    | cons r rest =>
      have hmem : name ∈ slashes := by
        rw [(List.cons.inj htail).2]
        simp
      exact absurd (hslashes name hmem) hne
  · exact ⟨rest, hrest⟩

/-- Behind the parent of a path that has a place there is a directory. -/
theorem exists_parent_of_place {x : Option (Name × Location)} (h : disk.place path = .ok x)
    (hq : Path.parent? path = some q) (hne : q ≠ "") : ∃ d m, disk.LeadsToDirectory q d m := by
  obtain ⟨cut⟩ := Path.exists_cut hq hne
  have ha := admissible_of_place h
  have hname := (Path.isIdle_eq_false_iff.mp cut.name_named).1
  have hcut : Path.pieces path = (cut.core ++ cut.gap) ++ cut.name :: cut.tail := by
    rw [cut.pieces_eq, List.append_assoc]
  cases hs : Tree.splitLast (Path.pieces path) with
  | none =>
    rw [Tree.splitLast] at hs
    split at hs
    · next hempty =>
      have hall := List.dropWhile_eq_nil_iff.mp hempty cut.name (by simp [hcut])
      exact absurd (by simpa using hall) hname
    · cases hs
  | some p =>
    obtain ⟨first, last⟩ := p
    obtain ⟨-, slashes, hslashes, hlast⟩ := Tree.splitLast_eq_some_iff.mp hs
    obtain ⟨rest, hrest⟩ := exists_eq_append_of_cut hlast hslashes hcut hname
    rw [place_of_splitLast ha hs] at h
    cases hw : disk.tree.walk Mode.ownerMaySearch true maxLinks (Tree.startOf disk.cwd path)
        (first ++ ["."]) with
    | error e => simp [hw] at h
    | ok d =>
      -- the walk to the place goes through the parent, and behind that it still has the dot to pass
      obtain ⟨piece, rest', hrest'⟩ := List.exists_cons_of_ne_nil (l := rest ++ ["."]) (by simp)
      rw [hrest, List.append_assoc, hrest'] at hw
      obtain ⟨d', left, m, r, ht, hm, -, -⟩ := exists_turn_of_walk hw
      obtain ⟨d'', left', hcore, hgap⟩ := Tree.exists_of_trek_append ht
      obtain ⟨rfl, rfl⟩ := Tree.eq_of_trek_idle cut.gap_idle hgap
      exact ⟨_, m, (leadsTo_parent_iff cut (ha.parent hq hne)).mpr ⟨_, hcore⟩, hm⟩

/-! ## Gains -/

/-- A disk has gained directories, made under its mask, and nothing else has changed. -/
structure Gains (before after : Disk) : Prop where
  le : before ≤ after
  /-- What is new is such a directory. -/
  new_eq {l : Location} {e : Entry} (h : after.tree.get? l = some e)
    (new : before.tree.get? l = none) : e = before.newDirectory

namespace Gains

theorem refl (disk : Disk) : Gains disk disk where
  le := le_rfl
  new_eq h new := by
    rw [h] at new
    cases new

theorem newDirectory_eq (h : Gains before after) : after.newDirectory = before.newDirectory :=
  newDirectory_of_le h.le

theorem trans (h₁ : Gains before mid) (h₂ : Gains mid after) : Gains before after where
  le := h₁.le.trans h₂.le
  new_eq {l e} h new := by
    cases hmid : mid.tree.get? l with
    | none => exact (h₂.new_eq h hmid).trans h₁.newDirectory_eq
    | some e' =>
      have hafter := Tree.get?_of_le h₂.le.1 hmid
      rw [h] at hafter
      obtain rfl := Option.some.inj hafter
      exact h₁.new_eq hmid new

/-- Two disks that have gained directories from the same one agree. -/
theorem agrees {a b : Disk} (ha : Gains before a) (hb : Gains before b) :
    a.tree.Agrees b.tree := by
  intro l e e' he he'
  cases hl : before.tree.get? l with
  | some e₀ =>
    rw [Tree.get?_of_le ha.le.1 hl] at he
    rw [Tree.get?_of_le hb.le.1 hl] at he'
    exact (Option.some.inj he).symm.trans (Option.some.inj he')
  | none => rw [ha.new_eq he hl, hb.new_eq he' hl]

theorem cwd_eq {a b : Disk} (ha : Gains before a) (hb : Gains before b) : a.cwd = b.cwd :=
  ha.le.2.1.symm.trans hb.le.2.1

/-- Where a path leads on two such disks it leads to the same place. -/
theorem eq_of_leadsTo {a b : Disk} (ha : Gains before a) (hb : Gains before b) {l k : Location}
    (hl : a.LeadsTo path l) (hk : b.LeadsTo path k) : l = k := by
  obtain ⟨-, left, hl⟩ := hl
  obtain ⟨-, left', hk⟩ := hk
  rw [ha.cwd_eq hb] at hl
  exact congrArg Prod.fst (Tree.eq_of_trek_of_agrees (ha.agrees hb) hl hk)

/-- What is seen on one such disk at a path that leads to a directory on another is that
directory. -/
theorem showsDirectory {a b : Disk} (ha : Gains before a) (hb : Gains before b)
    (hdir : b.showsDirectory path = true) (seen : (a.lookup? true path).isSome = true) :
    a.showsDirectory path = true := by
  obtain ⟨e, he⟩ := Option.isSome_iff_exists.mp seen
  obtain ⟨l, hl, hget⟩ := lookup?_true_eq_some_iff.mp he
  obtain ⟨k, m, hk, hm⟩ := showsDirectory_iff.mp hdir
  obtain rfl := ha.eq_of_leadsTo hb hl hk
  obtain rfl := ha.agrees hb l e _ hget hm
  exact showsDirectory_iff.mpr ⟨l, m, hl, hget⟩

end Gains

theorem showsDirectory_mono (h : disk ≤ after) (hdir : disk.showsDirectory path = true) :
    after.showsDirectory path = true := by
  obtain ⟨d, m, hd, hm⟩ := showsDirectory_iff.mp hdir
  exact showsDirectory_iff.mpr ⟨d, m, hd.mono h, Tree.get?_of_le h.1 hm⟩

/-! ## Makings on a disk that has gained directories -/

/-- What is new after an addition is the entry that was added. -/
theorem eq_of_new_adding {e e' : Entry} {l : Location}
    (h : (disk.adding n d e).tree.get? l = some e') (new : disk.tree.get? l = none) :
    l = n :: d ∧ e' = e := by
  rcases Tree.get?_add_cases h with hold | heq
  · rw [new] at hold
    cases hold
  · exact heq

/-- A disk gains the directory that is made on it. -/
theorem gains_adding (disk : Disk) (n : Name) (d : Location) :
    Gains disk (disk.adding n d disk.newDirectory) where
  le := le_adding disk n d _
  new_eq h new := (eq_of_new_adding h new).2

/-- A directory that is made is where its path leads then. -/
theorem leadsTo_adding (h : disk.vacancy path = .ok (n, d)) :
    (disk.adding n d disk.newDirectory).LeadsTo path (n :: d) := by
  obtain ⟨l, hl, hdir, hfree, -⟩ := leadsToNew_of_vacancy h
  exact (eq_of_new_adding hdir hfree).1 ▸ hl

theorem place_mono (h : disk ≤ after) (hp : disk.place path = .ok (some (n, d))) :
    after.place path = .ok (some (n, d)) := by
  obtain ⟨ha, hname, hsize, first, slashes, left, m, hpieces, hslashes, ht, hm, hmay⟩ :=
    place_eq_some_iff.mp hp
  exact place_eq_some_iff.mpr ⟨ha, hname, hsize, first, slashes, left, m, hpieces, hslashes,
    h.2.1 ▸ Tree.trek_mono h.1 ht, Tree.get?_of_le h.1 hm, hmay⟩

theorem mayChange_mono (h : disk ≤ after) (hd : disk.mayChange d = true) :
    after.mayChange d = true := by
  rw [mayChange] at hd ⊢
  cases hg : disk.tree.get? d with
  | none => simp [hg] at hd
  | some e =>
    rw [Tree.get?_of_le h.1 hg]
    rwa [hg] at hd

/-- What a making adds is part of every disk that holds all that was there and the directory. -/
theorem adding_le {e : Entry} (h : disk ≤ after) (he : after.tree.get? (n :: d) = some e) :
    disk.adding n d e ≤ after := by
  refine ⟨fun l e' hl => ?_, h.2⟩
  rcases Tree.get?_add_cases hl with hold | ⟨rfl, rfl⟩
  · exact Tree.get?_of_le h.1 hold
  · exact he

/-- On a disk that has gained directories a making succeeds as it would have before, unless the
directory is there already. -/
theorem Gains.vacancy (hmid : Gains before mid) (hle : mid ≤ disk) (hdisk : Gains before disk)
    (h : mid.vacancy path = .ok (n, d)) :
    (disk.vacancy path = .ok (n, d) ∧
        mid.adding n d mid.newDirectory ≤ disk.adding n d disk.newDirectory) ∨
      (disk.vacancy path = .error (.system .alreadyExists) ∧
        mid.adding n d mid.newDirectory ≤ disk) := by
  obtain ⟨hplace, hfree, hmay⟩ := vacancy_eq_ok_iff.mp h
  have hplace' := place_mono hle hplace
  have hnew : disk.newDirectory = mid.newDirectory :=
    hdisk.newDirectory_eq.trans hmid.newDirectory_eq.symm
  cases hg : disk.tree.get? (n :: d) with
  | none =>
    have hvacant : disk.vacancy path = .ok (n, d) :=
      vacancy_eq_ok_iff.mpr ⟨hplace', hg, mayChange_mono hle hmay⟩
    refine Or.inl ⟨hvacant, ?_⟩
    rw [← hnew]
    exact adding_le (hle.trans (le_adding disk n d _))
      (Tree.get?_add_self (isDirectory_of_place hplace') hg _)
  | some e =>
    have he : e = mid.newDirectory :=
      (hdisk.new_eq hg (Tree.get?_eq_none_of_le hmid.le.1 hfree)).trans hmid.newDirectory_eq.symm
    refine Or.inr ⟨?_, adding_le hle (he ▸ hg)⟩
    rw [vacancy_of_place hplace', hg]
    rfl

/-- Behind a parent that has not been made yet, the making of what can be made once it is there
lacks something. -/
theorem vacancy_eq_notFound (hdisk : Gains before disk) (hafter : Gains before after)
    (hdir : after.showsDirectory path = true) (hq : Path.parent? path = some q) (hne : q ≠ "")
    (hno : disk.showsDirectory q = false) :
    disk.vacancy path = .error (.system .notFound) := by
  have habsent {x : Option (Name × Location)} (hx : disk.place path = .ok x) : False := by
    obtain ⟨d, m, hd⟩ := exists_parent_of_place hx hq hne
    rw [showsDirectory_iff.mpr ⟨d, m, hd⟩] at hno
    cases hno
  obtain ⟨l, m, hl⟩ := showsDirectory_iff.mp hdir
  obtain ⟨x, hx⟩ : ∃ x, after.place path = .ok x := by
    rcases place_of_lookup? (lookup?_of_leadsToDirectory hl) with hp | ⟨n, d, hp, -⟩
    · exact ⟨none, hp⟩
    · exact ⟨some (n, d), hp⟩
  rcases place_of_agrees (hdisk.agrees hafter) (hdisk.cwd_eq hafter) hx with hp | hp
  · exact (habsent hp).elim
  · rw [vacancy, hp]
    rfl

end Disk

end UserStorage
