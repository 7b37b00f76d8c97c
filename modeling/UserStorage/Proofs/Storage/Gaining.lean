import UserStorage.Proofs.Disk.Gains
import UserStorage.Proofs.Storage.Making

/-!
# What making a directory gains

A run that makes a directory with its ancestors gains directories and changes nothing else, however
it ends. Each of them is where the path or one of its lexical ancestors then leads. A run that ends
well gains no more than it must: whoever sees the path lead to a directory, on a disk that has
gained directories from the same one, has all that the run has made.

## Main results

* `Storage.Making.gains`: a run gains directories
* `Storage.Making.exists_leadsTo_of_new`: what is new is where an ancestor leads
* `Storage.Making.le_of_showsDirectory`: a run that ends well gains what it must
-/

namespace UserStorage.Storage

variable {path : String} {ancestors : List String} {start disk mid met after : Disk}
  {answer : Except IoError Unit} {l : Location}

/-! ## Attempts -/

namespace Attempt

theorem gains (h : Attempt path disk answer after) : disk.Gains after := by
  cases h with
  | made free => exact Disk.gains_adding disk _ _
  | settled => exact .refl disk
  | refused => exact .refl disk

/-- What an attempt has added is where its path leads. -/
theorem leadsTo_of_new (h : Attempt path disk answer after) {e : Entry}
    (he : after.tree.get? l = some e) (new : disk.tree.get? l = none) : after.LeadsTo path l := by
  cases h with
  | made free =>
    rw [(Disk.eq_of_new_adding he new).1]
    exact Disk.leadsTo_adding free
  | settled => rw [he] at new; cases new
  | refused => rw [he] at new; cases new

/-- A disk that has gained directories, and on which the path leads to one, has what an attempt
makes. -/
theorem le_of_showsDirectory (h : Attempt path mid (.ok ()) after) (hmid : start.Gains mid)
    (hle : mid ≤ met) (hmet : start.Gains met) (hshows : met.showsDirectory path = true) :
    after ≤ met := by
  cases h with
  | made free =>
    obtain ⟨k, m, hk, hdir⟩ := Disk.showsDirectory_iff.mp hshows
    obtain ⟨-, hfree, -⟩ := Disk.vacancy_eq_ok_iff.mp free
    obtain rfl := (hmid.trans (Disk.gains_adding mid _ _)).eq_of_leadsTo hmet
      (Disk.leadsTo_adding free) hk
    refine Disk.adding_le hle ?_
    rw [hdir, hmet.new_eq hdir (Tree.get?_eq_none_of_le hmid.le.1 hfree), hmid.newDirectory_eq]
  | settled => exact hle

/-- What a making is replied that comes after all that an attempt needs: it makes what the attempt
would have made, or that is there already. -/
theorem makeDirectory_cases (h : Attempt path mid (.ok ()) after) (hmid : start.Gains mid)
    (hle : mid ≤ met) (hmet : start.Gains met) :
    (∃ n d, met.makeDirectory path = (.ok (), met.adding n d met.newDirectory) ∧
        after ≤ met.adding n d met.newDirectory) ∨
      (met.makeDirectory path = (.error (.system .alreadyExists), met) ∧ after ≤ met) := by
  cases h with
  | made free =>
    rcases hmid.vacancy hle hmet free with ⟨hv, hafter⟩ | ⟨hv, hafter⟩
    · exact Or.inl ⟨_, _, by rw [Disk.makeDirectory, hv], hafter⟩
    · exact Or.inr ⟨by rw [Disk.makeDirectory, hv], hafter⟩
  | settled taken dir =>
    obtain ⟨d, m, hd⟩ := Disk.showsDirectory_iff.mp (Disk.showsDirectory_mono hle dir)
    have hv := Disk.vacancy_of_lookup? (Disk.lookup?_of_leadsToDirectory hd)
    exact Or.inr ⟨by rw [Disk.makeDirectory, hv], hle⟩

end Attempt

/-! ## Runs -/

namespace Making

/-- A run gains directories, however it ends. -/
theorem gains (h : Making path ancestors disk answer after) : disk.Gains after := by
  induction h with
  | empty => exact .refl _
  | once _ _ attempt => exact attempt.gains
  | lost => exact .refl _
  | orphan _ _ _ ih => exact ih
  | again _ _ _ attempt ih => exact ih.trans attempt.gains

/-- What a run has added is where the path or one of its ancestors leads at its end. -/
theorem exists_leadsTo_of_new (h : Making path ancestors disk answer after) {e : Entry}
    (he : after.tree.get? l = some e) (new : disk.tree.get? l = none) :
    ∃ q ∈ path :: ancestors, after.LeadsTo q l := by
  -- along the run: an entry is new since the last attempt, or it was there before that
  induction h generalizing e with
  | empty => rw [he] at new; cases new
  | once _ _ attempt => exact ⟨_, List.mem_cons_self, attempt.leadsTo_of_new he new⟩
  | lost => rw [he] at new; cases new
  | orphan _ _ _ ih =>
    obtain ⟨q, hq, hl⟩ := ih he new
    exact ⟨q, List.mem_cons_of_mem _ hq, hl⟩
  | @again path parent others disk mid after cause answer _ _ _ attempt ih =>
    cases hmid : mid.tree.get? l with
    | none => exact ⟨path, List.mem_cons_self, attempt.leadsTo_of_new he hmid⟩
    | some e' =>
      obtain ⟨q, hq, hl⟩ := ih hmid new
      exact ⟨q, List.mem_cons_of_mem _ hq, hl.mono attempt.le⟩

/-- A disk that has gained directories, and on which the path leads to one, has all that a run
that ends well makes. -/
theorem le_of_showsDirectory (h : Making path ancestors start (.ok ()) after)
    (ha : ancestors = Path.ancestors path) (hmet : start.Gains met)
    (hshows : met.showsDirectory path = true) : after ≤ met := by
  -- from the path to its ancestors: where the path is seen its parent is
  generalize hanswer : (Except.ok () : Except IoError Unit) = answer at h
  induction h with
  | empty => exact hmet.le
  | once _ _ attempt =>
    subst hanswer
    exact attempt.le_of_showsDirectory (.refl _) hmet.le hmet hshows
  | lost => cases hanswer
  | orphan => cases hanswer
  | @again path parent others start mid after cause answer _ _ above attempt ih =>
    subst hanswer
    obtain ⟨hparent, rfl⟩ := exists_parent_of_ancestors ha
    refine attempt.le_of_showsDirectory above.gains ?_ hmet hshows
    by_cases hroot : parent = ""
    · subst hroot
      rw [above.eq_of_empty]
      exact hmet.le
    exact ih rfl hmet (Disk.showsDirectory_parent hshows hparent hroot) rfl

end Making

end UserStorage.Storage
