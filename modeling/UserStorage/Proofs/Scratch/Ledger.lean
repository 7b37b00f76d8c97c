import Mathlib.Logic.Function.Basic
import UserStorage.Proofs.Scratch.Protocol

/-!
# The ledger of scratch errands

What all errands on one disk keep up together. What was on the disk before them stays as it was.
What is new is a file or a directory of theirs. A name that is held by a file is held by one errand
only, and its file is there; a directory that was obtained is there. Every move of the protocol
keeps this up, because it changes one place only, and at that place the others have nothing that
the move could take from them.

## Main definitions

* `Scratch.Ledger`: what errands keep up together

## Main results

* `Scratch.Ledger.fits`: each errand meets what it may meet
* `Scratch.Ledger.change`: a change at one place
* `Scratch.Ledger.move`: the moves of the protocol keep the ledger
-/

namespace UserStorage.Scratch

variable {root : String} {start disk after : Disk} {stages : Nat → Stage} {i j : Nat} {n : Name}
  {d l : Location} {stage : Stage}

/-- The name that an errand has or has had. -/
def Stage.name? : Stage → Option Name
  | free => none
  | holds n | cleared n | obtained n => some n

/-- What errands keep up together, since the disk on which they have started. -/
structure Ledger (start : Disk) (root : String) (stages : Nat → Stage) (disk : Disk) : Prop where
  /-- Nothing that was there is changed. -/
  le : start ≤ disk
  /-- What is new is a file or a directory at a scratch name. -/
  new_cases {l : Location} {e : Entry} (h : disk.tree.get? l = some e)
    (new : start.tree.get? l = none) :
    (∃ n d, l = n :: d ∧ start.vacancy (pathIn root n) = .ok (n, d)) ∧
      (e = start.newFile ∨ e = start.newDirectory)
  /-- Names are taken where there was nothing. -/
  vacant {i : Nat} {n : Name} (h : (stages i).name? = some n) :
    ∃ d, start.vacancy (pathIn root n) = .ok (n, d)
  held {i : Nat} {n : Name} {d : Location} (h : stages i = .holds n)
    (hv : start.vacancy (pathIn root n) = .ok (n, d)) :
    disk.tree.get? (n :: d) = some start.newFile
  obtained {i : Nat} {n : Name} {d : Location} (h : stages i = .obtained n)
    (hv : start.vacancy (pathIn root n) = .ok (n, d)) :
    disk.tree.get? (n :: d) = some start.newDirectory
  /-- A name is held by one errand only. -/
  unique {i j : Nat} {n : Name} (hi : stages i = .holds n) (hj : stages j = .holds n) : i = j

theorem ledger_start (start : Disk) (root : String) :
    Ledger start root (fun _ => .free) start where
  le := le_rfl
  new_cases h new := by
    rw [h] at new
    cases new
  vacant h := by cases h
  held h := by cases h
  obtained h := by cases h
  unique h := by cases h

theorem newFile_ne_newDirectory (disk : Disk) : disk.newFile ≠ disk.newDirectory := by
  rw [Disk.newFile, Disk.newDirectory]
  exact Entry.noConfusion

namespace Ledger

/-- A place that was vacant at the start may still be changed. -/
theorem place_mayChange (h : Ledger start root stages disk)
    (hv : start.vacancy (pathIn root n) = .ok (n, d)) :
    disk.place (pathIn root n) = .ok (some (n, d)) ∧ disk.mayChange d = true := by
  obtain ⟨hplace, -, hmay⟩ := Disk.vacancy_eq_ok_iff.mp hv
  exact ⟨Disk.place_mono h.le hplace, Disk.mayChange_mono h.le hmay⟩

/-- Each errand meets what it may meet. -/
theorem fits (h : Ledger start root stages disk) (i : Nat) : Fits root (stages i) disk := by
  cases hs : stages i with
  | free => exact trivial
  | holds n =>
    obtain ⟨d, hv⟩ := h.vacant (i := i) (by rw [hs]; rfl)
    obtain ⟨hplace, hmay⟩ := h.place_mayChange hv
    exact ⟨d, _, _, hplace, hmay, h.held hs hv⟩
  | cleared n =>
    obtain ⟨d, hv⟩ := h.vacant (i := i) (by rw [hs]; rfl)
    exact ⟨d, h.place_mayChange hv⟩
  | obtained n => exact trivial

/-- What is vacant now was vacant at the start. -/
theorem vacancy_start (h : Ledger start root stages disk)
    (hv : disk.vacancy (pathIn root n) = .ok (n, d)) :
    start.vacancy (pathIn root n) = .ok (n, d) := by
  by_cases hnew : ∃ l e, disk.tree.get? l = some e ∧ start.tree.get? l = none
  · obtain ⟨l, e, he, hl⟩ := hnew
    obtain ⟨⟨k, c, -, hk⟩, -⟩ := h.new_cases he hl
    obtain ⟨hkplace, -⟩ := Disk.vacancy_eq_ok_iff.mp hk
    obtain ⟨hplace, hfree, hmay⟩ := Disk.vacancy_eq_ok_iff.mp hv
    have hstart := place_of_hosts h.le (hosts_of_place hkplace) hplace
    obtain ⟨-, -, -, -, -, -, m, -, -, -, hm, -⟩ := Disk.place_eq_some_iff.mp hstart
    rw [Disk.mayChange_of_directory (Tree.get?_of_le h.le.1 hm)] at hmay
    exact Disk.vacancy_eq_ok_iff.mpr ⟨hstart, Tree.get?_eq_none_of_le h.le.1 hfree,
      (Disk.mayChange_of_directory hm).trans hmay⟩
  · have hle : disk ≤ start := by
      refine ⟨fun l e he => ?_, h.le.2.1.symm, h.le.2.2.symm⟩
      cases hl : start.tree.get? l with
      | none => exact absurd ⟨l, e, he, hl⟩ hnew
      | some e' => exact (Tree.get?_of_le h.le.1 hl).symm.trans he
    rwa [Disk.eq_of_le_of_le h.le hle]

/-- Where one errand holds its file no other has a directory. -/
theorem not_obtained (h : Ledger start root stages disk) (hi : stages i = .holds n) :
    stages j ≠ .obtained n := by
  intro hj
  obtain ⟨d, hv⟩ := h.vacant (i := i) (by rw [hi]; rfl)
  have hdirectory := h.obtained hj hv
  rw [h.held hi hv] at hdirectory
  exact newFile_ne_newDirectory start (Option.some.inj hdirectory)

/-! ## Changes at one place -/

/-- A change at one place keeps the ledger when those that have the name of the place after it have
there what their stages say. -/
theorem change (h : Ledger start root stages disk) {entry : Option Entry} {k : Name}
    (hcwd : after.cwd = disk.cwd) (humask : after.umask = disk.umask)
    (hget : ∀ l, after.tree.get? l = if l = k :: d then entry else disk.tree.get? l)
    (hv : start.vacancy (pathIn root k) = .ok (k, d))
    (hentry : ∀ e, entry = some e → e = start.newFile ∨ e = start.newDirectory)
    (hname : ∀ n, stage.name? = some n → n = k)
    (hheld : ∀ j, Function.update stages i stage j = .holds k → entry = some start.newFile)
    (hobtained : ∀ j, Function.update stages i stage j = .obtained k →
      entry = some start.newDirectory)
    (hunique : ∀ j j', Function.update stages i stage j = .holds k →
      Function.update stages i stage j' = .holds k → j = j') :
    Ledger start root (Function.update stages i stage) after := by
  obtain ⟨-, hfree, -⟩ := Disk.vacancy_eq_ok_iff.mp hv
  -- at other names nothing changes, neither the stages nor the entries
  have hstage (j : Nat) (n : Name) (hn : n ≠ k)
      (hj : (Function.update stages i stage j).name? = some n) :
      Function.update stages i stage j = stages j := by
    by_cases hji : j = i
    · subst hji
      rw [Function.update_self] at hj
      exact absurd (hname n hj) hn
    · exact Function.update_of_ne hji _ _
  have hplace {n : Name} {d' : Location} (hn : n ≠ k) :
      after.tree.get? (n :: d') = disk.tree.get? (n :: d') := by
    rw [hget, if_neg fun heq => hn (List.cons.inj heq).1]
  have hat {d' : Location} (hv' : start.vacancy (pathIn root k) = .ok (k, d')) :
      after.tree.get? (k :: d') = entry := by
    rw [hv] at hv'
    obtain rfl : d = d' := (Prod.mk.inj (Except.ok.inj hv')).2
    rw [hget, if_pos rfl]
  constructor
  · refine ⟨fun l e he => ?_, h.le.2.1.trans hcwd.symm, h.le.2.2.trans humask.symm⟩
    have hne : l ≠ k :: d := by
      rintro rfl
      rw [hfree] at he
      cases he
    rw [hget, if_neg hne]
    exact Tree.get?_of_le h.le.1 he
  · intro l e he hnew
    rw [hget] at he
    split_ifs at he with hl
    · exact ⟨⟨k, d, hl, hv⟩, hentry e he⟩
    · exact h.new_cases he hnew
  · intro j n hj
    by_cases hn : n = k
    · subst hn
      exact ⟨d, hv⟩
    · rw [hstage j n hn hj] at hj
      exact h.vacant hj
  · intro j n d' hj hv'
    by_cases hn : n = k
    · subst hn
      rw [hat hv', hheld j hj]
    · rw [hstage j n hn (by rw [hj]; rfl)] at hj
      rw [hplace hn]
      exact h.held hj hv'
  · intro j n d' hj hv'
    by_cases hn : n = k
    · subst hn
      rw [hat hv', hobtained j hj]
    · rw [hstage j n hn (by rw [hj]; rfl)] at hj
      rw [hplace hn]
      exact h.obtained hj hv'
  · intro j j' n hj hj'
    by_cases hn : n = k
    · subst hn
      exact hunique j j' hj hj'
    · rw [hstage j n hn (by rw [hj]; rfl)] at hj
      rw [hstage j' n hn (by rw [hj']; rfl)] at hj'
      exact h.unique hj hj'

/-! ## Moves -/

/-- What is not the new stage of an errand is the stage of another one, as before. -/
theorem stage_of_update {other : Stage} (hj : Function.update stages i stage j = other)
    (hne : stage ≠ other) : j ≠ i ∧ stages j = other := by
  by_cases hji : j = i
  · subst hji
    rw [Function.update_self] at hj
    exact absurd hj hne
  · rw [Function.update_of_ne hji] at hj
    exact ⟨hji, hj⟩

theorem reserve (h : Ledger start root stages disk)
    (hv : disk.vacancy (pathIn root n) = .ok (n, d)) :
    Ledger start root (Function.update stages i (.holds n)) (disk.adding n d disk.newFile) := by
  have hstart := h.vacancy_start hv
  obtain ⟨-, hfree, -⟩ := Disk.vacancy_eq_ok_iff.mp hv
  have hfile : disk.newFile = start.newFile := Disk.newFile_of_le h.le
  have hnobody (j : Nat) (hj : stages j = .holds n ∨ stages j = .obtained n) : False := by
    rcases hj with hj | hj
    · rw [h.held hj hstart] at hfree
      cases hfree
    · rw [h.obtained hj hstart] at hfree
      cases hfree
  have hmine (j : Nat) (hj : Function.update stages i (.holds n) j = .holds n) : j = i := by
    by_contra hji
    rw [Function.update_of_ne hji] at hj
    exact hnobody j (Or.inl hj)
  refine h.change rfl rfl (Disk.get?_adding_of_vacancy hv disk.newFile) hstart ?_ ?_ ?_ ?_ ?_
  · intro e he
    exact Or.inl ((Option.some.inj he).symm.trans hfile)
  · intro k hk
    exact (Option.some.inj hk).symm
  · intro j _
    exact congrArg some hfile
  · intro j hj
    exact (hnobody j (Or.inr (stage_of_update hj Stage.noConfusion).2)).elim
  · intro j j' hj hj'
    rw [hmine j hj, hmine j' hj']

/-- The file that an errand holds can be taken away, and nothing else goes with it. -/
theorem get?_remove (h : Ledger start root stages disk) (hi : stages i = .holds n)
    (hplace : disk.place (pathIn root n) = .ok (some (n, d))) :
    start.vacancy (pathIn root n) = .ok (n, d) ∧
      ∀ l, (disk.tree.remove (n :: d)).get? l = if l = n :: d then none else disk.tree.get? l := by
  obtain ⟨d', hv⟩ := h.vacant (i := i) (by rw [hi]; rfl)
  obtain ⟨hplace', -⟩ := h.place_mayChange hv
  obtain rfl : d = d' := by
    rw [hplace] at hplace'
    exact (Prod.mk.inj (Option.some.inj (Except.ok.inj hplace'))).2
  have leaf : disk.tree.isDirectory (n :: d) = false := by
    rw [Tree.isDirectory, h.held hi hv]
    rfl
  exact ⟨hv, Tree.get?_remove leaf⟩

theorem clear (h : Ledger start root stages disk) (hi : stages i = .holds n)
    (hplace : disk.place (pathIn root n) = .ok (some (n, d))) :
    Ledger start root (Function.update stages i (.cleared n))
      { disk with tree := disk.tree.remove (n :: d) } := by
  obtain ⟨hv, hget⟩ := h.get?_remove hi hplace
  have hnobody (j : Nat) (hj : Function.update stages i (.cleared n) j = .holds n) : False := by
    obtain ⟨hji, hj⟩ := stage_of_update hj Stage.noConfusion
    exact hji (h.unique hj hi)
  refine h.change rfl rfl hget hv ?_ ?_ ?_ ?_ ?_
  · intro e he
    cases he
  · intro k hk
    exact (Option.some.inj hk).symm
  · intro j hj
    exact (hnobody j hj).elim
  · intro j hj
    exact absurd (stage_of_update hj Stage.noConfusion).2 (h.not_obtained hi)
  · intro j j' hj _
    exact (hnobody j hj).elim

/-- A directory comes to be, or already is, at the name that was given up. -/
theorem obtain_directory (h : Ledger start root stages disk)
    (hv : start.vacancy (pathIn root n) = .ok (n, d)) (hcwd : after.cwd = disk.cwd)
    (humask : after.umask = disk.umask)
    (hget : ∀ l, after.tree.get? l =
      if l = n :: d then some start.newDirectory else disk.tree.get? l)
    (hnofile : disk.tree.get? (n :: d) ≠ some start.newFile) :
    Ledger start root (Function.update stages i (.obtained n)) after := by
  have hnobody (j : Nat) (hj : Function.update stages i (.obtained n) j = .holds n) : False :=
    hnofile (h.held (stage_of_update hj Stage.noConfusion).2 hv)
  refine h.change hcwd humask hget hv ?_ ?_ ?_ ?_ ?_
  · intro e he
    exact Or.inr (Option.some.inj he).symm
  · intro k hk
    exact (Option.some.inj hk).symm
  · intro j hj
    exact (hnobody j hj).elim
  · intro j _
    rfl
  · intro j j' hj _
    exact (hnobody j hj).elim

theorem make (h : Ledger start root stages disk)
    (hv : disk.vacancy (pathIn root n) = .ok (n, d)) :
    Ledger start root (Function.update stages i (.obtained n))
      (disk.adding n d disk.newDirectory) := by
  obtain ⟨-, hfree, -⟩ := Disk.vacancy_eq_ok_iff.mp hv
  have hget := Disk.get?_adding_of_vacancy hv disk.newDirectory
  rw [Disk.newDirectory_of_le h.le] at hget ⊢
  refine h.obtain_directory (h.vacancy_start hv) rfl rfl hget ?_
  rw [hfree]
  exact (Option.some_ne_none _).symm

/-- A directory that is seen at a scratch name has been made for it. -/
theorem get?_of_showsDirectory (h : Ledger start root stages disk)
    (hv : start.vacancy (pathIn root n) = .ok (n, d))
    (hdir : disk.showsDirectory (pathIn root n) = true) :
    disk.tree.get? (n :: d) = some start.newDirectory := by
  obtain ⟨-, hfree, -⟩ := Disk.vacancy_eq_ok_iff.mp hv
  obtain ⟨hplace, -⟩ := h.place_mayChange hv
  obtain ⟨l, m, hl⟩ := Disk.showsDirectory_iff.mp hdir
  obtain ⟨e, he⟩ := Disk.lookup?_false_isSome (Disk.lookup?_of_leadsToDirectory hl)
  rw [lookup?_pathIn hplace] at he
  rcases (h.new_cases he hfree).2 with rfl | rfl
  · have hfile := isDirectory_of_showsDirectory hplace he (fun _ => Entry.noConfusion) hdir
    cases hfile
  · exact he

theorem find (h : Ledger start root stages disk) (hi : stages i = .cleared n)
    (hdir : disk.showsDirectory (pathIn root n) = true) :
    Ledger start root (Function.update stages i (.obtained n)) disk := by
  obtain ⟨d, hv⟩ := h.vacant (i := i) (by rw [hi]; rfl)
  have hthere := h.get?_of_showsDirectory hv hdir
  refine h.obtain_directory hv rfl rfl ?_ ?_
  · intro l
    split_ifs with hl
    · rw [hl, hthere]
    · rfl
  · rw [hthere]
    intro heq
    exact newFile_ne_newDirectory start (Option.some.inj heq).symm

/-- The moves of the protocol keep the ledger. -/
theorem move (h : Ledger start root stages disk)
    (hmove : Moves root (stages i) disk stage after) :
    Ledger start root (Function.update stages i stage) after := by
  generalize hi : stages i = before at hmove
  have hstay : Function.update stages i before = stages := by
    rw [← hi]
    exact Function.update_eq_self i stages
  cases hmove with
  | refused =>
    rw [hstay]
    exact h
  | reserve vacant => exact h.reserve vacant
  | clear place => exact h.clear hi place
  | overtaken =>
    rw [hstay]
    exact h
  | make vacant => exact h.make vacant
  | find dir => exact h.find hi dir

end Ledger

end UserStorage.Scratch
