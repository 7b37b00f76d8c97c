import UserStorage.Proofs.Scratch.Protocol
import UserStorage.Proofs.Storage.Clearance

/-!
# Scratch directories, made alone

A request for a scratch directory that nobody interferes with reserves a name by a file, deletes the
file and makes the directory. Only the first of these can fail. A file that has just been made can be
removed again, for its directory grants what both take, and without it the disk is as it was before;
so the place is vacant again, and the first attempt makes the directory there.

Hence a request either adds one empty directory where nothing was, or it changes nothing and fails
for want of the file. Which of the two is decided by the first drawn name that is not taken.

## Main definitions

* `Disk.Taken`: an entry is in the way of a file that is to be made
* `Scratch.Reserves`: the draw whose name is reserved
* `Scratch.Reserving`: the searches for an unused name
* `Scratch.GainsAt`: one empty directory is there that was not
* `Scratch.AllOrNothing`: what a request for a directory answers and leaves

## Main results

* `Disk.removeFile_makeFile`: a file that has just been made is removed again
* `Scratch.reserving_reserve`: what the program does is a search of this kind
* `Scratch.replaceWithDirectory_runOn`: the file that has been made is replaced
* `Scratch.allOrNothing_of_directory`: every request for a directory is all or nothing
-/

namespace UserStorage

/-- What has been added can be taken away again, unless it is a directory. -/
theorem Tree.remove_add {t : Tree} {n : Name} {d : Location} {e : Entry}
    (dir : t.isDirectory d = true) (free : t.get? (n :: d) = none) (leaf : e.isDirectory = false) :
    (t.add n d e).remove (n :: d) = t := by
  have hget := get?_add dir free e
  have hleaf : (t.add n d e).isDirectory (n :: d) = false := by simp [isDirectory, hget, leaf]
  apply ext
  intro l
  rw [get?_remove hleaf, hget]
  split_ifs with h
  · rw [h, free]
  · rfl

namespace Disk

variable {disk : Disk} {path : String} {cause : IoError}

/-- A file is made at a vacant place, by a path that asks for no directory. -/
theorem exists_vacancy_of_makeFile (h : (disk.makeFile path).1 = .ok ()) :
    ∃ n d, disk.vacancy path = .ok (n, d) ∧ asksForDirectory path = false ∧
      (disk.makeFile path).2 = disk.adding n d disk.newFile := by
  rw [makeFile] at h ⊢
  cases hv : disk.vacancy path with
  | error cause =>
    rw [hv] at h
    cases h
  | ok place =>
    obtain ⟨n, d⟩ := place
    rw [hv] at h
    dsimp only at h ⊢
    split_ifs at h ⊢ with hasks
    exact ⟨n, d, rfl, by simpa using hasks, rfl⟩

/-- A file that has just been made is removed again, and the disk is as it was before. -/
theorem removeFile_makeFile (h : (disk.makeFile path).1 = .ok ()) :
    (disk.makeFile path).2.removeFile path = (.ok (), disk) := by
  obtain ⟨n, d, hv, hasks, hmade⟩ := exists_vacancy_of_makeFile h
  obtain ⟨hplace, hfree, hmay⟩ := vacancy_eq_ok_iff.mp hv
  have hle := le_adding disk n d disk.newFile
  have hfile := (get?_adding_of_vacancy hv disk.newFile (n :: d)).trans (if_pos rfl)
  rw [hmade, Scratch.removeFile_of_place (place_mono hle hplace) (mayChange_mono hle hmay) hfile
    hasks]
  have htree : (disk.tree.add n d disk.newFile).remove (n :: d) = disk.tree :=
    Tree.remove_add (isDirectory_of_place hplace) hfree rfl
  simp [adding, htree]

/-- An entry is in the way of a file that is to be made. -/
def Taken (disk : Disk) (path : String) : Prop :=
  ∃ cause, (disk.makeFile path).1 = .error cause ∧ cause.kind = .alreadyExists

theorem Taken.makeFile_ne_ok (h : disk.Taken path) : (disk.makeFile path).1 ≠ .ok () := by
  obtain ⟨cause, hcause, -⟩ := h
  rw [hcause]
  exact nofun

theorem makeFile_eq_of_error (h : (disk.makeFile path).1 = .error cause) :
    disk.makeFile path = (.error cause, disk) := by
  rcases Scratch.makeFile_cases disk path with ⟨n, d, -, hmade⟩ | ⟨e, hrefused⟩
  · rw [hmade] at h
    cases h
  · rw [hrefused] at h
    rw [hrefused, Except.error.inj h]

end Disk

namespace Scratch

variable {root path : String} {draw : Nat → String} {disk before after : Disk} {k k' : Nat}

/-- The path of a drawn name. -/
def drawnPath (root : String) (draw : Nat → String) (k : Nat) : String :=
  pathIn root (nameOf (draw k))

/-! ## The search for an unused name -/

/-- From the draw `first` on and before the draw `k`, all drawn names are taken. -/
def TakenBefore (root : String) (draw : Nat → String) (disk : Disk) (first k : Nat) : Prop :=
  ∀ j, first ≤ j → j < k → disk.Taken (drawnPath root draw j)

/-- One draw more in front whose name is taken. -/
theorem TakenBefore.cons {first : Nat} (h : TakenBefore root draw disk (first + 1) k)
    (taken : disk.Taken (drawnPath root draw first)) : TakenBefore root draw disk first k := by
  intro j hfirst hlt
  rcases Nat.eq_or_lt_of_le hfirst with rfl | hlater
  · exact taken
  · exact h j hlater hlt

/-- The searches for an unused name with the draws from `first` on that come before `last`. -/
inductive Reserving (root : String) (draw : Nat → String) (disk : Disk) (first last : Nat) :
    Outcome Disk (Except IoError String) → Prop
  /-- The first name that is not taken is reserved by a file. -/
  | reserved {k : Nat} (lt : k < last) (taken : TakenBefore root draw disk first k)
      (made : (disk.makeFile (drawnPath root draw k)).1 = .ok ()) :
      Reserving root draw disk first last
        ⟨.ok (drawnPath root draw k), (disk.makeFile (drawnPath root draw k)).2, []⟩
  /-- At the first name that is not taken no file can be made. -/
  | refused {k : Nat} {cause : IoError} (taken : TakenBefore root draw disk first k)
      (refused : (disk.makeFile (drawnPath root draw k)).1 = .error cause)
      (other : cause.kind ≠ .alreadyExists) :
      Reserving root draw disk first last
        ⟨.error (.atPath (drawnPath root draw k) cause), disk, []⟩
  | exhausted (taken : TakenBefore root draw disk first last) :
      Reserving root draw disk first last ⟨.error (.atPath root .namesExhausted), disk, []⟩

theorem Reserving.cons {first last : Nat} {outcome : Outcome Disk (Except IoError String)}
    (h : Reserving root draw disk (first + 1) last outcome)
    (taken : disk.Taken (drawnPath root draw first)) :
    Reserving root draw disk first last outcome := by
  cases h with
  | reserved lt before made => exact .reserved lt (before.cons taken) made
  | refused before refused other => exact .refused (before.cons taken) refused other
  | exhausted before => exact .exhausted (before.cons taken)

/-- What the program does is a search of this kind. -/
theorem reserving_reserve (root : String) (draw : Nat → String) (disk : Disk) (left next : Nat) :
    Reserving root draw disk next (next + left) ((reserve root draw left next).runOn disk) := by
  induction left generalizing next with
  | zero =>
    apply Reserving.exhausted
    intro j hnext hlt
    omega
  | succ left ih =>
    have hmake : (DiskProgram.makeFile (pathIn root (nameOf (draw next)))).runOn disk =
        ⟨(disk.makeFile (drawnPath root draw next)).1,
          (disk.makeFile (drawnPath root draw next)).2, []⟩ := rfl
    have hnone : TakenBefore root draw disk next next := by
      intro j hnext hlt
      omega
    rw [reserve, DiskProgram.runOn_bind_of_quiet hmake]
    cases hanswer : (disk.makeFile (drawnPath root draw next)).1 with
    | ok u => exact .reserved (by omega) hnone hanswer
    | error cause =>
      -- an attempt that fails has changed nothing, so the next draw meets the same disk
      rw [Disk.makeFile_eq_of_error hanswer]
      dsimp only
      split_ifs with hkind
      · rw [Nat.add_succ, ← Nat.succ_add]
        exact (ih (next + 1)).cons ⟨cause, hanswer, hkind⟩
      · exact .refused hnone hanswer hkind

/-! ## Requests for directories -/

/-- The draw whose name is reserved: a file can be made under it, and the names drawn before are
taken. -/
structure Reserves (root : String) (draw : Nat → String) (disk : Disk) (k : Nat) : Prop where
  lt : k < maxDraws
  made : (disk.makeFile (drawnPath root draw k)).1 = .ok ()
  taken : ∀ j < k, disk.Taken (drawnPath root draw j)

theorem Reserves.unique (h : Reserves root draw disk k) (h' : Reserves root draw disk k') :
    k = k' := by
  by_contra hne
  rcases Nat.lt_or_gt_of_ne hne with hlt | hlt
  · exact (h'.taken k hlt).makeFile_ne_ok h.made
  · exact (h.taken k' hlt).makeFile_ne_ok h'.made

/-- A request for a scratch file reserves the first name that is not taken, or changes nothing. -/
theorem createScratchFile_runOn (root : String) (draw : Nat → String) (disk : Disk) :
    (∃ k, Reserves root draw disk k ∧ (createScratchFile root draw).runOn disk =
        ⟨.ok (drawnPath root draw k), (disk.makeFile (drawnPath root draw k)).2,
          [.scratchFileCreated (drawnPath root draw k)]⟩) ∨
      ∃ cause, (∀ k, ¬ Reserves root draw disk k) ∧ (createScratchFile root draw).runOn disk =
        ⟨.error (.scratchFileNotCreated cause), disk, [.scratchFileNotCreated cause]⟩ := by
  have hreserving := reserving_reserve root draw disk maxDraws 0
  rw [Nat.zero_add] at hreserving
  rw [createScratchFile, DiskProgram.runOn_bind]
  generalize (reserve root draw maxDraws 0).runOn disk = search at hreserving ⊢
  cases hreserving with
  | @reserved k lt taken made =>
    exact Or.inl ⟨k, ⟨lt, made, fun j => taken j (Nat.zero_le j)⟩, rfl⟩
  | @refused k cause taken refused other =>
    refine Or.inr ⟨_, fun k' hk' => ?_, rfl⟩
    -- the search ends at the first name that is not taken, and that would have to be this one
    rcases Nat.lt_trichotomy k k' with hlt | rfl | hlt
    · obtain ⟨e, he, hkind⟩ := hk'.taken k hlt
      rw [refused] at he
      exact other (Except.error.inj he ▸ hkind)
    · have hmade := hk'.made
      rw [refused] at hmade
      cases hmade
    · exact (taken k' (Nat.zero_le k') hlt).makeFile_ne_ok hk'.made
  | exhausted taken =>
    refine Or.inr ⟨_, fun k hk => ?_, rfl⟩
    exact (taken k (Nat.zero_le k) hk.lt).makeFile_ne_ok hk.made

/-- Nothing was at the path, and the disk has gained one directory and nothing else: an empty one,
made under its mask, to which the path leads. -/
structure GainsAt (path : String) (before after : Disk) : Prop where
  absent (followLast : Bool) : before.lookup? followLast path = none
  exists_gains : ∃ n d, before.GainsChain after d [n] ∧ after.LeadsTo path (n :: d) ∧
    ∀ k, after.tree.get? (k :: n :: d) = none

theorem gainsAt_of_vacancy {n : Name} {d : Location} (h : disk.vacancy path = .ok (n, d)) :
    GainsAt path disk (disk.adding n d disk.newDirectory) where
  absent followLast := by
    cases hl : disk.lookup? followLast path with
    | none => rfl
    | some e =>
      rw [Disk.vacancy_of_lookup? hl] at h
      cases h
  exists_gains := by
    refine ⟨n, d, (Disk.GainsChain.refl disk d).snoc le_rfl h, Disk.leadsTo_adding h, ?_⟩
    intro k
    rw [Disk.get?_adding_of_vacancy h, if_neg (by simp)]
    exact Tree.get?_cons_eq_none (Disk.vacancy_eq_ok_iff.mp h).2.1 k

/-- The file that has just been made at a path is replaced by a directory. -/
theorem replaceWithDirectory_runOn (h : (disk.makeFile path).1 = .ok ()) :
    ∃ after, GainsAt path disk after ∧
      (replaceWithDirectory path).runOn (disk.makeFile path).2 =
        ⟨.ok path, after, [.scratchDirectoryCreated path]⟩ := by
  obtain ⟨n, d, hv, -, -⟩ := Disk.exists_vacancy_of_makeFile h
  have hremove : (DiskProgram.removeFile path).runOn (disk.makeFile path).2 =
      ⟨((disk.makeFile path).2.removeFile path).1, ((disk.makeFile path).2.removeFile path).2, []⟩ :=
    rfl
  refine ⟨_, gainsAt_of_vacancy hv, ?_⟩
  -- without the file the disk is the one on which the place was vacant
  rw [replaceWithDirectory, DiskProgram.runOn_bind_of_quiet hremove, Disk.removeFile_makeFile h]
  dsimp only
  rw [DiskProgram.runOn_bind_of_quiet (Storage.createDirectory_runOn_of_vacancy hv)]
  rfl

/-- What a request for a scratch directory answers and leaves when nobody interferes. -/
structure AllOrNothing (root : String) (draw : Nat → String) (before : Disk)
    (outcome : Outcome Disk (Except StorageError String)) : Prop where
  /-- A path is answered exactly when one of the drawn names is reserved, and it is the path of
  that name. -/
  ok_iff {path : String} : outcome.answer = .ok path ↔
    ∃ k, Reserves root draw before k ∧ path = drawnPath root draw k
  /-- All that is new is the directory at the path; no file has stayed. -/
  gains {path : String} (h : outcome.answer = .ok path) : GainsAt path before outcome.state
  /-- The only error is that of the file, and nothing has changed. -/
  error {e : StorageError} (h : outcome.answer = .error e) :
    (∃ cause, e = .scratchFileNotCreated cause) ∧ outcome.state = before

/-- A request that cannot reserve a name changes nothing. -/
theorem allOrNothing_of_unreserved {cause : IoError} (events : List Event)
    (unreserved : ∀ k, ¬ Reserves root draw before k) :
    AllOrNothing root draw before ⟨.error (.scratchFileNotCreated cause), before, events⟩ where
  ok_iff {path} := by
    constructor
    · intro h
      cases h
    · rintro ⟨k, hk, -⟩
      exact absurd hk (unreserved k)
  gains h := by cases h
  error h := ⟨⟨cause, (Except.error.inj h).symm⟩, rfl⟩

/-- A request that reserves a name leaves one directory more. -/
theorem allOrNothing_of_reserves (events : List Event) (hk : Reserves root draw before k)
    (gains : GainsAt (drawnPath root draw k) before after) :
    AllOrNothing root draw before ⟨.ok (drawnPath root draw k), after, events⟩ where
  ok_iff {path} := by
    constructor
    · intro h
      exact ⟨k, hk, (Except.ok.inj h).symm⟩
    · rintro ⟨k', hk', rfl⟩
      rw [hk.unique hk']
  gains h := by
    rw [← Except.ok.inj h]
    exact gains
  error h := by cases h

/-- Where nobody interferes, a request for a scratch directory adds one empty directory at the path
that it answers, or it changes nothing and fails for want of the file that is to reserve the name. -/
theorem allOrNothing_of_directory (root : String) (draw : Nat → String) (disk : Disk) :
    AllOrNothing root draw disk ((createScratchDirectory root draw).runOn disk) := by
  rw [createScratchDirectory, DiskProgram.runOn_bind]
  rcases createScratchFile_runOn root draw disk with ⟨k, hk, hrun⟩ | ⟨cause, unreserved, hrun⟩
  · obtain ⟨after, gains, hreplaced⟩ := replaceWithDirectory_runOn hk.made
    rw [hrun]
    dsimp only
    rw [hreplaced]
    exact allOrNothing_of_reserves _ hk gains
  · rw [hrun]
    exact allOrNothing_of_unreserved _ unreserved

end Scratch

end UserStorage
