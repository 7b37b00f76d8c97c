import UserStorage.Proofs.Storage.Looks

/-!
# Making a directory, run alone

A run that makes a directory with its ancestors is an attempt, and when that lacks something on the
way a run for the parent and a second attempt. Such a run adds entries and does nothing else. It
ends well exactly when the path then leads to a directory, and a path that goes up nowhere and was
not seen before leads to a directory that was not there before.

## Main definitions

* `Storage.Attempt`: one attempt, with the look that forgives a failure
* `Storage.Making`: the runs, attempt by attempt

## Main results

* `Storage.making_createDirectory`: what the program does is a run of this kind
* `Storage.Making.le`: a run only adds entries
* `Storage.Making.showsDirectory_of_ok`, `Storage.Making.showsDirectory_of_error`: the answer tells
  whether the path leads to a directory
* `Storage.Making.eq_of_lookup?`, `Storage.Making.eq_of_taken`: runs that change nothing
* `Storage.Making.leadsToNew`: a path that was not seen leads to a new directory
-/

namespace UserStorage.Storage

variable {path : String} {disk mid after : Disk} {answer : Except IoError Unit} {cause : IoError}

/-! ## Attempts -/

/-- One attempt to make a directory. That it fails does not matter when the path leads to a
directory. -/
inductive Attempt (path : String) (disk : Disk) : Except IoError Unit → Disk → Prop
  | made {n : Name} {d : Location} (free : disk.vacancy path = .ok (n, d)) :
      Attempt path disk (.ok ()) (disk.adding n d disk.newDirectory)
  | settled {cause : IoError} (taken : disk.vacancy path = .error cause)
      (dir : disk.showsDirectory path = true) : Attempt path disk (.ok ()) disk
  | refused {cause : IoError} (taken : disk.vacancy path = .error cause)
      (dir : disk.showsDirectory path = false) : Attempt path disk (.error cause) disk

namespace Attempt

theorem le (h : Attempt path disk answer after) : disk ≤ after := by
  cases h with
  | made free => exact Disk.le_adding disk _ _ _
  | settled => exact le_rfl
  | refused => exact le_rfl

theorem showsDirectory_of_ok (h : Attempt path disk (.ok ()) after) :
    after.showsDirectory path = true := by
  cases h with
  | made free => exact Disk.showsDirectory_of_vacancy free
  | settled taken dir => exact dir

theorem showsDirectory_of_error (h : Attempt path disk (.error cause) after) :
    after.showsDirectory path = false := by
  cases h with
  | refused taken dir => exact dir

/-- Where nothing is seen, an attempt that ends well has made the directory. -/
theorem leadsToNew (h : Attempt path disk (.ok ()) after)
    (unseen : disk.lookup? true path = none) : Disk.LeadsToNew disk after path := by
  cases h with
  | made free => exact Disk.leadsToNew_of_vacancy free
  | settled taken dir => exact absurd unseen (Disk.lookup?_ne_none_of_showsDirectory dir)

/-- An attempt at a vacant place makes the directory. -/
theorem eq_of_vacancy {n : Name} {d : Location} (h : Attempt path disk answer after)
    (free : disk.vacancy path = .ok (n, d)) :
    answer = .ok () ∧ after = disk.adding n d disk.newDirectory := by
  cases h with
  | made hv =>
    obtain ⟨rfl, rfl⟩ : _ = n ∧ _ = d := Prod.mk.inj (Except.ok.inj (hv.symm.trans free))
    exact ⟨rfl, rfl⟩
  | settled taken => rw [taken] at free; cases free
  | refused taken => rw [taken] at free; cases free

end Attempt

theorem makeDirectory_runOn_of_ok {n : Name} {d : Location} (h : disk.vacancy path = .ok (n, d)) :
    (DiskProgram.makeDirectory path).runOn disk =
      ⟨.ok (), disk.adding n d disk.newDirectory, []⟩ := by
  show (⟨(disk.makeDirectory path).1, (disk.makeDirectory path).2, []⟩ : Outcome Disk _) = _
  rw [Disk.makeDirectory, h]

theorem makeDirectory_runOn_of_error (h : disk.vacancy path = .error cause) :
    (DiskProgram.makeDirectory path).runOn disk = ⟨.error cause, disk, []⟩ := by
  show (⟨(disk.makeDirectory path).1, (disk.makeDirectory path).2, []⟩ : Outcome Disk _) = _
  rw [Disk.makeDirectory, h]

/-- A failed attempt and the look after it. -/
theorem attempt_of_error (h : disk.vacancy path = .error cause) :
    ∃ answer, Attempt path disk answer disk ∧
      (unlessDirectory path cause).runOn disk = ⟨answer, disk, []⟩ := by
  cases hd : disk.showsDirectory path with
  | true => exact ⟨.ok (), .settled h hd, by rw [unlessDirectory_runOn, hd]; rfl⟩
  | false => exact ⟨.error cause, .refused h hd, by rw [unlessDirectory_runOn, hd]; rfl⟩

/-! ## Runs -/

/-- The system answers that something on the way to the path is missing. -/
def Lacks (path : String) (disk : Disk) (cause : IoError) : Prop :=
  disk.vacancy path = .error cause ∧ cause.kind = .notFound

/-- The runs that make a directory, whose lexical ancestors are given nearest first. -/
inductive Making : String → List String → Disk → Except IoError Unit → Disk → Prop
  /-- The empty path needs no making. -/
  | empty {ancestors : List String} {disk : Disk} : Making "" ancestors disk (.ok ()) disk
  /-- The first attempt decides. -/
  | once {path : String} {ancestors : List String} {disk after : Disk}
      {answer : Except IoError Unit} (ne_empty : path ≠ "")
      (complete : ∀ cause, ¬ Lacks path disk cause) (attempt : Attempt path disk answer after) :
      Making path ancestors disk answer after
  /-- Something is missing, and there is no ancestor to make. -/
  | lost {path : String} {disk : Disk} {cause : IoError} (ne_empty : path ≠ "")
      (lacks : Lacks path disk cause) : Making path [] disk (.error cause) disk
  /-- Something is missing, and the parent cannot be made. -/
  | orphan {path parent : String} {others : List String} {disk after : Disk} {cause e : IoError}
      (ne_empty : path ≠ "") (lacks : Lacks path disk cause)
      (above : Making parent others disk (.error e) after) :
      Making path (parent :: others) disk (.error e) after
  /-- Something is missing, and once the parent is made the second attempt decides. -/
  | again {path parent : String} {others : List String} {disk mid after : Disk} {cause : IoError}
      {answer : Except IoError Unit} (ne_empty : path ≠ "") (lacks : Lacks path disk cause)
      (above : Making parent others disk (.ok ()) mid) (attempt : Attempt path mid answer after) :
      Making path (parent :: others) disk answer after

/-- Nothing is seen behind a path that lacks something. -/
theorem Lacks.unseen {followLast : Bool} (h : Lacks path disk cause) :
    disk.lookup? followLast path = none := by
  cases hl : disk.lookup? followLast path with
  | none => rfl
  | some e =>
    obtain ⟨htaken, hkind⟩ := h
    rw [Disk.vacancy_of_lookup? hl] at htaken
    obtain rfl : IoError.system .alreadyExists = cause := by simpa using htaken
    exact absurd hkind (by decide)

/-- Where nothing is lacking the ancestors do not matter. -/
theorem makeWithin_runOn_of_complete (hne : path ≠ "") (complete : ∀ cause, ¬ Lacks path disk cause)
    (ancestors : List String) :
    ∃ answer after, Attempt path disk answer after ∧
      (makeWithin path ancestors).runOn disk = ⟨answer, after, []⟩ := by
  cases hv : disk.vacancy path with
  | ok p =>
    refine ⟨_, _, .made hv, ?_⟩
    cases ancestors with
    | nil =>
      rw [makeWithin, if_neg hne]
      exact DiskProgram.runOn_bind_of_quiet (makeDirectory_runOn_of_ok hv)
    | cons parent others =>
      rw [makeWithin, if_neg hne]
      exact DiskProgram.runOn_bind_of_quiet (makeDirectory_runOn_of_ok hv)
  | error cause =>
    -- another failure than a missing ancestor is final, but for the look that forgives it
    have hkind : cause.kind ≠ .notFound := fun hk => complete cause ⟨hv, hk⟩
    obtain ⟨answer, attempt, hlook⟩ := attempt_of_error hv
    refine ⟨answer, disk, attempt, ?_⟩
    cases ancestors with
    | nil =>
      rw [makeWithin, if_neg hne, DiskProgram.runOn_bind_of_quiet (makeDirectory_runOn_of_error hv)]
      simpa only [if_neg hkind]
    | cons parent others =>
      rw [makeWithin, if_neg hne, DiskProgram.runOn_bind_of_quiet (makeDirectory_runOn_of_error hv)]
      simpa only [if_neg hkind]

/-- What the program does within given ancestors is a run of this kind. -/
theorem making_makeWithin (path : String) (ancestors : List String) (disk : Disk) :
    ∃ answer after, Making path ancestors disk answer after ∧
      (makeWithin path ancestors).runOn disk = ⟨answer, after, []⟩ := by
  -- the recursion is on the ancestors, and the parent is made on whatever disk its child met
  induction ancestors generalizing path disk with
  | nil =>
    by_cases hne : path = ""
    · subst hne
      exact ⟨_, _, .empty, rfl⟩
    by_cases hlacks : ∃ cause, Lacks path disk cause
    · obtain ⟨cause, hv, hk⟩ := hlacks
      refine ⟨_, _, .lost hne ⟨hv, hk⟩, ?_⟩
      rw [makeWithin, if_neg hne, DiskProgram.runOn_bind_of_quiet (makeDirectory_runOn_of_error hv)]
      simp only [if_pos hk]
      rfl
    · have complete := not_exists.mp hlacks
      obtain ⟨answer, after, attempt, hrun⟩ := makeWithin_runOn_of_complete hne complete []
      exact ⟨answer, after, .once hne complete attempt, hrun⟩
  | cons parent others ih =>
    by_cases hne : path = ""
    · subst hne
      exact ⟨_, _, .empty, rfl⟩
    by_cases hlacks : ∃ cause, Lacks path disk cause
    · obtain ⟨cause, hv, hk⟩ := hlacks
      rw [makeWithin, if_neg hne, DiskProgram.runOn_bind_of_quiet (makeDirectory_runOn_of_error hv)]
      simp only [if_pos hk]
      obtain ⟨above, mid, making, hrun⟩ := ih parent disk
      rw [DiskProgram.runOn_bind_of_quiet hrun]
      cases above with
      | error e => exact ⟨_, _, .orphan hne ⟨hv, hk⟩ making, rfl⟩
      | ok u =>
        cases hmid : mid.vacancy path with
        | ok p =>
          refine ⟨_, _, .again hne ⟨hv, hk⟩ making (.made hmid), ?_⟩
          exact DiskProgram.runOn_bind_of_quiet (makeDirectory_runOn_of_ok hmid)
        | error second =>
          obtain ⟨answer, attempt, hlook⟩ := attempt_of_error hmid
          refine ⟨_, _, .again hne ⟨hv, hk⟩ making attempt, ?_⟩
          rw [DiskProgram.runOn_bind_of_quiet (makeDirectory_runOn_of_error hmid)]
          exact hlook
    · have complete := not_exists.mp hlacks
      obtain ⟨answer, after, attempt, hrun⟩ :=
        makeWithin_runOn_of_complete hne complete (parent :: others)
      exact ⟨answer, after, .once hne complete attempt, hrun⟩

theorem exists_parent_of_ancestors {parent : String} {others : List String}
    (h : parent :: others = Path.ancestors path) :
    Path.parent? path = some parent ∧ others = Path.ancestors parent := by
  rw [Path.ancestors_eq] at h
  cases hp : Path.parent? path with
  | none => simp [hp] at h
  | some q =>
    obtain ⟨rfl, rfl⟩ : parent = q ∧ others = Path.ancestors q := by simpa [hp] using h
    exact ⟨rfl, rfl⟩

namespace Making

variable {ancestors : List String}

/-- A run only adds entries. -/
theorem le (h : Making path ancestors disk answer after) : disk ≤ after := by
  induction h with
  | empty => exact le_rfl
  | once _ _ attempt => exact attempt.le
  | lost => exact le_rfl
  | orphan _ _ _ ih => exact ih
  | again _ _ _ attempt ih => exact ih.trans attempt.le

/-- A run that ends well leaves a path that leads to a directory. -/
theorem showsDirectory_of_ok (h : Making path ancestors disk (.ok ()) after) (hne : path ≠ "") :
    after.showsDirectory path = true := by
  cases h with
  | empty => exact absurd rfl hne
  | once _ _ attempt => exact attempt.showsDirectory_of_ok
  | again _ _ _ attempt => exact attempt.showsDirectory_of_ok

theorem ne_empty_of_error (h : Making path ancestors disk (.error cause) after) : path ≠ "" := by
  cases h <;> assumption

theorem eq_of_empty (h : Making "" ancestors disk answer after) : after = disk := by
  cases h with
  | empty => rfl
  | _ => contradiction

/-- A run that fails leaves a path that leads to no directory. -/
theorem showsDirectory_of_error (h : Making path ancestors disk (.error cause) after)
    (ha : ancestors = Path.ancestors path) : after.showsDirectory path = false := by
  -- by induction on the run, whose last attempt tells unless the parent could not be made
  generalize hanswer : (Except.error cause : Except IoError Unit) = answer at h
  induction h generalizing cause with
  | empty => cases hanswer
  | once _ _ attempt =>
    subst hanswer
    exact attempt.showsDirectory_of_error
  | lost _ lacks => exact Disk.showsDirectory_of_unseen lacks.unseen
  | @orphan path parent others disk after _ e _ _ above ih =>
    obtain ⟨hparent, rfl⟩ := exists_parent_of_ancestors ha
    exact Disk.showsDirectory_of_unseen
      (Disk.lookup?_eq_none_of_parent (ih rfl rfl) hparent above.ne_empty_of_error)
  | again _ _ _ attempt =>
    subst hanswer
    exact attempt.showsDirectory_of_error

/-- A run at a vacant place is one attempt, which makes the directory. -/
theorem eq_of_vacancy {n : Name} {d : Location} (h : Making path ancestors disk answer after)
    (free : disk.vacancy path = .ok (n, d)) :
    answer = .ok () ∧ after = disk.adding n d disk.newDirectory := by
  have complete {e : IoError} (lacks : Lacks path disk e) : False := by
    rw [lacks.1] at free
    cases free
  cases h with
  | empty => exact absurd rfl (Disk.admissible_of_place (Disk.vacancy_eq_ok_iff.mp free).1).ne_empty
  | once _ _ attempt => exact attempt.eq_of_vacancy free
  | lost _ lacks => exact (complete lacks).elim
  | orphan _ lacks => exact (complete lacks).elim
  | again _ lacks => exact (complete lacks).elim

/-- A run for a path that is seen leaves the disk as it is. -/
theorem eq_of_lookup? (h : Making path ancestors disk answer after) {e : Entry}
    (seen : disk.lookup? true path = some e) : after = disk := by
  have hv := Disk.vacancy_of_lookup? seen
  cases h with
  | empty => rfl
  | once _ _ attempt =>
    cases attempt with
    | made free => simp [hv] at free
    | settled => rfl
    | refused => rfl
  | lost => rfl
  -- the ancestors are only tried where the path lacks something, and then it is not seen
  | orphan _ lacks => simp [lacks.unseen] at seen
  | again _ lacks => simp [lacks.unseen] at seen

/-- A run for a path that makes no entry leaves the disk as it is, if a run for the parent does
where that is needed. -/
theorem eq_of_taken (h : Making path ancestors disk answer after)
    (taken : disk.vacancy path = .error cause)
    (above : ∀ {parent : String} {others : List String} {answer : Except IoError Unit} {mid : Disk},
      ancestors = parent :: others → cause.kind = .notFound →
        Making parent others disk answer mid → mid = disk) : after = disk := by
  have needed {e : IoError} (lacks : Lacks path disk e) : cause.kind = .notFound := by
    obtain rfl : cause = e := by simpa [taken] using lacks.1
    exact lacks.2
  have notMade {answer : Except IoError Unit} (attempt : Attempt path disk answer after) :
      after = disk := by
    cases attempt with
    | made free => simp [taken] at free
    | settled => rfl
    | refused => rfl
  cases h with
  | empty => rfl
  | once _ _ attempt => exact notMade attempt
  | lost => rfl
  | orphan _ lacks making => exact above rfl (needed lacks) making
  | again _ lacks making attempt =>
    obtain rfl := above rfl (needed lacks) making
    exact notMade attempt

/-- A run for the parent leaves nothing behind a path that goes up nowhere and was not seen: either
it has done nothing, or the parent leads to a directory that holds nothing. -/
theorem unseen_of_parent {parent : String} {others : List String}
    (h : Making parent others disk (.ok ()) after) (hparent : Path.parent? path = some parent)
    (hdots : ".." ∉ Path.pieces path) (unseen : disk.lookup? true path = none)
    (hnew : parent ≠ "" → disk.lookup? true parent = none → Disk.LeadsToNew disk after parent) :
    after.lookup? true path = none := by
  by_cases hroot : parent = ""
  · subst hroot
    rw [h.eq_of_empty]
    exact unseen
  cases hs : disk.lookup? true parent with
  | some e =>
    rw [h.eq_of_lookup? hs]
    exact unseen
  | none =>
    obtain ⟨cut⟩ := Path.exists_cut hparent hroot
    exact (hnew hroot hs).unseen cut hdots

/-- A path that goes up nowhere and was not seen leads, after a run that ends well, to a directory
that was not there before. -/
theorem leadsToNew (h : Making path ancestors disk (.ok ()) after)
    (ha : ancestors = Path.ancestors path) (hne : path ≠ "") (hdots : ".." ∉ Path.pieces path)
    (unseen : disk.lookup? true path = none) : Disk.LeadsToNew disk after path := by
  -- along the run from the outermost ancestor that had to be made inwards
  generalize hanswer : (Except.ok () : Except IoError Unit) = answer at h
  induction h with
  | empty => exact absurd rfl hne
  | once _ _ attempt =>
    subst hanswer
    exact attempt.leadsToNew unseen
  | lost => cases hanswer
  | orphan => cases hanswer
  | @again path parent others disk mid after _ _ _ lacks above attempt ih =>
    subst hanswer
    obtain ⟨hparent, rfl⟩ := exists_parent_of_ancestors ha
    have hmid : mid.lookup? true path = none := by
      refine above.unseen_of_parent hparent hdots unseen fun hroot hs => ?_
      obtain ⟨cut⟩ := Path.exists_cut hparent hroot
      exact ih rfl hroot (cut.forward hdots) hs rfl
    exact (attempt.leadsToNew hmid).of_le above.le

end Making

/-- Making a directory runs as an attempt with its ancestors: the look for somebody who was faster
finds nothing that a run on its own has not already seen. -/
theorem making_createDirectory (path : String) (disk : Disk) :
    ∃ answer after, Making path (Path.ancestors path) disk answer after ∧
      (createDirectory path).runOn disk = ⟨answer, after, []⟩ := by
  obtain ⟨answer, after, making, hrun⟩ := making_makeWithin path (Path.ancestors path) disk
  refine ⟨answer, after, making, ?_⟩
  rw [createDirectory, makeWithAncestors, DiskProgram.runOn_bind_of_quiet hrun]
  cases answer with
  | ok u => rfl
  | error cause =>
    -- nobody was faster: the run itself has looked for a directory last, and found none
    have hno := making.showsDirectory_of_error rfl
    by_cases hk : cause.kind = .alreadyExists
    · simp only [if_pos hk, unlessDirectory_runOn, hno]
      rfl
    · simp only [if_neg hk]
      rfl

/-- At a vacant place the directory is made. -/
theorem createDirectory_runOn_of_vacancy {n : Name} {d : Location}
    (free : disk.vacancy path = .ok (n, d)) : (createDirectory path).runOn disk =
      ⟨.ok (), disk.adding n d disk.newDirectory, []⟩ := by
  obtain ⟨answer, after, making, hrun⟩ := making_createDirectory path disk
  obtain ⟨rfl, rfl⟩ := making.eq_of_vacancy free
  exact hrun

end UserStorage.Storage
