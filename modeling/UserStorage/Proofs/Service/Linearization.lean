import UserStorage.Proofs.Program.FirstCall
import UserStorage.Proofs.Service.Independence

/-!
# Callers at one desk

Callers register and unregister configurations and ask for the home root, side by side at one desk,
while the values of the objects stay what they are. Each does all it does to the slot with its first
step, so the calls go as one after the other in the order in which they begin. A caller that asks
for the home root is answered with both values of the object that it found in the slot; an object
that was unregistered before can only be found there when it has been registered again. A caller
that comes more than once counts as one for each call.

## Main definitions

* `Visit`, `Visit.Answer`, `Visit.program`: what callers come for, and what they are answered
* `visiting`, `deskAfter`, `answerAfter`: callers side by side, and the desk and an answer after
  some steps
* `Uses`: an answer from one object
* `Linearized`: calls that go as one after the other

## Main results

* `slot_snoc_cases`: which steps change the slot
* `visits_linearized`: calls at a desk go as one after the other
-/

namespace UserStorage

open Pool (Begins)

/-- What a caller comes to a desk for. -/
inductive Visit
  | register (id : ConfigurationId)
  | unregister (id : ConfigurationId)
  | resolve
  deriving DecidableEq, Repr

/-- What a caller is answered. -/
inductive Visit.Answer
  | registered
  /-- Whether the registration was that of the object. -/
  | unregistered (cleared : Bool)
  | resolved (home : Except StorageError String)

/-- What a caller does at a desk. -/
def Visit.program : Visit → DeskProgram Visit.Answer
  | .register id => (fun _ => .registered) <$> UserStorage.register id
  | .unregister id => .unregistered <$> UserStorage.unregister id
  | .resolve => .resolved <$> resolveHome

/-- Some callers side by side at a desk. -/
def visiting (visits : List Visit) (desk : Desk) : Pool deskCalls Desk Visit.Answer :=
  ⟨desk, visits.map Visit.program⟩

/-- The desk after some steps of callers. -/
def deskAfter (visits : List Visit) (desk : Desk) (past : List Nat) : Desk :=
  ((visiting visits desk).follow Desk.perform past).state

/-- What a caller has been answered after some steps. -/
def answerAfter (visits : List Visit) (desk : Desk) (past : List Nat) (i : Nat) :
    Option Visit.Answer :=
  ((visiting visits desk).follow Desk.perform past).answer? i

variable {visits : List Visit} {desk : Desk} {schedule past earlier : List Nat} {i j : Nat}
  {id : ConfigurationId}

/-! ## One step -/

/-- No step changes the values of an object. -/
theorem values_perform (c : DeskCall) (desk : Desk) : (Desk.perform c desk).2.values = desk.values := by
  cases c with
  | clear id =>
    rw [Desk.perform]
    split <;> rfl
  | _ => rfl

theorem reads_locationOf (id : ConfigurationId) :
    Program.Reads (S := deskCalls) Desk.perform Desk.values (.locationOf id) where
  still _ := rfl
  reply_eq h := congrArg (fun values => (values id).location) h

theorem reads_nameOf (id : ConfigurationId) :
    Program.Reads (S := deskCalls) Desk.perform Desk.values (.nameOf id) where
  still _ := rfl
  reply_eq h := congrArg (fun values => (values id).name) h

/-- After its first step a caller only reads values. -/
theorem Visit.actsFirst (visit : Visit) : visit.program.ActsFirst Desk.perform Desk.values := by
  cases visit with
  | register id => exact .call fun _ => .note _ (.done _)
  | unregister id =>
    refine .call fun cleared => ?_
    cases cleared with
    | true => exact .note _ (.done _)
    | false => exact .done _
  | resolve =>
    refine .call fun found => ?_
    cases found with
    | none => exact .done _
    | some id =>
      exact .call (reads_locationOf id) fun _ => .call (reads_nameOf id) fun _ => .done _

theorem actsFirst_visiting (visits : List Visit) (desk : Desk) :
    ∀ p ∈ (visiting visits desk).tasks, p.ActsFirst Desk.perform Desk.values := by
  intro p hp
  obtain ⟨visit, -, rfl⟩ := List.mem_map.mp hp
  exact visit.actsFirst

theorem tasks_visiting (visits : List Visit) (desk : Desk) (i : Nat) :
    (visiting visits desk).tasks[i]? = visits[i]?.map Visit.program :=
  List.getElem?_map

theorem values_deskAfter (visits : List Visit) (desk : Desk) (past : List Nat) :
    (deskAfter visits desk past).values = desk.values :=
  Pool.part_follow (S := deskCalls) values_perform (visiting visits desk) past

/-! ## Calls alone -/

theorem Visit.unregister_runAt (id : ConfigurationId) (desk : Desk) :
    ((Visit.unregister id).program.runAt desk).answer =
        .unregistered (Desk.perform (.clear id) desk).1 ∧
      ((Visit.unregister id).program.runAt desk).state = (Desk.perform (.clear id) desk).2 := by
  obtain ⟨hanswer, hstate⟩ := UserStorage.unregister_runAt id desk
  exact ⟨(Program.answer_map_run (S := deskCalls) Desk.perform _ _ desk).trans
      (congrArg Visit.Answer.unregistered hanswer),
    (Program.state_map_run (S := deskCalls) Desk.perform _ _ desk).trans hstate⟩

theorem slot_unregister_runAt (id : ConfigurationId) (desk : Desk) :
    ((Visit.unregister id).program.runAt desk).state.slot =
      if desk.slot = some id then none else desk.slot := by
  rw [(Visit.unregister_runAt id desk).2, Desk.perform]
  split <;> rfl

/-- The slot is cleared where it holds the object, and this is what the caller is told. -/
theorem slot_eq_of_unregistered (h : ((Visit.unregister id).program.runAt desk).answer =
    .unregistered true) : desk.slot = some id := by
  rw [(Visit.unregister_runAt id desk).1, Desk.perform] at h
  by_contra hne
  rw [if_neg hne] at h
  cases h

theorem resolve_runAt (desk : Desk) :
    (Visit.resolve.program.runAt desk).answer = .resolved desk.requestHome ∧
      (Visit.resolve.program.runAt desk).state = desk := by
  obtain ⟨slot, values⟩ := desk
  cases slot <;> exact ⟨rfl, rfl⟩

/-! ## One step -/

/-- A caller who has begun leaves the desk as it is. -/
theorem deskAfter_snoc_of_mem (h : j ∈ past) :
    deskAfter visits desk (past ++ [j]) = deskAfter visits desk past :=
  (congrArg Pool.state
    (Pool.follow_snoc (S := deskCalls) Desk.perform (visiting visits desk) past j)).trans
    (Pool.state_step_of_mem (actsFirst_visiting visits desk) h)

/-- A caller who begins leaves the desk as by the whole call. -/
theorem deskAfter_snoc_of_notMem (h : j ∉ past) : deskAfter visits desk (past ++ [j]) =
    (visits[j]?.map fun visit => (visit.program.runAt (deskAfter visits desk past)).state).getD
      (deskAfter visits desk past) := by
  have hstep := (congrArg Pool.state
    (Pool.follow_snoc (S := deskCalls) Desk.perform (visiting visits desk) past j)).trans
    (Pool.state_step_of_notMem (actsFirst_visiting visits desk) h)
  rw [tasks_visiting, Option.map_map] at hstep
  exact hstep

/-- Only a caller who begins changes the slot: it registers an object, or clears the registration
of its own. -/
theorem slot_snoc_cases (visits : List Visit) (desk : Desk) (past : List Nat) (j : Nat) :
    (deskAfter visits desk (past ++ [j])).slot = (deskAfter visits desk past).slot ∨
      j ∉ past ∧ ((∃ id, visits[j]? = some (.register id) ∧
          (deskAfter visits desk (past ++ [j])).slot = some id) ∨
        ∃ id, visits[j]? = some (.unregister id) ∧ (deskAfter visits desk past).slot = some id ∧
          (deskAfter visits desk (past ++ [j])).slot = none) := by
  by_cases hmem : j ∈ past
  · exact Or.inl (congrArg Desk.slot (deskAfter_snoc_of_mem hmem))
  rw [deskAfter_snoc_of_notMem hmem]
  cases visits[j]? with
  | none => exact Or.inl rfl
  | some visit =>
    rw [Option.map_some, Option.getD_some]
    cases visit with
    | register id => exact Or.inr ⟨hmem, Or.inl ⟨id, rfl, rfl⟩⟩
    | unregister id =>
      rw [slot_unregister_runAt]
      split_ifs with hid
      · exact Or.inr ⟨hmem, Or.inr ⟨id, rfl, hid, rfl⟩⟩
      · exact Or.inl rfl
    | resolve => exact Or.inl (congrArg Desk.slot (resolve_runAt _).2)

/-! ## Whole runs -/

/-- What does not hold at some time and holds later comes to hold with a step in between. -/
theorem exists_turn (holds : List Nat → Prop) (hle : earlier <+: past) (before : ¬ holds earlier)
    (after : holds past) : ∃ between k, earlier <+: between ∧ between ++ [k] <+: past ∧
      ¬ holds between ∧ holds (between ++ [k]) := by
  obtain ⟨later, rfl⟩ := hle
  induction later using List.reverseRecOn with
  | nil => exact absurd (List.append_nil earlier ▸ after) before
  | append_singleton later k ih =>
    rw [← List.append_assoc] at after ⊢
    by_cases h : holds (earlier ++ later)
    · obtain ⟨between, k', hearlier, hturn, hno, hyes⟩ := ih h
      exact ⟨between, k', hearlier, hturn.trans (List.prefix_append _ _), hno, hyes⟩
    · exact ⟨earlier ++ later, k, List.prefix_append _ _, List.prefix_rfl, h, after⟩

/-- A call that has been answered has begun, and is answered as it is alone at the desk that it
found at its beginning. -/
theorem exists_begins_of_answerAfter {answer : Visit.Answer}
    (h : answerAfter visits desk schedule i = some answer) :
    ∃ visit past, visits[i]? = some visit ∧ Begins schedule past i ∧
      answer = (visit.program.runAt (deskAfter visits desk past)).answer := by
  obtain ⟨p, past, hp, begins, hanswer⟩ :=
    Pool.exists_begins_of_answer? (S := deskCalls) (actsFirst_visiting visits desk) values_perform h
  rw [tasks_visiting] at hp
  obtain ⟨visit, hvisit, rfl⟩ := Option.map_eq_some_iff.mp hp
  exact ⟨visit, past, hvisit, begins, hanswer⟩

/-- An object that was unregistered and is found in the slot later has been registered again in
between. -/
theorem exists_register_between (hle : earlier <+: past)
    (hvisit : visits[j]? = some (.unregister id))
    (cleared : answerAfter visits desk earlier j = some (.unregistered true))
    (found : (deskAfter visits desk past).slot = some id) :
    ∃ between k, Begins past between k ∧ j ∈ between ∧ visits[k]? = some (.register id) := by
  obtain ⟨visit, before, hj, begins, hanswer⟩ := exists_begins_of_answerAfter cleared
  obtain rfl : visit = .unregister id := Option.some.inj (hj.symm.trans hvisit)
  have hheld : (deskAfter visits desk before).slot = some id :=
    slot_eq_of_unregistered hanswer.symm
  -- the step that unregistered the object has emptied the slot, so another has filled it
  have hgone : (deskAfter visits desk (before ++ [j])).slot ≠ some id := by
    rw [deskAfter_snoc_of_notMem begins.fresh, hvisit, Option.map_some, Option.getD_some,
      slot_unregister_runAt, if_pos hheld]
    exact (Option.some_ne_none id).symm
  obtain ⟨between, k, hafter, hturn, hno, hyes⟩ :=
    exists_turn (fun past => (deskAfter visits desk past).slot = some id) (begins.turn.trans hle)
      hgone found
  have hmem : j ∈ between := hafter.mem (List.mem_append_right before List.mem_cons_self)
  rcases slot_snoc_cases visits desk between k with hsame | ⟨hfresh, hcases⟩
  · exact absurd (hsame.symm.trans hyes) hno
  rcases hcases with ⟨other, hregister, hslot⟩ | ⟨other, -, -, hslot⟩
  · obtain rfl : other = id := Option.some.inj (hslot.symm.trans hyes)
    exact ⟨between, k, ⟨hturn, hfresh⟩, hmem, hregister⟩
  · rw [hslot] at hyes
    cases hyes

/-- An answer from one object, which a caller has found in the slot with the step behind `past`. -/
structure Uses (visits : List Visit) (desk : Desk) (schedule past : List Nat) (i : Nat)
    (id : ConfigurationId) (home : Except StorageError String) : Prop where
  found : (deskAfter visits desk past).slot = some id
  home_eq : home = .ok (Path.composeHome (desk.values id).location (desk.values id).name)
  /-- After the snapshot the caller has asked this object for both values. -/
  calls_eq : ((visiting visits desk).history Desk.perform i schedule).map Prod.fst =
    [.snapshot, .locationOf id, .nameOf id]
  /-- An object that was unregistered before has been registered since. -/
  renewed {earlier : List Nat} {j : Nat} (hle : earlier <+: past)
    (hvisit : visits[j]? = some (.unregister id))
    (cleared : answerAfter visits desk earlier j = some (.unregistered true)) :
    ∃ between k, Begins past between k ∧ j ∈ between ∧ visits[k]? = some (.register id)

/-- The calls of some callers go as one after the other. -/
structure Linearized (visits : List Visit) (desk : Desk) (schedule : List Nat) : Prop where
  /-- The desk is left as by the calls one after the other, in the order in which they begin. -/
  desk_eq : deskAfter visits desk schedule =
    Program.inOrder Desk.perform (visits.map Visit.program) desk schedule.eraseDups
  /-- A call is answered as it is alone at the desk that it finds when it begins. -/
  answered {i : Nat} {answer : Visit.Answer}
    (h : answerAfter visits desk schedule i = some answer) :
    ∃ visit past, visits[i]? = some visit ∧ Begins schedule past i ∧
      answer = (visit.program.runAt (deskAfter visits desk past)).answer
  /-- The home root that a call is answered, which had not begun at some time, is that of an object
  in the slot at a later time; or the slot was empty at such a time. -/
  resolved {i : Nat} {home : Except StorageError String} {earlier : List Nat}
    (h : answerAfter visits desk schedule i = some (.resolved home))
    (hle : earlier <+: schedule) (unbegun : i ∉ earlier) :
    ∃ past, earlier <+: past ∧ Begins schedule past i ∧
      ((deskAfter visits desk past).slot = none ∧ home = .error .configurationUnavailable ∨
        ∃ id, Uses visits desk schedule past i id home)
  /-- A registration is lost only to another registration, or to an unregistration of its own. -/
  kept {past : List Nat} {j : Nat} {id : ConfigurationId} (turn : past ++ [j] <+: schedule)
    (held : (deskAfter visits desk past).slot = some id)
    (lost : (deskAfter visits desk (past ++ [j])).slot ≠ some id) :
    Begins schedule past j ∧ (visits[j]? = some (.unregister id) ∨
      ∃ other, other ≠ id ∧ visits[j]? = some (.register other) ∧
        (deskAfter visits desk (past ++ [j])).slot = some other)

/-- A caller that has found an object asks it for its two values. -/
theorem calls_of_found {history : List (DeskCall × Desk)} {home : Except StorageError String}
    {later : List (DeskCall × Desk)} {s : Desk}
    (h : Program.Answers (S := deskCalls) Desk.perform resolveHome history home)
    (hhistory : history = (.snapshot, s) :: later) (found : s.slot = some id) :
    history.map Prod.fst = [.snapshot, .locationOf id, .nameOf id] := by
  obtain ⟨met, rest, rfl, hlocation⟩ := h.exists_of_ask_bind
  obtain ⟨hmet, rfl⟩ := List.cons.inj hhistory
  obtain rfl : met = s := (Prod.mk.inj hmet).2
  obtain ⟨slot, values⟩ := met
  cases found
  obtain ⟨_, rest, rfl, hname⟩ := Program.Answers.exists_of_ask_bind (S := deskCalls) hlocation
  obtain ⟨_, rest, rfl, hdone⟩ := Program.Answers.exists_of_ask_bind (S := deskCalls) hname
  obtain ⟨rfl, -⟩ := hdone.of_pure
  rfl

/-- A caller that resolves the home root calls nobody but the object that it finds. -/
theorem calls_of_resolved {home : Except StorageError String}
    (hvisit : visits[i]? = some .resolve) (begins : Begins schedule past i)
    (h : answerAfter visits desk schedule i = some (.resolved home))
    (found : (deskAfter visits desk past).slot = some id) :
    ((visiting visits desk).history Desk.perform i schedule).map Prod.fst =
      [.snapshot, .locationOf id, .nameOf id] := by
  obtain ⟨p, hp, hans⟩ := Pool.exists_of_answer? (S := deskCalls) h
  obtain rfl : p = Visit.resolve.program := by
    rw [tasks_visiting, hvisit] at hp
    exact (Option.some.inj hp).symm
  obtain ⟨rest, hhistory⟩ : ∃ rest, (visiting visits desk).history Desk.perform i schedule =
      (.snapshot, deskAfter visits desk past) :: rest := begins.exists_history (S := deskCalls) hp
  obtain ⟨first, second, answer, hsplit, hfirst, hsecond⟩ :=
    Program.Answers.exists_of_bind (S := deskCalls) hans
  obtain ⟨rfl, -⟩ := hsecond.of_pure
  rw [List.append_nil] at hsplit
  rw [hsplit] at hhistory ⊢
  exact calls_of_found hfirst hhistory found

/-- Calls at a desk go as one after the other. -/
theorem visits_linearized (visits : List Visit) (desk : Desk) (schedule : List Nat) :
    Linearized visits desk schedule where
  desk_eq := Pool.state_follow_eq_inOrder (actsFirst_visiting visits desk) schedule
  answered h := exists_begins_of_answerAfter h
  resolved {i home earlier} h hle unbegun := by
    obtain ⟨visit, past, hvisit, begins, hanswer⟩ := exists_begins_of_answerAfter h
    refine ⟨past, begins.prefix_of_notMem hle unbegun, begins, ?_⟩
    cases visit with
    | register id => cases hanswer
    | unregister id =>
      rw [(Visit.unregister_runAt id _).1] at hanswer
      cases hanswer
    | resolve =>
      rw [(resolve_runAt _).1] at hanswer
      obtain rfl := Visit.Answer.resolved.inj hanswer
      cases hslot : (deskAfter visits desk past).slot with
      | none => exact Or.inl ⟨rfl, Desk.requestHome_of_slot_none hslot⟩
      | some id =>
        exact Or.inr ⟨id, {
          found := hslot
          home_eq := by rw [Desk.requestHome_of_slot hslot, values_deskAfter]
          calls_eq := calls_of_resolved hvisit begins h hslot
          renewed := fun hle hvisit cleared => exists_register_between hle hvisit cleared hslot }⟩
  kept {past j id} turn held lost := by
    rcases slot_snoc_cases visits desk past j with hsame | ⟨hfresh, hcases⟩
    · exact absurd (hsame.trans held) lost
    refine ⟨⟨turn, hfresh⟩, ?_⟩
    rcases hcases with ⟨other, hvisit, hslot⟩ | ⟨other, hvisit, hother, -⟩
    · refine Or.inr ⟨other, ?_, hvisit, hslot⟩
      rintro rfl
      exact lost hslot
    · obtain rfl : other = id := Option.some.inj (hother.symm.trans held)
      exact Or.inl hvisit

/-- Two callers register an object each, one unregisters the first one, and two ask for the home
root. -/
def overtakenVisits : List Visit := [.register 0, .resolve, .register 1, .unregister 0, .resolve]

/-- A desk at which nothing is registered, with the values of the two objects. -/
def deskOfTwo : Desk := ⟨none, fun id => if id = 0 then ⟨"/a", "x"⟩ else ⟨"/b", "y"⟩⟩

/-- While a caller holds the first object the second one is registered, and the first one is
unregistered too late. The caller is answered with the first object, and the second one stays. -/
theorem visits_linearized_overtaken :
    let schedule := [0, 1, 2, 3, 1, 1, 4, 4, 4]
    answerAfter overtakenVisits deskOfTwo schedule 3 = some (.unregistered false) ∧
      answerAfter overtakenVisits deskOfTwo schedule 1 = some (.resolved (.ok "/a/x/")) ∧
      (∃ past, [0] <+: past ∧ ∃ id, Uses overtakenVisits deskOfTwo schedule past 1 id (.ok "/a/x/")) ∧
      answerAfter overtakenVisits deskOfTwo schedule 4 = some (.resolved (.ok "/b/y/")) ∧
      ∃ past, [0, 1, 2, 3, 1, 1] <+: past ∧
        ∃ id, Uses overtakenVisits deskOfTwo schedule past 4 id (.ok "/b/y/") := by
  intro schedule
  have hfirst : answerAfter overtakenVisits deskOfTwo schedule 1 =
      some (.resolved (.ok "/a/x/")) := rfl
  have hsecond : answerAfter overtakenVisits deskOfTwo schedule 4 =
      some (.resolved (.ok "/b/y/")) := rfl
  have linearized := visits_linearized overtakenVisits deskOfTwo schedule
  obtain ⟨past, hle, -, hcases⟩ := linearized.resolved hfirst (show [0] <+: schedule by decide)
    (by decide)
  obtain ⟨past', hle', -, hcases'⟩ := linearized.resolved hsecond
    (show [0, 1, 2, 3, 1, 1] <+: schedule by decide) (by decide)
  exact ⟨rfl, hfirst, ⟨past, hle, hcases.resolve_left fun h => by cases h.2⟩, hsecond, past', hle',
    hcases'.resolve_left fun h => by cases h.2⟩

end UserStorage
