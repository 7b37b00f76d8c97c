import Mathlib.Data.List.Infix
import UserStorage.Proofs.Program.Stages

/-!
# Programs that act with their first call

Some programs do all they do to the state with their first call and only read after that, and what
they read no call of anybody changes. Side by side such programs go as one after the other, in the
order in which they begin: each leaves and answers what it would have left and answered alone, on
the state that it found at its beginning.

## Main definitions

* `Program.Reads`, `Program.ActsFirst`: calls that read a part of the state, and programs that do
  nothing else after their first call
* `Pool.Begins`: the step with which a program begins
* `Program.inOrder`: the state that some programs leave that are run one after the other

## Main results

* `Pool.Begins.prefix_of_notMem`: a program that has not begun begins later
* `Pool.state_follow_eq_inOrder`: the state after a schedule
* `Pool.exists_begins_of_answer?`: the answers after a schedule
-/

namespace UserStorage

variable {S : Signature} {α σ ν : Type} {perform : (c : S.Call) → σ → S.Reply c × σ} {part : σ → ν}

namespace Program

/-- The call changes nothing, and its reply is found in one part of the state. -/
structure Reads (perform : (c : S.Call) → σ → S.Reply c × σ) (part : σ → ν) (c : S.Call) : Prop where
  still (s : σ) : (perform c s).2 = s
  reply_eq {s s' : σ} (h : part s = part s') : (perform c s).1 = (perform c s').1

/-- The program makes a call, and after that it only reads. -/
inductive ActsFirst (perform : (c : S.Call) → σ → S.Reply c × σ) (part : σ → ν) :
    Program S α → Prop
  | call {c : S.Call} {k : S.Reply c → Program S α} (h : ∀ r, Only (Reads perform part) (k r)) :
      ActsFirst perform part (call c k)

theorem Only.state_run {p : Program S α} (h : Only (Reads perform part) p) (s : σ) :
    (p.run perform s).state = s :=
  (h.rule_run Eq (fun _ => rfl) (fun _ _ _ => Eq.trans) (fun _ s hc => (hc.still s).symm) s).symm

/-- A program that only reads answers as it does alone, as long as what it reads stays the same. -/
theorem Answers.eq_answer_run {p : Program S α} {history : List (S.Call × σ)} {a : α}
    (h : Answers perform p history a) (reads : Only (Reads perform part) p) (s : σ)
    (same : ∀ look ∈ history, part look.2 = part s) : a = (p.run perform s).answer := by
  induction h with
  | done a => rfl
  | note _ ih =>
    cases reads with
    | note _ reads => exact ih reads same
  | @call c k met history a _ ih =>
    cases reads with
    | call hc hk =>
      have hreply : (perform c met).1 = (perform c s).1 :=
        hc.reply_eq (same _ List.mem_cons_self)
      rw [run, hc.still s, ← hreply]
      exact ih (hk _) fun look hmem => same look (List.mem_cons_of_mem _ hmem)

/-- The state that is left by those programs of a list that an order names, run one after the
other. -/
def inOrder (perform : (c : S.Call) → σ → S.Reply c × σ) (programs : List (Program S α)) (s : σ)
    (order : List Nat) : σ :=
  order.foldl (fun s i => (programs[i]?.map fun p => (p.run perform s).state).getD s) s

end Program

namespace Pool

variable {pool : Pool S σ α} {i j : Nat} {schedule past earlier : List Nat}

/-! ## Beginnings -/

/-- With the step behind `past` a program begins. -/
structure Begins (schedule past : List Nat) (i : Nat) : Prop where
  turn : past ++ [i] <+: schedule
  fresh : i ∉ past

theorem exists_begins (h : i ∈ schedule) : ∃ past, Begins schedule past i := by
  obtain ⟨past, later, rfl, hfresh⟩ := List.eq_append_cons_of_mem h
  refine ⟨past, ?_, hfresh⟩
  exact ⟨later, by simp⟩

/-- A program that has not begun at some time begins later. -/
theorem Begins.prefix_of_notMem (h : Begins schedule past i) (hearlier : earlier <+: schedule)
    (unbegun : i ∉ earlier) : earlier <+: past := by
  rcases List.prefix_or_prefix_of_prefix hearlier h.turn with hle | hle
  · rcases List.prefix_concat_iff.mp hle with rfl | hle
    · exact absurd (List.mem_append_right past List.mem_cons_self) unbegun
    · exact hle
  · exact absurd (hle.mem (List.mem_append_right past List.mem_cons_self)) unbegun

/-! ## Before and after a program has begun -/

variable (perform) in
theorem tasks_follow_of_notMem (pool : Pool S σ α) (h : i ∉ past) :
    (pool.follow perform past).tasks[i]? = pool.tasks[i]? := by
  induction past generalizing pool with
  | nil => rfl
  | cons j past ih =>
    have hne : i ≠ j := List.ne_of_not_mem_cons h
    rw [follow_cons, ih _ (List.not_mem_of_not_mem_cons h), tasks_step_of_ne hne.symm]

theorem history_of_notMem (pool : Pool S σ α) (h : i ∉ past) (later : List Nat) :
    pool.history perform i (past ++ later) =
      (pool.follow perform past).history perform i later := by
  induction past generalizing pool with
  | nil => rfl
  | cons j past ih =>
    have hne : i ≠ j := List.ne_of_not_mem_cons h
    rw [List.cons_append, history_of_ne hne.symm, ih _ (List.not_mem_of_not_mem_cons h),
      follow_cons]

/-- The first call of a program is made on the state that it finds at its beginning. -/
theorem Begins.exists_history (h : Begins schedule past i) {c : S.Call} {k : S.Reply c → Program S α}
    (htask : pool.tasks[i]? = some (.call c k)) :
    ∃ rest, pool.history perform i schedule = (c, (pool.follow perform past).state) :: rest := by
  obtain ⟨⟨later, rfl⟩, hfresh⟩ := h
  have htask' : (pool.follow perform past).tasks[i]? = some (.call c k) :=
    (tasks_follow_of_notMem perform pool hfresh).trans htask
  rw [List.append_assoc, List.singleton_append, history_of_notMem pool hfresh,
    history_of_call htask']
  exact ⟨_, rfl⟩

/-- A step of any program leaves a program with no other calls than before. -/
theorem exists_only_step {ok : S.Call → Prop} {p : Program S α} (hp : pool.tasks[i]? = some p)
    (h : p.Only ok) (j : Nat) :
    ∃ q, (pool.step perform j).tasks[i]? = some q ∧ q.Only ok := by
  by_cases hj : j = i
  · subst hj
    cases h with
    | done a =>
      rw [step_of_done hp]
      exact ⟨_, hp, .done a⟩
    | note e h =>
      rw [step_of_note hp]
      exact ⟨_, tasks_set_self hp _, h⟩
    | call hc hk =>
      rw [step_of_call hp]
      exact ⟨_, tasks_set_self hp _, hk _⟩
  · exact ⟨p, (tasks_step_of_ne hj).trans hp, h⟩

theorem exists_only_follow {ok : S.Call → Prop} {p : Program S α} (hp : pool.tasks[i]? = some p)
    (h : p.Only ok) (schedule : List Nat) :
    ∃ q, (pool.follow perform schedule).tasks[i]? = some q ∧ q.Only ok := by
  induction schedule generalizing pool p with
  | nil => exact ⟨p, hp, h⟩
  | cons j schedule ih =>
    obtain ⟨q, hq, honly⟩ := exists_only_step hp h j
    exact ih hq honly

/-- What is left of a program that has begun only reads. -/
theorem exists_reads_of_mem {p : Program S α} (hp : pool.tasks[i]? = some p)
    (acts : p.ActsFirst perform part) (h : i ∈ past) :
    ∃ q, (pool.follow perform past).tasks[i]? = some q ∧ q.Only (Program.Reads perform part) := by
  obtain ⟨before, ⟨later, rfl⟩, hfresh⟩ := exists_begins h
  cases acts with
  | call hk =>
    have htask := (tasks_follow_of_notMem perform pool hfresh).trans hp
    rw [follow_append, follow_snoc, step_of_call htask]
    exact exists_only_follow (tasks_set_self htask _) (hk _) later

/-- A step of a program that has begun changes nothing. -/
theorem state_step_of_mem (acts : ∀ p ∈ pool.tasks, p.ActsFirst perform part) (h : i ∈ past) :
    ((pool.follow perform past).step perform i).state = (pool.follow perform past).state := by
  cases htask : pool.tasks[i]? with
  | none =>
    have hnone : (pool.follow perform past).tasks[i]? = none := by
      rw [List.getElem?_eq_none_iff] at htask ⊢
      rwa [length_tasks_follow]
    rw [step, hnone]
  | some p =>
    obtain ⟨q, hq, reads⟩ := exists_reads_of_mem htask (acts p (List.mem_of_getElem? htask)) h
    cases reads with
    | done a => rw [step_of_done hq]
    | note e _ => rw [step_of_note hq]
    | call hc _ =>
      rw [step_of_call hq]
      exact hc.still _

/-- A step with which a program begins leaves what the program leaves alone. -/
theorem state_step_of_notMem (acts : ∀ p ∈ pool.tasks, p.ActsFirst perform part) (h : i ∉ past) :
    ((pool.follow perform past).step perform i).state =
      (pool.tasks[i]?.map fun p => (p.run perform (pool.follow perform past).state).state).getD
        (pool.follow perform past).state := by
  have htask := tasks_follow_of_notMem perform pool h
  cases hp : pool.tasks[i]? with
  | none =>
    rw [step, htask, hp]
    rfl
  | some p =>
    cases acts p (List.mem_of_getElem? hp) with
    | call hk =>
      rw [step_of_call (htask.trans hp)]
      exact ((hk _).state_run _).symm

/-- The programs leave what they leave one after the other, in the order in which they begin. -/
theorem state_follow_eq_inOrder (acts : ∀ p ∈ pool.tasks, p.ActsFirst perform part)
    (schedule : List Nat) : (pool.follow perform schedule).state =
      Program.inOrder perform pool.tasks pool.state schedule.eraseDups := by
  -- the last step is left out of the order when its program has begun before, and then it is idle
  induction schedule using List.reverseRecOn with
  | nil => rfl
  | append_singleton past i ih =>
    rw [follow_snoc, List.eraseDups_append]
    by_cases h : i ∈ past
    · have hnone : [i].removeAll past = [] := by simpa [List.removeAll] using h
      rw [state_step_of_mem acts h, ih, hnone, List.eraseDups_nil, List.append_nil]
    · have hone : [i].removeAll past = [i] := by simpa [List.removeAll] using h
      rw [state_step_of_notMem acts h, hone, Program.inOrder, List.foldl_append, ih]
      rfl

/-- What no call changes stays the same along every schedule. -/
theorem part_follow (hpart : ∀ c s, part (perform c s).2 = part s) (pool : Pool S σ α)
    (schedule : List Nat) : part (pool.follow perform schedule).state = part pool.state := by
  induction schedule generalizing pool with
  | nil => rfl
  | cons i schedule ih =>
    rw [follow_cons, ih, step]
    split
    · exact hpart _ _
    · rfl
    · rfl
    · rfl

/-- A program that has answered has begun, and answers as it does alone on the state that it found
at its beginning. -/
theorem exists_begins_of_answer? (acts : ∀ p ∈ pool.tasks, p.ActsFirst perform part)
    (hpart : ∀ c s, part (perform c s).2 = part s) {a : α}
    (h : (pool.follow perform schedule).answer? i = some a) :
    ∃ p past, pool.tasks[i]? = some p ∧ Begins schedule past i ∧
      a = (p.run perform (pool.follow perform past).state).answer := by
  obtain ⟨p, hp, hans⟩ := exists_of_answer? h
  cases acts p (List.mem_of_getElem? hp) with
  | @call c k hk =>
    have hmem : i ∈ schedule := by
      by_contra hno
      rw [answer?, tasks_follow_of_notMem perform pool hno, hp] at h
      cases h
    obtain ⟨past, begins⟩ := exists_begins hmem
    obtain ⟨rest, hhistory⟩ := begins.exists_history hp
    refine ⟨_, past, hp, begins, ?_⟩
    -- whatever states the program meets after its beginning, what it reads there is the same
    have same : ∀ look ∈ rest, part look.2 = part (perform c (pool.follow perform past).state).2 := by
      intro look hlook
      have hlook' : look ∈ pool.history perform i schedule :=
        hhistory ▸ List.mem_cons_of_mem _ hlook
      obtain ⟨before, -, hstate⟩ := exists_prefix_of_mem_history hlook'
      rw [hstate, hpart, part_follow hpart, part_follow hpart]
    rw [hhistory] at hans
    cases hans with
    | call hans => exact hans.eq_answer_run (hk _) _ same

end Pool

end UserStorage
