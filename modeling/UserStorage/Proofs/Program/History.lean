import Mathlib.Order.Basic
import Mathlib.Tactic.SplitIfs
import UserStorage.Program.Pool

/-!
# Programs in histories of calls

A program beside others makes each call on the state of the moment. The calls with these states are
its history, and the history alone determines what it answers, for the reply to a call depends on
nothing else. A pool that follows a schedule leaves every program with such a history, whose states
are states of the run; where no call that is made takes anything back, they grow.

## Main definitions

* `Program.Only`: all calls that a program can make satisfy a condition
* `Program.calls`: the calls of a program that is run alone
* `Program.Answers`: what a program answers along a history
* `Program.answer?`: the answer of a program that makes no further call
* `Pool.answer?`, `Pool.history`: what one program of a pool has answered, and its calls during a
  schedule, with the states they were made on

## Main results

* `Program.Answers.exists_of_bind`: the history of one program after another
* `Pool.exists_of_answer?`: what a program has answered it has answered along its history
* `Pool.exists_prefix_of_mem_history`, `Pool.pairwise_history`: the states of a history
-/

namespace UserStorage

variable {S : Signature} {α β σ : Type} {perform : (c : S.Call) → σ → S.Reply c × σ}

namespace Program

/-! ## The calls that a program can make -/

/-- All calls that the program can make satisfy a condition, whatever it is replied. -/
inductive Only (ok : S.Call → Prop) : Program S α → Prop
  | done (a : α) : Only ok (done a)
  | note (e : Event) {p : Program S α} (h : Only ok p) : Only ok (note e p)
  | call {c : S.Call} {k : S.Reply c → Program S α} (hc : ok c) (h : ∀ r, Only ok (k r)) :
      Only ok (call c k)

namespace Only

variable {ok : S.Call → Prop}

theorem bind {p : Program S α} {f : α → Program S β} (hp : Only ok p) (hf : ∀ a, Only ok (f a)) :
    Only ok (p >>= f) := by
  induction hp with
  | done a => exact hf a
  | note e _ ih => exact .note e ih
  | call hc _ ih => exact .call hc ih

theorem ask {c : S.Call} (hc : ok c) : Only ok (ask c) := .call hc fun r => .done r

theorem report (e : Event) : Only ok (report e : Program S Unit) := .note e (.done ())

theorem mono {ok' : S.Call → Prop} {p : Program S α} (h : Only ok p) (himp : ∀ c, ok c → ok' c) :
    Only ok' p := by
  induction h with
  | done a => exact .done a
  | note e _ ih => exact .note e ih
  | call hc _ ih => exact .call (himp _ hc) ih

end Only

/-- A program run alone changes the state by a rule, when all its calls do. -/
theorem Only.rule_run {ok : S.Call → Prop} {p : Program S α} (h : Only ok p)
    (rule : σ → σ → Prop) (hrefl : ∀ s, rule s s) (htrans : ∀ a b c, rule a b → rule b c → rule a c)
    (hrule : ∀ c s, ok c → rule s (perform c s).2) (s : σ) : rule s (p.run perform s).state := by
  induction h generalizing s with
  | done a => exact hrefl s
  | note e _ ih => exact ih s
  | call hc _ ih => exact htrans _ _ _ (hrule _ s hc) (ih _ _)

/-! ## The calls of a program run alone -/

/-- The calls that a program makes when it is run alone, in order. -/
def calls (perform : (c : S.Call) → σ → S.Reply c × σ) : Program S α → σ → List S.Call
  | done _, _ => []
  | note _ p, s => p.calls perform s
  | call c k, s => c :: (k (perform c s).1).calls perform (perform c s).2

/-- The second program makes its calls on the state that the first one left. -/
theorem calls_bind (p : Program S α) (f : α → Program S β) (s : σ) :
    (p >>= f).calls perform s = p.calls perform s ++
      (f (p.run perform s).answer).calls perform (p.run perform s).state := by
  show (p.andThen f).calls perform s = _
  induction p generalizing s with
  | done a => rfl
  | note e p ih => exact ih s
  | call c k ih => exact congrArg (c :: ·) (ih _ _)

/-- The calls of a run satisfy what all calls do that the program can make. -/
theorem Only.of_mem_calls {ok : S.Call → Prop} {p : Program S α} (h : Only ok p) {c : S.Call} {s : σ}
    (hc : c ∈ p.calls perform s) : ok c := by
  induction h generalizing s with
  | done a => cases hc
  | note e _ ih => exact ih hc
  | call hok _ ih =>
    rcases List.mem_cons.mp hc with rfl | hc
    · exact hok
    · exact ih _ hc

/-! ## Answers along histories -/

/-- The program gives this answer when its calls, one after the other, are made on the states of
the history. -/
inductive Answers (perform : (c : S.Call) → σ → S.Reply c × σ) :
    Program S α → List (S.Call × σ) → α → Prop
  | done (a : α) : Answers perform (done a) [] a
  | note {e : Event} {p : Program S α} {history : List (S.Call × σ)} {a : α}
      (h : Answers perform p history a) : Answers perform (note e p) history a
  | call {c : S.Call} {k : S.Reply c → Program S α} {s : σ} {history : List (S.Call × σ)} {a : α}
      (h : Answers perform (k (perform c s).1) history a) :
      Answers perform (call c k) ((c, s) :: history) a

namespace Answers

variable {history : List (S.Call × σ)} {a : α} {b : β}

/-- The history of one program after another is that of the one and then that of the other. -/
theorem exists_of_bind {p : Program S α} {f : α → Program S β}
    (h : Answers perform (p >>= f) history b) :
    ∃ first second a, history = first ++ second ∧ Answers perform p first a ∧
      Answers perform (f a) second b := by
  -- along the first program: each of its calls takes the first look of what is left
  induction p generalizing history with
  | done a => exact ⟨[], history, a, rfl, .done a, h⟩
  | note e p ih =>
    cases h with
    | note h =>
      obtain ⟨first, second, a, rfl, hp, hf⟩ := ih h
      exact ⟨first, second, a, rfl, .note hp, hf⟩
  | call c k ih =>
    cases h with
    | @call _ _ s rest _ h =>
      obtain ⟨first, second, a, rfl, hp, hf⟩ := ih _ h
      exact ⟨(c, s) :: first, second, a, rfl, .call hp, hf⟩

theorem of_pure {c : α} (h : Answers perform (pure c : Program S α) history a) :
    history = [] ∧ a = c := by
  cases h with
  | done => exact ⟨rfl, rfl⟩

theorem exists_of_ask_bind {c : S.Call} {f : S.Reply c → Program S β}
    (h : Answers perform (Program.ask c >>= f) history b) :
    ∃ s rest, history = (c, s) :: rest ∧ Answers perform (f (perform c s).1) rest b := by
  cases h with
  | call h => exact ⟨_, _, rfl, h⟩

theorem of_report_bind {e : Event} {f : Unit → Program S β}
    (h : Answers perform (Program.report e >>= f) history b) :
    Answers perform (f ()) history b := by
  cases h with
  | note h => exact h

/-- A history holds only calls that the program can make. -/
theorem only {ok : S.Call → Prop} {p : Program S α} (h : Answers perform p history a)
    (hp : Only ok p) : ∀ look ∈ history, ok look.1 := by
  induction h with
  | done a => exact fun _ hmem => absurd hmem List.not_mem_nil
  | note _ ih =>
    cases hp with
    | note _ hp => exact ih hp
  | call _ ih =>
    cases hp with
    | call hc hp =>
      intro look hmem
      rcases List.mem_cons.mp hmem with rfl | hmem
      · exact hc
      · exact ih (hp _) look hmem

end Answers

/-- The answer of a program that makes no further call. -/
def answer? : Program S α → Option α
  | done a => some a
  | note _ p => p.answer?
  | call _ _ => none

theorem answers_of_answer? {p : Program S α} {a : α} (h : p.answer? = some a) :
    Answers perform p [] a := by
  induction p with
  | done b =>
    cases h
    exact .done a
  | note e p ih => exact .note (ih h)
  | call c k ih => cases h

end Program

namespace Pool

variable (perform) in
/-- The calls that one program makes during a schedule, with the states that it makes them on. -/
def history (pool : Pool S σ α) (i : Nat) : List Nat → List (S.Call × σ)
  | [] => []
  | j :: schedule =>
    let rest := (pool.step perform j).history i schedule
    match pool.tasks[j]? with
    | some (.call c _) => if j = i then (c, pool.state) :: rest else rest
    | _ => rest

variable {pool : Pool S σ α} {i : Nat} {schedule : List Nat}

/-! ## One step -/

theorem step_of_call {c : S.Call} {k : S.Reply c → Program S α}
    (h : pool.tasks[i]? = some (.call c k)) :
    pool.step perform i = ⟨(perform c pool.state).2,
      pool.tasks.set i (k (perform c pool.state).1)⟩ := by
  rw [step, h]

theorem step_of_note {e : Event} {p : Program S α} (h : pool.tasks[i]? = some (.note e p)) :
    pool.step perform i = { pool with tasks := pool.tasks.set i p } := by
  rw [step, h]

theorem step_of_done {a : α} (h : pool.tasks[i]? = some (.done a)) :
    pool.step perform i = pool := by
  rw [step, h]

theorem tasks_set_self {p : Program S α} (h : pool.tasks[i]? = some p) (q : Program S α) :
    (pool.tasks.set i q)[i]? = some q :=
  List.getElem?_set_self (List.getElem?_eq_some_iff.mp h).1

theorem tasks_step_of_ne {j : Nat} (h : j ≠ i) :
    (pool.step perform j).tasks[i]? = pool.tasks[i]? := by
  unfold step
  split
  · rw [List.getElem?_set_ne h]
  · rw [List.getElem?_set_ne h]
  · rfl
  · rfl

theorem history_of_ne {j : Nat} (h : j ≠ i) : pool.history perform i (j :: schedule) =
    (pool.step perform j).history perform i schedule := by
  rw [history]
  split
  · rw [if_neg h]
  · rfl

theorem history_of_call {c : S.Call} {k : S.Reply c → Program S α}
    (h : pool.tasks[i]? = some (.call c k)) : pool.history perform i (i :: schedule) =
      (c, pool.state) :: (pool.step perform i).history perform i schedule := by
  rw [history, h]
  exact if_pos rfl

/-! ## Runs -/

/-- A program that is done has answered along its history. -/
theorem answers_history {p q : Program S α} {rest : List (S.Call × σ)} {a : α}
    (hp : pool.tasks[i]? = some p) (hq : (pool.follow perform schedule).tasks[i]? = some q)
    (hans : Program.Answers perform q rest a) :
    Program.Answers perform p (pool.history perform i schedule ++ rest) a := by
  induction schedule generalizing pool p with
  | nil =>
    obtain rfl : p = q := by simpa [hp] using hq
    exact hans
  | cons j schedule ih =>
    rw [follow_cons] at hq
    by_cases hj : j = i
    · -- the program's own turn: its next call is the next look of its history
      subst hj
      cases p with
      | done b =>
        have hstep : pool.step perform j = _ := step_of_done hp
        rw [hstep] at hq
        rw [history, hp, hstep]
        exact ih hp hq
      | note e p =>
        have hstep : pool.step perform j = _ := step_of_note hp
        rw [hstep] at hq
        rw [history, hp, hstep]
        exact .note (ih (tasks_set_self hp p) hq)
      | call c k =>
        have hstep : pool.step perform j = _ := step_of_call hp
        rw [hstep] at hq
        rw [history_of_call hp, hstep]
        exact .call (ih (tasks_set_self hp _) hq)
    · -- another one's turn changes the state, which the history will show, and not the program
      rw [history_of_ne hj]
      exact ih ((tasks_step_of_ne hj).trans hp) hq

variable (perform) in
theorem length_tasks_follow (pool : Pool S σ α) (schedule : List Nat) :
    (pool.follow perform schedule).tasks.length = pool.tasks.length := by
  induction schedule generalizing pool with
  | nil => rfl
  | cons j schedule ih => rw [follow_cons, ih, length_tasks_step]

/-- The answer of one program of the pool, if that makes no further call. -/
def answer? (pool : Pool S σ α) (i : Nat) : Option α := pool.tasks[i]?.bind Program.answer?

/-- What a program of the pool has answered it has answered along its history. -/
theorem exists_of_answer? {a : α} (h : (pool.follow perform schedule).answer? i = some a) :
    ∃ p, pool.tasks[i]? = some p ∧
      Program.Answers perform p (pool.history perform i schedule) a := by
  obtain ⟨q, hq, ha⟩ := Option.bind_eq_some_iff.mp h
  have hi : i < pool.tasks.length := by
    rw [← length_tasks_follow perform pool schedule]
    exact (List.getElem?_eq_some_iff.mp hq).1
  have hp : pool.tasks[i]? = some pool.tasks[i] := List.getElem?_eq_getElem hi
  have hans := answers_history hp hq (Program.answers_of_answer? ha)
  rw [List.append_nil] at hans
  exact ⟨_, hp, hans⟩

/-- The states of a history are states of the run. -/
theorem exists_prefix_of_mem_history {look : S.Call × σ}
    (h : look ∈ pool.history perform i schedule) :
    ∃ before, before <+: schedule ∧ look.2 = (pool.follow perform before).state := by
  induction schedule generalizing pool with
  | nil => cases h
  | cons j schedule ih =>
    have later (h : look ∈ (pool.step perform j).history perform i schedule) :
        ∃ before, before <+: j :: schedule ∧ look.2 = (pool.follow perform before).state := by
      obtain ⟨before, hprefix, hstate⟩ := ih h
      exact ⟨j :: before, List.cons_prefix_cons.mpr ⟨rfl, hprefix⟩, hstate⟩
    rw [history] at h
    split at h
    · split_ifs at h with hj
      · rcases List.mem_cons.mp h with rfl | h
        · exact ⟨[], List.nil_prefix, rfl⟩
        · exact later h
      · exact later h
    · exact later h

section Growth

variable {ok : S.Call → Prop}

/-- The programs that a pool is left with after a step make no other calls than before. -/
theorem only_step (h : ∀ p ∈ pool.tasks, Program.Only ok p) :
    ∀ p ∈ (pool.step perform i).tasks, Program.Only ok p := by
  have replaced (q : Program S α) (hq : Program.Only ok q) :
      ∀ p ∈ pool.tasks.set i q, Program.Only ok p := by
    intro p hp
    rcases List.mem_or_eq_of_mem_set hp with hp | rfl
    · exact h p hp
    · exact hq
  unfold step
  split
  · next c k htask =>
    cases h _ (List.mem_of_getElem? htask) with
    | call _ hk => exact replaced _ (hk _)
  · next e p htask =>
    cases h _ (List.mem_of_getElem? htask) with
    | note _ hp => exact replaced _ hp
  · exact h
  · exact h

variable [Preorder σ]

theorem le_state_step (hgrow : ∀ c s, ok c → s ≤ (perform c s).2)
    (h : ∀ p ∈ pool.tasks, Program.Only ok p) : pool.state ≤ (pool.step perform i).state := by
  unfold step
  split
  · next c k htask =>
    cases h _ (List.mem_of_getElem? htask) with
    | call hc _ => exact hgrow c pool.state hc
  · exact le_rfl
  · exact le_rfl
  · exact le_rfl

/-- Where no call takes anything back, the state grows along every schedule. -/
theorem le_state_follow (hgrow : ∀ c s, ok c → s ≤ (perform c s).2)
    (h : ∀ p ∈ pool.tasks, Program.Only ok p) :
    pool.state ≤ (pool.follow perform schedule).state := by
  induction schedule generalizing pool with
  | nil => exact le_rfl
  | cons j schedule ih => exact (le_state_step hgrow h).trans (ih (only_step h))

/-- Where no call takes anything back, the states of a history grow. -/
theorem pairwise_history (hgrow : ∀ c s, ok c → s ≤ (perform c s).2)
    (h : ∀ p ∈ pool.tasks, Program.Only ok p) :
    (pool.history perform i schedule).Pairwise fun first second => first.2 ≤ second.2 := by
  induction schedule generalizing pool with
  | nil => exact List.Pairwise.nil
  | cons j schedule ih =>
    have rest : ((pool.step perform j).history perform i schedule).Pairwise
        fun first second => first.2 ≤ second.2 := ih (only_step h)
    rw [history]
    split
    · split_ifs
      · refine List.pairwise_cons.mpr ⟨fun look hmem => ?_, rest⟩
        obtain ⟨before, -, hstate⟩ := exists_prefix_of_mem_history hmem
        rw [hstate]
        exact (le_state_step hgrow h).trans (le_state_follow hgrow (only_step h))
      · exact rest
    · exact rest

end Growth

end Pool

end UserStorage
