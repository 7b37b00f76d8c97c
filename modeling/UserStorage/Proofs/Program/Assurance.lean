import UserStorage.Proofs.Program.History

/-!
# Programs beside others that keep to a rule

A program beside others can be sure of its end without knowing the others, when it knows by which
rule they change the state: each of its calls may meet any state that the rule leads to, and it
still comes to an answer that satisfies a condition. When every program of a pool keeps to the
rule, such a program keeps its assurance in every interleaving. A pool in which the programs are
run one after the other follows a schedule too, so what holds in every interleaving holds of those
that are run to the end.

## Main definitions

* `Program.Ensures`: a program that comes to a good answer as others change the state by a rule

## Main results

* `Program.Ensures.bind`, `Program.Ensures.mono`: assurances in parts, and later
* `Pool.exists_ensures_follow`: an assurance in every interleaving
* `Pool.exists_follow_finish`: running the programs to their ends follows a schedule
* `Pool.invariant_finish`, `Pool.exists_good_finish`: what an invariant and what an assurance are
  worth at the end
-/

namespace UserStorage

variable {S : Signature} {α β σ : Type} {perform : (c : S.Call) → σ → S.Reply c × σ}

namespace Program

/-- However others change the state by the rule before each of its calls, the program comes to an
answer that satisfies the condition in the state that it leaves. -/
def Ensures (perform : (c : S.Call) → σ → S.Reply c × σ) (rule : σ → σ → Prop)
    (good : α → σ → Prop) : Program S α → σ → Prop
  | done a, s => good a s
  | note _ p, s => p.Ensures perform rule good s
  | call c k, s =>
    ∀ met, rule s met → (k (perform c met).1).Ensures perform rule good (perform c met).2

namespace Ensures

variable {rule : σ → σ → Prop} {good : α → σ → Prop} {s s' : σ}

/-- One program after another, which starts wherever the first one may end. -/
theorem bind {p : Program S α} {f : α → Program S β} {good' : β → σ → Prop}
    (hp : p.Ensures perform rule good s)
    (hf : ∀ a s, good a s → (f a).Ensures perform rule good' s) :
    (p >>= f).Ensures perform rule good' s := by
  induction p generalizing s with
  | done a => exact hf a s hp
  | note e p ih => exact ih hp
  | call c k ih => exact fun met hmet => ih _ (hp met hmet)

/-- An assurance holds still after others have changed the state by the rule. -/
theorem mono {p : Program S α} (htrans : ∀ a b c, rule a b → rule b c → rule a c)
    (hstable : ∀ a s s', rule s s' → good a s → good a s')
    (h : p.Ensures perform rule good s) (hrule : rule s s') :
    p.Ensures perform rule good s' := by
  induction p with
  | done a => exact hstable a s s' hrule h
  | note e p ih => exact ih h
  | call c k _ => exact fun met hmet => h met (htrans _ _ _ hrule hmet)

end Ensures

end Program

namespace Pool

variable {pool : Pool S σ α} {i : Nat} {schedule : List Nat}

section Assurance

variable {ok : S.Call → Prop} {rule : σ → σ → Prop} {good : α → σ → Prop}

/-- A step changes the state by the rule, when all calls that are made do. -/
theorem rule_step (rule : σ → σ → Prop) (hrefl : ∀ s, rule s s)
    (hrule : ∀ c s, ok c → rule s (perform c s).2)
    (honly : ∀ p ∈ pool.tasks, Program.Only ok p) :
    rule pool.state (pool.step perform i).state := by
  unfold step
  split
  · next c k htask =>
    cases honly _ (List.mem_of_getElem? htask) with
    | call hc _ => exact hrule c pool.state hc
  · exact hrefl _
  · exact hrefl _
  · exact hrefl _

/-- A step of any program of the pool leaves an assurance. -/
theorem exists_ensures_step (hrefl : ∀ s, rule s s)
    (htrans : ∀ a b c, rule a b → rule b c → rule a c)
    (hstable : ∀ a s s', rule s s' → good a s → good a s')
    (hrule : ∀ c s, ok c → rule s (perform c s).2)
    (honly : ∀ p ∈ pool.tasks, Program.Only ok p) {p : Program S α}
    (hp : pool.tasks[i]? = some p) (h : p.Ensures perform rule good pool.state) (j : Nat) :
    ∃ q, (pool.step perform j).tasks[i]? = some q ∧
      q.Ensures perform rule good (pool.step perform j).state := by
  by_cases hj : j = i
  · -- its own step: what is left has the assurance from where the step leads
    subst hj
    cases p with
    | done a =>
      rw [step_of_done hp]
      exact ⟨_, hp, h⟩
    | note e p =>
      rw [step_of_note hp]
      exact ⟨p, tasks_set_self hp p, h⟩
    | call c k =>
      rw [step_of_call hp]
      exact ⟨_, tasks_set_self hp _, h pool.state (hrefl _)⟩
  · exact ⟨p, (tasks_step_of_ne hj).trans hp,
      h.mono htrans hstable (rule_step rule hrefl hrule honly)⟩

/-- In every interleaving of programs that keep to the rule, an assurance holds to the end. -/
theorem exists_ensures_follow (hrefl : ∀ s, rule s s)
    (htrans : ∀ a b c, rule a b → rule b c → rule a c)
    (hstable : ∀ a s s', rule s s' → good a s → good a s')
    (hrule : ∀ c s, ok c → rule s (perform c s).2)
    (honly : ∀ p ∈ pool.tasks, Program.Only ok p) {p : Program S α}
    (hp : pool.tasks[i]? = some p) (h : p.Ensures perform rule good pool.state)
    (schedule : List Nat) : ∃ q, (pool.follow perform schedule).tasks[i]? = some q ∧
      q.Ensures perform rule good (pool.follow perform schedule).state := by
  induction schedule generalizing pool p with
  | nil => exact ⟨p, hp, h⟩
  | cons j schedule ih =>
    obtain ⟨q, hq, hensures⟩ :=
      exists_ensures_step hrefl htrans hstable hrule honly hp h j
    exact ih (only_step honly) hq hensures

/-- An invariant of the state that all calls keep holds along every schedule. -/
theorem invariant_follow {inv : σ → Prop} (hinv : ∀ c s, ok c → inv s → inv (perform c s).2)
    (honly : ∀ p ∈ pool.tasks, Program.Only ok p) (h : inv pool.state) (schedule : List Nat) :
    inv (pool.follow perform schedule).state := by
  induction schedule generalizing pool with
  | nil => exact h
  | cons j schedule ih =>
    exact ih (only_step honly)
      (rule_step (fun s s' => inv s → inv s') (fun _ hs => hs) hinv honly h)

end Assurance

/-! ## Running to the end -/

/-- A program is run to its end by the schedule that names nothing else. -/
theorem exists_follow_run (perform : (c : S.Call) → σ → S.Reply c × σ) {p : Program S α}
    (hp : pool.tasks[i]? = some p) :
    ∃ schedule, pool.follow perform schedule = ⟨(p.run perform pool.state).state,
      pool.tasks.set i (.done (p.run perform pool.state).answer)⟩ := by
  induction p generalizing pool with
  | done a =>
    refine ⟨[], ?_⟩
    have hsame : pool.tasks.set i (.done a) = pool.tasks := by
      obtain ⟨hi, ha⟩ := List.getElem?_eq_some_iff.mp hp
      rw [← ha, List.set_getElem_self]
    rw [follow_nil]
    show pool = ⟨pool.state, pool.tasks.set i (.done a)⟩
    rw [hsame]
  | note e p ih =>
    have hnext : (pool.step perform i).tasks[i]? = some p := by
      rw [step_of_note hp]
      exact tasks_set_self hp p
    obtain ⟨schedule, hschedule⟩ := ih hnext
    refine ⟨i :: schedule, ?_⟩
    rw [follow_cons, hschedule, step_of_note hp, List.set_set]
    rfl
  | call c k ih =>
    have hnext : (pool.step perform i).tasks[i]? = some (k (perform c pool.state).1) := by
      rw [step_of_call hp]
      exact tasks_set_self hp _
    obtain ⟨schedule, hschedule⟩ := ih _ hnext
    refine ⟨i :: schedule, ?_⟩
    rw [follow_cons, hschedule, step_of_call hp, List.set_set]
    rfl

/-- The programs of a pool are run to their ends by some schedule. -/
theorem exists_follow_finish (perform : (c : S.Call) → σ → S.Reply c × σ) (pool : Pool S σ α) :
    ∃ schedule, pool.follow perform schedule =
      ⟨(pool.finish perform).2, (pool.finish perform).1.map .done⟩ := by
  -- from the left: the programs before have answered, and the next one is run
  suffices h : ∀ (rest : List (Program S α)) (answers : List α) (s : σ), ∃ schedule,
      follow perform ⟨s, answers.map .done ++ rest⟩ schedule =
        ⟨(rest.foldl (fun r p =>
            (r.1 ++ [(p.run perform r.2).answer], (p.run perform r.2).state)) (answers, s)).2,
          (rest.foldl (fun r p =>
            (r.1 ++ [(p.run perform r.2).answer], (p.run perform r.2).state))
              (answers, s)).1.map .done⟩ from
    h pool.tasks [] pool.state
  intro rest
  induction rest with
  | nil =>
    intro answers s
    exact ⟨[], by simp⟩
  | cons p rest ih =>
    intro answers s
    have hp : (⟨s, answers.map .done ++ p :: rest⟩ : Pool S σ α).tasks[answers.length]? =
        some p := by
      simp
    obtain ⟨first, hfirst⟩ := exists_follow_run perform hp
    obtain ⟨second, hsecond⟩ := ih (answers ++ [(p.run perform s).answer]) (p.run perform s).state
    refine ⟨first ++ second, ?_⟩
    rw [follow_append, hfirst]
    have htasks : (answers.map Program.done ++ p :: rest).set answers.length
        (.done (p.run perform s).answer) =
        (answers ++ [(p.run perform s).answer]).map .done ++ rest := by
      simp
    simp only [htasks]
    exact hsecond

/-- An invariant of the state that all calls keep holds when every program has been run to its
end. -/
theorem invariant_finish {ok : S.Call → Prop} (inv : σ → Prop)
    (hinv : ∀ c s, ok c → inv s → inv (perform c s).2)
    (honly : ∀ p ∈ pool.tasks, Program.Only ok p) (h : inv pool.state) (schedule : List Nat) :
    inv ((pool.follow perform schedule).finish perform).2 := by
  obtain ⟨rest, hrest⟩ := exists_follow_finish perform (pool.follow perform schedule)
  have hend := invariant_follow hinv honly h (schedule ++ rest)
  rw [follow_append, hrest] at hend
  exact hend

/-- A program with an assurance comes to a good answer in every interleaving that is run to its
end. -/
theorem exists_good_finish {ok : S.Call → Prop} {rule : σ → σ → Prop} {good : α → σ → Prop}
    (hrefl : ∀ s, rule s s) (htrans : ∀ a b c, rule a b → rule b c → rule a c)
    (hstable : ∀ a s s', rule s s' → good a s → good a s')
    (hrule : ∀ c s, ok c → rule s (perform c s).2)
    (honly : ∀ p ∈ pool.tasks, Program.Only ok p) {p : Program S α}
    (hp : pool.tasks[i]? = some p) (h : p.Ensures perform rule good pool.state) :
    ∃ a, ((pool.follow perform schedule).finish perform).1[i]? = some a ∧
      good a ((pool.follow perform schedule).finish perform).2 := by
  obtain ⟨rest, hrest⟩ := exists_follow_finish perform (pool.follow perform schedule)
  obtain ⟨q, hq, hensures⟩ :=
    exists_ensures_follow hrefl htrans hstable hrule honly hp h (schedule ++ rest)
  rw [follow_append, hrest] at hq hensures
  rw [List.getElem?_map] at hq
  obtain ⟨a, ha, rfl⟩ := Option.map_eq_some_iff.mp hq
  exact ⟨a, ha, hensures⟩

end Pool

end UserStorage
