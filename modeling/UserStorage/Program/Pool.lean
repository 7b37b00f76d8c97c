import UserStorage.Program.Basic

/-!
# Programs side by side

Some programs at work over one state. A step performs the next call of one of them, and a schedule
says whose turn it is; nothing else touches the state. When a schedule has run out, the programs
that are not done can be run to their ends one after the other.

## Main definitions

* `Pool`, `Pool.step`, `Pool.follow`: programs over a state, one step, the steps of a schedule
* `Pool.finish`: the rest of every program, in order
-/

namespace UserStorage

/-- Some programs at work over one state. -/
structure Pool (S : Signature) (σ α : Type) where
  state : σ
  tasks : List (Program S α)

namespace Pool

variable {S : Signature} {α σ : Type} (perform : (c : S.Call) → σ → S.Reply c × σ)

/-- The next step of one program. Nothing happens when there is no such program or it is done. -/
def step (pool : Pool S σ α) (i : Nat) : Pool S σ α :=
  match pool.tasks[i]? with
  | some (.call c k) =>
    { state := (perform c pool.state).2
      tasks := pool.tasks.set i (k (perform c pool.state).1) }
  | some (.note _ p) => { pool with tasks := pool.tasks.set i p }
  | some (.done _) | none => pool

/-- The steps of a schedule, which names a program for each. -/
def follow (pool : Pool S σ α) (schedule : List Nat) : Pool S σ α :=
  schedule.foldl (step perform) pool

/-- What is left of every program, run in order: the answers and the last state. -/
def finish (pool : Pool S σ α) : List α × σ :=
  pool.tasks.foldl
    (fun (answers, s) p =>
      let outcome := p.run perform s
      (answers ++ [outcome.answer], outcome.state))
    ([], pool.state)

@[simp] theorem follow_nil (pool : Pool S σ α) : pool.follow perform [] = pool := rfl

@[simp] theorem follow_cons (pool : Pool S σ α) (i : Nat) (schedule : List Nat) :
    pool.follow perform (i :: schedule) = (pool.step perform i).follow perform schedule := rfl

theorem follow_append (pool : Pool S σ α) (first second : List Nat) :
    pool.follow perform (first ++ second) =
      (pool.follow perform first).follow perform second := by
  simp [follow]

@[simp] theorem length_tasks_step (pool : Pool S σ α) (i : Nat) :
    (pool.step perform i).tasks.length = pool.tasks.length := by
  unfold step
  split <;> simp

end Pool

end UserStorage
