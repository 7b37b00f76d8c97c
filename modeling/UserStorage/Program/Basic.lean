import UserStorage.Event

/-!
# Programs of calls

A program over a signature either is done with an answer, reports an event, or makes a call and
goes on with the reply. The calls are the steps at which its surroundings may change, so one
program has a meaning when it runs alone and another when it runs beside others; both are given by
performing its calls on a state.

## Main definitions

* `Signature`, `Program`: calls with their replies, and programs that make them
* `Program.run`: a program run alone
* `Outcome`: the answer, the state left behind and the events of a run

## Main results

* `Program.run_pure`, `Program.run_bind`, `Program.run_note`, `Program.run_call`: how a run goes
-/

namespace UserStorage

/-- Calls, and what each is replied with. -/
structure Signature where
  Call : Type
  Reply : Call → Type

/-- Programs whose steps are calls of a signature. -/
inductive Program (S : Signature) (α : Type) where
  /-- The program is done. -/
  | done (answer : α)
  /-- The program reports an event and goes on. -/
  | note (event : Event) (next : Program S α)
  /-- The program makes a call and goes on with the reply. -/
  | call (request : S.Call) (next : S.Reply request → Program S α)

/-- What a run leaves: the answer, the state and the events in order. -/
structure Outcome (σ α : Type) where
  answer : α
  state : σ
  events : List Event

namespace Program

variable {S : Signature} {α β σ : Type}

/-- One program after another, which may look at the first one's answer. -/
def andThen : Program S α → (α → Program S β) → Program S β
  | done a, f => f a
  | note e p, f => note e (p.andThen f)
  | call c k, f => call c fun r => (k r).andThen f

instance : Monad (Program S) where
  pure := done
  bind := andThen

/-- A call whose reply is the answer. -/
def ask (c : S.Call) : Program S (S.Reply c) := call c done

/-- The program that reports an event. -/
def report (e : Event) : Program S Unit := note e (done ())

/-- A program run alone: every call is performed on the state that the one before it left. -/
def run (perform : (c : S.Call) → σ → S.Reply c × σ) : Program S α → σ → Outcome σ α
  | done a, s => ⟨a, s, []⟩
  | note e p, s =>
    let rest := p.run perform s
    { rest with events := e :: rest.events }
  | call c k, s => (k (perform c s).1).run perform (perform c s).2

theorem andThen_done (p : Program S α) : p.andThen done = p := by
  induction p with
  | done a => rfl
  | note e p ih => simp [andThen, ih]
  | call c k ih => simp [andThen, ih]

theorem andThen_assoc {γ : Type} (p : Program S α) (f : α → Program S β) (g : β → Program S γ) :
    (p.andThen f).andThen g = p.andThen fun a => (f a).andThen g := by
  induction p with
  | done a => rfl
  | note e p ih => simp [andThen, ih]
  | call c k ih => simp [andThen, ih]

instance : LawfulMonad (Program S) :=
  LawfulMonad.mk' (Program S) (fun p => andThen_done p) (fun _ _ => rfl) andThen_assoc

variable (perform : (c : S.Call) → σ → S.Reply c × σ)

@[simp] theorem run_pure (a : α) (s : σ) :
    (pure a : Program S α).run perform s = ⟨a, s, []⟩ := rfl

@[simp] theorem run_report (e : Event) (s : σ) :
    (report e : Program S Unit).run perform s = ⟨(), s, [e]⟩ := rfl

@[simp] theorem run_ask (c : S.Call) (s : σ) :
    (ask c).run perform s = ⟨(perform c s).1, (perform c s).2, []⟩ := rfl

/-- The second program starts in the state that the first one left, and its events follow. -/
@[simp] theorem run_bind (p : Program S α) (f : α → Program S β) (s : σ) :
    (p >>= f).run perform s =
      { answer := ((f (p.run perform s).answer).run perform (p.run perform s).state).answer
        state := ((f (p.run perform s).answer).run perform (p.run perform s).state).state
        events := (p.run perform s).events ++
          ((f (p.run perform s).answer).run perform (p.run perform s).state).events } := by
  show (p.andThen f).run perform s = _
  induction p generalizing s with
  | done a => rfl
  | note e p ih => simp [andThen, run, ih]
  | call c k ih => simp [andThen, run, ih]

/-- A program whose answer is passed on in another form leaves what it leaves by itself. -/
theorem state_map_run (f : α → β) (p : Program S α) (s : σ) :
    ((f <$> p).run perform s).state = (p.run perform s).state := by
  show ((p >>= fun a => pure (f a)).run perform s).state = _
  rw [run_bind]
  rfl

/-- Its answer is passed on in that form. -/
theorem answer_map_run (f : α → β) (p : Program S α) (s : σ) :
    ((f <$> p).run perform s).answer = f (p.run perform s).answer := by
  show ((p >>= fun a => pure (f a)).run perform s).answer = _
  rw [run_bind]
  rfl

end Program

end UserStorage
