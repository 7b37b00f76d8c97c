import Mathlib.Data.List.Induction
import Mathlib.Logic.Function.Basic
import UserStorage.Proofs.Program.History

/-!
# Programs that go through stages

A program beside others goes through stages, which are no part of it or of the state: what it owns
and what it has given up. A protocol says what a program may meet at a stage, and how its calls may
lead from there to other stages and states. When all programs of a pool keep to the protocol, an
invariant of the stages that the moves of the protocol keep holds along every schedule. The
invariant may speak of the whole schedule so far.

## Main definitions

* `Protocol`: what may be met at a stage, and the moves
* `Program.Proceeds`: a program that keeps to a protocol and ends well

## Main results

* `Program.Proceeds.bind`: one program after another
* `Pool.exists_stages_follow`: an invariant of the stages along every schedule
-/

namespace UserStorage

variable {S : Signature} {α β σ τ : Type} {perform : (c : S.Call) → σ → S.Reply c × σ}

/-- How programs with stages act on a state that they share. -/
structure Protocol (σ τ : Type) where
  /-- A state that a program at this stage may meet. -/
  fits : τ → σ → Prop
  /-- A call leads from this stage and state to that stage and state. -/
  moves : τ → σ → τ → σ → Prop

namespace Program

/-- From a stage on, the program moves as the protocol says, and it ends with a good answer for the
stage that it has come to. -/
def Proceeds (perform : (c : S.Call) → σ → S.Reply c × σ) (protocol : Protocol σ τ)
    (ends : τ → α → Prop) : Program S α → τ → Prop
  | done a, t => ends t a
  | note _ p, t => p.Proceeds perform protocol ends t
  | call c k, t =>
    ∀ met, protocol.fits t met → ∃ t', protocol.moves t met t' (perform c met).2 ∧
      (k (perform c met).1).Proceeds perform protocol ends t'

namespace Proceeds

variable {protocol : Protocol σ τ} {ends : τ → α → Prop} {t : τ}

/-- One program after another, which starts at whatever stage the first one has come to. -/
theorem bind {p : Program S α} {f : α → Program S β} {ends' : τ → β → Prop}
    (hp : p.Proceeds perform protocol ends t)
    (hf : ∀ t a, ends t a → (f a).Proceeds perform protocol ends' t) :
    (p >>= f).Proceeds perform protocol ends' t := by
  induction p generalizing t with
  | done a => exact hf t a hp
  | note e p ih => exact ih hp
  | call c k ih =>
    intro met hmet
    obtain ⟨t', hmove, hk⟩ := hp met hmet
    exact ⟨t', hmove, ih _ hk⟩

theorem imp {p : Program S α} {ends' : τ → α → Prop} (hp : p.Proceeds perform protocol ends t)
    (himp : ∀ t a, ends t a → ends' t a) : p.Proceeds perform protocol ends' t := by
  induction p generalizing t with
  | done a => exact himp t a hp
  | note e p ih => exact ih hp
  | call c k ih =>
    intro met hmet
    obtain ⟨t', hmove, hk⟩ := hp met hmet
    exact ⟨t', hmove, ih _ hk⟩

/-- What a program has answered is a good answer for its stage. -/
theorem of_answer? {p : Program S α} {a : α} (hp : p.Proceeds perform protocol ends t)
    (ha : p.answer? = some a) : ends t a := by
  induction p with
  | done b =>
    cases ha
    exact hp
  | note e p ih => exact ih hp ha
  | call c k _ => cases ha

/-- At a stage that no move leads away from, a program has answered. -/
theorem exists_answer? {p : Program S α} {s : σ} (hp : p.Proceeds perform protocol ends t)
    (hfits : protocol.fits t s) (hlast : ∀ s t' s', ¬ protocol.moves t s t' s') :
    ∃ a, p.answer? = some a ∧ ends t a := by
  induction p with
  | done a => exact ⟨a, rfl, hp⟩
  | note e p ih => exact ih hp
  | call c k _ =>
    obtain ⟨t', hmove, -⟩ := hp s hfits
    exact absurd hmove (hlast s t' _)

end Proceeds

end Program

namespace Pool

variable {pool : Pool S σ α} {protocol : Protocol σ τ} {ends : Nat → τ → α → Prop}

theorem follow_snoc (perform : (c : S.Call) → σ → S.Reply c × σ) (pool : Pool S σ α)
    (past : List Nat) (i : Nat) :
    pool.follow perform (past ++ [i]) = (pool.follow perform past).step perform i := by
  rw [follow_append]
  rfl

/-- A step of a program that proceeds by stages: it leaves the state and its stage as they are, or
it moves; the other programs stay where they are. -/
theorem proceeds_step {stages : Nat → τ} {i : Nat}
    (h : ∀ j (p : Program S α), pool.tasks[j]? = some p →
      p.Proceeds perform protocol (ends j) (stages j))
    (hfits : protocol.fits (stages i) pool.state) :
    ∃ stages' : Nat → τ, (∀ j (p : Program S α), (pool.step perform i).tasks[j]? = some p →
        p.Proceeds perform protocol (ends j) (stages' j)) ∧
      (stages' = stages ∧ (pool.step perform i).state = pool.state ∨
        ∃ t, stages' = Function.update stages i t ∧
          protocol.moves (stages i) pool.state t (pool.step perform i).state) := by
  have replaced {q : Program S α} {t : τ} {p : Program S α} (hp : pool.tasks[i]? = some p)
      (hq : q.Proceeds perform protocol (ends i) t) (j : Nat) (p' : Program S α)
      (hp' : (pool.tasks.set i q)[j]? = some p') :
      p'.Proceeds perform protocol (ends j) (Function.update stages i t j) := by
    by_cases hj : j = i
    · subst hj
      rw [tasks_set_self hp] at hp'
      rw [Function.update_self, ← Option.some.inj hp']
      exact hq
    · rw [List.getElem?_set_ne (Ne.symm hj)] at hp'
      rw [Function.update_of_ne hj]
      exact h j p' hp'
  cases htask : pool.tasks[i]? with
  | none =>
    have hstep : pool.step perform i = pool := by rw [step, htask]
    rw [hstep]
    exact ⟨stages, h, Or.inl ⟨rfl, rfl⟩⟩
  | some p =>
    have hp := h i p htask
    cases p with
    | done a =>
      rw [step_of_done htask]
      exact ⟨stages, h, Or.inl ⟨rfl, rfl⟩⟩
    | note e p =>
      rw [step_of_note htask]
      have hsame : Function.update stages i (stages i) = stages := Function.update_eq_self i stages
      exact ⟨stages, hsame ▸ replaced htask hp, Or.inl ⟨rfl, rfl⟩⟩
    | call c k =>
      obtain ⟨t, hmove, hk⟩ := hp pool.state hfits
      rw [step_of_call htask]
      exact ⟨_, replaced htask hk, Or.inr ⟨t, rfl, hmove⟩⟩

/-- An invariant of the stages and of the schedule so far, which the moves of the protocol keep,
holds along every schedule. -/
theorem exists_stages_follow (inv : List Nat → (Nat → τ) → Prop) {first : Nat → τ}
    (hfirst : inv [] first)
    (hproceeds : ∀ i (p : Program S α), pool.tasks[i]? = some p →
      p.Proceeds perform protocol (ends i) (first i))
    (hfits : ∀ past stages, inv past stages → ∀ i,
      protocol.fits (stages i) (pool.follow perform past).state)
    (hquiet : ∀ past stages i, inv past stages →
      (pool.follow perform (past ++ [i])).state = (pool.follow perform past).state →
      inv (past ++ [i]) stages)
    (hmove : ∀ past stages i t, inv past stages →
      protocol.moves (stages i) (pool.follow perform past).state t
        (pool.follow perform (past ++ [i])).state →
      inv (past ++ [i]) (Function.update stages i t))
    (schedule : List Nat) :
    ∃ stages, inv schedule stages ∧
      ∀ i (p : Program S α), (pool.follow perform schedule).tasks[i]? = some p →
        p.Proceeds perform protocol (ends i) (stages i) := by
  induction schedule using List.reverseRecOn with
  | nil => exact ⟨first, hfirst, hproceeds⟩
  | append_singleton past i ih =>
    obtain ⟨stages, hinv, htasks⟩ := ih
    obtain ⟨stages', htasks', hcases⟩ := proceeds_step htasks (hfits past stages hinv i)
    rw [← follow_snoc] at htasks' hcases
    refine ⟨stages', ?_, htasks'⟩
    rcases hcases with ⟨rfl, hstate⟩ | ⟨t, rfl, hmoves⟩
    · exact hquiet past _ i hinv hstate
    · exact hmove past stages i t hinv hmoves

end Pool

end UserStorage
