import UserStorage.Proofs.Tree.Growth

/-!
# Trees that agree

Two trees agree when they hold the same entry wherever both hold one, as two trees do that have
grown out of one by entries of one kind. A walk in the one goes as it goes in the other until one
of the two misses an entry. So a path that leads somewhere in the one leads to the same place in
the other, or something on the way is missing there.

## Main definitions

* `Tree.Agrees`: the same entry wherever both trees hold one

## Main results

* `Tree.trek_of_agrees`, `Tree.walk_true_of_agrees`: walks in trees that agree
* `Tree.eq_of_trek_of_agrees`: two treks that both succeed lead to the same place
-/

namespace UserStorage

namespace Tree

/-- Where both trees hold an entry they hold the same one. -/
def Agrees (t u : Tree) : Prop :=
  ∀ l e e', t.get? l = some e → u.get? l = some e' → e = e'

variable {t u : Tree} {may : Searchable} {links : Nat} {cur : Location} {ps : List String}

/-- In two trees that agree a piece does the same, unless an entry is missing in one of them. -/
theorem turn_of_agrees (h : t.Agrees u) (may : Searchable) (cur : Location) (piece : String) :
    t.turn may cur piece = u.turn may cur piece ∨ t.turn may cur piece = .error .notFound ∨
      u.turn may cur piece = .error .notFound := by
  cases ht : t.get? cur with
  | none => exact Or.inr (Or.inl (by rw [turn, ht]))
  | some e =>
    cases hu : u.get? cur with
    | none => exact Or.inr (Or.inr (by rw [turn, hu]))
    | some e' =>
      obtain rfl := h cur e e' ht hu
      cases e with
      | directory m =>
        rw [turn_of_directory ht, turn_of_directory hu]
        -- only the look-up of a name can differ, and only by a name that is not there
        cases htp : t.get? (piece :: cur) with
        | none =>
          dsimp only
          split_ifs <;> simp
        | some f =>
          cases hup : u.get? (piece :: cur) with
          | none =>
            dsimp only
            split_ifs <;> simp
          | some f' =>
            obtain rfl := h _ f f' htp hup
            exact Or.inl rfl
      | file m c => exact Or.inl (by rw [turn, turn, ht, hu])
      | fifo m => exact Or.inl (by rw [turn, turn, ht, hu])
      | link s => exact Or.inl (by rw [turn, turn, ht, hu])

/-- A trek that succeeds in one of two trees that agree goes the same way in the other, or misses
an entry there. -/
theorem trek_of_agrees (h : t.Agrees u) {s : Location × Nat}
    (hu : u.trek may links cur ps = .ok s) :
    t.trek may links cur ps = .ok s ∨ t.trek may links cur ps = .error .notFound := by
  induction links, cur, ps using t.trek_induction may with
  | nil links cur =>
    rw [trek_nil] at hu ⊢
    exact Or.inl hu
  | cons links cur p rest ihStand ihLink =>
    rw [trek_cons] at hu
    rw [trek_cons]
    rcases turn_of_agrees h may cur p with heq | hmiss | hmiss
    · rw [← heq] at hu
      cases ht : t.turn may cur p with
      | error e => simp [ht] at hu
      | ok r =>
        rw [ht] at hu
        cases r with
        | stand l => exact ihStand l ht hu
        | link target =>
          cases links with
          | zero => simp at hu
          | succ left => exact ihLink left target rfl ht hu
    · exact Or.inr (by rw [hmiss])
    · simp [hmiss] at hu

/-- Two treks that succeed in trees that agree lead to the same place. -/
theorem eq_of_trek_of_agrees (h : t.Agrees u) {s r : Location × Nat}
    (ht : t.trek may links cur ps = .ok s) (hu : u.trek may links cur ps = .ok r) : s = r := by
  rcases trek_of_agrees h hu with heq | hmiss
  · rw [ht] at heq
    exact Except.ok.inj heq
  · rw [ht] at hmiss
    cases hmiss

theorem walk_true_of_agrees (h : t.Agrees u) {l : Location}
    (hu : u.walk may true links cur ps = .ok l) :
    t.walk may true links cur ps = .ok l ∨ t.walk may true links cur ps = .error .notFound := by
  rw [walk_true] at hu
  rw [walk_true]
  cases hs : u.trek may links cur ps with
  | error e =>
    rw [hs] at hu
    exact absurd hu (by simp [Except.map])
  | ok s =>
    obtain rfl : s.1 = l := by simpa [hs, Except.map] using hu
    rcases trek_of_agrees h hs with heq | hmiss
    · exact Or.inl (by rw [heq]; rfl)
    · exact Or.inr (by rw [hmiss]; rfl)

end Tree

end UserStorage
