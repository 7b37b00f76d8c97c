import Mathlib.Order.Basic
import UserStorage.Proofs.Tree.Trek

/-!
# Trees that grow

One tree is part of another when the other holds all its entries as they are. A walk in a tree
that has grown goes the way it went before, unless it missed an entry then: every other obstacle,
a missing right or a file in the way, is still there.

## Main results

* `Tree.le_add`: a tree with a new entry
* `Tree.turn_of_le`, `Tree.trek_of_le`, `Tree.walk_of_le`: walks in a tree that has grown
-/

namespace UserStorage

namespace Tree

/-- A tree is part of another that holds the same entry wherever it holds one. -/
instance : PartialOrder Tree where
  le t u := ∀ l e, t.get? l = some e → u.get? l = some e
  le_refl _ _ _ h := h
  le_trans _ _ _ h₁ h₂ l e h := h₂ l e (h₁ l e h)
  le_antisymm t u h₁ h₂ := by
    refine ext fun l => ?_
    cases ht : t.get? l with
    | some e => exact (h₁ l e ht).symm
    | none =>
      cases hu : u.get? l with
      | none => rfl
      | some e => rw [h₂ l e hu] at ht; exact absurd ht (by simp)

variable {t u : Tree}

theorem get?_of_le (h : t ≤ u) {l : Location} {e : Entry} (he : t.get? l = some e) :
    u.get? l = some e :=
  h l e he

/-- What is not in a tree is in no part of it. -/
theorem get?_eq_none_of_le (h : t ≤ u) {l : Location} (hu : u.get? l = none) :
    t.get? l = none := by
  cases ht : t.get? l with
  | none => rfl
  | some e => rw [get?_of_le h ht] at hu; exact absurd hu (by simp)

theorem get?_add_self {n : Name} {d : Location} (dir : t.isDirectory d = true)
    (free : t.get? (n :: d) = none) (e : Entry) : (t.add n d e).get? (n :: d) = some e := by
  rw [get?_add dir free, if_pos rfl]

/-- A new entry leaves all others as they are. -/
theorem le_add (t : Tree) (n : Name) (d : Location) (e : Entry) : t ≤ t.add n d e := by
  intro l e' h
  by_cases hd : t.isDirectory d = true ∧ (t.get? (n :: d)).isNone = true
  · have free : t.get? (n :: d) = none := Option.isNone_iff_eq_none.mp hd.2
    have hne : l ≠ n :: d := by
      rintro rfl
      rw [free] at h
      exact absurd h (by simp)
    rw [get?_add hd.1 free, if_neg hne]
    exact h
  · rwa [add, dif_neg hd]

/-- Nothing lies below a place without an entry. -/
theorem get?_cons_eq_none {l : Location} (h : t.get? l = none) (n : Name) :
    t.get? (n :: l) = none := by
  cases hn : t.get? (n :: l) with
  | none => rfl
  | some e =>
    have hd := t.isDirectory_of_get? hn
    simp [isDirectory, h] at hd

/-- In a tree that has grown a piece does what it did, unless an entry was missing. -/
theorem turn_of_le (h : t ≤ u) (may : Searchable) (cur : Location) (piece : String) :
    u.turn may cur piece = t.turn may cur piece ∨ t.turn may cur piece = .error .notFound := by
  cases ht : t.get? cur with
  | none => exact Or.inr (by rw [turn, ht])
  | some e =>
    have hu := get?_of_le h ht
    cases e with
    | directory m =>
      rw [turn_of_directory hu, turn_of_directory ht]
      cases hp : t.get? (piece :: cur) with
      | none =>
        -- a name that is not there is the one obstacle that growth can take away
        dsimp only
        split_ifs <;> simp
      | some e => exact Or.inl (by rw [get?_of_le h hp])
    | file m c => exact Or.inl (by rw [turn, turn, hu, ht])
    | fifo m => exact Or.inl (by rw [turn, turn, hu, ht])
    | link s => exact Or.inl (by rw [turn, turn, hu, ht])

/-- In a tree that has grown a trek goes as it went, unless it missed an entry. -/
theorem trek_of_le (h : t ≤ u) (may : Searchable) (links : Nat) (cur : Location) (ps : List String) :
    u.trek may links cur ps = t.trek may links cur ps ∨
      t.trek may links cur ps = .error .notFound := by
  induction links, cur, ps using t.trek_induction may with
  | nil links cur => exact Or.inl (by rw [trek_nil, trek_nil])
  | cons links cur p rest ihStand ihLink =>
    rw [trek_cons, trek_cons]
    rcases turn_of_le h may cur p with hu | ht
    · rw [hu]
      cases ht : t.turn may cur p with
      | error e => exact Or.inl rfl
      | ok r =>
        cases r with
        | stand l => exact ihStand l ht
        | link target =>
          cases links with
          | zero => exact Or.inl rfl
          | succ left => exact ihLink left target rfl ht
    · exact Or.inr (by rw [ht])

theorem walk_of_le (h : t ≤ u) (may : Searchable) (followLast : Bool) (links : Nat)
    (cur : Location) (ps : List String) :
    u.walk may followLast links cur ps = t.walk may followLast links cur ps ∨
      t.walk may followLast links cur ps = .error .notFound := by
  induction links, cur, ps using t.trek_induction may with
  | nil links cur => exact Or.inl (by rw [walk_nil, walk_nil])
  | cons links cur p rest ihStand ihLink =>
    rw [walk_cons, walk_cons]
    rcases turn_of_le h may cur p with hu | ht
    · rw [hu]
      cases ht : t.turn may cur p with
      | error e => exact Or.inl rfl
      | ok r =>
        cases r with
        | stand l => exact ihStand l ht
        | link target =>
          dsimp only
          split_ifs with hlast
          · exact Or.inl rfl
          · cases links with
            | zero => exact Or.inl rfl
            | succ left => exact ihLink left target rfl ht
    · exact Or.inr (by rw [ht])

/-- A trek that succeeds succeeds in every tree that holds this one. -/
theorem trek_mono (h : t ≤ u) {may : Searchable} {links : Nat} {cur : Location} {ps : List String}
    {s : Location × Nat} (ht : t.trek may links cur ps = .ok s) :
    u.trek may links cur ps = .ok s := by
  rcases trek_of_le h may links cur ps with hu | hn
  · rw [hu, ht]
  · rw [ht] at hn
    exact absurd hn (by simp)

theorem walk_mono (h : t ≤ u) {may : Searchable} {followLast : Bool} {links : Nat}
    {cur l : Location} {ps : List String} (ht : t.walk may followLast links cur ps = .ok l) :
    u.walk may followLast links cur ps = .ok l := by
  rcases walk_of_le h may followLast links cur ps with hu | hn
  · rw [hu, ht]
  · rw [ht] at hn
    exact absurd hn (by simp)

end Tree

end UserStorage
