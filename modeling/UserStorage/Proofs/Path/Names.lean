import UserStorage.Proofs.Disk.Lookup

/-!
# Paths of names

An ordinary path holds nothing but names and slashes, and neither a name nor the path is too long.
Its names are its pieces without the empty ones, so repeated slashes do not count. The names of its
lexical parent are all but the last one.

## Main definitions

* `Path.names`: the pieces of a path that are not empty
* `Path.Ordinary`: paths of names

## Main results

* `Path.exists_pieces_of_names`: where a name stands among the pieces
* `Path.Ordinary.lineage_cases`: the names of the parent
-/

namespace UserStorage.Path

variable {path q : String}

/-- The pieces of a path that are not empty. -/
def names (path : String) : List String := (pieces path).filter (· ≠ "")

instance (p : String) : Decidable (Tree.IsName p) :=
  decidable_of_iff (p ≠ "" ∧ p ≠ "." ∧ p ≠ "..")
    ⟨fun ⟨hempty, hdot, hdots⟩ => ⟨hempty, hdot, hdots⟩,
      fun h => ⟨h.ne_empty, h.ne_dot, h.ne_dotDot⟩⟩

/-- A path of names, which the system looks at. -/
structure Ordinary (path : String) : Prop where
  named : ∀ p ∈ pieces path, p ≠ "" → Tree.IsName p
  nulFree : hasNul path = false
  component_le : ∀ p ∈ pieces path, p.utf8ByteSize ≤ maxNameBytes
  size_le : path.utf8ByteSize ≤ maxPathBytes

/-- Only empty pieces are left out of no names. -/
theorem eq_empty_of_filter_eq_nil {ps : List String} (h : ps.filter (· ≠ "") = []) :
    ∀ p ∈ ps, p = "" := by
  intro p hp
  by_contra hne
  have hmem : p ∈ ps.filter (· ≠ "") := List.mem_filter.mpr ⟨hp, by simpa using hne⟩
  rw [h] at hmem
  cases hmem

/-- Where a name stands among the pieces of a path. -/
theorem exists_pieces_of_names {ps found others : List String} {n : String}
    (h : ps.filter (· ≠ "") = found ++ n :: others) :
    ∃ before after, ps = before ++ n :: after ∧ before.filter (· ≠ "") = found ∧
      after.filter (· ≠ "") = others := by
  obtain ⟨first, second, rfl, hfirst, hsecond⟩ := List.filter_eq_append_iff.mp h
  obtain ⟨gap, after, rfl, hgap, -, hafter⟩ := List.filter_eq_cons_iff.mp hsecond
  refine ⟨first ++ gap, after, by simp, ?_, hafter⟩
  rw [List.filter_append, hfirst, List.filter_eq_nil_iff.mpr hgap, List.append_nil]

namespace Ordinary

theorem isName (h : Ordinary path) {n : String} (hn : n ∈ names path) : Tree.IsName n :=
  h.named n (List.mem_filter.mp hn).1 (by simpa using (List.mem_filter.mp hn).2)

theorem size (h : Ordinary path) {n : String} (hn : n ∈ names path) :
    n.utf8ByteSize ≤ maxNameBytes :=
  h.component_le n (List.mem_filter.mp hn).1

theorem admissible (h : Ordinary path) (hne : path ≠ "") : Admissible path :=
  ⟨h.nulFree, hne, h.size_le⟩

/-- Idle pieces of an ordinary path are empty. -/
theorem filter_eq_nil_of_allIdle (h : Ordinary path) {ps : List String} (hi : AllIdle ps)
    (hps : ∀ p ∈ ps, p ∈ pieces path) : ps.filter (· ≠ "") = [] := by
  refine List.filter_eq_nil_iff.mpr fun p hp => ?_
  have hempty : p = "" := by
    by_contra hne
    rcases isIdle_iff.mp (hi p hp) with rfl | rfl
    · exact hne rfl
    · exact (h.named "." (hps "." hp) hne).ne_dot rfl
  simpa using hempty

/-- A parent has all names but the last. -/
theorem names_of_cut (h : Ordinary path) (cut : Cut path q) :
    names path = names q ++ [cut.name] := by
  have hmem {p : String} (hp : p ∈ cut.gap ∨ p ∈ cut.tail) : p ∈ pieces path := by
    rw [cut.pieces_eq]
    rcases hp with hp | hp <;> simp [hp]
  have hgap : cut.gap.filter (· ≠ "") = [] :=
    h.filter_eq_nil_of_allIdle cut.gap_idle fun p hp => hmem (Or.inl hp)
  have htail : cut.tail.filter (· ≠ "") = [] :=
    h.filter_eq_nil_of_allIdle cut.tail_idle fun p hp => hmem (Or.inr hp)
  have hname : cut.name ≠ "" := (isIdle_eq_false_iff.mp cut.name_named).1
  have hcore : names q = cut.core.filter (· ≠ "") := by
    rcases cut.core_eq with ⟨hc, -⟩ | ⟨hc, hq⟩
    · rw [names, hc]
    · rw [names, hc, hq]
      rfl
  rw [hcore, names, cut.pieces_eq, List.filter_append, List.filter_append, hgap,
    List.filter_cons_of_pos (by simpa using hname), htail]
  rfl

theorem of_cut (h : Ordinary path) (hq : parent? path = some q) (hne : q ≠ "") (cut : Cut path q) :
    Ordinary q := by
  have hpath : path ≠ "" := by
    rintro rfl
    cases hq
  have ha : Admissible q := (h.admissible hpath).parent hq hne
  exact {
    named := fun p hp hempty => h.named p (cut.mem_pieces hempty hp) hempty
    nulFree := ha.nulFree
    component_le := fun p hp => by
      by_cases hempty : p = ""
      · subst hempty
        exact Nat.zero_le _
      · exact h.component_le p (cut.mem_pieces hempty hp)
    size_le := ha.size_le }

/-- An ordinary path is the root or empty, or has a single name, or has a parent that is ordinary
and lacks the last name. -/
theorem lineage_cases (h : Ordinary path) :
    (ancestors path = [] ∧ names path = []) ∨
    (ancestors path = [""] ∧ ∃ n, names path = [n]) ∨
    ∃ q n, ancestors path = q :: ancestors q ∧ q ≠ "" ∧ Ordinary q ∧ names path = names q ++ [n] ∧
      isAbsolute q = isAbsolute path := by
  rcases parent?_cases path with ⟨-, ha, body, hp, hi⟩ | ⟨-, ha, name, tail, hp, hname, hi⟩ |
    ⟨q, hq, hne, ha, ⟨cut⟩⟩
  · refine Or.inl ⟨ha, ?_⟩
    have hbody := h.filter_eq_nil_of_allIdle hi fun p hp' => by simp [hp, hp']
    rw [names, hp, List.filter_cons_of_neg (by simp), hbody]
  · refine Or.inr (Or.inl ⟨ha, name, ?_⟩)
    have htail := h.filter_eq_nil_of_allIdle hi fun p hp' => by simp [hp, hp']
    rw [names, hp, List.filter_cons_of_pos (by simpa using hname), htail]
  · exact Or.inr (Or.inr ⟨q, cut.name, ha, hne, h.of_cut hq hne cut, h.names_of_cut cut,
      cut.isAbsolute_eq⟩)

end Ordinary

end UserStorage.Path
