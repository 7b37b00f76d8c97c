import UserStorage.Proofs.Disk.Lookup

/-!
# Paths that differ in idle pieces

Empty pieces and dots are no components of a path. Two paths are kindred that have the same
components and begin alike. Then their lexical parents are kindred too, and both parents end in a
component, or both are the working directory; so what the two paths may still differ in, a dot or
slashes behind the last component, is gone from the parent upwards.

## Main definitions

* `Path.steps`: the pieces that are components
* `Path.endsInDot`: a dot stands behind the last component
* `Path.Kindred`: paths with the same components
* `Path.Dotted`: kindred paths, the second of which ends in a dot and the first does not

## Main results

* `Path.pieces_parent_cases`: how the lexical parent of a path ends
* `Path.Kindred.exists_parent`, `Path.Kindred.exists_ancestors`: kindred paths have kindred parents,
  as far up as they go
-/

namespace UserStorage.Path

/-- The pieces that are components. -/
def steps (ps : List String) : List String := ps.filter (!isIdle ·)

/-- A dot stands behind the last component of some pieces. -/
def endsInDot : List String → Bool
  | [] => false
  | p :: ps => endsInDot ps || (p == "." && ps.all isIdle)

variable {ps qs : List String} {p : String}

/-! ## Components -/

@[simp] theorem steps_append (ps qs : List String) : steps (ps ++ qs) = steps ps ++ steps qs :=
  List.filter_append _ _

theorem steps_eq_nil_iff : steps ps = [] ↔ AllIdle ps := by
  simp [steps, AllIdle]

theorem steps_of_empty (h : ∀ p ∈ ps, p = "") : steps ps = [] :=
  steps_eq_nil_iff.mpr fun p hp => isIdle_iff.mpr (Or.inl (h p hp))

theorem steps_cons_of_idle (h : isIdle p = true) (ps : List String) : steps (p :: ps) = steps ps :=
  List.filter_cons_of_neg (by simp [h])

theorem steps_cons_of_named (h : isIdle p = false) (ps : List String) :
    steps (p :: ps) = p :: steps ps :=
  List.filter_cons_of_pos (by simp [h])

/-- The components of a list of pieces are those of its first part, when the rest is a component
with idle pieces around it, and that component. -/
theorem steps_of_name {gap tail : List String} (hgap : AllIdle gap) (htail : AllIdle tail)
    (hp : isIdle p = false) (ps : List String) :
    steps (ps ++ (gap ++ p :: tail)) = steps ps ++ [p] := by
  rw [steps_append, steps_append, steps_eq_nil_iff.mpr hgap, steps_cons_of_named hp,
    steps_eq_nil_iff.mpr htail, List.nil_append]

theorem mem_glue_iff {c : Char} (hc : c ≠ '/') (ps : List (List Char)) :
    c ∈ glue ps ↔ ∃ p ∈ ps, c ∈ p := by
  induction ps with
  | nil => simp [glue]
  | cons p ps ih =>
    cases ps with
    | nil => simp [glue]
    | cons q qs =>
      rw [glue, List.mem_append, List.mem_cons, ih, or_iff_right hc]
      simp

/-- Only components can hold a NUL character. -/
theorem hasNul_iff {path : String} :
    hasNul path = true ↔ ∃ p ∈ steps (pieces path), '\x00' ∈ p.toList := by
  have hglue : path.toList = glue ((pieces path).map String.toList) := by
    have h := congrArg String.toList (ofPieces_pieces path)
    rw [ofPieces, String.toList_ofList] at h
    exact h.symm
  rw [hasNul, List.contains_iff_mem, hglue, mem_glue_iff (by decide)]
  constructor
  · rintro ⟨cs, hcs, hnul⟩
    obtain ⟨p, hp, rfl⟩ := List.mem_map.mp hcs
    refine ⟨p, List.mem_filter.mpr ⟨hp, ?_⟩, hnul⟩
    rw [Bool.not_eq_true', ← Bool.not_eq_true, isIdle_iff]
    rintro (rfl | rfl)
    · exact absurd hnul (by decide)
    · exact absurd hnul (by decide)
  · rintro ⟨p, hp, hnul⟩
    exact ⟨p.toList, List.mem_map_of_mem (List.mem_filter.mp hp).1, hnul⟩

/-! ## Dots at the end -/

theorem endsInDot_append (ps qs : List String) :
    endsInDot (ps ++ qs) = (endsInDot qs || (endsInDot ps && qs.all isIdle)) := by
  induction ps with
  | nil => simp [endsInDot]
  | cons p ps ih =>
    rw [List.cons_append, endsInDot, ih, endsInDot, List.all_append]
    cases endsInDot qs <;> cases endsInDot ps <;> cases qs.all isIdle <;> simp

theorem endsInDot_of_empty (h : ∀ p ∈ ps, p = "") : endsInDot ps = false := by
  induction ps with
  | nil => rfl
  | cons p ps ih =>
    obtain rfl := h p List.mem_cons_self
    rw [endsInDot, ih fun q hq => h q (List.mem_cons_of_mem _ hq)]
    rfl

/-- Behind slashes at its end, the last piece of a path decides. -/
theorem endsInDot_of_last {slashes : List String} (hempty : ∀ s ∈ slashes, s = "")
    (ps : List String) :
    endsInDot (ps ++ p :: slashes) = (p == "." || (endsInDot ps && isIdle p)) := by
  have hall : slashes.all isIdle = true :=
    List.all_eq_true.mpr fun s hs => isIdle_iff.mpr (Or.inl (hempty s hs))
  rw [endsInDot_append, endsInDot, endsInDot_of_empty hempty, List.all_cons, hall]
  simp

theorem endsInDot_of_named {slashes : List String} (hempty : ∀ s ∈ slashes, s = "")
    (hp : isIdle p = false) (ps : List String) : endsInDot (ps ++ p :: slashes) = false := by
  rw [endsInDot_of_last hempty, hp, beq_eq_false_iff_ne.mpr (isIdle_eq_false_iff.mp hp).2]
  simp

/-! ## How parents end -/

theorem mem_of_mem_above {rest : List String} (h : rest ∈ above ps) (hp : p ∈ rest) : p ∈ ps := by
  induction ps with
  | nil => cases h
  | cons q ps ih =>
    rw [above] at h
    split_ifs at h
    · exact List.mem_cons_of_mem _ (ih h)
    · rcases List.mem_cons.mp h with rfl | h
      · exact List.mem_cons_of_mem _ ((List.dropWhile_sublist isIdle).mem hp)
      · exact List.mem_cons_of_mem _ (ih h)

/-- What is left when components are taken off begins with a component. -/
theorem eq_nil_or_named_of_mem_above {rest : List String} (h : rest ∈ above ps) :
    rest = [] ∨ ∃ name others, rest = name :: others ∧ isIdle name = false := by
  induction ps with
  | nil => cases h
  | cons q ps ih =>
    rw [above] at h
    split_ifs at h
    · exact ih h
    · rcases List.mem_cons.mp h with rfl | h
      · cases hd : ps.dropWhile isIdle with
        | nil => exact Or.inl rfl
        | cons name others =>
          have hname := List.head?_dropWhile_not isIdle ps
          rw [hd] at hname
          exact Or.inr ⟨name, others, rfl, by simpa using hname⟩
      · exact ih h

/-- The parent of a path is empty, the root, the working directory, or ends in a component. -/
theorem pieces_parent_cases {path q : String} (h : parent? path = some q) :
    pieces q = [""] ∨ pieces q = ["", ""] ∨ pieces q = ["."] ∨
      ∃ before name, pieces q = before ++ [name] ∧ isIdle name = false := by
  rw [parent?_eq] at h
  obtain ⟨r, hr, rfl⟩ := Option.map_eq_some_iff.mp h
  have hmem : r ∈ ancestorPieces (pieces path) := List.mem_of_mem_head? hr
  cases hp : pieces path with
  | nil => exact absurd hp (pieces_ne_nil path)
  | cons first body =>
    rw [hp] at hmem
    have hslash {q : String} (hq : q ∈ first :: body) : '/' ∉ q.toList :=
      slashFree_of_mem_pieces (hp ▸ hq)
    have hends (start : List String) {rest cs : List String} (hstart : ∀ p ∈ start, '/' ∉ p.toList)
        (hsub : ∀ p ∈ cs, p ∈ first :: body) (hrest : rest ∈ above cs) (hne : rest ≠ []) :
        ∃ before name, pieces (ofPieces (start ++ rest.reverse)) = before ++ [name] ∧
          isIdle name = false := by
      obtain ⟨name, others, rfl, hname⟩ := (eq_nil_or_named_of_mem_above hrest).resolve_left hne
      refine ⟨start ++ others.reverse, name, ?_, hname⟩
      rw [pieces_ofPieces (by simp), List.reverse_cons, List.append_assoc]
      intro p hp
      rcases List.mem_append.mp hp with hp | hp
      · exact hstart p hp
      · exact hslash (hsub p (mem_of_mem_above hrest (List.mem_reverse.mp hp)))
    rw [ancestorPieces] at hmem
    split_ifs at hmem with habs hdot
    · obtain ⟨rest, hrest, rfl⟩ := List.mem_map.mp hmem
      by_cases hne : rest = []
      · rw [if_pos hne]
        exact Or.inr (Or.inl (by decide))
      · rw [if_neg hne]
        refine Or.inr (Or.inr (Or.inr (hends [""] (by simp) (fun p hp => ?_) hrest hne)))
        exact List.mem_cons_of_mem _ (List.mem_reverse.mp hp)
    · rcases List.mem_append.mp hmem with hmem | hmem
      · obtain ⟨rest, hrest, rfl⟩ := List.mem_map.mp hmem
        by_cases hne : rest = []
        · subst hne
          exact Or.inr (Or.inr (Or.inl (by decide)))
        · refine Or.inr (Or.inr (Or.inr (hends ["."] (by decide) (fun p hp => ?_) hrest hne)))
          exact List.mem_cons_of_mem _ (List.mem_reverse.mp hp)
      · rw [List.mem_singleton.mp hmem]
        exact Or.inl (by decide)
    · obtain ⟨rest, hrest, rfl⟩ := List.mem_map.mp hmem
      by_cases hne : rest = []
      · subst hne
        exact Or.inl (by decide)
      · refine Or.inr (Or.inr (Or.inr (hends [] (by simp) (fun p hp => ?_) hrest hne)))
        exact List.mem_reverse.mp hp

/-- The parent of a path ends in a dot only when it is the working directory. -/
theorem endsInDot_parent {path q : String} (h : parent? path = some q) :
    endsInDot (pieces q) = (pieces q == ["."]) := by
  rcases pieces_parent_cases h with hq | hq | hq | ⟨before, name, hq, hname⟩
  · rw [hq]
    decide
  · rw [hq]
    decide
  · rw [hq]
    decide
  · have hne : name ≠ "." := (isIdle_eq_false_iff.mp hname).2
    have hpieces : pieces q ≠ ["."] := by
      rw [hq]
      intro h
      have hlast := List.append_inj_right' (h.trans (List.nil_append _).symm) rfl
      exact hne (List.singleton_inj.mp hlast)
    rw [beq_eq_false_iff_ne.mpr hpieces, hq, endsInDot_of_named (by simp) hname]

/-- A path has the components of its parent and one more. -/
theorem Cut.steps_eq {path q : String} (cut : Cut path q) :
    steps (pieces path) = steps (pieces q) ++ [cut.name] := by
  have hcore : steps (pieces q) = steps cut.core := by
    rcases cut.core_eq with ⟨hc, -⟩ | ⟨hc, hq⟩
    · rw [hc]
    · rw [hc, hq]
      rfl
  rw [cut.pieces_eq, steps_of_name cut.gap_idle cut.tail_idle cut.name_named, hcore]

/-- A path begins as its parent does. -/
theorem Cut.head_eq {path q : String} (cut : Cut path q) :
    (pieces path).head? = (pieces q).head? := by
  have hpath : (pieces path).head? = cut.core.head? := by
    obtain ⟨first, core, hcore⟩ := List.exists_cons_of_ne_nil cut.core_ne_nil
    rw [cut.pieces_eq, hcore]
    rfl
  rcases cut.core_eq with ⟨hc, -⟩ | ⟨hc, hq⟩
  · rw [hpath, hc]
  · rw [hpath, hc, hq]
    rfl

/-! ## Kindred paths -/

/-- Two paths with the same components that begin alike and are short enough to be looked at. -/
structure Kindred (path other : String) : Prop where
  head_eq : (pieces path).head? = (pieces other).head?
  steps_eq : steps (pieces path) = steps (pieces other)
  empty_iff : path = "" ↔ other = ""
  size_le : path.utf8ByteSize ≤ maxPathBytes
  other_size_le : other.utf8ByteSize ≤ maxPathBytes

/-- Kindred paths of which only the second one ends in a dot. -/
structure Dotted (path other : String) : Prop extends Kindred path other where
  plain : endsInDot (pieces path) = false
  dotted : endsInDot (pieces other) = true

namespace Kindred

variable {path other q : String}

theorem symm (h : Kindred path other) : Kindred other path :=
  ⟨h.head_eq.symm, h.steps_eq.symm, h.empty_iff.symm, h.other_size_le, h.size_le⟩

theorem empty : Kindred "" "" := ⟨rfl, rfl, Iff.rfl, Nat.zero_le _, Nat.zero_le _⟩

/-- Kindred paths start at the same place. -/
theorem isAbsolute_eq (h : Kindred path other) : isAbsolute path = isAbsolute other := by
  have hiff {path other : String} (h : Kindred path other) (habs : isAbsolute path = true) :
      isAbsolute other = true := by
    obtain ⟨body, hne, hp⟩ := isAbsolute_iff.mp habs
    have hhead := h.head_eq
    rw [hp, List.head?_cons] at hhead
    obtain ⟨body', hother⟩ := List.head?_eq_some_iff.mp hhead.symm
    refine isAbsolute_iff.mpr ⟨body', ?_, hother⟩
    rintro rfl
    have hempty := h.empty_iff.mpr (pieces_eq_singleton_empty_iff.mp hother)
    rw [pieces_eq_singleton_empty_iff.mpr hempty] at hp
    exact hne (List.cons.inj hp).2.symm
  exact Bool.eq_iff_iff.mpr ⟨hiff h, hiff h.symm⟩

theorem hasNul_eq (h : Kindred path other) : hasNul path = hasNul other := by
  rw [Bool.eq_iff_iff, hasNul_iff, hasNul_iff, h.steps_eq]

/-- Kindred paths are looked at alike. -/
theorem admissible (h : Kindred path other) (ha : Admissible path) : Admissible other :=
  ⟨h.hasNul_eq.symm.trans ha.nulFree, mt h.empty_iff.mpr ha.ne_empty, h.other_size_le⟩

theorem startOf_eq (h : Kindred path other) (cwd : Location) :
    Tree.startOf cwd path = Tree.startOf cwd other := by
  rw [Tree.startOf, Tree.startOf, h.isAbsolute_eq]

/-- What is a single component of one path is not the parent of the other. -/
theorem not_cut_of_single {name : String} {tail : List String} (h : Kindred path other)
    (hp : pieces path = name :: tail) (ht : AllIdle tail) : ¬ Nonempty (Cut other q) := by
  rintro ⟨cut⟩
  have hhead := cut.head_eq
  rw [← h.head_eq, hp, List.head?_cons] at hhead
  obtain ⟨rest, hq⟩ := List.head?_eq_some_iff.mp hhead.symm
  have hsteps := h.steps_eq
  rw [hp, cut.steps_eq, hq] at hsteps
  cases hidle : isIdle name with
  | true =>
    rw [steps_cons_of_idle hidle, steps_eq_nil_iff.mpr ht] at hsteps
    simp at hsteps
  | false =>
    rw [steps_cons_of_named hidle, steps_cons_of_named hidle, steps_eq_nil_iff.mpr ht] at hsteps
    simp at hsteps

theorem size_parent_le {path q : String} (h : parent? path = some q)
    (hsize : path.utf8ByteSize ≤ maxPathBytes) : q.utf8ByteSize ≤ maxPathBytes := by
  obtain ⟨rest, hrest⟩ := exists_eq_append_of_parent? h
  rw [hrest, String.utf8ByteSize_append] at hsize
  omega

/-- Kindred paths have kindred parents, which end alike. -/
theorem exists_parent (h : Kindred path other) (hq : parent? path = some q) :
    ∃ r, parent? other = some r ∧ Kindred q r ∧ endsInDot (pieces q) = endsInDot (pieces r) := by
  rcases parent?_cases path with ⟨hn, -⟩ | ⟨hn, -, name, tail, hp, hname, ht⟩ |
    ⟨q', hq', hne, -, ⟨cut⟩⟩
  · rw [hn] at hq
    cases hq
  · obtain rfl : "" = q := Option.some.inj (hn.symm.trans hq)
    refine ⟨"", ?_, empty, rfl⟩
    rcases parent?_cases other with ⟨-, -, body, hb, -⟩ | ⟨hn', -⟩ | ⟨r, -, -, -, hcut⟩
    · have hhead := h.head_eq
      rw [hp, hb] at hhead
      exact absurd (Option.some.inj hhead) hname
    · exact hn'
    · exact absurd hcut (h.not_cut_of_single hp ht)
  · obtain rfl : q' = q := Option.some.inj (hq'.symm.trans hq)
    rcases parent?_cases other with ⟨-, -, body, hb, hi⟩ | ⟨-, -, name, tail, hp, -, ht⟩ |
      ⟨r, hr, hne', -, ⟨cut'⟩⟩
    · have hsteps := h.steps_eq
      rw [cut.steps_eq, hb, steps_eq_nil_iff.mpr (AllIdle.cons (by rfl) hi)] at hsteps
      simp at hsteps
    · exact absurd ⟨cut⟩ (h.symm.not_cut_of_single hp ht)
    · have hsteps := h.steps_eq
      rw [cut.steps_eq, cut'.steps_eq] at hsteps
      have kindred : Kindred q' r :=
        ⟨by rw [← cut.head_eq, h.head_eq, cut'.head_eq], List.append_inj_left' hsteps rfl,
          iff_of_false hne hne', size_parent_le hq h.size_le, size_parent_le hr h.other_size_le⟩
      have hdot {a b c : String} (kindred : Kindred a b) (hb : parent? c = some b)
          (ha : pieces a = ["."]) : pieces b = ["."] := by
        have hhead := kindred.head_eq
        have hsteps := kindred.steps_eq
        rw [ha] at hhead hsteps
        rcases pieces_parent_cases hb with hb | hb | hb | ⟨before, name, hb, hname⟩
        · simp [hb] at hhead
        · simp [hb] at hhead
        · exact hb
        · rw [hb, steps_append, steps_cons_of_named hname] at hsteps
          exact absurd hsteps.symm (by simp [steps, isIdle])
      refine ⟨r, hr, kindred, ?_⟩
      rw [endsInDot_parent hq, endsInDot_parent hr, Bool.eq_iff_iff, beq_iff_eq, beq_iff_eq]
      exact ⟨hdot kindred hr, hdot kindred.symm hq⟩

/-- A path without ancestors is kindred to such paths only. -/
theorem ancestors_eq_nil (h : Kindred path other) (hn : ancestors path = []) :
    ancestors other = [] := by
  cases hr : parent? other with
  | none => rw [ancestors_eq, hr, Option.elim_none]
  | some r =>
    obtain ⟨q, hq, -⟩ := h.symm.exists_parent hr
    rw [ancestors_eq, hq] at hn
    cases hn

/-- Kindred paths have kindred ancestors, as far up. -/
theorem exists_ancestors {others : List String} (h : Kindred path other)
    (ha : q :: others = ancestors path) :
    others = ancestors q ∧ ∃ r, ancestors other = r :: ancestors r ∧ Kindred q r ∧
      endsInDot (pieces q) = endsInDot (pieces r) := by
  cases hq : parent? path with
  | none =>
    rw [ancestors_eq, hq] at ha
    cases ha
  | some q' =>
    rw [ancestors_eq, hq, Option.elim_some] at ha
    obtain ⟨rfl, rfl⟩ := List.cons.inj ha
    obtain ⟨r, hr, kindred, hdot⟩ := h.exists_parent hq
    refine ⟨rfl, r, ?_, kindred, hdot⟩
    rw [ancestors_eq other, hr, Option.elim_some]

end Kindred

end UserStorage.Path
