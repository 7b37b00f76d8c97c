import Mathlib.Data.List.TakeWhile
import UserStorage.Path.Parent
import UserStorage.Proofs.Path.Pieces

/-!
# A path cut at its lexical parent

The lexical parent of a path keeps its first pieces. What it leaves out is one component with the
idle pieces around it, and the ancestors of a path are its parent and the ancestors of that. Only
two kinds of paths have no parent to walk to: a single relative component, whose parent is the
empty path, and the root, which has none.

## Main definitions

* `Path.Cut`: a path cut into the pieces of its parent, a component, and idle pieces

## Main results

* `Path.exists_cut`: every parent but the empty one cuts its path
* `Path.ancestors_eq`: the ancestors of a path by its parent
* `Path.exists_eq_append_of_parent?`: the parent is a beginning of the path
-/

namespace UserStorage.Path

/-- Pieces that name no component. -/
def AllIdle (ps : List String) : Prop := ∀ p ∈ ps, isIdle p = true

theorem isIdle_iff {p : String} : isIdle p = true ↔ p = "" ∨ p = "." := by
  simp [isIdle]

theorem isIdle_eq_false_iff {p : String} : isIdle p = false ↔ p ≠ "" ∧ p ≠ "." := by
  simp [isIdle]

theorem AllIdle.nil : AllIdle [] := fun _ h => absurd h List.not_mem_nil

theorem AllIdle.cons {p : String} {ps : List String} (h : isIdle p = true) (hs : AllIdle ps) :
    AllIdle (p :: ps) := by
  intro q hq
  rcases List.mem_cons.mp hq with rfl | hq
  · exact h
  · exact hs q hq

theorem AllIdle.reverse {ps : List String} (h : AllIdle ps) : AllIdle ps.reverse :=
  fun p hp => h p (List.mem_reverse.mp hp)

theorem AllIdle.head {p : String} {ps : List String} (h : AllIdle (p :: ps)) : isIdle p = true :=
  h p List.mem_cons_self

theorem AllIdle.tail {p : String} {ps : List String} (h : AllIdle (p :: ps)) : AllIdle ps :=
  fun q hq => h q (List.mem_cons_of_mem _ hq)

theorem allIdle_takeWhile (ps : List String) : AllIdle (ps.takeWhile isIdle) :=
  fun _ hp => List.mem_takeWhile_imp hp

/-! ## Taking components off -/

theorem above_dropWhile (ps : List String) : above (ps.dropWhile isIdle) = above ps := by
  induction ps with
  | nil => rfl
  | cons p ps ih =>
    by_cases h : isIdle p
    · rw [List.dropWhile_cons_of_pos h, ih, above, if_pos h]
    · rw [List.dropWhile_cons_of_neg h]

/-- Either there is no component to take off, or the first one goes with the idle pieces on both
sides of it. -/
theorem above_cases (ps : List String) :
    (above ps = [] ∧ AllIdle ps) ∨
      ∃ tail name gap rest, ps = tail ++ name :: (gap ++ rest) ∧ AllIdle tail ∧
        isIdle name = false ∧ AllIdle gap ∧ above ps = rest :: above rest := by
  induction ps with
  | nil => exact Or.inl ⟨rfl, AllIdle.nil⟩
  | cons p ps ih =>
    by_cases h : isIdle p = true
    · have skip : above (p :: ps) = above ps := by rw [above, if_pos h]
      rcases ih with ⟨hn, hi⟩ | ⟨tail, name, gap, rest, rfl, ht, hname, hg, ha⟩
      · exact Or.inl ⟨by rw [skip, hn], AllIdle.cons h hi⟩
      · exact Or.inr ⟨p :: tail, name, gap, rest, rfl, AllIdle.cons h ht, hname, hg,
          by rw [skip, ha]⟩
    · refine Or.inr ⟨[], p, ps.takeWhile isIdle, ps.dropWhile isIdle, ?_, AllIdle.nil,
        by simpa using h, allIdle_takeWhile ps, ?_⟩
      · rw [List.takeWhile_append_dropWhile, List.nil_append]
      · rw [above, if_neg h, above_dropWhile]

/-- How some pieces stand to those of their ancestors: only idle pieces stand behind a root
without a parent, a single relative component leaves no pieces, and otherwise the parent has the
first pieces, a lone root being written with its slash. -/
inductive Lineage (ps : List String) : Prop
  | root (body : List String) : ps = "" :: body → AllIdle body → ancestorPieces ps = [] →
      Lineage ps
  | single (name : String) (tail : List String) : ps = name :: tail → name ≠ "" → AllIdle tail →
      ancestorPieces ps = [[]] → Lineage ps
  | nested (core gap : List String) (name : String) (tail parent : List String) : core ≠ [] →
      ps = core ++ (gap ++ name :: tail) → AllIdle gap → AllIdle tail → isIdle name = false →
      (parent = core ∧ core ≠ [""] ∨ core = [""] ∧ parent = ["", ""]) →
      ancestorPieces ps = parent :: ancestorPieces parent → Lineage ps

/-- Reading the components of `above_cases` forwards again. -/
theorem eq_of_reverse_eq {ps tail gap rest : List String} {name : String}
    (h : ps.reverse = tail ++ name :: (gap ++ rest)) :
    ps = rest.reverse ++ (gap.reverse ++ name :: tail.reverse) := by
  simpa using congrArg List.reverse h

theorem lineage_absolute {body : List String} (hb : body ≠ []) : Lineage ("" :: body) := by
  rcases above_cases body.reverse with ⟨hn, hi⟩ | ⟨tail, name, gap, rest, he, ht, hname, hg, ha⟩
  · exact .root body rfl (by simpa using hi.reverse) (by simp [ancestorPieces, hb, hn])
  · have eq := eq_of_reverse_eq he
    by_cases hr : rest = []
    · subst hr
      refine .nested [""] gap.reverse name tail.reverse ["", ""] (by simp) (by simp [eq])
        hg.reverse ht.reverse hname (Or.inr ⟨rfl, rfl⟩) ?_
      simp [ancestorPieces, hb, ha, above, isIdle]
    · refine .nested ("" :: rest.reverse) gap.reverse name tail.reverse ("" :: rest.reverse)
        (by simp) (by simp [eq]) hg.reverse ht.reverse hname (Or.inl ⟨rfl, by simpa using hr⟩) ?_
      simp [ancestorPieces, hb, ha, hr]

theorem lineage_dot (body : List String) : Lineage ("." :: body) := by
  rcases above_cases body.reverse with ⟨hn, hi⟩ | ⟨tail, name, gap, rest, he, ht, hname, hg, ha⟩
  · exact .single "." body rfl (by decide) (by simpa using hi.reverse)
      (by simp [ancestorPieces, hn])
  · have eq := eq_of_reverse_eq he
    refine .nested ("." :: rest.reverse) gap.reverse name tail.reverse ("." :: rest.reverse)
      (by simp) (by simp [eq]) hg.reverse ht.reverse hname (Or.inl ⟨rfl, by simp⟩) ?_
    simp [ancestorPieces, ha]

theorem lineage_named {first : String} (hf : isIdle first = false) (body : List String) :
    Lineage (first :: body) := by
  obtain ⟨hempty, hdot⟩ := isIdle_eq_false_iff.mp hf
  have unfold_first (c : List String) :
      ancestorPieces (first :: c) = (above (first :: c).reverse).map List.reverse := by
    rw [ancestorPieces, if_neg (fun h => hempty h.1), if_neg hdot]
  rcases above_cases (first :: body).reverse with
    ⟨hn, hi⟩ | ⟨tail, name, gap, rest, he, ht, hname, hg, ha⟩
  · exact absurd (hi first (by simp)) (by simp [hf])
  · have eq := eq_of_reverse_eq he
    rcases List.eq_nil_or_concat rest with rfl | ⟨rest', first', rfl⟩
    · cases hgap : gap.reverse with
      | nil =>
        rw [hgap] at eq
        exact .single name tail.reverse (by simpa using eq) (isIdle_eq_false_iff.mp hname).1
          ht.reverse (by rw [unfold_first, ha]; rfl)
      | cons g gs =>
        rw [hgap] at eq
        have hg' : isIdle g = true := hg.reverse g (by rw [hgap]; exact List.mem_cons_self)
        have hfg : first = g := (List.cons.inj eq).1
        exact absurd hg' (by simp [← hfg, hf])
    · have hc : (rest'.concat first').reverse = first :: rest'.reverse := by
        simp only [List.concat_eq_append, List.reverse_append, List.reverse_singleton,
          List.cons_append, List.nil_append] at eq ⊢
        rw [(List.cons.inj eq).1]
      refine .nested (first :: rest'.reverse) gap.reverse name tail.reverse
        (first :: rest'.reverse) (by simp) (hc ▸ eq) hg.reverse ht.reverse hname
        (Or.inl ⟨rfl, by simp [hempty]⟩) ?_
      rw [unfold_first, ha, unfold_first, ← hc]
      simp

/-- Every path has one of the three lineages. -/
theorem lineage (path : String) : Lineage (pieces path) := by
  cases hp : pieces path with
  | nil => exact absurd hp (pieces_ne_nil path)
  | cons first body =>
    by_cases hempty : first = ""
    · subst hempty
      by_cases hb : body = []
      · subst hb
        exact .root [] rfl AllIdle.nil rfl
      · exact lineage_absolute hb
    · by_cases hdot : first = "."
      · subst hdot
        exact lineage_dot body
      · exact lineage_named (isIdle_eq_false_iff.mpr ⟨hempty, hdot⟩) body

/-! ## The parent of a path -/

/-- A path cut at its lexical parent: the pieces of the parent, idle pieces, the component that
the parent lacks, and idle pieces again. -/
structure Cut (path parent : String) where
  core : List String
  gap : List String
  name : String
  tail : List String
  core_ne_nil : core ≠ []
  pieces_eq : pieces path = core ++ (gap ++ name :: tail)
  gap_idle : AllIdle gap
  tail_idle : AllIdle tail
  name_named : isIdle name = false
  core_eq : pieces parent = core ∧ core ≠ [""] ∨ core = [""] ∧ pieces parent = ["", ""]

theorem parent?_eq (path : String) :
    parent? path = (ancestorPieces (pieces path)).head?.map ofPieces := by
  rw [parent?, ancestors, List.head?_map]

/-- The three kinds of paths by their parents. -/
theorem parent?_cases (path : String) :
    (parent? path = none ∧ ancestors path = [] ∧
      ∃ body, pieces path = "" :: body ∧ AllIdle body) ∨
    (parent? path = some "" ∧ ancestors path = [""] ∧
      ∃ name tail, pieces path = name :: tail ∧ name ≠ "" ∧ AllIdle tail) ∨
    ∃ parent, parent? path = some parent ∧ parent ≠ "" ∧
      ancestors path = parent :: ancestors parent ∧ Nonempty (Cut path parent) := by
  rcases lineage path with ⟨body, hp, hi, ha⟩ | ⟨name, tail, hp, hname, ht, ha⟩ |
    ⟨core, gap, name, tail, parent, hc, hp, hg, ht, hname, hparent, ha⟩
  · exact Or.inl ⟨by rw [parent?_eq, ha]; rfl, by rw [ancestors, ha]; rfl, body, hp, hi⟩
  · exact Or.inr (Or.inl
      ⟨by rw [parent?_eq, ha]; rfl, by rw [ancestors, ha]; rfl, name, tail, hp, hname, ht⟩)
  · have hslash : pieces (ofPieces parent) = parent := by
      rcases hparent with ⟨rfl, -⟩ | ⟨-, rfl⟩
      · refine pieces_ofPieces hc fun p hmem => ?_
        have hmem' : p ∈ pieces path := by
          rw [hp]
          exact List.mem_append_left _ hmem
        exact slashFree_of_mem_pieces hmem'
      · rfl
    refine Or.inr (Or.inr ⟨ofPieces parent, by rw [parent?_eq, ha]; rfl, ?_, ?_, ⟨{
      core, gap, name, tail
      core_ne_nil := hc
      pieces_eq := hp
      gap_idle := hg
      tail_idle := ht
      name_named := hname
      core_eq := by rwa [hslash] }⟩⟩)
    · intro hempty
      rw [hempty, pieces_empty] at hslash
      rcases hparent with ⟨rfl, hne⟩ | ⟨-, rfl⟩
      · exact hne hslash.symm
      · simp at hslash
    · rw [ancestors, ha, List.map_cons, ancestors, hslash]

/-- Every parent but the empty path cuts its path. -/
theorem exists_cut {path parent : String} (h : parent? path = some parent) (hne : parent ≠ "") :
    Nonempty (Cut path parent) := by
  rcases parent?_cases path with ⟨hn, -⟩ | ⟨hn, -⟩ | ⟨q, hq, -, -, hcut⟩
  · rw [hn] at h
    exact absurd h (by simp)
  · rw [hn] at h
    exact absurd (Option.some.inj h).symm hne
  · rw [hq] at h
    rwa [← Option.some.inj h]

/-- The ancestors of a path are its parent and the ancestors of that. -/
theorem ancestors_eq (path : String) :
    ancestors path = (parent? path).elim [] fun parent => parent :: ancestors parent := by
  rcases parent?_cases path with ⟨hn, ha, -⟩ | ⟨hn, ha, -⟩ | ⟨q, hq, -, ha, -⟩
  · rw [hn, ha]
    rfl
  · rw [hn, ha]
    rfl
  · rw [hq, ha]
    rfl

/-- The parent of a path is a beginning of it. -/
theorem exists_eq_append_of_parent? {path parent : String} (h : parent? path = some parent) :
    ∃ rest, path = parent ++ rest := by
  by_cases hne : parent = ""
  · exact ⟨path, by simp [hne]⟩
  obtain ⟨cut⟩ := exists_cut h hne
  have hpath : path = ofPieces cut.core ++ "/" ++ ofPieces (cut.gap ++ cut.name :: cut.tail) := by
    rw [← ofPieces_append cut.core_ne_nil (by simp), ← cut.pieces_eq, ofPieces_pieces]
  have hparent := ofPieces_pieces parent
  rcases cut.core_eq with ⟨hc, -⟩ | ⟨hc, hp⟩
  · rw [hc] at hparent
    rw [hparent, String.append_assoc] at hpath
    exact ⟨_, hpath⟩
  · have hslash : ofPieces cut.core ++ "/" = ofPieces ["", ""] := by rw [hc]; rfl
    rw [hp] at hparent
    rw [hslash, hparent] at hpath
    exact ⟨_, hpath⟩

/-- A path and its parent start at the same place. -/
theorem Cut.isAbsolute_eq {path parent : String} (cut : Cut path parent) :
    isAbsolute parent = isAbsolute path := by
  obtain ⟨first, core', hcore⟩ := List.exists_cons_of_ne_nil cut.core_ne_nil
  have hpath := cut.pieces_eq
  rw [hcore, List.cons_append] at hpath
  by_cases hf : first = ""
  · subst hf
    have hp : isAbsolute path = true := isAbsolute_iff.mpr ⟨_, by simp, hpath⟩
    rw [hp, isAbsolute_iff]
    rcases cut.core_eq with ⟨hc, hne⟩ | ⟨-, hc⟩
    · exact ⟨core', by rintro rfl; exact hne hcore, by rw [hc, hcore]⟩
    · exact ⟨[""], by simp, hc⟩
  · have hp : isAbsolute path = false := isAbsolute_eq_false_iff.mpr (Or.inr ⟨_, _, hf, hpath⟩)
    rw [hp, isAbsolute_eq_false_iff]
    rcases cut.core_eq with ⟨hc, -⟩ | ⟨hc, -⟩
    · exact Or.inr ⟨first, core', hf, by rw [hc, hcore]⟩
    · rw [hcore] at hc
      exact absurd (List.cons.inj hc).1 hf

/-- The parent has no components but those of its path. -/
theorem Cut.mem_pieces {path parent piece : String} (cut : Cut path parent) (hne : piece ≠ "")
    (h : piece ∈ pieces parent) : piece ∈ pieces path := by
  rcases cut.core_eq with ⟨hc, -⟩ | ⟨-, hc⟩
  · rw [hc] at h
    rw [cut.pieces_eq]
    exact List.mem_append_left _ h
  · rw [hc] at h
    exact absurd h (by simpa using hne)

/-- The parent of a path that goes up nowhere goes up nowhere. -/
theorem Cut.forward {path parent : String} (cut : Cut path parent) (h : ".." ∉ pieces path) :
    ".." ∉ pieces parent :=
  fun hmem => h (cut.mem_pieces (by decide) hmem)

/-- What the parent lacks of a path that goes up nowhere is no step up. -/
theorem Cut.name_ne_dotDot {path parent : String} (cut : Cut path parent)
    (h : ".." ∉ pieces path) : cut.name ≠ ".." := by
  intro hname
  apply h
  rw [cut.pieces_eq, hname]
  simp

end UserStorage.Path
