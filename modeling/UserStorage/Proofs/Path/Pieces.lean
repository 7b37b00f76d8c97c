import UserStorage.Path.Pieces

/-!
# Pieces without slashes

No piece of a path holds a slash, and every list of such pieces is the list of the pieces of its
path. So paths may be cut and put together by their pieces.

## Main results

* `Path.slashFree_of_mem_pieces`, `Path.pieces_ofPieces`: pieces are the lists without slashes
* `Path.ofPieces_append`: the path of two lists of pieces
* `Path.isAbsolute_iff`, `Path.isAbsolute_eq_false_iff`: how absolute paths begin
-/

namespace UserStorage.Path

theorem slash_notMem_of_mem_runs (cs : List Char) : ∀ r ∈ runs cs, '/' ∉ r := by
  induction cs with
  | nil => simp [runs]
  | cons c cs ih =>
    intro r hr
    by_cases hc : c = '/'
    · rw [runs, if_pos hc] at hr
      rcases List.mem_cons.mp hr with rfl | hr
      · simp
      · exact ih r hr
    · rw [runs, if_neg hc] at hr
      cases h : runs cs with
      | nil => exact absurd h (runs_ne_nil cs)
      | cons p ps =>
        simp only [h] at hr ih
        rcases List.mem_cons.mp hr with rfl | hr
        · simpa [Ne.symm hc] using ih p List.mem_cons_self
        · exact ih r (List.mem_cons_of_mem _ hr)

theorem runs_eq_singleton {r : List Char} (h : '/' ∉ r) : runs r = [r] := by
  induction r with
  | nil => rfl
  | cons c cs ih =>
    obtain ⟨hc, hcs⟩ := not_or.mp (mt List.mem_cons.mpr h)
    rw [runs, if_neg (Ne.symm hc), ih hcs]

theorem runs_glue {ps : List (List Char)} (hne : ps ≠ []) (h : ∀ r ∈ ps, '/' ∉ r) :
    runs (glue ps) = ps := by
  -- on the runs: glue puts a slash behind the first, and there the characters are cut again
  induction ps with
  | nil => exact absurd rfl hne
  | cons p ps ih =>
    have hp := runs_eq_singleton (h p List.mem_cons_self)
    cases ps with
    | nil => exact hp
    | cons q qs =>
      rw [glue, runs_append_slash, hp, ih (by simp) fun r hr => h r (List.mem_cons_of_mem _ hr)]
      rfl

/-- No piece of a path holds a slash. -/
theorem slashFree_of_mem_pieces {path p : String} (h : p ∈ pieces path) : '/' ∉ p.toList := by
  obtain ⟨r, hr, rfl⟩ := List.mem_map.mp h
  simpa using slash_notMem_of_mem_runs _ r hr

/-- Pieces without slashes are the pieces of their path. -/
theorem pieces_ofPieces {ps : List String} (hne : ps ≠ []) (h : ∀ p ∈ ps, '/' ∉ p.toList) :
    pieces (ofPieces ps) = ps := by
  have hr : runs (glue (ps.map String.toList)) = ps.map String.toList := by
    refine runs_glue (by simpa using hne) fun r hr => ?_
    obtain ⟨p, hp, rfl⟩ := List.mem_map.mp hr
    exact h p hp
  simp [pieces, ofPieces, hr, Function.comp_def]

theorem glue_append {ps qs : List (List Char)} (hp : ps ≠ []) (hq : qs ≠ []) :
    glue (ps ++ qs) = glue ps ++ '/' :: glue qs := by
  induction ps with
  | nil => exact absurd rfl hp
  | cons p ps ih =>
    cases ps with
    | nil => simpa [glue] using glue_cons_of_ne_nil p hq
    | cons p' ps =>
      have h := ih (by simp)
      simp only [List.cons_append] at h ⊢
      rw [glue_cons_of_ne_nil p (by simp), h, glue_cons_of_ne_nil p (by simp)]
      simp

/-- The path of two lists of pieces has one slash between the two. -/
theorem ofPieces_append {ps qs : List String} (hp : ps ≠ []) (hq : qs ≠ []) :
    ofPieces (ps ++ qs) = ofPieces ps ++ "/" ++ ofPieces qs := by
  have hglue : glue (ps.map String.toList ++ qs.map String.toList) =
      glue (ps.map String.toList) ++ '/' :: glue (qs.map String.toList) :=
    glue_append (by simpa using hp) (by simpa using hq)
  apply String.toList_inj.mp
  simp [ofPieces, hglue]

@[simp] theorem pieces_empty : pieces "" = [""] := rfl

theorem pieces_eq_singleton_empty_iff {path : String} : pieces path = [""] ↔ path = "" := by
  constructor
  · intro h
    rw [← ofPieces_pieces path, h]
    rfl
  · rintro rfl
    rfl

theorem ofPieces_cons {p : String} {ps : List String} (h : ps ≠ []) :
    ofPieces (p :: ps) = p ++ "/" ++ ofPieces ps := by
  have single : ofPieces [p] = p := by simp [ofPieces, glue]
  rw [← List.singleton_append, ofPieces_append (by simp) h, single]

/-- An absolute path has an empty piece in front of others. -/
theorem isAbsolute_iff {path : String} :
    isAbsolute path = true ↔ ∃ body, body ≠ [] ∧ pieces path = "" :: body := by
  constructor
  · intro h
    obtain ⟨cs, hcs⟩ : ∃ cs, path.toList = '/' :: cs := by
      cases hl : path.toList with
      | nil => simp [isAbsolute, hl] at h
      | cons c cs =>
        simp only [isAbsolute, hl, List.head?_cons, beq_iff_eq, Option.some.injEq] at h
        exact ⟨cs, by rw [h]⟩
    refine ⟨(runs cs).map String.ofList, by simp [runs_ne_nil], ?_⟩
    simp [pieces, hcs, runs]
  · rintro ⟨body, hne, hb⟩
    have hp := ofPieces_cons (p := "") hne
    rw [← hb, ofPieces_pieces] at hp
    simp [isAbsolute, hp]

/-- What a path begins with decides whether it is absolute. -/
theorem isAbsolute_append {p : String} (h : p ≠ "") (rest : String) :
    isAbsolute (p ++ rest) = isAbsolute p := by
  have hp : p.toList ≠ [] := fun hnil => h (String.toList_inj.mp hnil)
  obtain ⟨c, cs, hcs⟩ := List.exists_cons_of_ne_nil hp
  rw [isAbsolute, isAbsolute, String.toList_append, hcs]
  rfl

theorem isAbsolute_eq_false_iff {path : String} :
    isAbsolute path = false ↔ path = "" ∨ ∃ first body, first ≠ "" ∧ pieces path = first :: body := by
  rw [← Bool.not_eq_true, isAbsolute_iff]
  constructor
  · intro h
    cases hp : pieces path with
    | nil => exact absurd hp (pieces_ne_nil path)
    | cons first body =>
      by_cases he : first = ""
      · subst he
        cases body with
        | nil => exact Or.inl (pieces_eq_singleton_empty_iff.mp hp)
        | cons q qs => exact absurd ⟨q :: qs, by simp, hp⟩ h
      · exact Or.inr ⟨first, body, he, rfl⟩
  · rintro (rfl | ⟨first, body, hf, hp⟩) ⟨body', hne, hb⟩
    · rw [pieces_empty] at hb
      exact hne (List.cons.inj hb).2.symm
    · rw [hp] at hb
      exact hf (List.cons.inj hb).1

/-! ## Fragments closed by a slash -/

/-- A fragment is closed by a slash that it had or got. -/
theorem withTrailingSeparator_eq (fragment : String) :
    ∃ s, withTrailingSeparator fragment = s ++ "/" ∧ (fragment = s ∨ fragment = s ++ "/") := by
  by_cases h : fragment.toList.getLast? = some '/'
  · obtain ⟨cs, hcs⟩ := List.getLast?_eq_some_iff.mp h
    have eq : fragment = String.ofList cs ++ "/" := by
      apply String.toList_inj.mp
      simpa using hcs
    exact ⟨String.ofList cs, by rw [withTrailingSeparator, if_pos h, eq], Or.inr eq⟩
  · exact ⟨fragment, by rw [withTrailingSeparator, if_neg h], Or.inl rfl⟩

/-- What stands behind a fragment closed by a slash makes no empty path. -/
theorem withTrailingSeparator_append_ne_empty (fragment rest : String) :
    withTrailingSeparator fragment ++ rest ≠ "" := by
  obtain ⟨s, hs, -⟩ := withTrailingSeparator_eq fragment
  intro h
  have hlength := congrArg (fun path => path.toList.length) h
  rw [hs] at hlength
  simp at hlength

end UserStorage.Path
