import UserStorage.Proofs.Path.Kindred

/-!
# Lists of segments with idle ones put in

Empty segments and dots may be put in anywhere in a list of segments. That adds no components, so
the paths of the two lists are kindred, if the longer one is short enough to be looked at. A dot
that was at the end stays there, and one may be there newly.

## Main definitions

* `Path.Padded`: one list of segments is another one with idle segments put in

## Main results

* `Path.Padded.kindred`: the paths of the two lists are kindred
* `Path.Padded.dotted`: they end alike unless a dot is newly at the end
-/

namespace UserStorage.Path

/-- The second list of segments is the first one with empty segments and dots put in. -/
inductive Padded : List String → List String → Prop
  | nil : Padded [] []
  | keep (s : String) {segments padded : List String} (rest : Padded segments padded) :
      Padded (s :: segments) (s :: padded)
  | pad {p : String} (idle : isIdle p = true) {segments padded : List String}
      (rest : Padded segments padded) : Padded segments (p :: padded)

variable {segments padded : List String}

/-- The pieces of some segments, which may have slashes in them, are those of each segment. -/
theorem pieces_ofPieces_flatMap (hne : segments ≠ []) :
    pieces (ofPieces segments) = segments.flatMap pieces := by
  induction segments with
  | nil => exact absurd rfl hne
  | cons s segments ih =>
    by_cases hrest : segments = []
    · subst hrest
      simp [ofPieces, glue]
    · rw [ofPieces_cons hrest, pieces_append_slash, ih hrest, List.flatMap_cons]

/-- No segments at all are one empty piece, which is no component. -/
theorem steps_pieces_ofPieces (segments : List String) :
    steps (pieces (ofPieces segments)) = steps (segments.flatMap pieces) := by
  by_cases hne : segments = []
  · subst hne
    decide
  · rw [pieces_ofPieces_flatMap hne]

theorem endsInDot_append_ofPieces (ps segments : List String) :
    endsInDot (ps ++ pieces (ofPieces segments)) = endsInDot (ps ++ segments.flatMap pieces) := by
  by_cases hne : segments = []
  · subst hne
    have hpieces : pieces (ofPieces []) = [""] := by decide
    rw [hpieces, endsInDot_of_last (by simp), List.flatMap_nil, List.append_nil]
    simp [isIdle]
  · rw [pieces_ofPieces_flatMap hne]

theorem pieces_of_idle {p : String} (h : isIdle p = true) : pieces p = [p] := by
  rcases isIdle_iff.mp h with rfl | rfl
  · decide
  · decide

namespace Padded

theorem eq_nil (h : Padded segments []) : segments = [] := by
  cases h
  rfl

/-- Idle segments are no components. -/
theorem steps_eq (h : Padded segments padded) :
    steps (padded.flatMap pieces) = steps (segments.flatMap pieces) := by
  induction h with
  | nil => rfl
  | keep s _ ih => rw [List.flatMap_cons, List.flatMap_cons, steps_append, steps_append, ih]
  | pad idle _ ih =>
    rw [List.flatMap_cons, pieces_of_idle idle, List.singleton_append, steps_cons_of_idle idle, ih]

/-- A dot at the end stays there. -/
theorem endsInDot_append (h : Padded segments padded) (ps : List String)
    (hdot : endsInDot (ps ++ segments.flatMap pieces) = true) :
    endsInDot (ps ++ padded.flatMap pieces) = true := by
  induction h generalizing ps with
  | nil => exact hdot
  | keep s _ ih =>
    rw [List.flatMap_cons, ← List.append_assoc] at hdot ⊢
    exact ih _ hdot
  | @pad p idle segments padded _ ih =>
    have hpadded := ih ps hdot
    rw [List.flatMap_cons, pieces_of_idle idle, ← List.append_assoc, Path.endsInDot_append,
      endsInDot_of_last (by simp), idle, Bool.and_true]
    rw [Path.endsInDot_append] at hpadded
    cases hps : endsInDot ps with
    | true => simpa [hps] using hpadded
    | false => simp [hps] at hpadded; simp [hpadded]

theorem size_le (h : Padded segments padded) :
    (ofPieces segments).utf8ByteSize ≤ (ofPieces padded).utf8ByteSize := by
  induction h with
  | nil => exact le_rfl
  | @keep s segments padded rest ih =>
    by_cases hpadded : padded = []
    · subst hpadded
      rw [rest.eq_nil]
    rw [ofPieces_cons hpadded, String.utf8ByteSize_append, String.utf8ByteSize_append]
    by_cases hsegments : segments = []
    · have hsingle : ofPieces [s] = s := by simp [ofPieces, glue]
      rw [hsegments, hsingle]
      omega
    · rw [ofPieces_cons hsegments, String.utf8ByteSize_append, String.utf8ByteSize_append]
      omega
  | @pad p _ segments padded rest ih =>
    by_cases hpadded : padded = []
    · subst hpadded
      rw [rest.eq_nil]
      exact Nat.zero_le _
    · rw [ofPieces_cons hpadded, String.utf8ByteSize_append]
      omega

variable {start : String}

/-- Behind the same beginning, the paths of a list with and without idle segments are kindred. -/
theorem kindred (h : Padded segments padded)
    (hsize : (start ++ "/" ++ ofPieces padded).utf8ByteSize ≤ maxPathBytes) :
    Kindred (start ++ "/" ++ ofPieces segments) (start ++ "/" ++ ofPieces padded) where
  head_eq := by
    obtain ⟨first, body, hp⟩ := List.exists_cons_of_ne_nil (pieces_ne_nil start)
    rw [pieces_append_slash, pieces_append_slash, hp]
    rfl
  steps_eq := by
    rw [pieces_append_slash, pieces_append_slash, steps_append, steps_append,
      steps_pieces_ofPieces, steps_pieces_ofPieces, h.steps_eq]
  empty_iff := iff_of_false (by simp) (by simp)
  size_le := by
    have hle := h.size_le
    rw [String.utf8ByteSize_append] at hsize ⊢
    omega
  other_size_le := hsize

/-- They end alike unless a dot is newly at the end. -/
theorem dotted (h : Padded segments padded)
    (hsize : (start ++ "/" ++ ofPieces padded).utf8ByteSize ≤ maxPathBytes)
    (hdot : endsInDot (pieces (start ++ "/" ++ ofPieces segments)) ≠
      endsInDot (pieces (start ++ "/" ++ ofPieces padded))) :
    Dotted (start ++ "/" ++ ofPieces segments) (start ++ "/" ++ ofPieces padded) := by
  have hstays : endsInDot (pieces (start ++ "/" ++ ofPieces segments)) = true →
      endsInDot (pieces (start ++ "/" ++ ofPieces padded)) = true := by
    rw [pieces_append_slash, pieces_append_slash, endsInDot_append_ofPieces,
      endsInDot_append_ofPieces]
    exact h.endsInDot_append _
  cases hplain : endsInDot (pieces (start ++ "/" ++ ofPieces segments)) with
  | true => exact absurd (hplain.trans (hstays hplain).symm) hdot
  | false => exact ⟨h.kindred hsize, hplain, by simpa [hplain] using hdot.symm⟩

end Padded

end UserStorage.Path
