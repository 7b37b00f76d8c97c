import Mathlib.Tactic.ByContra
import Mathlib.Tactic.SplitIfs
import UserStorage.Proofs.Path.Parent
import UserStorage.Tree.Walk

/-!
# Walks in parts

A walk follows links on its way, so how far it may still go depends on the links behind it. The
trek is the walk that counts: it follows every link and answers with the place and the links it
has left. So a trek along two lists of pieces is one trek after the other, and a walk is a trek
along all pieces but the last, with one more turn.

## Main definitions

* `Turn`, `Tree.turn`: what one piece does to a walk
* `Tree.trek`: the walk that follows every link and counts them

## Main results

* `Tree.trek_append`: a trek in two parts
* `Tree.walk_true`, `Tree.walk_append`: walks by treks
-/

namespace UserStorage

/-- What one piece of a path does to a walk. -/
inductive Turn
  /-- The walk goes on from a location. -/
  | stand (l : Location)
  /-- The piece names a link, which is not followed yet. -/
  | link (target : String)
  deriving DecidableEq

namespace Tree

/-- What one piece does to a walk that stands at `cur`. -/
def turn (t : Tree) (may : Searchable) (cur : Location) (piece : String) : Except Errno Turn :=
  match t.get? cur with
  | some (.directory m) =>
    if piece = "" then .ok (.stand cur)
    else if !may m then .error .accessDenied
    else if piece = "." then .ok (.stand cur)
    else if piece = ".." then .ok (.stand cur.tail)
    else if maxNameBytes < piece.utf8ByteSize then .error .nameTooLong
    else match t.get? (piece :: cur) with
      | none => .error .notFound
      | some (.link target) => .ok (.link target)
      | some _ => .ok (.stand (piece :: cur))
  | some _ => .error .notDirectory
  | none => .error .notFound

/-- The trek from a location along some pieces, up to the first link: there it goes on with
`follow`. It has `left` links left until then. -/
def trekWith (t : Tree) (may : Searchable) (left : Nat)
    (follow : Location → List String → Except Errno (Location × Nat)) :
    Location → List String → Except Errno (Location × Nat)
  | cur, [] => .ok (cur, left)
  | cur, piece :: rest =>
    match t.turn may cur piece with
    | .error e => .error e
    | .ok (.stand l) => t.trekWith may left follow l rest
    | .ok (.link target) => follow (startOf cur target) (Path.pieces target ++ rest)

/-- The walk along some pieces that follows every link, at most `links` of them: the place it
leads to, and the links it has left. -/
def trek (t : Tree) (may : Searchable) : Nat → Location → List String → Except Errno (Location × Nat)
  | 0 => t.trekWith may 0 fun _ _ => .error .linkLoop
  | links + 1 => t.trekWith may (links + 1) (t.trek may links)

variable {t : Tree} {may : Searchable}

/-! ## One piece -/

theorem turn_of_directory {cur : Location} {m : Mode} (h : t.get? cur = some (.directory m))
    (piece : String) :
    t.turn may cur piece =
      if piece = "" then .ok (.stand cur)
      else if !may m then .error .accessDenied
      else if piece = "." then .ok (.stand cur)
      else if piece = ".." then .ok (.stand cur.tail)
      else if maxNameBytes < piece.utf8ByteSize then .error .nameTooLong
      else match t.get? (piece :: cur) with
        | none => .error .notFound
        | some (.link target) => .ok (.link target)
        | some _ => .ok (.stand (piece :: cur)) := by
  rw [turn, h]

/-- A piece that is passed is looked up in a directory, which may be searched unless the piece is
empty. -/
theorem directory_of_turn {cur : Location} {piece : String} {r : Turn}
    (h : t.turn may cur piece = .ok r) :
    ∃ m, t.get? cur = some (.directory m) ∧ (piece ≠ "" → may m = true) := by
  cases hc : t.get? cur with
  | none => simp [turn, hc] at h
  | some e =>
    cases e with
    | directory m =>
      refine ⟨m, rfl, fun hp => ?_⟩
      rw [turn_of_directory hc, if_neg hp] at h
      by_contra hm
      rw [Bool.not_eq_true] at hm
      simp [hm] at h
    | file m c => simp [turn, hc] at h
    | fifo m => simp [turn, hc] at h
    | link s => simp [turn, hc] at h

theorem turn_empty {cur : Location} {m : Mode} (h : t.get? cur = some (.directory m)) :
    t.turn may cur "" = .ok (.stand cur) := by
  rw [turn_of_directory h, if_pos rfl]

theorem turn_dot {cur : Location} {m : Mode} (h : t.get? cur = some (.directory m))
    (hm : may m = true) : t.turn may cur "." = .ok (.stand cur) := by
  rw [turn_of_directory h, if_neg (by decide), hm]
  simp

theorem turn_dotDot {cur : Location} {m : Mode} (h : t.get? cur = some (.directory m))
    (hm : may m = true) : t.turn may cur ".." = .ok (.stand cur.tail) := by
  rw [turn_of_directory h, if_neg (by decide), hm]
  simp

/-- A directory that may not be searched lets nothing pass but empty pieces. -/
theorem turn_of_shut {cur : Location} {m : Mode} {piece : String}
    (h : t.get? cur = some (.directory m)) (hm : may m = false) (hp : piece ≠ "") :
    t.turn may cur piece = .error .accessDenied := by
  rw [turn_of_directory h, if_neg hp, if_pos (by simp [hm])]

/-- A piece that is no dot and not empty. -/
structure IsName (piece : String) : Prop where
  ne_empty : piece ≠ ""
  ne_dot : piece ≠ "."
  ne_dotDot : piece ≠ ".."

theorem turn_name {cur : Location} {m : Mode} {piece : String}
    (h : t.get? cur = some (.directory m)) (hm : may m = true) (hn : IsName piece)
    (hs : piece.utf8ByteSize ≤ maxNameBytes) :
    t.turn may cur piece =
      match t.get? (piece :: cur) with
      | none => .error .notFound
      | some (.link target) => .ok (.link target)
      | some _ => .ok (.stand (piece :: cur)) := by
  rw [turn_of_directory h, if_neg hn.ne_empty, hm, if_neg hn.ne_dot, if_neg hn.ne_dotDot,
    if_neg (Nat.not_lt.mpr hs)]
  simp

/-- A name is not passed where there is no such entry. -/
theorem turn_eq_error_of_get?_eq_none (may : Searchable) {cur : Location} {piece : String}
    (hn : IsName piece) (hfree : t.get? (piece :: cur) = none) :
    ∃ e, t.turn may cur piece = .error e := by
  cases h : t.turn may cur piece with
  | error e => exact ⟨e, rfl⟩
  | ok r =>
    obtain ⟨m, hm, -⟩ := directory_of_turn h
    rw [turn_of_directory hm, if_neg hn.ne_empty, if_neg hn.ne_dot, if_neg hn.ne_dotDot,
      hfree] at h
    split_ifs at h

/-- A name that is passed is not too long. -/
theorem size_le_of_turn {cur : Location} {piece : String} {r : Turn} (hn : IsName piece)
    (h : t.turn may cur piece = .ok r) : piece.utf8ByteSize ≤ maxNameBytes := by
  obtain ⟨m, hm, -⟩ := directory_of_turn h
  rw [turn_of_directory hm, if_neg hn.ne_empty, if_neg hn.ne_dot, if_neg hn.ne_dotDot] at h
  split_ifs at h with _ hlong
  exact Nat.not_lt.mp hlong

/-- Where one piece leads from a directory there is an entry. -/
theorem isSome_of_turn_stand {cur l : Location} {piece : String}
    (h : t.turn may cur piece = .ok (.stand l)) : (t.get? l).isSome = true := by
  obtain ⟨m, hm, -⟩ := directory_of_turn h
  rw [turn_of_directory hm] at h
  split_ifs at h
  · obtain rfl : cur = l := by simpa using h
    simp [hm]
  · obtain rfl : cur = l := by simpa using h
    simp [hm]
  · obtain rfl : cur.tail = l := by simpa using h
    cases cur with
    | nil => simp [hm]
    | cons n d =>
      have hd := t.isDirectory_of_get? hm
      simp only [List.tail_cons]
      cases hg : t.get? d <;> simp [isDirectory, hg] at hd ⊢
  · split at h
    · simp at h
    · simp at h
    · next e _ he =>
      obtain rfl : piece :: cur = l := by simpa using h
      simp [he]

/-- A piece that names a link names its entry. -/
theorem get?_of_turn_link {cur : Location} {piece target : String}
    (h : t.turn may cur piece = .ok (.link target)) :
    t.get? (piece :: cur) = some (.link target) := by
  obtain ⟨m, hm, -⟩ := directory_of_turn h
  rw [turn_of_directory hm] at h
  cases hp : t.get? (piece :: cur) with
  | none =>
    rw [hp] at h
    split_ifs at h <;> cases h
  | some e =>
    rw [hp] at h
    cases e with
    | link s => split_ifs at h <;> cases h; rfl
    | _ => split_ifs at h <;> cases h

/-! ## Treks in parts -/

@[simp] theorem trek_nil (links : Nat) (cur : Location) :
    t.trek may links cur [] = .ok (cur, links) := by
  cases links <;> rfl

/-- A trek by its first piece. -/
theorem trek_cons (links : Nat) (cur : Location) (piece : String) (rest : List String) :
    t.trek may links cur (piece :: rest) =
      match t.turn may cur piece with
      | .error e => .error e
      | .ok (.stand l) => t.trek may links l rest
      | .ok (.link target) =>
        match links with
        | 0 => .error .linkLoop
        | left + 1 => t.trek may left (startOf cur target) (Path.pieces target ++ rest) := by
  cases links <;> rfl

/-- What holds along every trek: it holds at the end of the pieces, and in front of a piece when it
holds behind it, the pieces of a link's target being put before the others. -/
@[elab_as_elim]
theorem trek_induction (t : Tree) (may : Searchable) {motive : Nat → Location → List String → Prop}
    (nil : ∀ links cur, motive links cur [])
    (cons : ∀ links cur piece rest,
      (∀ l, t.turn may cur piece = .ok (.stand l) → motive links l rest) →
      (∀ left target, links = left + 1 → t.turn may cur piece = .ok (.link target) →
        motive left (startOf cur target) (Path.pieces target ++ rest)) →
      motive links cur (piece :: rest))
    (links : Nat) (cur : Location) (ps : List String) : motive links cur ps := by
  -- the pieces grow at a link, so the induction is on the links left and, within them, on the pieces
  induction links generalizing cur ps with
  | zero =>
    induction ps generalizing cur with
    | nil => exact nil 0 cur
    | cons p ps ih => exact cons 0 cur p ps (fun l _ => ih l) (fun left target h _ => by omega)
  | succ links ihLinks =>
    induction ps generalizing cur with
    | nil => exact nil _ cur
    | cons p ps ih =>
      refine cons _ cur p ps (fun l _ => ih l) fun left target h _ => ?_
      obtain rfl : links = left := by omega
      exact ihLinks _ _

/-- A trek along some pieces and then some more is one trek after the other. -/
theorem trek_append (links : Nat) (cur : Location) (ps qs : List String) :
    t.trek may links cur (ps ++ qs) =
      (t.trek may links cur ps).bind fun s => t.trek may s.2 s.1 qs := by
  induction links, cur, ps using t.trek_induction may with
  | nil links cur => simp [Except.bind]
  | cons links cur p rest ihStand ihLink =>
    rw [List.cons_append, trek_cons, trek_cons]
    cases h : t.turn may cur p with
    | error e => rfl
    | ok r =>
      cases r with
      | stand l => exact ihStand l h
      | link target =>
        cases links with
        | zero => rfl
        | succ left =>
          -- the pieces of the target come before all that is left, so they go with the first part
          have := ihLink left target rfl h
          rw [List.append_assoc] at this
          exact this

theorem walk_nil (followLast : Bool) (links : Nat) (cur : Location) :
    t.walk may followLast links cur [] = .ok cur := by
  cases links <;> rfl

/-- A walk by its first piece. -/
theorem walk_cons (followLast : Bool) (links : Nat) (cur : Location) (piece : String)
    (rest : List String) :
    t.walk may followLast links cur (piece :: rest) =
      match t.turn may cur piece with
      | .error e => .error e
      | .ok (.stand l) => t.walk may followLast links l rest
      | .ok (.link target) =>
        if rest.isEmpty && !followLast then .ok (piece :: cur)
        else match links with
          | 0 => .error .linkLoop
          | left + 1 =>
            t.walk may followLast left (startOf cur target) (Path.pieces target ++ rest) := by
  have advance_cons (follow : Location → List String → Except Errno Location) :
      t.advance may followLast follow cur (piece :: rest) =
        match t.turn may cur piece with
        | .error e => .error e
        | .ok (.stand l) => t.advance may followLast follow l rest
        | .ok (.link target) =>
          if rest.isEmpty && !followLast then .ok (piece :: cur)
          else follow (startOf cur target) (Path.pieces target ++ rest) := by
    rw [advance, turn]
    cases hc : t.get? cur with
    | none => rfl
    | some e =>
      cases e with
      | directory m =>
        dsimp only
        split_ifs
        all_goals first
          | rfl
          | (cases hp : t.get? (piece :: cur) with
            | none => rfl
            | some e => cases e <;> simp_all)
      | file m c => rfl
      | fifo m => rfl
      | link s => rfl
  cases links with
  | zero => rw [walk, advance_cons]
  | succ links => rw [walk, advance_cons]

/-- A walk that follows the last link too is a trek. -/
theorem walk_true (links : Nat) (cur : Location) (ps : List String) :
    t.walk may true links cur ps = (t.trek may links cur ps).map Prod.fst := by
  induction links, cur, ps using t.trek_induction may with
  | nil links cur => rw [walk_nil, trek_nil]; rfl
  | cons links cur p rest ihStand ihLink =>
    rw [walk_cons, trek_cons]
    cases h : t.turn may cur p with
    | error e => rfl
    | ok r =>
      cases r with
      | stand l => exact ihStand l h
      | link target =>
        cases links with
        | zero => simp [Except.map]
        | succ left => simpa using ihLink left target rfl h

/-- All links but one at the very end are followed, so the first part of a walk is a trek. -/
theorem walk_append (followLast : Bool) (links : Nat) (cur : Location) (ps : List String)
    {qs : List String} (hq : qs ≠ []) :
    t.walk may followLast links cur (ps ++ qs) =
      (t.trek may links cur ps).bind fun s => t.walk may followLast s.2 s.1 qs := by
  have goesOn (rest : List String) : ((rest ++ qs).isEmpty && !followLast) = false := by
    simp [hq]
  induction links, cur, ps using t.trek_induction may with
  | nil links cur => simp [Except.bind]
  | cons links cur p rest ihStand ihLink =>
    rw [List.cons_append, walk_cons, trek_cons]
    cases h : t.turn may cur p with
    | error e => rfl
    | ok r =>
      cases r with
      | stand l => exact ihStand l h
      | link target =>
        cases links with
        | zero => simp [goesOn, Except.bind]
        | succ left =>
          have := ihLink left target rfl h
          rw [List.append_assoc] at this
          simpa [goesOn] using this

/-- A walk goes on where the trek along its first part leads. -/
theorem walk_append_of_trek {followLast : Bool} {links left : Nat} {cur l : Location}
    {ps qs : List String} (h : t.trek may links cur ps = .ok (l, left)) (hq : qs ≠ []) :
    t.walk may followLast links cur (ps ++ qs) = t.walk may followLast left l qs := by
  rw [walk_append _ _ _ _ hq, h]
  rfl

theorem trek_cons_stand {links : Nat} {cur l : Location} {piece : String} {rest : List String}
    (h : t.turn may cur piece = .ok (.stand l)) :
    t.trek may links cur (piece :: rest) = t.trek may links l rest := by
  rw [trek_cons, h]

theorem walk_cons_stand {followLast : Bool} {links : Nat} {cur l : Location} {piece : String}
    {rest : List String} (h : t.turn may cur piece = .ok (.stand l)) :
    t.walk may followLast links cur (piece :: rest) = t.walk may followLast links l rest := by
  rw [walk_cons, h]

/-! ## What treks lead to -/

/-- A trek along a first part of the pieces that succeeds goes on behind it. -/
theorem trek_append_of_ok {links left : Nat} {cur l : Location} {ps : List String}
    (h : t.trek may links cur ps = .ok (l, left)) (qs : List String) :
    t.trek may links cur (ps ++ qs) = t.trek may left l qs := by
  rw [trek_append, h]
  rfl

/-- A trek that succeeds has a place to go on from after each first part of its pieces. -/
theorem exists_of_trek_append {links : Nat} {cur : Location} {ps qs : List String}
    {s : Location × Nat} (h : t.trek may links cur (ps ++ qs) = .ok s) :
    ∃ l left, t.trek may links cur ps = .ok (l, left) ∧ t.trek may left l qs = .ok s := by
  rw [trek_append] at h
  cases hp : t.trek may links cur ps with
  | error e =>
    rw [hp] at h
    exact absurd h (by simp [Except.bind])
  | ok s =>
    rw [hp] at h
    exact ⟨s.1, s.2, rfl, h⟩

/-! ## Idle pieces -/

theorem turn_idle {cur : Location} {p : String} {r : Turn} (hp : Path.isIdle p = true)
    (h : t.turn may cur p = .ok r) : r = .stand cur := by
  obtain ⟨m, hm, hmay⟩ := directory_of_turn h
  rcases Path.isIdle_iff.mp hp with rfl | rfl
  · rw [turn_empty hm] at h
    exact (Except.ok.inj h).symm
  · rw [turn_dot hm (hmay (by decide))] at h
    exact (Except.ok.inj h).symm

/-- A piece that is no name leads from a directory to a directory. -/
theorem isDirectory_of_turn {cur : Location} {piece : String} {r : Turn} (hpiece : ¬ IsName piece)
    (h : t.turn may cur piece = .ok r) : ∃ l, r = .stand l ∧ t.isDirectory l = true := by
  obtain ⟨m, hm, hmay⟩ := directory_of_turn h
  have hcur : t.isDirectory cur = true := by
    rw [isDirectory, hm]
    rfl
  by_cases hup : piece = ".."
  · subst hup
    rw [turn_dotDot hm (hmay (by decide))] at h
    refine ⟨cur.tail, (Except.ok.inj h).symm, ?_⟩
    cases cur with
    | nil => exact hcur
    | cons n d => exact t.isDirectory_of_get? hm
  · have hidle : Path.isIdle piece = true := by
      rw [Path.isIdle_iff]
      by_contra hnot
      rw [not_or] at hnot
      exact hpiece ⟨hnot.1, hnot.2, hup⟩
    exact ⟨cur, turn_idle hidle h, hcur⟩

/-- Idle pieces stay where they are. -/
theorem eq_of_trek_idle {links left : Nat} {cur l : Location} {ps : List String}
    (hi : Path.AllIdle ps) (h : t.trek may links cur ps = .ok (l, left)) :
    l = cur ∧ left = links := by
  induction ps with
  | nil =>
    rw [trek_nil] at h
    cases h
    exact ⟨rfl, rfl⟩
  | cons p ps ih =>
    rw [trek_cons] at h
    cases ht : t.turn may cur p with
    | error e => simp [ht] at h
    | ok r =>
      obtain rfl := turn_idle hi.head ht
      rw [ht] at h
      exact ih hi.tail h

/-- Idle pieces can be passed in a directory that may be searched. -/
theorem trek_idle {links : Nat} {cur : Location} {m : Mode} {ps : List String}
    (hi : Path.AllIdle ps) (hc : t.get? cur = some (.directory m)) (hm : may m = true) :
    t.trek may links cur ps = .ok (cur, links) := by
  induction ps with
  | nil => rw [trek_nil]
  | cons p ps ih =>
    have ht : t.turn may cur p = .ok (.stand cur) := by
      rcases Path.isIdle_iff.mp hi.head with rfl | rfl
      · exact turn_empty hc
      · exact turn_dot hc hm
    rw [trek_cons_stand ht]
    exact ih hi.tail

/-- Empty pieces can be passed in every directory. -/
theorem trek_empty {links : Nat} {cur : Location} {m : Mode} {ps : List String}
    (hi : ∀ p ∈ ps, p = "") (hc : t.get? cur = some (.directory m)) :
    t.trek may links cur ps = .ok (cur, links) := by
  induction ps with
  | nil => rw [trek_nil]
  | cons p ps ih =>
    obtain rfl := hi p List.mem_cons_self
    rw [trek_cons_stand (turn_empty hc)]
    exact ih fun q hq => hi q (List.mem_cons_of_mem _ hq)

end Tree

end UserStorage
