import Mathlib.Data.List.Induction
import UserStorage.Proofs.Disk.Names
import UserStorage.Proofs.Disk.Nameless
import UserStorage.Proofs.Path.Kindred

/-!
# Where kindred paths lead

Idle pieces in front of a component change nothing on a walk, not even the error it ends with: what
they ask of a directory the component asks for as well. So what a path leads to, and where it makes
an entry, is decided by its start, its components and by what stands behind the last one: slashes
ask for a directory there, and a dot also for the right to search it. No entry is made at a path
that ends in a dot.

## Main definitions

* `Disk.placeAlong`: where an entry is made, by the components of a path

## Main results

* `Tree.trek_steps_append`, `Tree.trek_steps_iff`: treks by components
* `Disk.place_eq`: places by components
* `Disk.leadsToDirectory_of_kindred`, `Disk.vacancy_of_kindred`: kindred paths that end alike
* `Disk.leadsToDirectory_of_dotted`, `Disk.place_error_of_dotted`: kindred paths, one of which ends
  in a dot
-/

namespace UserStorage

open UserStorage.Path (steps endsInDot Kindred)

/-! ## Treks by components -/

namespace Tree

variable {t : Tree} {may : Searchable} {links left : Nat} {cur l : Location} {p x : String}
  {ps : List String} {m : Mode}

/-- What is not empty is refused wherever an idle piece is, with the same error. -/
theorem turn_eq_error_of_idle {e : Errno} (hp : Path.isIdle p = true) (hx : x ≠ "")
    (h : t.turn may cur p = .error e) : t.turn may cur x = .error e := by
  cases hc : t.get? cur with
  | none => simpa [turn, hc] using h
  | some entry =>
    cases entry with
    | directory m =>
      rcases Path.isIdle_iff.mp hp with rfl | rfl
      · simp [turn_empty hc] at h
      · cases hm : may m with
        | true => simp [turn_dot hc hm] at h
        | false =>
          rw [turn_of_shut hc hm (by decide)] at h
          rw [turn_of_shut hc hm hx, h]
    | _ => simpa [turn, hc] using h

/-- Idle pieces in front of others change nothing on a trek. -/
theorem trek_steps_append (hx : x ≠ "") (ps rest : List String) (links : Nat) (cur : Location) :
    t.trek may links cur (ps ++ x :: rest) = t.trek may links cur (steps ps ++ x :: rest) := by
  induction ps generalizing links cur with
  | nil => rfl
  | cons p ps ih =>
    cases hp : Path.isIdle p with
    | true =>
      rw [Path.steps_cons_of_idle hp, ← ih, List.cons_append]
      cases hturn : t.turn may cur p with
      | ok r =>
        obtain rfl := turn_idle hp hturn
        rw [trek_cons_stand hturn]
      | error e =>
        obtain ⟨y, ys, hy, hne⟩ : ∃ y ys, steps ps ++ x :: rest = y :: ys ∧ y ≠ "" := by
          cases hs : steps ps with
          | nil => exact ⟨x, rest, rfl, hx⟩
          | cons y ys =>
            have hmem : y ∈ steps ps := hs ▸ List.mem_cons_self
            have hy : Path.isIdle y = false := by simpa using (List.mem_filter.mp hmem).2
            exact ⟨y, ys ++ x :: rest, rfl, (Path.isIdle_eq_false_iff.mp hy).1⟩
        rw [ih, hy, trek_cons, hturn, trek_cons, turn_eq_error_of_idle hp hne hturn]
    | false =>
      rw [Path.steps_cons_of_named hp, List.cons_append, List.cons_append, ← List.singleton_append,
        trek_append, ← List.singleton_append (l := steps ps ++ x :: rest), trek_append]
      simp only [ih]

/-- A trek that ends with an idle piece was in a directory already, behind a dot in one that may be
searched. -/
theorem exists_directory_of_trek_idle (hidle : Path.isIdle x = true)
    (h : t.trek may links cur (ps ++ [x]) = .ok (l, left)) :
    t.trek may links cur ps = .ok (l, left) ∧
      ∃ m, t.get? l = some (.directory m) ∧ (x ≠ "" → may m = true) := by
  obtain ⟨d, k, hps, hx⟩ := exists_of_trek_append h
  obtain ⟨rfl, rfl⟩ := eq_of_trek_idle (.cons hidle .nil) hx
  refine ⟨hps, ?_⟩
  rw [trek_cons] at hx
  cases hturn : t.turn may l x with
  | error e => simp [hturn] at hx
  | ok r => exact directory_of_turn hturn

/-- Some pieces lead to a directory when their components do, and behind a dot the directory has to
be one that may be searched. -/
theorem trek_steps_iff (hm : t.get? l = some (.directory m)) :
    t.trek may links cur ps = .ok (l, left) ↔
      t.trek may links cur (steps ps) = .ok (l, left) ∧ (endsInDot ps = true → may m = true) := by
  -- the pieces are taken off from the end, where they ask something of the directory
  induction ps using List.reverseRecOn with
  | nil => simp [steps, endsInDot]
  | append_singleton ps x ih =>
    have hback (hidle : Path.isIdle x = true)
        (h : t.trek may links cur (ps ++ [x]) = .ok (l, left)) :
        t.trek may links cur ps = .ok (l, left) ∧ (x ≠ "" → may m = true) := by
      obtain ⟨hps, m', hm', hmay⟩ := exists_directory_of_trek_idle hidle h
      obtain rfl : m' = m := by simpa [hm] using hm'.symm
      exact ⟨hps, hmay⟩
    rw [Path.steps_append]
    cases hidle : Path.isIdle x with
    | false =>
      have hempty := (Path.isIdle_eq_false_iff.mp hidle).1
      have hx : steps [x] = [x] := Path.steps_cons_of_named hidle []
      rw [trek_steps_append hempty, hx, Path.endsInDot_of_named (by simp) hidle]
      simp
    | true =>
      have hx : steps [x] = [] := Path.steps_cons_of_idle hidle []
      rw [hx, List.append_nil]
      rcases Path.isIdle_iff.mp hidle with rfl | rfl
      · have hends : endsInDot (ps ++ [""]) = endsInDot ps := by
          rw [Path.endsInDot_of_last (by simp)]
          simp [hidle]
        rw [hends, ← ih]
        refine ⟨fun h => (hback hidle h).1, fun h => ?_⟩
        rw [trek_append_of_ok h]
        exact trek_empty (by simp) hm
      · have hends : endsInDot (ps ++ ["."]) = true := by
          rw [Path.endsInDot_of_last (by simp)]
          simp
        rw [hends]
        constructor
        · intro h
          obtain ⟨hps, hmay⟩ := hback hidle h
          exact ⟨(ih.mp hps).1, fun _ => hmay (by decide)⟩
        · rintro ⟨h, hmay⟩
          rw [trek_append_of_ok (ih.mpr ⟨h, fun _ => hmay rfl⟩)]
          exact trek_idle (.cons hidle .nil) hm (hmay rfl)

/-- A trek that a dot stops is stopped by whatever else is not empty. -/
theorem trek_eq_error_of_dot {e : Errno} (hx : x ≠ "")
    (h : t.trek may links cur (ps ++ ["."]) = .error e) (rest : List String) :
    t.trek may links cur (ps ++ x :: rest) = .error e := by
  rw [trek_append] at h ⊢
  cases hps : t.trek may links cur ps with
  | error e' =>
    rw [hps] at h
    exact h
  | ok s =>
    rw [hps] at h
    have hdot : t.trek may s.2 s.1 ["."] = .error e := h
    rw [trek_cons] at hdot
    show t.trek may s.2 s.1 (x :: rest) = .error e
    cases hturn : t.turn may s.1 "." with
    | error e' =>
      rw [hturn] at hdot
      rw [trek_cons, turn_eq_error_of_idle (by decide) hx hturn]
      exact hdot
    | ok r =>
      obtain rfl := turn_idle (by decide) hturn
      simp [hturn] at hdot

end Tree

/-- A path that asks for no directory ends in a component, unless it ends in a dot. -/
theorem Path.exists_pieces_of_plain {path : String} (hne : path ≠ "")
    (plain : endsInDot (pieces path) = false) (hasks : Disk.asksForDirectory path = false) :
    ∃ before last, pieces path = before ++ [last] ∧ isIdle last = false := by
  obtain ⟨before, last, hp⟩ : ∃ before last, pieces path = before ++ [last] :=
    ⟨_, _, (List.dropLast_concat_getLast (pieces_ne_nil path)).symm⟩
  refine ⟨before, last, hp, isIdle_eq_false_iff.mpr ⟨?_, ?_⟩⟩
  · rintro rfl
    have hbefore : before ≠ [] := by
      rintro rfl
      exact hne (pieces_eq_singleton_empty_iff.mp hp)
    rw [Disk.asksForDirectory_of_pieces hbefore hp] at hasks
    cases hasks
  · rintro rfl
    rw [hp, endsInDot_of_last (by simp)] at plain
    simp at plain

/-- A path with a dot behind its last component ends in no name. -/
theorem Path.endsNameless_of_endsInDot {path : String} (h : endsInDot (pieces path) = true) :
    endsNameless path = true := by
  by_contra hname
  obtain ⟨before, last, hp, hlast⟩ :=
    exists_pieces_of_not_endsNameless (Bool.eq_false_iff.mpr hname)
  rw [hp, endsInDot_of_named (by simp) hlast] at h
  cases h

namespace Disk

variable {disk : Disk} {path other : String} {l : Location} {m : Mode} {cause : IoError}

/-! ## Directories and places by components -/

/-- A path leads to a directory when its components do, and behind a dot the directory has to be one
that may be searched. -/
theorem leadsToDirectory_iff (ha : Path.Admissible path) :
    disk.LeadsToDirectory path l m ↔
      disk.LeadsAlong path (steps (Path.pieces path)) l ∧ disk.tree.get? l = some (.directory m) ∧
        (endsInDot (Path.pieces path) = true → m.ownerMaySearch = true) := by
  constructor
  · rintro ⟨⟨-, left, ht⟩, hm⟩
    obtain ⟨hsteps, hdot⟩ := (Tree.trek_steps_iff hm).mp ht
    exact ⟨⟨left, hsteps⟩, hm, hdot⟩
  · rintro ⟨⟨left, hsteps⟩, hm, hdot⟩
    exact ⟨⟨ha, left, (Tree.trek_steps_iff hm).mpr ⟨hsteps, hdot⟩⟩, hm⟩

/-- Where an entry is made: by the components of a path, and by whether a dot stands behind the last
one. The root and what a dot names are in no directory by such a name. -/
def placeAlong (disk : Disk) (start : Location) (components : List String) (dotted : Bool) :
    Except Errno (Option (Name × Location)) :=
  if dotted then
    (disk.tree.trek Mode.ownerMaySearch maxLinks start (components ++ ["."])).map fun _ => none
  else
    match components.getLast? with
    | none => .ok none
    | some last =>
      (disk.tree.trek Mode.ownerMaySearch maxLinks start
        (components.dropLast ++ ["."])).bind fun s =>
          if last = ".." then .ok none
          else if maxNameBytes < last.utf8ByteSize then .error .nameTooLong
          else .ok (some (last, s.1))

theorem placeAlong_dotted (start : Location) (components : List String) :
    disk.placeAlong start components true =
      (disk.tree.trek Mode.ownerMaySearch maxLinks start (components ++ ["."])).map
        fun _ => none :=
  if_pos rfl

theorem placeAlong_concat (start : Location) (before : List String) (last : String) :
    disk.placeAlong start (before ++ [last]) false =
      (disk.tree.trek Mode.ownerMaySearch maxLinks start (before ++ ["."])).bind fun s =>
        if last = ".." then .ok none
        else if maxNameBytes < last.utf8ByteSize then .error .nameTooLong
        else .ok (some (last, s.1)) := by
  simp only [placeAlong, List.getLast?_concat, List.dropLast_concat, Bool.false_eq_true, if_false]

/-- A path makes its entry where its components do. -/
theorem place_eq (ha : Path.Admissible path) :
    disk.place path = (disk.placeAlong (Tree.startOf disk.cwd path) (steps (Path.pieces path))
      (endsInDot (Path.pieces path))).mapError .system := by
  cases hs : Tree.splitLast (Path.pieces path) with
  | none =>
    have hempty := Tree.eq_empty_of_splitLast_eq_none hs
    rw [place_of_splitLast_none ha hs, Path.steps_of_empty hempty, Path.endsInDot_of_empty hempty]
    rfl
  | some p =>
    obtain ⟨before, last⟩ := p
    obtain ⟨hlast, slashes, hempty, hp⟩ := Tree.splitLast_eq_some_iff.mp hs
    have hslashes := Path.steps_of_empty hempty
    rw [place_of_splitLast ha hs, Tree.walk_true, hp, Path.endsInDot_of_last hempty,
      Path.steps_append, Tree.trek_steps_append (by decide)]
    by_cases hdot : last = "."
    · subst hdot
      rw [Path.steps_cons_of_idle (by decide), hslashes, List.append_nil, beq_self_eq_true,
        Bool.true_or, placeAlong_dotted]
      cases disk.tree.trek Mode.ownerMaySearch maxLinks (Tree.startOf disk.cwd path)
        (steps before ++ ["."]) <;> rfl
    · have hidle : Path.isIdle last = false := Path.isIdle_eq_false_iff.mpr ⟨hlast, hdot⟩
      rw [Path.steps_cons_of_named hidle, hslashes, hidle, Bool.and_false, Bool.or_false,
        beq_eq_false_iff_ne.mpr hdot, placeAlong_concat]
      cases disk.tree.trek Mode.ownerMaySearch maxLinks (Tree.startOf disk.cwd path)
        (steps before ++ ["."]) with
      | error e => rfl
      | ok s =>
        simp only [Except.map, Except.bind, hdot, false_or]
        split_ifs <;> rfl

/-! ## Kindred paths that end alike -/

/-- Paths that are not looked at are refused for the same reason. -/
theorem admissible_or_place_eq (disk : Disk) (h : Kindred path other) :
    Path.Admissible path ∨ disk.place path = disk.place other := by
  by_cases hnul : hasNul path = true
  · right
    rw [place, if_pos hnul, place, if_pos (h.hasNul_eq ▸ hnul)]
  by_cases hempty : path = ""
  · right
    rw [hempty, h.empty_iff.mp hempty]
  · exact Or.inl ⟨by simpa using hnul, hempty, h.size_le⟩

theorem vacancy_of_kindred (disk : Disk) (h : Kindred path other)
    (hdot : endsInDot (Path.pieces path) = endsInDot (Path.pieces other)) :
    disk.vacancy path = disk.vacancy other := by
  have hplace : disk.place path = disk.place other := by
    rcases disk.admissible_or_place_eq h with ha | hsame
    · rw [place_eq ha, place_eq (h.admissible ha), h.startOf_eq, h.steps_eq, hdot]
    · exact hsame
  rw [vacancy, vacancy, hplace]

theorem leadsToDirectory_of_kindred (h : Kindred path other)
    (hdot : endsInDot (Path.pieces path) = endsInDot (Path.pieces other)) :
    disk.LeadsToDirectory path l m ↔ disk.LeadsToDirectory other l m := by
  have himp {path other : String} (h : Kindred path other)
      (hdot : endsInDot (Path.pieces path) = endsInDot (Path.pieces other))
      (hd : disk.LeadsToDirectory path l m) : disk.LeadsToDirectory other l m := by
    have ha := hd.1.1
    rw [leadsToDirectory_iff ha, leadsAlong_congr h.isAbsolute_eq, h.steps_eq, hdot] at hd
    exact (leadsToDirectory_iff (h.admissible ha)).mpr hd
  exact ⟨himp h hdot, himp h.symm hdot.symm⟩

theorem showsDirectory_of_kindred (disk : Disk) (h : Kindred path other)
    (hdot : endsInDot (Path.pieces path) = endsInDot (Path.pieces other)) :
    disk.showsDirectory path = disk.showsDirectory other := by
  rw [Bool.eq_iff_iff, showsDirectory_iff, showsDirectory_iff]
  simp only [leadsToDirectory_of_kindred h hdot]

/-- A look tells kindred paths that end alike apart only by a slash behind one of them. -/
theorem lookup?_of_kindred (disk : Disk) (h : Kindred path other)
    (hdot : endsInDot (Path.pieces path) = endsInDot (Path.pieces other))
    (hasks : asksForDirectory path = asksForDirectory other) :
    disk.lookup? true path = disk.lookup? true other := by
  have himp {path other : String} {e : Entry} (h : Kindred path other)
      (hdot : endsInDot (Path.pieces path) = endsInDot (Path.pieces other))
      (hasks : asksForDirectory path = asksForDirectory other)
      (he : disk.lookup? true path = some e) : disk.lookup? true other = some e := by
    cases hname : Path.endsNameless path with
    | true =>
      have hdir := isDirectory_of_endsNameless he hname
      cases e with
      | directory m =>
        obtain ⟨l, hl⟩ := exists_leadsToDirectory he
        exact lookup?_of_leadsToDirectory ((leadsToDirectory_of_kindred h hdot).mp hl)
      | _ => cases hdir
    | false =>
      obtain ⟨l, ⟨ha, left, ht⟩, hl⟩ := lookup?_true_eq_some_iff.mp he
      obtain ⟨before, last, hp, hlast⟩ := Path.exists_pieces_of_not_endsNameless hname
      have hne := (Path.isIdle_eq_false_iff.mp hlast).1
      have hplain : endsInDot (Path.pieces path) = false := by
        rw [hp, Path.endsInDot_of_named (by simp) hlast]
      obtain ⟨before', last', hp', hlast'⟩ :=
        Path.exists_pieces_of_plain (h.admissible ha).ne_empty (hdot.symm.trans hplain)
          (hasks.symm.trans (asksForDirectory_eq_false hp hne))
      have hsteps := h.steps_eq
      rw [hp, hp', Path.steps_append, Path.steps_append, Path.steps_cons_of_named hlast,
        Path.steps_cons_of_named hlast'] at hsteps
      obtain rfl := List.singleton_inj.mp (List.append_inj_right' hsteps rfl)
      refine lookup?_true_eq_some_iff.mpr ⟨l, ⟨h.admissible ha, left, ?_⟩, hl⟩
      rw [hp', Tree.trek_steps_append hne, ← List.append_inj_left' hsteps rfl,
        ← Tree.trek_steps_append hne, ← h.startOf_eq, ← hp]
      exact ht
  exact Option.ext fun e => ⟨himp h hdot hasks, himp h.symm hdot.symm hasks.symm⟩

/-! ## Kindred paths of which one ends in a dot -/

/-- A dot at the end asks for the right to search the directory. -/
theorem leadsToDirectory_of_dotted (h : Path.Dotted path other) :
    disk.LeadsToDirectory other l m ↔
      disk.LeadsToDirectory path l m ∧ m.ownerMaySearch = true := by
  constructor
  · intro hd
    have ha := h.symm.admissible hd.1.1
    rw [leadsToDirectory_iff hd.1.1, ← leadsAlong_congr h.isAbsolute_eq, ← h.steps_eq,
      h.dotted] at hd
    obtain ⟨hl, hm, hmay⟩ := hd
    exact ⟨(leadsToDirectory_iff ha).mpr ⟨hl, hm, by simp [h.plain]⟩, hmay rfl⟩
  · rintro ⟨hd, hmay⟩
    have ha := hd.1.1
    rw [leadsToDirectory_iff ha, leadsAlong_congr h.isAbsolute_eq, h.steps_eq] at hd
    exact (leadsToDirectory_iff (h.admissible ha)).mpr ⟨hd.1, hd.2.1, fun _ => hmay⟩

/-- What is seen behind a dot is a directory, which is seen without the dot too. -/
theorem unseen_of_dotted (h : Path.Dotted path other) (hno : disk.showsDirectory path = false) :
    disk.lookup? true other = none := by
  refine unseen_of_endsNameless (Path.endsNameless_of_endsInDot h.dotted) ?_
  by_contra shows
  obtain ⟨l, m, hl⟩ := showsDirectory_iff.mp (by simpa using shows)
  rw [showsDirectory_iff.mpr ⟨l, m, ((leadsToDirectory_of_dotted h).mp hl).1⟩] at hno
  cases hno

/-- No entry is made at a path that ends in a dot. -/
theorem exists_vacancy_error_of_dotted (disk : Disk) (hdot : endsInDot (Path.pieces other) = true) :
    ∃ cause, disk.vacancy other = .error cause := by
  cases hv : disk.vacancy other with
  | error cause => exact ⟨cause, rfl⟩
  | ok p =>
    obtain ⟨hplace, -⟩ := vacancy_eq_ok_iff.mp hv
    obtain ⟨-, hname, -, before, slashes, -, -, hp, hempty, -⟩ := place_eq_some_iff.mp hplace
    have hidle := Path.isIdle_eq_false_iff.mpr ⟨hname.ne_empty, hname.ne_dot⟩
    rw [hp, Path.endsInDot_of_named hempty hidle] at hdot
    cases hdot

/-- What keeps some components from their place keeps them from that with a dot behind. -/
theorem placeAlong_error_of_plain {start : Location} {components : List String} {e : Errno}
    (named : ∀ c ∈ components, Path.isIdle c = false)
    (h : disk.placeAlong start components false = .error e) :
    disk.placeAlong start components true = .error e := by
  rw [placeAlong_dotted]
  rcases List.eq_nil_or_concat components with rfl | ⟨before, last, rfl⟩
  · cases h
  rw [List.concat_eq_append] at named h ⊢
  obtain ⟨hne, hdot⟩ := Path.isIdle_eq_false_iff.mp (named last (by simp))
  rw [placeAlong_concat] at h
  rw [List.append_assoc, List.singleton_append]
  cases ht : disk.tree.trek Mode.ownerMaySearch maxLinks start (before ++ ["."]) with
  | error e' =>
    rw [ht] at h
    rw [Tree.trek_eq_error_of_dot hne ht]
    exact h
  | ok s =>
    obtain ⟨hbefore, m, hm, hmay⟩ := Tree.exists_directory_of_trek_idle (by decide) ht
    rw [ht] at h
    simp only [Except.bind] at h
    split_ifs at h with hup hlong
    have hturn : disk.tree.turn Mode.ownerMaySearch s.1 last = .error .nameTooLong := by
      rw [Tree.turn_of_directory hm, if_neg hne, if_neg (by simp [hmay (by decide)]), if_neg hdot,
        if_neg hup, if_pos hlong]
    rw [Tree.trek_append_of_ok hbefore, Tree.trek_cons, hturn]
    exact h

theorem vacancy_of_place_error (h : disk.place path = .error cause) :
    disk.vacancy path = .error cause := by
  rw [vacancy, h]
  rfl

/-- What keeps a path from its place keeps it from that with a dot behind. -/
theorem place_error_of_dotted (h : Path.Dotted path other)
    (hplace : disk.place path = .error cause) : disk.place other = .error cause := by
  rcases disk.admissible_or_place_eq h.toKindred with ha | hsame
  · rw [place_eq ha, h.plain] at hplace
    rw [place_eq (h.admissible ha), h.dotted, ← h.startOf_eq, ← h.steps_eq]
    cases hal : disk.placeAlong (Tree.startOf disk.cwd path) (steps (Path.pieces path)) false with
    | ok x =>
      rw [hal] at hplace
      cases hplace
    | error e =>
      have named : ∀ c ∈ steps (Path.pieces path), Path.isIdle c = false := fun c hc => by
        simpa using (List.mem_filter.mp hc).2
      rw [hal] at hplace
      rw [placeAlong_error_of_plain named hal, ← hplace]
  · rw [← hsame, hplace]

end Disk

end UserStorage
