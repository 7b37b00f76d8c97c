import Mathlib.Data.List.Infix
import UserStorage.Proofs.Scratch.Ledger

/-!
# Scratch errands side by side

Errands for scratch files and directories run side by side on one disk, and their draws may repeat.
The path that an errand for a file answers was nobody's when the errand made its file there, and
nobody takes it away. A directory is made in the place of a file that is deleted for it, and in
between the name is free: an errand answers the directory that it has made itself, or the one that
another errand has made at the name after each had deleted the file of its own there.

## Main definitions

* `Scratch.running`: errands side by side
* `Scratch.MadeAt`, `Scratch.ClearedBy`: what the disks along a schedule show of a making, and of a
  deletion of what one has made oneself
* `Scratch.Chronicle`: where the errands' stages have come from
* `Scratch.Returned`: the path that an errand has returned

## Main results

* `Scratch.exists_chronicle`: along every schedule there is such a chronicle
* `Scratch.files_exclusive`: files are nobody else's and stay
* `Scratch.directories_made_once`: who has made a directory, and who may share it
-/

namespace UserStorage.Scratch

/-- Some errands side by side. -/
def running (root : String) (errands : List Errand) (disk : Disk) :
    Pool diskCalls Disk (Except StorageError String) :=
  ⟨disk, errands.map (Errand.program root)⟩

variable {α : Type} {pool : Pool diskCalls Disk α} {root path : String} {schedule past : List Nat}
  {stages : Nat → Stage} {stage : Stage} {i j : Nat} {n : Name} {d : Location} {e : Entry}

/-! ## Along a schedule -/

/-- The disk after some steps of a pool. -/
def diskAfter (pool : Pool diskCalls Disk α) (past : List Nat) : Disk :=
  (pool.follow Disk.perform past).state

/-- With the step behind `past` one program has made an entry where there was none, and it has been
there ever since. -/
structure MadeAt (pool : Pool diskCalls Disk α) (schedule past : List Nat) (i : Nat)
    (path : String) (e : Entry) : Prop where
  turn : past ++ [i] <+: schedule
  absent : (diskAfter pool past).lookup? false path = none
  lasting {later : List Nat} (h : past ++ [i] <+: later) (hlater : later <+: schedule) :
    (diskAfter pool later).lookup? false path = some e

/-- With one of its steps a program has deleted the file that it had made itself and that had been
there ever since. -/
def ClearedBy (pool : Pool diskCalls Disk α) (schedule : List Nat) (i : Nat) (path : String) :
    Prop :=
  ∃ past, past ++ [i] <+: schedule ∧
    (∃ earlier, MadeAt pool past earlier i path pool.state.newFile) ∧
    (diskAfter pool (past ++ [i])).lookup? false path = none

theorem ClearedBy.mono {later : List Nat} (h : ClearedBy pool schedule i path)
    (hle : schedule <+: later) : ClearedBy pool later i path := by
  obtain ⟨past, hturn, hfile, hgone⟩ := h
  exact ⟨past, hturn.trans hle, hfile, hgone⟩

namespace MadeAt

/-- What has been made is there. -/
theorem lookup?_eq (h : MadeAt pool schedule past i path e) :
    (diskAfter pool schedule).lookup? false path = some e :=
  h.lasting h.turn List.prefix_rfl

/-- What is still there after one step more was there all the time. -/
theorem snoc (h : MadeAt pool schedule past i path e)
    (hnow : (diskAfter pool (schedule ++ [j])).lookup? false path = some e) :
    MadeAt pool (schedule ++ [j]) past i path e where
  turn := h.turn.trans (List.prefix_append schedule [j])
  absent := h.absent
  lasting {later} hafter hlater := by
    rcases List.prefix_concat_iff.mp hlater with rfl | hlater
    · exact hnow
    · exact h.lasting hafter hlater

/-- What was not there before the last step was made with it. -/
theorem of_last (habsent : (diskAfter pool schedule).lookup? false path = none)
    (hnow : (diskAfter pool (schedule ++ [i])).lookup? false path = some e) :
    MadeAt pool (schedule ++ [i]) schedule i path e where
  turn := List.prefix_rfl
  absent := habsent
  lasting {later} hafter hlater := by
    obtain rfl := hafter.eq_of_length (le_antisymm hafter.length_le hlater.length_le)
    exact hnow

/-- What is made is made by a program of the pool. -/
theorem lt_length (h : MadeAt pool schedule past i path e) : i < pool.tasks.length := by
  by_contra hno
  have hlength := Pool.length_tasks_follow Disk.perform pool past
  have hnone : (pool.follow Disk.perform past).tasks[i]? = none :=
    List.getElem?_eq_none (by omega)
  have hsame : diskAfter pool (past ++ [i]) = diskAfter pool past := by
    have hstep := Pool.follow_snoc Disk.perform pool past i
    simp only [Pool.step, hnone] at hstep
    exact congrArg Pool.state hstep
  have hthere := h.lasting List.prefix_rfl h.turn
  rw [hsame, h.absent] at hthere
  cases hthere

/-- A file that was deleted where there is something else now was deleted before that was made. -/
theorem clearedBy (h : MadeAt pool schedule past i path e) (hne : e ≠ pool.state.newFile)
    (hcleared : ClearedBy pool schedule j path) : ClearedBy pool past j path := by
  obtain ⟨early, hturn, ⟨earlier, hmade⟩, hgone⟩ := hcleared
  have hfile := hmade.lookup?_eq
  refine ⟨early, ?_, ⟨earlier, hmade⟩, hgone⟩
  have hearly : early <+: schedule := (List.prefix_append early [j]).trans hturn
  -- the file was there neither just before the making nor at any time since
  have hnotsince : ¬ past ++ [i] <+: early := by
    intro hsince
    rw [h.lasting hsince hearly] at hfile
    exact hne (Option.some.inj hfile)
  have hbefore : early <+: past := by
    rcases List.prefix_or_prefix_of_prefix hearly h.turn with hle | hle
    · rcases List.prefix_concat_iff.mp hle with rfl | hle
      · exact absurd List.prefix_rfl hnotsince
      · exact hle
    · exact absurd hle hnotsince
  rcases List.prefix_or_prefix_of_prefix hturn
    ((List.prefix_append past [i]).trans h.turn) with hle | hle
  · exact hle
  · rcases List.prefix_concat_iff.mp hle with heq | hle
    · rw [heq]
    · obtain rfl := hbefore.eq_of_length (le_antisymm hbefore.length_le hle.length_le)
      rw [h.absent] at hfile
      cases hfile

end MadeAt

/-! ## The chronicle -/

/-- The name at which an errand has deleted its file. -/
def Stage.given? : Stage → Option Name
  | cleared n | obtained n => some n
  | free | holds _ => none

/-- Where the errands' stages after a schedule have come from. -/
structure Chronicle (pool : Pool diskCalls Disk α) (root : String) (schedule : List Nat)
    (stages : Nat → Stage) : Prop where
  ledger : Ledger pool.state root stages (diskAfter pool schedule)
  /-- An errand that holds a name has made its file there. -/
  file {i : Nat} {n : Name} (h : stages i = .holds n) :
    ∃ past, MadeAt pool schedule past i (pathIn root n) pool.state.newFile
  /-- An errand that goes for a directory has deleted its file. -/
  cleared {i : Nat} {n : Name} (h : (stages i).given? = some n) :
    ClearedBy pool schedule i (pathIn root n)
  /-- A directory at a scratch name was made by one of the errands, which has obtained it. -/
  directory {n : Name} {d : Location} (hv : pool.state.vacancy (pathIn root n) = .ok (n, d))
    (h : (diskAfter pool schedule).tree.get? (n :: d) = some pool.state.newDirectory) :
    ∃ past m, MadeAt pool schedule past m (pathIn root n) pool.state.newDirectory ∧
      stages m = .obtained n

theorem chronicle_start (pool : Pool diskCalls Disk α) (root : String) :
    Chronicle pool root [] fun _ => .free where
  ledger := ledger_start pool.state root
  file h := by cases h
  cleared h := by cases h
  directory hv h := by
    obtain ⟨-, hfree, -⟩ := Disk.vacancy_eq_ok_iff.mp hv
    rw [show diskAfter pool [] = pool.state from rfl, hfree] at h
    cases h

/-- A look at a scratch path finds what the ledger has at its place. -/
theorem Ledger.lookup?_eq {start disk : Disk} (h : Ledger start root stages disk)
    (hv : start.vacancy (pathIn root n) = .ok (n, d)) :
    disk.lookup? false (pathIn root n) = disk.tree.get? (n :: d) :=
  lookup?_pathIn (h.place_mayChange hv).1

namespace Chronicle

/-- A step that changes neither the disk nor a stage. -/
theorem quiet (h : Chronicle pool root schedule stages)
    (hsame : diskAfter pool (schedule ++ [i]) = diskAfter pool schedule) :
    Chronicle pool root (schedule ++ [i]) stages where
  ledger := hsame ▸ h.ledger
  file {j n} hj := by
    obtain ⟨past, hmade⟩ := h.file hj
    obtain ⟨d, hv⟩ := h.ledger.vacant (i := j) (by rw [hj]; rfl)
    refine ⟨past, hmade.snoc ?_⟩
    rw [hsame, h.ledger.lookup?_eq hv]
    exact h.ledger.held hj hv
  cleared hj := (h.cleared hj).mono (List.prefix_append schedule [i])
  directory {n d} hv hd := by
    rw [hsame] at hd
    obtain ⟨past, m, hmade, hm⟩ := h.directory hv hd
    refine ⟨past, m, hmade.snoc ?_, hm⟩
    rw [hsame, h.ledger.lookup?_eq hv]
    exact hd

/-- Whoever holds a name after a move has held it before, or has just made its file. -/
theorem file_of_move (h : Chronicle pool root schedule stages)
    (hmove : Moves root (stages i) (diskAfter pool schedule) stage
      (diskAfter pool (schedule ++ [i])))
    (hj : Function.update stages i stage j = .holds n) :
    ∃ past, MadeAt pool (schedule ++ [i]) past j (pathIn root n) pool.state.newFile := by
  have hafter := h.ledger.move hmove
  obtain ⟨d, hv⟩ := hafter.vacant (i := j) (by rw [hj]; rfl)
  have hnow : (diskAfter pool (schedule ++ [i])).lookup? false (pathIn root n) =
      some pool.state.newFile := by
    rw [hafter.lookup?_eq hv]
    exact hafter.held hj hv
  by_cases hji : j = i
  · subst hji
    rw [Function.update_self] at hj
    subst hj
    -- only a reservation leads to this stage, and then nothing was there
    generalize stages j = before at hmove
    generalize hdisk : diskAfter pool (schedule ++ [j]) = after at hmove
    cases hmove with
    | reserve vacant =>
      obtain ⟨-, hfree, -⟩ := Disk.vacancy_eq_ok_iff.mp vacant
      have hstart := h.ledger.vacancy_start vacant
      refine ⟨schedule, .of_last ?_ hnow⟩
      rw [h.ledger.lookup?_eq hstart, hfree]
  · rw [Function.update_of_ne hji] at hj
    obtain ⟨past, hmade⟩ := h.file hj
    exact ⟨past, hmade.snoc hnow⟩

/-- Whoever has given up a name by a move had done so before, or has just deleted its file. -/
theorem cleared_of_move (h : Chronicle pool root schedule stages)
    (hmove : Moves root (stages i) (diskAfter pool schedule) stage
      (diskAfter pool (schedule ++ [i])))
    (hj : (Function.update stages i stage j).given? = some n) :
    ClearedBy pool (schedule ++ [i]) j (pathIn root n) := by
  have hmore : schedule <+: schedule ++ [i] := List.prefix_append schedule [i]
  have hafter := h.ledger.move hmove
  by_cases hji : j = i
  · subst hji
    rw [Function.update_self] at hj
    generalize hi : stages j = before at hmove
    generalize hdisk : diskAfter pool (schedule ++ [j]) = after at hmove hafter
    have already (hgiven : before.given? = some n) :
        ClearedBy pool (schedule ++ [j]) j (pathIn root n) :=
      (h.cleared (by rw [hi, hgiven])).mono hmore
    cases hmove with
    | refused => cases hj
    | reserve => cases hj
    | overtaken => exact already hj
    | make => exact already hj
    | find => exact already hj
    | @clear _ k c place =>
      obtain rfl : k = n := Option.some.inj hj
      obtain ⟨hv, hget⟩ := h.ledger.get?_remove hi place
      refine ⟨schedule, List.prefix_rfl, h.file hi, ?_⟩
      rw [hdisk, hafter.lookup?_eq hv]
      exact (hget _).trans (if_pos rfl)
  · rw [Function.update_of_ne hji] at hj
    exact (h.cleared hj).mono hmore

/-- A directory at a scratch name after a move was there before, or was just made by an errand that
has obtained it so. -/
theorem directory_of_move (h : Chronicle pool root schedule stages)
    (hmove : Moves root (stages i) (diskAfter pool schedule) stage
      (diskAfter pool (schedule ++ [i])))
    (hv : pool.state.vacancy (pathIn root n) = .ok (n, d))
    (hd : (diskAfter pool (schedule ++ [i])).tree.get? (n :: d) =
      some pool.state.newDirectory) :
    ∃ past m, MadeAt pool (schedule ++ [i]) past m (pathIn root n) pool.state.newDirectory ∧
      Function.update stages i stage m = .obtained n := by
  have hafter := h.ledger.move hmove
  have hnow : (diskAfter pool (schedule ++ [i])).lookup? false (pathIn root n) =
      some pool.state.newDirectory := by
    rw [hafter.lookup?_eq hv]
    exact hd
  by_cases hthere : (diskAfter pool schedule).tree.get? (n :: d) = some pool.state.newDirectory
  · obtain ⟨past, m, hmade, hm⟩ := h.directory hv hthere
    refine ⟨past, m, hmade.snoc hnow, ?_⟩
    by_cases hmi : m = i
    · -- nothing leads away from a directory that was obtained
      subst hmi
      rw [hm] at hmove
      cases hmove
    · rw [Function.update_of_ne hmi]
      exact hm
  · generalize hi : stages i = before at hmove
    generalize hdisk : diskAfter pool (schedule ++ [i]) = after at hmove hd
    cases hmove with
    | refused => exact absurd hd hthere
    | overtaken => exact absurd hd hthere
    | find => exact absurd hd hthere
    | @reserve _ k c vacant =>
      rw [Disk.get?_adding_of_vacancy vacant] at hd
      split_ifs at hd with hl
      · rw [Disk.newFile_of_le h.ledger.le] at hd
        exact absurd (Option.some.inj hd) (newFile_ne_newDirectory pool.state)
      · exact absurd hd hthere
    | @clear _ k c place =>
      obtain ⟨-, hget⟩ := h.ledger.get?_remove hi place
      rw [hget] at hd
      split_ifs at hd with hl
      exact absurd hd hthere
    | @make _ k c vacant =>
      rw [Disk.get?_adding_of_vacancy vacant] at hd
      split_ifs at hd with hl
      · obtain ⟨rfl, rfl⟩ := List.cons.inj hl
        obtain ⟨-, hfree, -⟩ := Disk.vacancy_eq_ok_iff.mp vacant
        refine ⟨schedule, i, .of_last ?_ hnow, Function.update_self i _ _⟩
        rw [h.ledger.lookup?_eq hv, hfree]
      · exact absurd hd hthere

theorem move (h : Chronicle pool root schedule stages)
    (hmove : Moves root (stages i) (diskAfter pool schedule) stage
      (diskAfter pool (schedule ++ [i]))) :
    Chronicle pool root (schedule ++ [i]) (Function.update stages i stage) where
  ledger := h.ledger.move hmove
  file := h.file_of_move hmove
  cleared := h.cleared_of_move hmove
  directory := h.directory_of_move hmove

end Chronicle

/-! ## What has been returned -/

section Returned

variable {errands : List Errand}

/-- Along a schedule an errand has come to its end with a path. -/
def Returned (root : String) (errands : List Errand) (disk : Disk) (schedule : List Nat) (i : Nat)
    (path : String) : Prop :=
  ((running root errands disk).follow Disk.perform schedule).answer? i = some (.ok path)

instance (root : String) (errands : List Errand) (disk : Disk) (schedule : List Nat) (i : Nat)
    (path : String) : Decidable (Returned root errands disk schedule i path) :=
  inferInstanceAs (Decidable (_ = _))

/-- Along every schedule of errands whose tags hold no slash there is a chronicle. What an errand
has returned is what it has by its stage, and one that has obtained a directory has returned it. -/
theorem exists_chronicle (root : String) (disk : Disk)
    (hdraw : ∀ errand ∈ errands, ∀ k, '/' ∉ (errand.draw k).toList) (schedule : List Nat) :
    ∃ stages, Chronicle (running root errands disk) root schedule stages ∧
      (∀ i path, Returned root errands disk schedule i path →
        ∃ errand k, errands[i]? = some errand ∧ path = pathIn root (nameOf (errand.draw k)) ∧
          stages i = errand.purpose.last (nameOf (errand.draw k))) ∧
      ∀ i n, i < errands.length → stages i = .obtained n →
        Returned root errands disk schedule i (pathIn root n) := by
  have hproceeds (i : Nat) (p : DiskProgram (Except StorageError String))
      (hp : (running root errands disk).tasks[i]? = some p) :
      Program.Proceeds (S := diskCalls) Disk.perform (protocol root)
        (fun stage answer => ∃ errand, errands[i]? = some errand ∧ errand.Ends root stage answer)
        p .free := by
    rw [running, List.getElem?_map] at hp
    obtain ⟨errand, herrand, rfl⟩ := Option.map_eq_some_iff.mp hp
    have hthis := Proceeds.iff.mp
      (errand.proceeds root (hdraw errand (List.mem_of_getElem? herrand)))
    exact hthis.imp fun stage answer hends => ⟨errand, herrand, hends⟩
  obtain ⟨stages, hchronicle, htasks⟩ := Pool.exists_stages_follow
    (Chronicle (running root errands disk) root) (chronicle_start _ root) hproceeds
    (fun past stages h i => h.ledger.fits i) (fun past stages i h hsame => h.quiet hsame)
    (fun past stages i stage h hmove => h.move hmove) schedule
  refine ⟨stages, hchronicle, ?_, ?_⟩
  · intro i path hreturned
    obtain ⟨p, hp, ha⟩ := Option.bind_eq_some_iff.mp hreturned
    obtain ⟨errand, herrand, k, hpath, hstage⟩ := (htasks i p hp).of_answer? ha
    exact ⟨errand, k, herrand, hpath, hstage⟩
  · intro i n hi hn
    have hlength := Pool.length_tasks_follow Disk.perform (running root errands disk) schedule
    have hi' : i < ((running root errands disk).follow Disk.perform schedule).tasks.length := by
      rw [hlength, running, List.length_map]
      exact hi
    have hlast (s : Disk) (t : Stage) (s' : Disk) : ¬ (protocol root).moves (stages i) s t s' := by
      rw [hn]
      intro hmove
      cases hmove
    obtain ⟨answer, hanswer, errand, -, hends⟩ :=
      (htasks i _ (List.getElem?_eq_getElem hi')).exists_answer? (hchronicle.ledger.fits i) hlast
    rw [hn] at hends
    obtain rfl := hends.eq_ok
    exact Option.bind_eq_some_iff.mpr ⟨_, List.getElem?_eq_getElem hi', hanswer⟩

/-! ## Files -/

/-- What was on the disk before the errands stays all along. The path that an errand for a file has
returned ends in a scratch name of one of its tags. There was nothing at it when the errand made its
file there, the file has been there ever since, and no other errand has returned the path. -/
theorem files_exclusive (root : String) (disk : Disk)
    (hdraw : ∀ errand ∈ errands, ∀ k, '/' ∉ (errand.draw k).toList) (schedule : List Nat) :
    (∀ past, past <+: schedule → disk ≤ diskAfter (running root errands disk) past) ∧
      ∀ i draw path, errands[i]? = some ⟨.file, draw⟩ →
        Returned root errands disk schedule i path →
          (∃ k, path = pathIn root (nameOf (draw k)) ∧
            Path.fileName? path = some (nameStart ++ draw k ++ nameEnd)) ∧
          (∃ past, MadeAt (running root errands disk) schedule past i path disk.newFile) ∧
          ∀ j other, j ≠ i → Returned root errands disk schedule j other → other ≠ path := by
  constructor
  · intro past _
    obtain ⟨stages, h, -⟩ := exists_chronicle root disk hdraw past
    exact h.ledger.le
  · intro i draw path hi hreturned
    obtain ⟨stages, h, hreturn, -⟩ := exists_chronicle root disk hdraw schedule
    obtain ⟨errand, k, herrand, rfl, hstage⟩ := hreturn i path hreturned
    obtain rfl : (⟨.file, draw⟩ : Errand) = errand := Option.some.inj (hi.symm.trans herrand)
    have hslash : '/' ∉ (draw k).toList := hdraw _ (List.mem_of_getElem? hi) k
    refine ⟨⟨k, rfl, fileName?_pathIn root (slashFree_nameOf hslash) (isName_nameOf _)⟩,
      h.file hstage, ?_⟩
    rintro j other hji hother rfl
    obtain ⟨⟨purpose, tags⟩, l, -, hpath, hother⟩ := hreturn j _ hother
    rw [← pathIn_injective root hpath] at hother
    cases purpose with
    | file => exact hji (h.ledger.unique hother hstage)
    | directory => exact h.ledger.not_obtained hstage hother

/-- An errand for a directory and two for files, all with the same draws. -/
def rivals : List Errand := [⟨.directory, tagOf⟩, ⟨.file, tagOf⟩, ⟨.file, tagOf⟩]

/-- The schedule in which the first file gets the second name, and the other one the first name when
it has been given up for a directory. -/
def takenInGap : List Nat := [0, 1, 1, 0, 0, 2, 0, 0, 0]

theorem slashFree_rivals : ∀ errand ∈ rivals, ∀ k, '/' ∉ (errand.draw k).toList := by
  intro errand hmem k
  simp only [rivals, List.mem_cons, List.not_mem_nil, or_false] at hmem
  rcases hmem with rfl | rfl | rfl <;> exact slashFree_tagOf k

/-- A file whose name was given up for a directory is nobody else's. -/
theorem file_exclusive_in_gap :
    Returned "/" rivals Disk.bare takenInGap 1 "/SIPCOMM100000TEMP" ∧
      Returned "/" rivals Disk.bare takenInGap 2 "/SIPCOMM000000TEMP" ∧
      (∃ past, MadeAt (running "/" rivals Disk.bare) takenInGap past 2 "/SIPCOMM000000TEMP"
        Disk.bare.newFile) ∧
      ∀ j other, j ≠ 2 → Returned "/" rivals Disk.bare takenInGap j other →
        other ≠ "/SIPCOMM000000TEMP" := by
  have hfirst : Returned "/" rivals Disk.bare takenInGap 1 "/SIPCOMM100000TEMP" := by
    decide +kernel
  have hsecond : Returned "/" rivals Disk.bare takenInGap 2 "/SIPCOMM000000TEMP" := by
    decide +kernel
  obtain ⟨-, hfiles⟩ := files_exclusive "/" Disk.bare slashFree_rivals takenInGap
  obtain ⟨-, hmade, hother⟩ := hfiles 2 tagOf _ rfl hsecond
  exact ⟨hfirst, hsecond, hmade, hother⟩

/-! ## Directories -/

/-- Where an errand for a directory has returned one, there was nothing before the errands. The
directory was made with one step, by an errand that has returned it too, and has been there ever
since. Before that step every errand that has returned its path had deleted the file that it had
itself made there. -/
theorem directories_made_once (root : String) (disk : Disk)
    (hdraw : ∀ errand ∈ errands, ∀ k, '/' ∉ (errand.draw k).toList) (schedule : List Nat)
    (draw : Nat → String) (hi : errands[i]? = some ⟨.directory, draw⟩)
    (hreturned : Returned root errands disk schedule i path) :
    disk.lookup? false path = none ∧
      ∃ past m, MadeAt (running root errands disk) schedule past m path disk.newDirectory ∧
        Returned root errands disk schedule m path ∧
        ∀ j, Returned root errands disk schedule j path →
          ClearedBy (running root errands disk) past j path := by
  obtain ⟨stages, h, hreturn, hobtained⟩ := exists_chronicle root disk hdraw schedule
  obtain ⟨errand, k, herrand, rfl, hstage⟩ := hreturn i path hreturned
  obtain rfl : (⟨.directory, draw⟩ : Errand) = errand := Option.some.inj (hi.symm.trans herrand)
  obtain ⟨d, hv⟩ := h.ledger.vacant (i := i) (by rw [hstage]; rfl)
  obtain ⟨hplace, hfree, -⟩ := Disk.vacancy_eq_ok_iff.mp hv
  obtain ⟨past, m, hmade, hm⟩ := h.directory hv (h.ledger.obtained hstage hv)
  have hlength : m < errands.length := by
    have hlt := hmade.lt_length
    rwa [running, List.length_map] at hlt
  refine ⟨(lookup?_pathIn hplace).trans hfree, past, m, hmade, hobtained m _ hlength hm, ?_⟩
  intro j hj
  obtain ⟨⟨purpose, tags⟩, l, -, hpath, hother⟩ := hreturn j _ hj
  rw [← pathIn_injective root hpath] at hother
  cases purpose with
  | file => exact (h.ledger.not_obtained hother hstage).elim
  | directory =>
    exact hmade.clearedBy (newFile_ne_newDirectory disk).symm (h.cleared (by rw [hother]; rfl))

/-- Two errands for directories with the same draws. -/
def twins : List Errand := [⟨.directory, tagOf⟩, ⟨.directory, tagOf⟩]

/-- The schedule in which one errand has given up its name when the other takes it, gives it up in
turn and makes its directory. -/
def overtakenInGap : List Nat := [0, 0, 0, 1, 1, 1, 1, 0, 0]

theorem slashFree_twins : ∀ errand ∈ twins, ∀ k, '/' ∉ (errand.draw k).toList := by
  intro errand hmem k
  simp only [twins, List.mem_cons, List.not_mem_nil, or_false] at hmem
  rcases hmem with rfl | rfl <;> exact slashFree_tagOf k

theorem returned_twins :
    Returned "/" twins Disk.bare overtakenInGap 0 "/SIPCOMM000000TEMP" ∧
      Returned "/" twins Disk.bare overtakenInGap 1 "/SIPCOMM000000TEMP" := by
  decide +kernel

/-- A directory that both have returned was made after each had deleted the file of its own. -/
theorem twin_directory_made_once :
    Returned "/" twins Disk.bare overtakenInGap 0 "/SIPCOMM000000TEMP" ∧
      ∃ past m, MadeAt (running "/" twins Disk.bare) overtakenInGap past m "/SIPCOMM000000TEMP"
          Disk.bare.newDirectory ∧
        ClearedBy (running "/" twins Disk.bare) past 0 "/SIPCOMM000000TEMP" ∧
        ClearedBy (running "/" twins Disk.bare) past 1 "/SIPCOMM000000TEMP" := by
  obtain ⟨hfirst, hsecond⟩ := returned_twins
  obtain ⟨-, past, m, hmade, -, hcleared⟩ := directories_made_once "/" Disk.bare
    slashFree_twins overtakenInGap tagOf rfl hfirst
  exact ⟨hfirst, past, m, hmade, hcleared 0 hfirst, hcleared 1 hsecond⟩

/-- Two errands can return one directory, and then not each has made it. -/
theorem twin_directory_shared :
    Returned "/" twins Disk.bare overtakenInGap 0 "/SIPCOMM000000TEMP" ∧
      Returned "/" twins Disk.bare overtakenInGap 1 "/SIPCOMM000000TEMP" ∧
      ∀ past, ¬ MadeAt (running "/" twins Disk.bare) overtakenInGap past 0 "/SIPCOMM000000TEMP"
        Disk.bare.newDirectory := by
  refine ⟨returned_twins.1, returned_twins.2, fun past hmade => ?_⟩
  -- whenever it is the first one's turn there is no directory after it, or something before it
  have hnever : ∀ past ∈ overtakenInGap.inits, past ++ [0] <+: overtakenInGap →
      ((diskAfter (running "/" twins Disk.bare) past).lookup? false
        "/SIPCOMM000000TEMP").isSome = true ∨
      ((diskAfter (running "/" twins Disk.bare) (past ++ [0])).lookup? false
        "/SIPCOMM000000TEMP").map Entry.kind ≠ some .directory := by
    decide +kernel
  have hmem : past ∈ overtakenInGap.inits :=
    (List.mem_inits _ _).mpr ((List.prefix_append past [0]).trans hmade.turn)
  rcases hnever past hmem hmade.turn with hbefore | hafter
  · rw [hmade.absent] at hbefore
    cases hbefore
  · exact hafter (congrArg (Option.map Entry.kind) (hmade.lasting List.prefix_rfl hmade.turn))

end Returned

end UserStorage.Scratch
