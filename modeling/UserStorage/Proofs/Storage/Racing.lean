import Mathlib.Data.List.Infix
import UserStorage.Proofs.Storage.Histories
import UserStorage.Storage.PrivateFile

/-!
# Probes for one file side by side

Some callers probe for the same file under the same home, and some of those who are told that it is
not there make it. The rights of the file are asked for first and the file is looked at last, and
they are not asked for again when the last look finds it. So, where the containing directory allows
making whenever it is seen, a probe is denied exactly when the file granted nothing at the first
looks and is there at the last one. Where the file grants its rights whenever it is there, that is
exactly when it was made in between.

## Main definitions

* `Storage.caller`, `Storage.callers`: a probe with what its caller does then, and some of them
* `Storage.OpenWhereSeen`, `Storage.GrantsWhereSeen`: a directory that allows making and a file that
  grants its rights, where they are seen
* `Storage.MuteThenSeen`, `Storage.MadeMeanwhile`: what came between the looks of a history

## Main results

* `Storage.exists_of_accessibleFile`: the history of a probe
* `Storage.denied_iff_of_interleaving`: when a probe is denied, in every interleaving of callers
-/

namespace UserStorage.Storage

open DiskProgram

variable {home name p : String} {answer : Except StorageError Probe}
  {history : List (DiskCall × Disk)}

/-! ## One probe along its history -/

/-- The directory allows making where it is seen. -/
def OpenWhereSeen (directory : String) (disk : Disk) : Prop :=
  (disk.lookup? true directory).isSome = true → disk.allowsMaking directory = true

/-- The file grants reading and writing where it is there. -/
def GrantsWhereSeen (file : String) (disk : Disk) : Prop :=
  (disk.lookup? false file).isSome = true →
    disk.grants file .read = true ∧ disk.grants file .write = true

instance (directory : String) (disk : Disk) : Decidable (OpenWhereSeen directory disk) :=
  inferInstanceAs (Decidable (_ → _))

instance (file : String) (disk : Disk) : Decidable (GrantsWhereSeen file disk) :=
  inferInstanceAs (Decidable (_ → _))

/-- The file granted neither right when it was asked for it, and was there at the last look. -/
def MuteThenSeen (file : String) (history : List (DiskCall × Disk)) : Prop :=
  ∃ first second last, (.grants file .read, first) ∈ history ∧ first.grants file .read = false ∧
    (.grants file .write, second) ∈ history ∧ second.grants file .write = false ∧
    (.ownKindOf file, last) ∈ history ∧ (last.lookup? false file).isSome = true

/-- The file was not there when it was asked whether it grants writing, and was there at the last
look. -/
def MadeMeanwhile (file : String) (history : List (DiskCall × Disk)) : Prop :=
  ∃ early late, (.grants file .write, early) ∈ history ∧ early.lookup? false file = none ∧
    (.ownKindOf file, late) ∈ history ∧ (late.lookup? false file).isSome = true

/-- The last look is the only one of its kind, and it decides. -/
theorem exists_of_vacantOrDenied {file : String}
    (h : AnswersAlong (vacantOrDenied file) history answer) :
    ∃ s, history = [(.ownKindOf file, s)] ∧
      (answer = .ok (.denied file) ↔ (s.lookup? false file).isSome = true) ∧
      ∀ p, answer = .ok (.denied p) → p = file := by
  rw [vacantOrDenied] at h
  obtain ⟨s, rest, rfl, hrest⟩ := h.exists_of_ownKindOf
  rw [Option.isSome_map] at hrest
  cases hseen : (s.lookup? false file).isSome with
  | true =>
    rw [hseen, if_pos rfl] at hrest
    obtain ⟨rfl, rfl⟩ := hrest.of_report_bind.of_pure
    refine ⟨s, rfl, by simp [hseen], fun p hp => ?_⟩
    cases hp
    rfl
  | false =>
    rw [hseen, if_neg (by decide)] at hrest
    obtain ⟨rfl, rfl⟩ := hrest.of_pure
    refine ⟨s, rfl, by simp [hseen], fun p hp => ?_⟩
    cases hp

/-- What a directory was seen to be it still is on a disk that has grown. -/
theorem allowsMaking_of_le {directory : String} {first second : Disk}
    (hseen : (first.lookup? true directory).isSome = true) (hle : first ≤ second)
    (hopen : OpenWhereSeen directory second) : second.allowsMaking directory = true := by
  apply hopen
  obtain ⟨e, he⟩ := Option.isSome_iff_exists.mp hseen
  rw [Disk.lookup?_mono hle he]
  rfl

/-- The last of some looks is the only one at the file itself, and it decides. -/
def DecidedLast (file : String) (looks : List (DiskCall × Disk))
    (answer : Except StorageError Probe) : Prop :=
  ∃ before last, looks = before ++ [(.ownKindOf file, last)] ∧
    (∀ look ∈ before, look.1 ≠ .ownKindOf file) ∧
    (answer = .ok (.denied file) ↔ (last.lookup? false file).isSome = true) ∧
    ∀ p, answer = .ok (.denied p) → p = file

/-- Nothing is denied, and there is no look at the file itself. -/
def Undecided (file : String) (looks : List (DiskCall × Disk))
    (answer : Except StorageError Probe) : Prop :=
  (∀ p, answer ≠ .ok (.denied p)) ∧ ∀ look ∈ looks, look.1 ≠ .ownKindOf file

theorem DecidedLast.of_vacantOrDenied {file : String} {before rest : List (DiskCall × Disk)}
    (others : ∀ look ∈ before, look.1 ≠ .ownKindOf file)
    (h : AnswersAlong (vacantOrDenied file) rest answer) :
    DecidedLast file (before ++ rest) answer := by
  obtain ⟨last, rfl, hdecides⟩ := exists_of_vacantOrDenied h
  exact ⟨before, last, rfl, others, hdecides⟩

theorem DecidedLast.cons {file : String} {look : DiskCall × Disk} {looks : List (DiskCall × Disk)}
    (h : DecidedLast file looks answer) (other : look.1 ≠ .ownKindOf file) :
    DecidedLast file (look :: looks) answer := by
  obtain ⟨before, last, rfl, others, hdecides⟩ := h
  exact ⟨look :: before, last, rfl, List.forall_mem_cons.mpr ⟨other, others⟩, hdecides⟩

theorem Undecided.cons {file : String} {look : DiskCall × Disk} {looks : List (DiskCall × Disk)}
    (h : Undecided file looks answer) (other : look.1 ≠ .ownKindOf file) :
    Undecided file (look :: looks) answer :=
  ⟨h.1, List.forall_mem_cons.mpr ⟨other, h.2⟩⟩

/-- An answer that is no denial is given without a look. -/
theorem undecided_of_pure {file : String} {reply : Except StorageError Probe}
    {looks : List (DiskCall × Disk)} (h : AnswersAlong (pure reply) looks answer)
    (hreply : ∀ p, reply ≠ .ok (.denied p)) : Undecided file looks answer := by
  obtain ⟨rfl, rfl⟩ := h.of_pure
  exact ⟨hreply, fun look hmem => by cases hmem⟩

/-- Where the directory was seen, it is seen and allows making at the two looks at it that follow. -/
theorem decidedLast_of_seen {file directory : String} {seen : Disk}
    {f : Bool → DiskProgram (Except StorageError Probe)} {looks : List (DiskCall × Disk)}
    (hf : f true = vacantOrDenied file)
    (h : AnswersAlong (grantsMaking directory >>= f) looks answer)
    (hseen : (seen.lookup? true directory).isSome = true) (later : ∀ look ∈ looks, seen ≤ look.2)
    (hopen : ∀ look ∈ looks, OpenWhereSeen directory look.2) : DecidedLast file looks answer := by
  obtain ⟨first, rest, rfl, hmaking⟩ := exists_of_grantsMaking h
  have hfirst : first.allowsMaking directory = true :=
    allowsMaking_of_le hseen (later (.kindOf directory, first) (by simp))
      (hopen (.kindOf directory, first) (by simp))
  rcases hmaking with ⟨hno, -⟩ | ⟨second, rest, -, rfl, hlast⟩
  · rw [Disk.showsDirectory_of_allowsMaking hfirst] at hno
    cases hno
  have hsecond : second.allowsMaking directory = true :=
    allowsMaking_of_le hseen (later (.grants directory .writeAndSearch, second) (by simp))
      (hopen (.grants directory .writeAndSearch, second) (by simp))
  rw [(Bool.and_eq_true_iff.mp hsecond).2, hf] at hlast
  have others : ∀ look ∈ [(DiskCall.kindOf directory, first),
      (DiskCall.grants directory .writeAndSearch, second)], look.1 ≠ .ownKindOf file := by
    simp
  exact .of_vacantOrDenied others hlast

/-- Where the directory was not seen it is made first, with calls that look at no file. -/
theorem decidedLast_or_undecided_of_unseen (file : String) {directory : String}
    {f : Except IoError Unit → DiskProgram (Except StorageError Probe)}
    {looks : List (DiskCall × Disk)} (h : AnswersAlong (createDirectory directory >>= f) looks answer)
    (hok : ∀ {rest}, AnswersAlong (f (.ok ())) rest answer →
      AnswersAlong (vacantOrDenied file) rest answer)
    (herror : ∀ {cause rest}, AnswersAlong (f (.error cause)) rest answer →
      Undecided file rest answer) :
    DecidedLast file looks answer ∨ Undecided file looks answer := by
  obtain ⟨made, rest, reply, rfl, hmade, hrest⟩ := h.exists_of_bind
  -- what the making of a directory asks for is not the file's own kind
  have others : ∀ look ∈ made, look.1 ≠ .ownKindOf file := by
    intro look hmem heq
    have hcall := Program.Answers.only hmade (only_createDirectory directory) look hmem
    rw [heq] at hcall
    cases hcall
  cases reply with
  | error cause =>
    obtain ⟨hnone, hrest⟩ := herror hrest
    exact Or.inr ⟨hnone, List.forall_mem_append.mpr ⟨others, hrest⟩⟩
  | ok u => exact Or.inl (.of_vacantOrDenied others (hok hrest))

/-- A probe asks for the two rights first. Then it either answers without a last look at the file,
and denies nothing, or that look decides. -/
theorem exists_of_accessibleFile {file directory : String} (hfile : filePath home name = file)
    (hdir : containingDirectory home file = directory)
    (h : AnswersAlong (accessibleFile home name) history answer)
    (grows : history.Pairwise fun first second => first.2 ≤ second.2)
    (hopen : ∀ look ∈ history, OpenWhereSeen directory look.2) :
    ∃ first second rest,
      history = (.grants file .read, first) :: (.grants file .write, second) :: rest ∧
      (Undecided file rest answer ∨
        first.grants file .read = false ∧ second.grants file .write = false ∧
          DecidedLast file rest answer) := by
  unfold accessibleFile at h
  simp only [hfile, hdir] at h
  obtain ⟨first, rest, rfl, h₁⟩ := h.exists_of_grants
  obtain ⟨second, rest, rfl, h₂⟩ := h₁.exists_of_grants
  refine ⟨first, second, rest, rfl, ?_⟩
  cases hany : first.grants file .read || second.grants file .write with
  | true =>
    rw [hany, if_pos rfl] at h₂
    exact Or.inl (undecided_of_pure h₂ fun p hp => by cases hp)
  | false =>
    rw [hany, if_neg (by decide)] at h₂
    obtain ⟨hread, hwrite⟩ := Bool.or_eq_false_iff.mp hany
    obtain ⟨third, rest, rfl, h₃⟩ := exists_of_isSeen h₂
    have other : (DiskCall.kindOf directory, third).1 ≠ .ownKindOf file := by simp
    cases hseen : (third.lookup? true directory).isSome with
    | true =>
      rw [hseen, if_pos rfl] at h₃
      have later := (List.pairwise_cons.mp
        (List.pairwise_cons.mp (List.pairwise_cons.mp grows).2).2).1
      have decided := decidedLast_of_seen rfl h₃ hseen later fun look hmem =>
        hopen look (by simp [hmem])
      exact Or.inr ⟨hread, hwrite, decided.cons other⟩
    | false =>
      rw [hseen, if_neg (by decide)] at h₃
      have hmaking := decidedLast_or_undecided_of_unseen file h₃.of_report_bind
        (fun hrest => hrest.of_report_bind)
        (fun hrest => undecided_of_pure hrest.of_report_bind fun p hp => by cases hp)
      rcases hmaking with decided | undecided
      · exact Or.inr ⟨hread, hwrite, decided.cons other⟩
      · exact Or.inl (undecided.cons other)

/-- What a probe is denied for, along a history of growing disks: the rights that were not granted
and the last look. -/
theorem exists_of_denied {file directory : String} (hfile : filePath home name = file)
    (hdir : containingDirectory home file = directory)
    (h : AnswersAlong (accessibleFile home name) history (.ok (.denied p)))
    (grows : history.Pairwise fun first second => first.2 ≤ second.2)
    (hopen : ∀ look ∈ history, OpenWhereSeen directory look.2) :
    p = file ∧ MuteThenSeen file history := by
  obtain ⟨first, second, rest, rfl, hcases⟩ := exists_of_accessibleFile hfile hdir h grows hopen
  rcases hcases with ⟨hno, -⟩ | ⟨hread, hwrite, before, last, rfl, -, hdecides, hpath⟩
  · exact absurd rfl (hno p)
  · obtain rfl := hpath p rfl
    exact ⟨rfl, first, second, last, by simp, hread, by simp, hwrite, by simp, hdecides.mp rfl⟩

/-- A probe that finds its file at the last look is denied. -/
theorem denied_of_mem_history {file directory : String} {last : Disk}
    (hfile : filePath home name = file) (hdir : containingDirectory home file = directory)
    (h : AnswersAlong (accessibleFile home name) history answer)
    (grows : history.Pairwise fun first second => first.2 ≤ second.2)
    (hopen : ∀ look ∈ history, OpenWhereSeen directory look.2)
    (hlast : (.ownKindOf file, last) ∈ history)
    (hseen : (last.lookup? false file).isSome = true) : answer = .ok (.denied file) := by
  obtain ⟨first, second, rest, rfl, hcases⟩ := exists_of_accessibleFile hfile hdir h grows hopen
  rcases hcases with ⟨-, hnone⟩ | ⟨-, -, before, last', rfl, hbefore, hdecides, -⟩
  · simp only [List.mem_cons, Prod.mk.injEq, reduceCtorEq, false_and, false_or] at hlast
    exact absurd rfl (hnone _ hlast)
  · simp only [List.mem_cons, List.mem_append, Prod.mk.injEq, reduceCtorEq, false_and, false_or,
      List.not_mem_nil, or_false] at hlast
    rcases hlast with hlast | ⟨-, rfl⟩
    · exact absurd rfl (hbefore _ hlast)
    · exact hdecides.mpr hseen

theorem MuteThenSeen.mono {file : String} {longer : List (DiskCall × Disk)}
    (h : MuteThenSeen file history) (hsub : ∀ look ∈ history, look ∈ longer) :
    MuteThenSeen file longer := by
  obtain ⟨first, second, last, hfirst, hread, hsecond, hwrite, hlast, hseen⟩ := h
  exact ⟨first, second, last, hsub _ hfirst, hread, hsub _ hsecond, hwrite, hsub _ hlast, hseen⟩

/-- A file that grants its rights wherever it is there grants nothing only where it is not. -/
theorem MuteThenSeen.madeMeanwhile {file : String} (h : MuteThenSeen file history)
    (hgrants : ∀ look ∈ history, GrantsWhereSeen file look.2) : MadeMeanwhile file history := by
  obtain ⟨first, second, last, -, -, hsecond, hwrite, hlast, hseen⟩ := h
  refine ⟨second, last, hsecond, ?_, hlast, hseen⟩
  cases hl : second.lookup? false file with
  | none => rfl
  | some e =>
    have hboth := hgrants _ hsecond (by rw [hl]; rfl)
    rw [hwrite] at hboth
    cases hboth.2

/-! ## Callers side by side -/

/-- A caller probes for a file. One that makes files makes it when it is told that it is not there
yet. -/
def caller (home name : String) (makes : Bool) : DiskProgram (Except StorageError Probe) := do
  let answer ← accessibleFile home name
  match answer with
  | .ok (.accessible handle) =>
    if makes && !handle.isPresent then
      let _ ← DiskProgram.makeFile handle.path
      return answer
    else return answer
  | _ => return answer

/-- Some callers who are about to probe for the same file. -/
def callers (home name : String) (makes : List Bool) (disk : Disk) :
    Pool diskCalls Disk (Except StorageError Probe) :=
  ⟨disk, makes.map (caller home name)⟩

theorem only_caller (home name : String) (makes : Bool) :
    Program.Only (S := diskCalls) Adds (caller home name makes) := by
  refine ((only_accessibleFile home name).mono LooksOrMakes.adds).bind fun answer => ?_
  split
  · split_ifs
    · exact .call trivial fun _ => .done _
    · exact .done _
  · exact .done _

/-- A caller answers what its probe answers, and its history is that of the probe but for the file
that it may make. -/
theorem exists_of_caller {makes : Bool}
    (h : AnswersAlong (caller home name makes) history answer) :
    ∃ probe rest, history = probe ++ rest ∧ AnswersAlong (accessibleFile home name) probe answer ∧
      ∀ look ∈ rest, ∃ path, look.1 = .makeFile path := by
  obtain ⟨probe, rest, told, rfl, hprobe, hrest⟩ := h.exists_of_bind
  refine ⟨probe, rest, rfl, ?_⟩
  suffices hend : answer = told ∧ ∀ look ∈ rest, ∃ path, look.1 = .makeFile path by
    rw [hend.1]
    exact ⟨hprobe, hend.2⟩
  split at hrest
  · split_ifs at hrest
    · obtain ⟨s, rest, rfl, hlast⟩ := Program.Answers.exists_of_ask_bind hrest
      obtain ⟨rfl, rfl⟩ := Program.Answers.of_pure hlast
      exact ⟨rfl, fun look hmem => ⟨_, congrArg Prod.fst (List.mem_singleton.mp hmem)⟩⟩
    · obtain ⟨rfl, rfl⟩ := hrest.of_pure
      exact ⟨rfl, fun _ hmem => absurd hmem List.not_mem_nil⟩
  · obtain ⟨rfl, rfl⟩ := hrest.of_pure
    exact ⟨rfl, fun _ hmem => absurd hmem List.not_mem_nil⟩

/-- In every interleaving of callers, as long as the containing directory allows making whenever it
is seen, a probe that has been answered was denied exactly when its file granted nothing at the
first looks and was there at the last. As long as the file grants its rights whenever it is there,
that is exactly when the file was made in between. -/
theorem denied_iff_of_interleaving {makes : List Bool} {disk : Disk} {schedule : List Nat}
    {i : Nat}
    (hopen : ∀ before, before <+: schedule →
      OpenWhereSeen (containingDirectory home (filePath home name))
        ((callers home name makes disk).follow Disk.perform before).state)
    (h : ((callers home name makes disk).follow Disk.perform schedule).answer? i = some answer) :
    (answer = .ok (.denied p) ↔ p = filePath home name ∧
      MuteThenSeen (filePath home name)
        ((callers home name makes disk).history Disk.perform i schedule)) ∧
    ((∀ before, before <+: schedule →
        GrantsWhereSeen (filePath home name)
          ((callers home name makes disk).follow Disk.perform before).state) →
      (answer = .ok (.denied p) ↔ p = filePath home name ∧
        MadeMeanwhile (filePath home name)
          ((callers home name makes disk).history Disk.perform i schedule))) := by
  obtain ⟨task, htask, hans⟩ := Pool.exists_of_answer? h
  have honly : ∀ task ∈ (callers home name makes disk).tasks,
      Program.Only (S := diskCalls) Adds task := by
    intro task hmem
    obtain ⟨b, -, rfl⟩ := List.mem_map.mp hmem
    exact only_caller home name b
  have grows : ((callers home name makes disk).history Disk.perform i schedule).Pairwise
      fun first second => first.2 ≤ second.2 := Pool.pairwise_history le_perform_of_adds honly
  have whenever {q : Disk → Prop} (hq : ∀ before, before <+: schedule →
      q ((callers home name makes disk).follow Disk.perform before).state) :
      ∀ look ∈ (callers home name makes disk).history Disk.perform i schedule, q look.2 := by
    intro look hmem
    obtain ⟨before, hbefore, hstate⟩ := Pool.exists_prefix_of_mem_history hmem
    rw [hstate]
    exact hq before hbefore
  obtain ⟨b, -, rfl⟩ := List.mem_map.mp (List.mem_of_getElem? htask)
  obtain ⟨probe, rest, hhistory, hprobe, hrest⟩ := exists_of_caller hans
  have hopen' := whenever hopen
  rw [hhistory] at grows hopen'
  have grows' := (List.pairwise_append.mp grows).1
  have hopen'' := fun look hmem => hopen' look (List.mem_append_left rest hmem)
  -- a denial comes from the looks of the probe, which the caller's history begins with
  have forth (hdenied : answer = .ok (.denied p)) : p = filePath home name ∧
      MuteThenSeen (filePath home name)
        ((callers home name makes disk).history Disk.perform i schedule) := by
    rw [hdenied] at hprobe
    obtain ⟨hp, hmute⟩ := exists_of_denied rfl rfl hprobe grows' hopen''
    refine ⟨hp, hmute.mono fun look hmem => ?_⟩
    rw [hhistory]
    exact List.mem_append_left rest hmem
  have back (last : Disk) (hlast : (.ownKindOf (filePath home name), last) ∈
        (callers home name makes disk).history Disk.perform i schedule)
      (hseen : (last.lookup? false (filePath home name)).isSome = true) :
      answer = .ok (.denied (filePath home name)) := by
    rw [hhistory] at hlast
    rcases List.mem_append.mp hlast with hlast | hlast
    · exact denied_of_mem_history rfl rfl hprobe grows' hopen'' hlast hseen
    · obtain ⟨path, hpath⟩ := hrest _ hlast
      cases hpath
  refine ⟨⟨forth, ?_⟩, fun hgrants => ⟨fun hdenied => ?_, ?_⟩⟩
  · rintro ⟨rfl, first, second, last, -, -, -, -, hlast, hseen⟩
    exact back last hlast hseen
  · obtain ⟨hp, hmute⟩ := forth hdenied
    exact ⟨hp, hmute.madeMeanwhile (whenever hgrants)⟩
  · rintro ⟨rfl, early, late, -, -, hlate, hseen⟩
    exact back late hlate hseen

/-- A disk with a home that allows making and holds nothing yet. -/
def openHome : Disk := Disk.bare.adding "home" [] (.directory ⟨0o700⟩)

/-- The schedule in which one caller asks for the file's rights, another goes all its way, and then
the first goes on. -/
def overtaking : List Nat := [1, 1, 0, 0, 0, 0, 0, 0, 0, 1, 1, 1, 1]

/-- Of two callers, the one that is overtaken is denied a file that grants everything. -/
theorem denied_of_overtaken :
    ((callers "home" "f" [true, false] openHome).follow Disk.perform overtaking).answer? 1 =
        some (.ok (.denied "home/f")) ∧
      (((callers "home" "f" [true, false] openHome).follow Disk.perform overtaking).state.grants
          "home/f" .read = true ∧
        ((callers "home" "f" [true, false] openHome).follow Disk.perform overtaking).state.grants
          "home/f" .write = true) ∧
      MadeMeanwhile (filePath "home" "f")
        ((callers "home" "f" [true, false] openHome).history Disk.perform 1 overtaking) := by
  have hopen : ∀ before, before <+: overtaking →
      OpenWhereSeen (containingDirectory "home" (filePath "home" "f"))
        ((callers "home" "f" [true, false] openHome).follow Disk.perform before).state := by
    simp only [← List.mem_inits]
    decide +kernel
  have hgrants : ∀ before, before <+: overtaking → GrantsWhereSeen (filePath "home" "f")
      ((callers "home" "f" [true, false] openHome).follow Disk.perform before).state := by
    simp only [← List.mem_inits]
    decide +kernel
  have h : ((callers "home" "f" [true, false] openHome).follow Disk.perform overtaking).answer? 1 =
      some (.ok (.denied "home/f")) := by decide +kernel
  exact ⟨h, by decide +kernel, (((denied_iff_of_interleaving hopen h).2 hgrants).mp rfl).2⟩

end UserStorage.Storage
