import Mathlib.Tactic.SplitIfs
import UserStorage.Proofs.Program.History
import UserStorage.Proofs.Storage.Looks
import UserStorage.Storage.PrivateDirectory
import UserStorage.Storage.PrivateFile

/-!
# Looks and makings in histories of calls

How the looks at a disk appear in the history of a program, and which calls the making of a
directory consists of. None of these calls takes anything away, so the disks of a history to which
others add in the same way grow.

## Main definitions

* `DiskProgram.AnswersAlong`: what a program of calls on a disk answers along a history
* `Storage.MakingCall`: the calls by which a directory is made at one of some paths
* `Storage.LooksOrMakes`: the calls that only look, or make a directory at a path of a kind
* `Storage.Adds`: the calls that take nothing away

## Main results

* `Storage.exists_of_isSeen`, `Storage.exists_of_isDirectory`, `Storage.exists_of_grantsMaking`: the
  looks in a history
* `Storage.only_createDirectory`, `Storage.only_privateDirectory`, `Storage.only_accessibleFile`: the
  calls of making a directory and of the requests
* `Storage.le_perform_of_adds`: a disk grows with every call that takes nothing away
-/

namespace UserStorage

/-! ## Histories of calls on a disk -/

namespace DiskProgram

variable {α β : Type} {a : α} {b : β} {path : String} {history : List (DiskCall × Disk)}

/-- What a program of calls on a disk answers along a history. -/
def AnswersAlong (p : DiskProgram α) (history : List (DiskCall × Disk)) (a : α) : Prop :=
  Program.Answers (S := diskCalls) Disk.perform p history a

theorem AnswersAlong.exists_of_bind {p : DiskProgram α} {f : α → DiskProgram β}
    (h : AnswersAlong (p >>= f) history b) :
    ∃ first second a, history = first ++ second ∧ AnswersAlong p first a ∧
      AnswersAlong (f a) second b :=
  Program.Answers.exists_of_bind h

theorem AnswersAlong.of_pure {c : α} (h : AnswersAlong (pure c) history a) :
    history = [] ∧ a = c :=
  Program.Answers.of_pure h

theorem AnswersAlong.of_report_bind {e : Event} {f : Unit → DiskProgram β}
    (h : AnswersAlong (Program.report e >>= f) history b) : AnswersAlong (f ()) history b :=
  Program.Answers.of_report_bind h

theorem AnswersAlong.exists_of_grants {access : Access} {f : Bool → DiskProgram β}
    (h : AnswersAlong (DiskProgram.grants path access >>= f) history b) :
    ∃ s rest, history = (.grants path access, s) :: rest ∧
      AnswersAlong (f (s.grants path access)) rest b :=
  Program.Answers.exists_of_ask_bind h

theorem AnswersAlong.exists_of_kindOf {f : Option Kind → DiskProgram β}
    (h : AnswersAlong (DiskProgram.kindOf path >>= f) history b) :
    ∃ s rest, history = (.kindOf path, s) :: rest ∧
      AnswersAlong (f ((s.lookup? true path).map Entry.kind)) rest b :=
  Program.Answers.exists_of_ask_bind h

theorem AnswersAlong.exists_of_ownKindOf {f : Option Kind → DiskProgram β}
    (h : AnswersAlong (DiskProgram.ownKindOf path >>= f) history b) :
    ∃ s rest, history = (.ownKindOf path, s) :: rest ∧
      AnswersAlong (f ((s.lookup? false path).map Entry.kind)) rest b :=
  Program.Answers.exists_of_ask_bind h

end DiskProgram

namespace Storage

open DiskProgram

variable {α β : Type} {b : β} {path : String} {history : List (DiskCall × Disk)}

theorem exists_of_isSeen {f : Bool → DiskProgram β}
    (h : AnswersAlong (isSeen path >>= f) history b) :
    ∃ s rest, history = (.kindOf path, s) :: rest ∧
      AnswersAlong (f (s.lookup? true path).isSome) rest b := by
  have hask : AnswersAlong (DiskProgram.kindOf path >>= fun kind => f kind.isSome) history b := h
  obtain ⟨s, rest, hhistory, hrest⟩ := hask.exists_of_kindOf
  rw [Option.isSome_map] at hrest
  exact ⟨s, rest, hhistory, hrest⟩

theorem exists_of_isDirectory {f : Bool → DiskProgram β}
    (h : AnswersAlong (isDirectory path >>= f) history b) :
    ∃ s rest, history = (.kindOf path, s) :: rest ∧
      AnswersAlong (f (s.showsDirectory path)) rest b := by
  have hask : AnswersAlong
      (DiskProgram.kindOf path >>= fun kind => f (kind == some .directory)) history b := h
  obtain ⟨s, rest, hhistory, hrest⟩ := hask.exists_of_kindOf
  rw [kind_beq_directory] at hrest
  exact ⟨s, rest, hhistory, hrest⟩

/-- A look whether entries can be made asks for the rights only of a directory. -/
theorem exists_of_grantsMaking {f : Bool → DiskProgram β}
    (h : AnswersAlong (grantsMaking path >>= f) history b) :
    ∃ s rest, history = (.kindOf path, s) :: rest ∧
      ((s.showsDirectory path = false ∧ AnswersAlong (f false) rest b) ∨
        ∃ s' rest', s.showsDirectory path = true ∧
          rest = (.grants path .writeAndSearch, s') :: rest' ∧
          AnswersAlong (f (s'.grants path .writeAndSearch)) rest' b) := by
  obtain ⟨first, second, may, rfl, hmay, hsecond⟩ := h.exists_of_bind
  rw [grantsMaking] at hmay
  obtain ⟨s, rest, rfl, hrest⟩ := exists_of_isDirectory hmay
  cases hdir : s.showsDirectory path with
  | false =>
    rw [hdir] at hrest
    obtain ⟨rfl, rfl⟩ := hrest.of_pure
    exact ⟨s, second, rfl, Or.inl ⟨hdir, hsecond⟩⟩
  | true =>
    rw [hdir, if_pos rfl, ← bind_pure (DiskProgram.grants path .writeAndSearch)] at hrest
    obtain ⟨s', rest', rfl, hlast⟩ := hrest.exists_of_grants
    obtain ⟨rfl, rfl⟩ := hlast.of_pure
    exact ⟨s, _, rfl, Or.inr ⟨s', second, hdir, rfl, hsecond⟩⟩

/-! ## The calls of programs -/

/-- A call that is made to make a directory at one of some paths. -/
inductive MakingCall (paths : List String) : DiskCall → Prop
  | make {path : String} (h : path ∈ paths) : MakingCall paths (.makeDirectory path)
  | look (path : String) : MakingCall paths (.kindOf path)

theorem MakingCall.mono {paths more : List String} (h : paths ⊆ more) {c : DiskCall}
    (hc : MakingCall paths c) : MakingCall more c := by
  cases hc with
  | make hmem => exact .make (h hmem)
  | look path => exact .look path

theorem only_unlessDirectory (paths : List String) (path : String) (cause : IoError) :
    Program.Only (S := diskCalls) (MakingCall paths) (unlessDirectory path cause) := by
  have hlook : Program.Only (S := diskCalls) (MakingCall paths) (isDirectory path) :=
    .call (.look path) fun _ => .done _
  refine hlook.bind fun dir => ?_
  cases dir with
  | true => exact .done _
  | false => exact .done _

theorem only_makeWithin (path : String) (ancestors : List String) :
    Program.Only (S := diskCalls) (MakingCall (path :: ancestors))
      (makeWithin path ancestors) := by
  have hmake (path : String) (ancestors : List String) : Program.Only (S := diskCalls)
      (MakingCall (path :: ancestors)) (DiskProgram.makeDirectory path) :=
    .ask (.make List.mem_cons_self)
  induction ancestors generalizing path with
  | nil =>
    rw [makeWithin]
    split_ifs
    · exact .done _
    refine (hmake path []).bind fun reply => ?_
    cases reply with
    | ok u => exact .done _
    | error cause =>
      dsimp only
      split_ifs
      · exact .done _
      · exact only_unlessDirectory _ path cause
  | cons parent others ih =>
    rw [makeWithin]
    split_ifs
    · exact .done _
    refine (hmake path _).bind fun reply => ?_
    cases reply with
    | ok u => exact .done _
    | error cause =>
      dsimp only
      split_ifs
      · -- the run for the parent keeps to the ancestors, which are among the paths
        have habove := (ih parent).mono fun _ => MakingCall.mono (List.subset_cons_self path _)
        refine habove.bind fun above => ?_
        cases above with
        | error e => exact .done _
        | ok u =>
          refine (hmake path _).bind fun again => ?_
          cases again with
          | ok u => exact .done _
          | error second => exact only_unlessDirectory _ path second
      · exact only_unlessDirectory _ path cause

theorem only_createDirectory (path : String) :
    Program.Only (S := diskCalls) (MakingCall (path :: Path.ancestors path))
      (createDirectory path) := by
  refine (only_makeWithin path (Path.ancestors path)).bind fun answer => ?_
  cases answer with
  | ok u => exact .done _
  | error cause =>
    dsimp only
    split_ifs
    · exact only_unlessDirectory _ path cause
    · exact .done _

/-! ## The calls of requests -/

/-- A call that only looks, or that makes a directory at a path of a kind. -/
def LooksOrMakes (may : String → Prop) : DiskCall → Prop
  | .makeDirectory path => may path
  | .makeFile _ | .removeFile _ => False
  | _ => True

theorem LooksOrMakes.mono {may might : String → Prop} (himp : ∀ q, may q → might q)
    (c : DiskCall) (h : LooksOrMakes may c) : LooksOrMakes might c := by
  cases c with
  | makeDirectory path => exact himp path h
  | _ => exact h

theorem MakingCall.looksOrMakes {paths : List String} (c : DiskCall) (h : MakingCall paths c) :
    LooksOrMakes (· ∈ paths) c := by
  cases h with
  | make hmem => exact hmem
  | look path => trivial

section Only

variable (may : String → Prop)

theorem only_isDirectory (path : String) :
    Program.Only (S := diskCalls) (LooksOrMakes may) (isDirectory path) :=
  .call trivial fun _ => .done _

theorem only_isSeen (path : String) :
    Program.Only (S := diskCalls) (LooksOrMakes may) (isSeen path) :=
  .call trivial fun _ => .done _

theorem only_grants (path : String) (access : Access) :
    Program.Only (S := diskCalls) (LooksOrMakes may) (DiskProgram.grants path access) :=
  .ask trivial

theorem only_grantsMaking (path : String) :
    Program.Only (S := diskCalls) (LooksOrMakes may) (grantsMaking path) := by
  refine (only_isDirectory may path).bind fun dir => ?_
  split_ifs
  · exact only_grants may path _
  · exact .done _

theorem only_measure (directory : String) :
    Program.Only (S := diskCalls) (LooksOrMakes may) (measure directory) := by
  have hexists : Program.Only (S := diskCalls) (LooksOrMakes may) (directoryExists directory) := by
    refine (only_isSeen may directory).bind fun seen => ?_
    split_ifs
    · exact only_isDirectory may directory
    · exact .done _
  exact hexists.bind fun _ => (only_grants may directory _).bind fun _ =>
    (only_grantsMaking may directory).bind fun _ => .done _

theorem only_vacantOrDenied (file : String) :
    Program.Only (S := diskCalls) (LooksOrMakes may) (vacantOrDenied file) := by
  have hlook : Program.Only (S := diskCalls) (LooksOrMakes may) (DiskProgram.ownKindOf file) :=
    .ask trivial
  refine hlook.bind fun own => ?_
  split_ifs
  · exact .note _ (.done _)
  · exact .done _

end Only

/-- A request makes directories at its path and at the ancestors of that only. -/
theorem only_privateDirectory (home name : String) :
    Program.Only (S := diskCalls)
      (LooksOrMakes (· ∈ directoryPath home name :: Path.ancestors (directoryPath home name)))
      (privateDirectory home name) := by
  unfold privateDirectory
  generalize directoryPath home name = directory
  have hmeasure := only_measure (· ∈ directory :: Path.ancestors directory) directory
  refine (only_isSeen _ directory).bind fun seen => ?_
  cases seen with
  | true =>
    refine (only_isDirectory _ directory).bind fun dir => ?_
    cases dir with
    | true => exact hmeasure.bind fun _ => .done _
    | false => exact .note _ (.done _)
  | false =>
    refine ((only_createDirectory directory).mono MakingCall.looksOrMakes).bind fun made => ?_
    cases made with
    | error cause => exact .note _ (.done _)
    | ok u => exact .note _ (hmeasure.bind fun _ => .done _)

/-- A probe makes directories at the containing directory and at the ancestors of that only. -/
theorem only_accessibleFile (home name : String) :
    Program.Only (S := diskCalls)
      (LooksOrMakes (· ∈ containingDirectory home (filePath home name) ::
        Path.ancestors (containingDirectory home (filePath home name))))
      (accessibleFile home name) := by
  unfold accessibleFile
  generalize filePath home name = file
  dsimp only
  generalize containingDirectory home file = directory
  refine (only_grants _ file .read).bind fun readable => ?_
  refine (only_grants _ file .write).bind fun writable => ?_
  split_ifs
  · exact .done _
  refine (only_isSeen _ directory).bind fun seen => ?_
  split_ifs
  · refine (only_grantsMaking _ directory).bind fun may => ?_
    split_ifs
    · exact only_vacantOrDenied _ file
    · exact .note _ (.done _)
  · refine (Program.Only.report _).bind fun _ => ?_
    refine ((only_createDirectory directory).mono MakingCall.looksOrMakes).bind fun made => ?_
    cases made with
    | error cause => exact .note _ (.done _)
    | ok u => exact .note _ (only_vacantOrDenied _ file)

/-! ## Calls that take nothing away -/

/-- A call that takes nothing away. -/
def Adds : DiskCall → Prop
  | .removeFile _ => False
  | _ => True

theorem le_perform_of_adds (c : DiskCall) (disk : Disk) (h : Adds c) :
    disk ≤ (Disk.perform c disk).2 := by
  cases c with
  | grants path access => exact le_rfl
  | kindOf path => exact le_rfl
  | ownKindOf path => exact le_rfl
  | makeDirectory path =>
    show disk ≤ (disk.makeDirectory path).2
    unfold Disk.makeDirectory
    split
    · exact le_rfl
    · exact Disk.le_adding disk _ _ _
  | makeFile path =>
    show disk ≤ (disk.makeFile path).2
    unfold Disk.makeFile
    split
    · exact le_rfl
    · split_ifs
      · exact le_rfl
      · exact Disk.le_adding disk _ _ _
  | removeFile path => exact h.elim

theorem LooksOrMakes.adds {may : String → Prop} (c : DiskCall) (h : LooksOrMakes may c) :
    Adds c := by
  cases c with
  | removeFile path => exact h.elim
  | _ => trivial

theorem MakingCall.adds {paths : List String} {c : DiskCall} (h : MakingCall paths c) :
    Adds c := by
  cases h <;> trivial

end Storage

end UserStorage
