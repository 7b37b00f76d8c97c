import UserStorage.Proofs.Program.Assurance
import UserStorage.Proofs.Storage.Gaining
import UserStorage.Proofs.Storage.Histories
import UserStorage.Proofs.Storage.Obtaining

/-!
# Requests for directories side by side

Some callers request private directories at the same time, and nobody else changes the disk. All
that others do to a caller is that directories are there already which it would have made itself.
So what a caller would obtain alone it obtains in every interleaving. A directory that is made lies
where one of the requested paths or of their ancestors leads, and there it lies in the end whoever
has made it: when all succeed, the order does not matter.

## Main definitions

* `Storage.Assures`: a program that comes to a good answer while directories are gained
* `Storage.requesting`, `Storage.ended`: requests side by side, and the end of an interleaving
* `Storage.SucceedsAlone`: a request that obtains its directory when it is run alone

## Main results

* `Storage.assures_makeWithin`, `Storage.assures_privateDirectory`: what succeeds alone succeeds
  while directories are gained
* `Storage.ended_le`: requests make no more than others that include them
* `Storage.obtained_in_interleaving`: every interleaving of requests
-/

namespace UserStorage

namespace Storage

variable {α β : Type} {path q : String} {start disk mid met after : Disk}

/-- A disk gains directories by the calls that look or make one. -/
theorem gains_perform {may : String → Prop} (c : DiskCall) (disk : Disk) (h : LooksOrMakes may c) :
    disk.Gains (Disk.perform c disk).2 := by
  cases c with
  | makeDirectory path =>
    show disk.Gains (disk.makeDirectory path).2
    unfold Disk.makeDirectory
    split
    · exact .refl disk
    · exact Disk.gains_adding disk _ _
  | makeFile path => exact h.elim
  | removeFile path => exact h.elim
  | _ => exact .refl disk

/-! ## Assurances while directories are gained -/

/-- However the disk gains directories before each of its calls, the program comes to an answer
that satisfies the condition on the disk that it leaves. -/
def Assures (good : α → Disk → Prop) (p : DiskProgram α) (disk : Disk) : Prop :=
  Program.Ensures (S := diskCalls) Disk.perform Disk.Gains good p disk

/-- Making a directory has ended well on a disk that has gained what it needs. -/
def Made (start after : Disk) (answer : Except IoError Unit) (disk : Disk) : Prop :=
  answer = .ok () ∧ start.Gains disk ∧ after ≤ disk

namespace Assures

variable {good : α → Disk → Prop} {good' : β → Disk → Prop}

theorem bind {p : DiskProgram α} {f : α → DiskProgram β} (hp : Assures good p disk)
    (hf : ∀ a s, good a s → Assures good' (f a) s) : Assures good' (p >>= f) disk :=
  Program.Ensures.bind hp hf

theorem isSeen_bind {f : Bool → DiskProgram β}
    (h : ∀ met, disk.Gains met → Assures good' (f (met.lookup? true path).isSome) met) :
    Assures good' (isSeen path >>= f) disk := by
  intro met hmet
  show Assures good' (f ((met.lookup? true path).map Entry.kind).isSome) met
  rw [Option.isSome_map]
  exact h met hmet

theorem isDirectory_bind {f : Bool → DiskProgram β}
    (h : ∀ met, disk.Gains met → Assures good' (f (met.showsDirectory path)) met) :
    Assures good' (isDirectory path >>= f) disk := by
  intro met hmet
  show Assures good' (f ((met.lookup? true path).map Entry.kind == some .directory)) met
  rw [kind_beq_directory]
  exact h met hmet

theorem grants_bind {access : Access} {f : Bool → DiskProgram β}
    (h : ∀ met, disk.Gains met → Assures good' (f (met.grants path access)) met) :
    Assures good' (DiskProgram.grants path access >>= f) disk := h

theorem makeDirectory_bind {f : Except IoError Unit → DiskProgram β}
    (h : ∀ met, disk.Gains met →
      Assures good' (f (met.makeDirectory path).1) (met.makeDirectory path).2) :
    Assures good' (DiskProgram.makeDirectory path >>= f) disk := h

end Assures

/-! ## Making a directory while others do -/

theorem assures_unlessDirectory {cause : IoError} (hgains : start.Gains disk) (hle : after ≤ disk)
    (hdir : disk.showsDirectory path = true) :
    Assures (Made start after) (unlessDirectory path cause) disk := by
  refine .isDirectory_bind fun met hmet => ?_
  rw [Disk.showsDirectory_mono hmet.le hdir, if_pos rfl]
  exact ⟨rfl, hgains.trans hmet, hle.trans hmet.le⟩

/-- An attempt that ends well alone, on the disk `mid`, does so on every disk that has gained what
that one has, whatever else is there by then. An attempt that comes earlier has to be seen to. -/
theorem assures_attempt {f : Except IoError Unit → DiskProgram (Except IoError Unit)}
    (attempt : Attempt path mid (.ok ()) after) (hmid : start.Gains mid) (hdisk : start.Gains disk)
    (hok : f (.ok ()) = pure (.ok ()))
    (htaken : f (.error (.system .alreadyExists)) = unlessDirectory path (.system .alreadyExists))
    (early : ∀ met, disk.Gains met → ¬ mid ≤ met →
      Assures (Made start after) (f (met.makeDirectory path).1) (met.makeDirectory path).2) :
    Assures (Made start after) (DiskProgram.makeDirectory path >>= f) disk := by
  refine .makeDirectory_bind fun met hmet => ?_
  by_cases hle : mid ≤ met
  · have hgains := hdisk.trans hmet
    rcases attempt.makeDirectory_cases hmid hle hgains with ⟨n, d, hmade, hafter⟩ | ⟨hmade, hafter⟩
    · rw [hmade, hok]
      exact ⟨rfl, hgains.trans (Disk.gains_adding met n d), hafter⟩
    · rw [hmade, htaken]
      exact assures_unlessDirectory hgains hafter
        (Disk.showsDirectory_mono hafter attempt.showsDirectory_of_ok)
  · exact early met hmet hle

/-- A directory that is made alone is made while others make theirs. -/
theorem assures_makeWithin {ancestors : List String}
    (making : Making path ancestors start (.ok ()) after) (ha : ancestors = Path.ancestors path)
    (hdisk : start.Gains disk) :
    Assures (Made start after) (makeWithin path ancestors) disk := by
  generalize hanswer : (Except.ok () : Except IoError Unit) = answer at making
  induction making generalizing disk with
  | @empty ancestors =>
    have hdone : makeWithin "" ancestors = pure (.ok ()) := by cases ancestors <;> rfl
    rw [hdone]
    exact ⟨rfl, hdisk, hdisk.le⟩
  | @once path ancestors start after _ hne _ attempt =>
    subst hanswer
    have hlate (met : Disk) (hmet : disk.Gains met) : start ≤ met := (hdisk.trans hmet).le
    cases ancestors with
    | nil =>
      rw [makeWithin, if_neg hne]
      exact assures_attempt attempt (.refl start) hdisk rfl rfl fun met hmet hno =>
        absurd (hlate met hmet) hno
    | cons parent others =>
      rw [makeWithin, if_neg hne]
      exact assures_attempt attempt (.refl start) hdisk rfl rfl fun met hmet hno =>
        absurd (hlate met hmet) hno
  | lost => cases hanswer
  | orphan => cases hanswer
  | @again path parent others start mid after cause _ hne lacks above attempt ih =>
    subst hanswer
    obtain ⟨hparent, rfl⟩ := exists_parent_of_ancestors ha
    rw [makeWithin, if_neg hne]
    -- where others have made all that the path lacked, the first attempt is like the second alone
    refine assures_attempt attempt above.gains hdisk rfl rfl fun met hmet hearly => ?_
    have hgains := hdisk.trans hmet
    have hroot : parent ≠ "" := by
      rintro rfl
      rw [above.eq_of_empty] at hearly
      exact hearly hgains.le
    have hno : met.showsDirectory parent = false := by
      by_contra hyes
      exact hearly (above.le_of_showsDirectory rfl hgains (by simpa using hyes))
    -- otherwise the parent is not there yet, so the first attempt goes as it does alone
    have hlacks := Disk.vacancy_eq_notFound hgains (above.gains.trans attempt.gains)
      attempt.showsDirectory_of_ok hparent hroot hno
    have hkind : (IoError.system .notFound).kind = .notFound := rfl
    rw [Disk.makeDirectory, hlacks]
    simp only [if_pos hkind]
    refine (ih rfl hgains rfl).bind fun reply s hmade => ?_
    obtain ⟨rfl, hs, hmids⟩ := hmade
    exact assures_attempt attempt above.gains hs rfl rfl fun met' hmet' hno =>
      absurd (hmids.trans hmet'.le) hno

theorem assures_createDirectory (making : Making path (Path.ancestors path) start (.ok ()) after)
    (hdisk : start.Gains disk) : Assures (Made start after) (createDirectory path) disk := by
  refine (assures_makeWithin making rfl hdisk).bind fun reply s hmade => ?_
  obtain ⟨rfl, hs⟩ := hmade
  exact ⟨rfl, hs⟩

/-! ## Obtaining a private directory while others do -/

theorem assures_directoryExists (hdir : disk.showsDirectory path = true) :
    Assures (fun present s => present = true ∧ disk.Gains s) (directoryExists path) disk := by
  refine .isSeen_bind fun met hmet => ?_
  have hseen : (met.lookup? true path).isSome = true := by
    obtain ⟨d, m, hd⟩ := Disk.showsDirectory_iff.mp (Disk.showsDirectory_mono hmet.le hdir)
    rw [Disk.lookup?_of_leadsToDirectory hd]
    rfl
  rw [if_pos hseen]
  intro late hlate
  show ((late.lookup? true path).map Entry.kind == some .directory) = true ∧ disk.Gains late
  rw [kind_beq_directory]
  exact ⟨Disk.showsDirectory_mono (hmet.trans hlate).le hdir, hmet.trans hlate⟩

theorem assures_grantsMaking :
    Assures (fun _ s => disk.Gains s) (grantsMaking path) disk := by
  refine .isDirectory_bind fun met hmet => ?_
  cases met.showsDirectory path with
  | true => exact fun late hlate => hmet.trans hlate
  | false => exact hmet

/-- The handle of a directory that is there says so, whatever others do meanwhile. -/
theorem assures_measure (hdir : disk.showsDirectory path = true) :
    Assures (fun handle s => handle.path = path ∧ handle.isPresent = true ∧ disk.Gains s)
      (measure path) disk := by
  refine (assures_directoryExists hdir).bind fun present s hs => ?_
  obtain ⟨rfl, hs⟩ := hs
  refine .grants_bind fun met hmet => ?_
  refine assures_grantsMaking.bind fun writable late hlate => ?_
  exact ⟨rfl, rfl, (hs.trans hmet).trans hlate⟩

/-- A request obtains its directory alone. -/
def SucceedsAlone (disk : Disk) (request : String × String) : Prop :=
  ∃ handle, ((privateDirectory request.1 request.2).runOn disk).answer = .ok handle

/-- The request has obtained its directory, on a disk that has gained what the request needs. -/
def Obtained (start : Disk) (request : String × String) (answer : Except StorageError Handle)
    (disk : Disk) : Prop :=
  (∃ handle, answer = .ok handle ∧ handle.path = directoryPath request.1 request.2 ∧
      handle.isPresent = true) ∧
    start.Gains disk ∧ disk.showsDirectory (directoryPath request.1 request.2) = true

/-- A request that succeeds alone finds its directory or makes it. -/
theorem exists_making_of_succeedsAlone {home name : String} (h : SucceedsAlone disk (home, name)) :
    disk.showsDirectory (directoryPath home name) = true ∨
      ∃ after, Making (directoryPath home name) (Path.ancestors (directoryPath home name)) disk
        (.ok ()) after := by
  obtain ⟨handle, hanswer⟩ := h
  have obtaining := obtaining_privateDirectory home name disk
  generalize (privateDirectory home name).runOn disk = outcome at obtaining hanswer
  cases obtaining with
  | found dir => exact Or.inl dir
  | conflict => cases hanswer
  | unmade => cases hanswer
  | made _ making => exact Or.inr ⟨_, making⟩

/-- What a request obtains alone it obtains while others make their directories. -/
theorem assures_privateDirectory {home name : String} (h : SucceedsAlone disk (home, name)) :
    Assures (Obtained disk (home, name)) (privateDirectory home name) disk := by
  have halone := exists_making_of_succeedsAlone h
  have hne : directoryPath home name ≠ "" := Path.withTrailingSeparator_append_ne_empty home name
  unfold Obtained privateDirectory
  generalize directoryPath home name = directory at *
  -- once the path leads to a directory it does so for good, and the handle says so
  have settle {s : Disk} (hs : disk.Gains s) (hdir : s.showsDirectory directory = true) :
      Assures (fun answer s' => (∃ handle, answer = .ok handle ∧ handle.path = directory ∧
        handle.isPresent = true) ∧ disk.Gains s' ∧ s'.showsDirectory directory = true)
        (.ok <$> measure directory : DiskProgram (Except StorageError Handle)) s := by
    refine (assures_measure hdir).bind fun handle late hlate => ?_
    obtain ⟨hpath, hpresent, hgains⟩ := hlate
    exact ⟨⟨handle, rfl, hpath, hpresent⟩, hs.trans hgains,
      Disk.showsDirectory_mono hgains.le hdir⟩
  refine .isSeen_bind fun met hmet => ?_
  cases hseen : met.lookup? true directory with
  | some e =>
    have hdir : met.showsDirectory directory = true := by
      rcases halone with dir | ⟨after, making⟩
      · exact Disk.showsDirectory_mono hmet.le dir
      · exact hmet.showsDirectory making.gains (making.showsDirectory_of_ok hne)
          (by rw [hseen]; rfl)
    refine .isDirectory_bind fun met' hmet' => ?_
    rw [Disk.showsDirectory_mono hmet'.le hdir]
    exact settle (hmet.trans hmet') (Disk.showsDirectory_mono hmet'.le hdir)
  | none =>
    rcases halone with dir | ⟨after, making⟩
    · have hdir := Disk.showsDirectory_mono hmet.le dir
      exact absurd hseen (Disk.lookup?_ne_none_of_showsDirectory hdir)
    · refine (assures_createDirectory making hmet).bind fun reply s hmade => ?_
      obtain ⟨rfl, hs, hle⟩ := hmade
      exact settle hs (Disk.showsDirectory_mono hle (making.showsDirectory_of_ok hne))

/-! ## Interleavings -/

/-- Some requests side by side, each with a home and a name. -/
def requesting (requests : List (String × String)) (disk : Disk) :
    Pool diskCalls Disk (Except StorageError Handle) :=
  ⟨disk, requests.map fun request => privateDirectory request.1 request.2⟩

/-- The end of an interleaving: the answers and the last disk, when the requests are carried on by
turns as a schedule has it, and what is left of them after that. -/
def ended (requests : List (String × String)) (disk : Disk) (schedule : List Nat) :
    List (Except StorageError Handle) × Disk :=
  ((requesting requests disk).follow Disk.perform schedule).finish Disk.perform

/-- The path of some request, or an ancestor of it. -/
def IsRequested (requests : List (String × String)) (q : String) : Prop :=
  ∃ request ∈ requests, q ∈ directoryPath request.1 request.2 ::
    Path.ancestors (directoryPath request.1 request.2)

theorem only_requesting (requests : List (String × String)) (disk : Disk) :
    ∀ p ∈ (requesting requests disk).tasks,
      Program.Only (S := diskCalls) (LooksOrMakes (IsRequested requests)) p := by
  intro p hp
  obtain ⟨request, hmem, rfl⟩ := List.mem_map.mp hp
  exact (only_privateDirectory request.1 request.2).mono
    (LooksOrMakes.mono fun q hq => ⟨request, hmem, hq⟩)

/-- In every interleaving, a request that succeeds alone obtains its directory. -/
theorem exists_obtained_of_ended {requests : List (String × String)} {i : Nat}
    {request : String × String} (hi : requests[i]? = some request)
    (h : SucceedsAlone disk request) (schedule : List Nat) : ∃ answer,
      (ended requests disk schedule).1[i]? = some answer ∧
        Obtained disk request answer (ended requests disk schedule).2 := by
  have htask : (requesting requests disk).tasks[i]? =
      some (privateDirectory request.1 request.2) := by
    rw [requesting, List.getElem?_map, hi]
    rfl
  refine Pool.exists_good_finish Disk.Gains.refl (fun _ _ _ => Disk.Gains.trans) ?_
    gains_perform (only_requesting requests disk) htask (assures_privateDirectory h)
  intro answer s s' hs hobtained
  obtain ⟨hhandle, hgains, hdir⟩ := hobtained
  exact ⟨hhandle, hgains.trans hs, Disk.showsDirectory_mono hs.le hdir⟩

/-- A path is seen to lead to a directory only where its ancestors do. -/
theorem showsDirectory_of_mem_ancestors (hdir : disk.showsDirectory path = true)
    (hq : q ∈ Path.ancestors path) (hne : q ≠ "") : disk.showsDirectory q = true := by
  generalize ha : Path.ancestors path = ancestors at hq
  induction ancestors generalizing path with
  | nil => cases hq
  | cons parent others ih =>
    obtain ⟨hparent, rfl⟩ := exists_parent_of_ancestors ha.symm
    by_cases hroot : parent = ""
    · subst hroot
      have hnone : Path.ancestors "" = [] := by decide
      rw [hnone, List.mem_singleton] at hq
      exact absurd hq hne
    have hshown := Disk.showsDirectory_parent hdir hparent hroot
    rcases List.mem_cons.mp hq with rfl | hq
    · exact hshown
    · exact ih hshown rfl hq

/-- A call that makes a directory where a larger disk has one stays below that disk. -/
theorem perform_le {may : String → Prop} (hafter : start.Gains after)
    (hshown : ∀ q, may q → q ≠ "" → after.showsDirectory q = true) (c : DiskCall) (disk : Disk)
    (hc : LooksOrMakes may c) (hdisk : start.Gains disk ∧ disk ≤ after) :
    start.Gains (Disk.perform c disk).2 ∧ (Disk.perform c disk).2 ≤ after := by
  refine ⟨hdisk.1.trans (gains_perform c disk hc), ?_⟩
  cases c with
  | makeDirectory q =>
    show (disk.makeDirectory q).2 ≤ after
    unfold Disk.makeDirectory
    cases hv : disk.vacancy q with
    | error cause => exact hdisk.2
    | ok p =>
      obtain ⟨n, d⟩ := p
      have hne : q ≠ "" := by
        obtain ⟨hplace, -⟩ := Disk.vacancy_eq_ok_iff.mp hv
        exact (Disk.admissible_of_place hplace).ne_empty
      exact (Attempt.made hv).le_of_showsDirectory hdisk.1 hdisk.2 hafter (hshown q hc hne)
  | makeFile q => exact hc.elim
  | removeFile q => exact hc.elim
  | _ => exact hdisk.2

/-- However an interleaving goes, it gains directories. -/
theorem gains_ended (requests : List (String × String)) (disk : Disk) (schedule : List Nat) :
    disk.Gains (ended requests disk schedule).2 :=
  Pool.invariant_finish (fun s => disk.Gains s)
    (fun c s hc hs => hs.trans (gains_perform c s hc)) (only_requesting requests disk)
    (.refl disk) schedule

/-- Requests make no more than others do that include them and all succeed alone. -/
theorem ended_le {requests others : List (String × String)} (hsub : requests ⊆ others)
    (hall : ∀ request ∈ others, SucceedsAlone disk request) (schedule second : List Nat) :
    (ended requests disk schedule).2 ≤ (ended others disk second).2 := by
  have hgains := gains_ended others disk second
  -- the others leave a disk on which all requested paths lead to directories
  have hshown (q : String) (hq : IsRequested requests q) (hne : q ≠ "") :
      (ended others disk second).2.showsDirectory q = true := by
    obtain ⟨request, hmem, hq⟩ := hq
    obtain ⟨i, hi, hget⟩ := List.getElem_of_mem (hsub hmem)
    obtain ⟨answer, -, -, -, hdir⟩ := exists_obtained_of_ended
      (List.getElem?_eq_some_iff.mpr ⟨hi, hget⟩) (hall request (hsub hmem)) second
    rcases List.mem_cons.mp hq with rfl | hq
    · exact hdir
    · exact showsDirectory_of_mem_ancestors hdir hq hne
  -- so no call leads out of what that disk holds
  have hend := Pool.invariant_finish (fun s => disk.Gains s ∧ s ≤ (ended others disk second).2)
    (perform_le hgains hshown) (only_requesting requests disk) ⟨.refl disk, hgains.le⟩ schedule
  exact hend.2

/-- In every interleaving of requests, each that succeeds alone obtains its directory; and when all
do, the last disk is the one that is left by running them one after the other in any order. -/
theorem obtained_in_interleaving (requests : List (String × String)) (disk : Disk)
    (schedule : List Nat) :
    (∀ (i : Nat) request, requests[i]? = some request → SucceedsAlone disk request →
      ∃ handle : Handle, (ended requests disk schedule).1[i]? = some (.ok handle) ∧
        handle.path = directoryPath request.1 request.2 ∧ handle.isPresent = true) ∧
      ((∀ request ∈ requests, SucceedsAlone disk request) →
        ∀ order : List (String × String), order.Perm requests →
          (ended requests disk schedule).2 =
            ((requesting order disk).finish Disk.perform).2) := by
  constructor
  · intro i request hi halone
    obtain ⟨answer, hanswer, ⟨handle, rfl, hpath, hpresent⟩, -⟩ :=
      exists_obtained_of_ended hi halone schedule
    exact ⟨handle, hanswer, hpath, hpresent⟩
  · intro hall order hperm
    have hall' (request : String × String) (hmem : request ∈ order) :
        SucceedsAlone disk request := hall request (hperm.mem_iff.mp hmem)
    exact Disk.eq_of_le_of_le (ended_le hperm.symm.subset hall' schedule [])
      (ended_le hperm.subset hall [] schedule)

/-- Two requests, the path of one being the parent of the other's. -/
def nested : List (String × String) := [("home", "a/b"), ("home", "a")]

/-- The schedule in which one request has found that both ancestors of its path are missing when
the other makes them. -/
def overtakenAbove : List Nat := [0, 0, 0, 1, 1, 1, 1, 0, 0, 0, 0, 0, 0]

/-- A request whose ancestors are made by another one meanwhile obtains its directory, and the
disk is left as it would be had the other one come first. -/
theorem obtained_below_overtaken :
    (∀ request ∈ nested, SucceedsAlone Disk.bare request) ∧
      (∃ handle : Handle, (ended nested Disk.bare overtakenAbove).1[0]? = some (.ok handle) ∧
        handle.path = "home/a/b" ∧ handle.isPresent = true) ∧
      (ended nested Disk.bare overtakenAbove).2 =
        ((requesting nested.reverse Disk.bare).finish Disk.perform).2 := by
  have halone (request : String × String) (hmem : request ∈ nested) :
      SucceedsAlone Disk.bare request := by
    simp only [nested, List.mem_cons, List.not_mem_nil, or_false] at hmem
    rcases hmem with rfl | rfl
    · exact ⟨⟨"home/a/b", true, true, true⟩, by decide +kernel⟩
    · exact ⟨⟨"home/a", true, true, true⟩, by decide +kernel⟩
  have hmeeting := obtained_in_interleaving nested Disk.bare overtakenAbove
  have hfirst := hmeeting.1 0 ("home", "a/b") rfl (halone _ List.mem_cons_self)
  have hpath : directoryPath "home" "a/b" = "home/a/b" := by decide +kernel
  rw [hpath] at hfirst
  exact ⟨halone, hfirst, hmeeting.2 halone _ (List.reverse_perm nested)⟩

end Storage

end UserStorage
