import UserStorage.Proofs.Storage.Making
import UserStorage.Storage.PrivateFile

/-!
# Probing for a private file, run alone

A probe that is run alone either answers at once, from the rights of the file, or decides by its
containing directory and a last look at the file. The containing directory is seen or it is made
first; behind one that had to be made, a path that goes up nowhere finds nothing.

## Main definitions

* `Storage.Settling`: the last look of a probe
* `Storage.Probing`: the runs of a probe

## Main results

* `Storage.probing_accessibleFile`: what the program does is a run of this kind
* `Storage.containingDirectory_cases`: the three kinds of containing directories
* `Storage.eq_or_unseen_of_making`: making the containing directory shows no file
-/

namespace UserStorage.Storage

variable {home name file : String} {disk after : Disk}

/-! ## Runs -/

/-- The last look, which decides for a file that grants nothing in a directory that is there. -/
inductive Settling (file : String) (disk : Disk) : Outcome Disk (Except StorageError Probe) → Prop
  | taken (seen : (disk.lookup? false file).isSome = true) :
      Settling file disk ⟨.ok (.denied file), disk, [.existingFileDenied file]⟩
  | vacant (unseen : disk.lookup? false file = none) :
      Settling file disk ⟨.ok (.accessible ⟨file, false, false, true⟩), disk, []⟩

theorem settling_vacantOrDenied (file : String) (disk : Disk) :
    Settling file disk ((vacantOrDenied file).runOn disk) := by
  have hlook : (DiskProgram.ownKindOf file).runOn disk =
      ⟨(disk.lookup? false file).map Entry.kind, disk, []⟩ := rfl
  rw [vacantOrDenied, DiskProgram.runOn_bind_of_quiet hlook, Option.isSome_map]
  cases hl : disk.lookup? false file with
  | none => exact .vacant hl
  | some e => exact .taken (by rw [hl]; rfl)

theorem Settling.state_eq {outcome : Outcome Disk (Except StorageError Probe)}
    (h : Settling file disk outcome) : outcome.state = disk := by
  cases h <;> rfl

/-- The file grants neither reading nor writing. -/
def Mute (file : String) (disk : Disk) : Prop :=
  disk.grants file .read = false ∧ disk.grants file .write = false

theorem mute_of_unseen (h : disk.lookup? true file = none) : Mute file disk := by
  constructor <;> rw [Disk.grants, h] <;> rfl

/-- The events of a run that made the containing directory, before its last look. -/
def madeEvents (directory : String) : List Event :=
  [.creatingHome directory, .homeCreated directory]

/-- The runs of a probe for a file that is to lie in a directory. -/
inductive Probing (file directory : String) (disk : Disk) :
    Outcome Disk (Except StorageError Probe) → Prop
  /-- The file grants something. -/
  | usable (grants : ¬ Mute file disk) :
      Probing file directory disk
        ⟨.ok (.accessible ⟨file, true, disk.grants file .read, disk.grants file .write⟩), disk, []⟩
  /-- The directory is there and entries can be made in it. -/
  | ready {outcome : Outcome Disk (Except StorageError Probe)} (mute : Mute file disk)
      (allows : disk.allowsMaking directory = true) (settling : Settling file disk outcome) :
      Probing file directory disk outcome
  /-- The directory, or what is in its place, does not allow that. -/
  | shut (mute : Mute file disk) (seen : (disk.lookup? true directory).isSome = true)
      (forbids : disk.allowsMaking directory = false) :
      Probing file directory disk
        ⟨.ok (.denied file), disk, [.directoryNotWritable directory file]⟩
  /-- The directory is not seen and cannot be made. -/
  | unmade {after : Disk} {cause : IoError} (mute : Mute file disk)
      (unseen : disk.lookup? true directory = none)
      (making : Making directory (Path.ancestors directory) disk (.error cause) after) :
      Probing file directory disk ⟨.error (.directoryNotCreated directory cause), after,
        [.creatingHome directory, .homeNotCreated directory cause]⟩
  /-- The directory was not seen and has been made. -/
  | made {after : Disk} {outcome : Outcome Disk (Except StorageError Probe)}
      (mute : Mute file disk) (unseen : disk.lookup? true directory = none)
      (making : Making directory (Path.ancestors directory) disk (.ok ()) after)
      (settling : Settling file after outcome) :
      Probing file directory disk
        { outcome with events := madeEvents directory ++ outcome.events }

/-- What the program does is a run of this kind. -/
theorem probing_accessibleFile (home name : String) (disk : Disk) :
    Probing (filePath home name) (containingDirectory home (filePath home name)) disk
      ((accessibleFile home name).runOn disk) := by
  generalize hfile : filePath home name = file
  have hread : (DiskProgram.grants file .read).runOn disk = ⟨disk.grants file .read, disk, []⟩ :=
    rfl
  have hwrite : (DiskProgram.grants file .write).runOn disk =
      ⟨disk.grants file .write, disk, []⟩ := rfl
  unfold accessibleFile
  simp only [hfile]
  rw [DiskProgram.runOn_bind_of_quiet hread, DiskProgram.runOn_bind_of_quiet hwrite]
  by_cases hmute : Mute file disk
  · -- the rights are not asked for again, whatever happens from here on
    rw [hmute.1, hmute.2]
    generalize containingDirectory home file = directory
    rw [if_neg (by decide), DiskProgram.runOn_bind_of_quiet (isSeen_runOn directory disk)]
    cases hseen : disk.lookup? true directory with
    | some e =>
      have hsome : (disk.lookup? true directory).isSome = true := by rw [hseen]; rfl
      rw [Option.isSome_some, if_pos rfl,
        DiskProgram.runOn_bind_of_quiet (grantsMaking_runOn directory disk)]
      cases hallows : disk.allowsMaking directory with
      | true => exact .ready hmute hallows (settling_vacantOrDenied file disk)
      | false => exact .shut hmute hsome hallows
    | none =>
      obtain ⟨answer, after, making, hrun⟩ := making_createDirectory directory disk
      rw [Option.isSome_none, if_neg (by decide), DiskProgram.runOn_bind_report,
        DiskProgram.runOn_bind_of_quiet hrun]
      cases answer with
      | error cause => exact .unmade hmute hseen making
      | ok u => exact .made hmute hseen making (settling_vacantOrDenied file after)
  · have hany : (disk.grants file .read || disk.grants file .write) = true := by
      by_contra hnone
      exact hmute (by simpa [Mute] using hnone)
    rw [if_pos hany]
    exact .usable hmute

/-- A probe answers for its file, or with its directory that could not be made. -/
theorem Probing.answer_cases {directory : String}
    {outcome : Outcome Disk (Except StorageError Probe)}
    (h : Probing file directory disk outcome) :
    (∃ handle, outcome.answer = .ok (.accessible handle) ∧ handle.path = file) ∨
      outcome.answer = .ok (.denied file) ∨
      ∃ cause, outcome.answer = .error (.directoryNotCreated directory cause) := by
  cases h with
  | usable => exact Or.inl ⟨_, rfl, rfl⟩
  | ready _ _ settling =>
    cases settling with
    | taken => exact Or.inr (Or.inl rfl)
    | vacant => exact Or.inl ⟨_, rfl, rfl⟩
  | shut => exact Or.inr (Or.inl rfl)
  | unmade => exact Or.inr (Or.inr ⟨_, rfl⟩)
  | made _ _ _ settling =>
    cases settling with
    | taken => exact Or.inr (Or.inl rfl)
    | vacant => exact Or.inl ⟨_, rfl, rfl⟩

/-! ## The containing directory -/

/-- The pieces of a file's path are those of the home, up to the slash that closes it, and those
of the name. -/
theorem exists_pieces_filePath (home name : String) :
    ∃ s, Path.withTrailingSeparator (Text.trim home) = s ++ "/" ∧
      Path.pieces (filePath home name) = Path.pieces s ++ Path.pieces name := by
  obtain ⟨s, hs, -⟩ := Path.withTrailingSeparator_eq (Text.trim home)
  exact ⟨s, hs, by rw [filePath, hs, Path.pieces_append_slash]⟩

/-- The directory that is to hold a file is the root, or the working directory, or the path is cut
there. -/
theorem containingDirectory_cases (home name : String) :
    (Path.AllIdle (Path.pieces (filePath home name)) ∧ ∃ body, body ≠ [] ∧
      Path.pieces (containingDirectory home (filePath home name)) = "" :: body ∧
      Path.AllIdle body) ∨
    (containingDirectory home (filePath home name) = "" ∧ ∃ first tail, tail ≠ [] ∧
      Path.pieces (filePath home name) = first :: tail ∧ Path.AllIdle tail) ∨
    ∃ directory, containingDirectory home (filePath home name) = directory ∧ directory ≠ "" ∧
      Path.parent? (filePath home name) = some directory ∧
      Nonempty (Path.Cut (filePath home name) directory) := by
  obtain ⟨s, hs, hp⟩ := exists_pieces_filePath home name
  rcases Path.parent?_cases (filePath home name) with ⟨hn, -, body, hb, hi⟩ |
    ⟨hn, -, first, tail, hf, -, ht⟩ | ⟨q, hq, hne, -, hcut⟩
  · obtain ⟨first, rest, hfirst⟩ := List.exists_cons_of_ne_nil (Path.pieces_ne_nil s)
    have hdir : Path.pieces (containingDirectory home (filePath home name)) =
        first :: (rest ++ [""]) := by
      have hslash := Path.pieces_append_slash s ""
      rw [String.append_empty, hfirst, Path.pieces_empty] at hslash
      rw [containingDirectory, hn, Option.getD_none, hs, hslash]
      rfl
    rw [hb, hfirst] at hp
    obtain ⟨rfl, rfl⟩ := List.cons.inj hp
    refine Or.inl ⟨hb ▸ Path.AllIdle.cons (by rfl) hi, rest ++ [""], by simp, hdir, ?_⟩
    intro p hmem
    rcases List.mem_append.mp hmem with hmem | hmem
    · exact hi p (List.mem_append_left _ hmem)
    · rw [List.mem_singleton.mp hmem]
      rfl
  · refine Or.inr (Or.inl ⟨by rw [containingDirectory, hn]; rfl, first, tail, ?_, hf, ht⟩)
    rintro rfl
    have hlen := congrArg List.length (hf.symm.trans hp)
    have h1 := List.length_pos_iff.mpr (Path.pieces_ne_nil s)
    have h2 := List.length_pos_iff.mpr (Path.pieces_ne_nil name)
    simp only [List.length_singleton, List.length_append] at hlen
    omega
  · exact Or.inr (Or.inr ⟨q, by rw [containingDirectory, hq]; rfl, hne, hq, hcut⟩)

/-- The directory that is to hold a file whose path goes up nowhere has such a path too. -/
theorem forward_containingDirectory (h : ".." ∉ Path.pieces (filePath home name)) :
    ".." ∉ Path.pieces (containingDirectory home (filePath home name)) := by
  rcases containingDirectory_cases home name with ⟨-, body, -, hp, hi⟩ | ⟨hempty, -⟩ |
    ⟨directory, hd, -, -, ⟨cut⟩⟩
  · rw [hp, List.mem_cons, not_or]
    exact ⟨by decide, fun hmem => absurd (hi ".." hmem) (by decide)⟩
  · rw [hempty]
    decide
  · rw [hd]
    exact cut.forward h

/-- The root is no new directory. -/
theorem not_leadsToNew_of_allIdle {path : String} {body : List String} (hne : body ≠ [])
    (hp : Path.pieces path = "" :: body) (hi : Path.AllIdle body) :
    ¬ Disk.LeadsToNew disk after path := by
  rintro ⟨l, ⟨-, left, ht⟩, -, hfree, -⟩
  have habs : Path.isAbsolute path = true := Path.isAbsolute_iff.mpr ⟨body, hne, hp⟩
  rw [hp, Tree.startOf, if_pos habs] at ht
  obtain ⟨hl, -⟩ := Tree.eq_of_trek_idle (Path.AllIdle.cons (by rfl) hi) ht
  have hroot := disk.tree.isDirectory_root
  rw [Tree.isDirectory] at hroot
  subst hl
  simp [hfree] at hroot

/-- Making the containing directory of a path that goes up nowhere shows no file there. -/
theorem eq_or_unseen_of_making
    (unseen : disk.lookup? true (containingDirectory home (filePath home name)) = none)
    (making : Making (containingDirectory home (filePath home name))
      (Path.ancestors (containingDirectory home (filePath home name))) disk (.ok ()) after)
    (hdots : ".." ∉ Path.pieces (filePath home name)) :
    after = disk ∨ ∀ followLast, after.lookup? followLast (filePath home name) = none := by
  rcases containingDirectory_cases home name with ⟨-, body, hne, hp, hi⟩ | ⟨hempty, -⟩ |
    ⟨directory, hd, hne, -, ⟨cut⟩⟩
  · have hnamed : containingDirectory home (filePath home name) ≠ "" := by
      intro hempty
      rw [hempty, Path.pieces_empty] at hp
      exact hne (List.cons.inj hp).2.symm
    exact absurd (making.leadsToNew rfl hnamed (forward_containingDirectory hdots) unseen)
      (not_leadsToNew_of_allIdle hne hp hi)
  · rw [hempty] at making
    exact Or.inl making.eq_of_empty
  · rw [hd] at unseen making
    -- the new directory holds nothing, and only `..` would lead out of it
    have hnew := making.leadsToNew rfl hne (cut.forward hdots) unseen
    exact Or.inr fun followLast => hnew.unseen cut hdots

end UserStorage.Storage
