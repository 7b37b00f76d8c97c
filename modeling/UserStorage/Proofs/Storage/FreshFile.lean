import UserStorage.Proofs.Storage.Probing

/-!
# Files that are not there yet

A handle for a file that is not there yet promises that the file can be made. On the disk that the
probe leaves the promise holds: one attempt to make the file at the handle's path succeeds, and its
entry is in the directory that the lexical parent of the path leads to. The path must be one that
can name a file at all, and the mask must leave an owner the right to make entries in directories.

## Main definitions

* `Path.NamesFile`: the paths that can name a file
* `Disk.MaskKeepsMaking`: the mask leaves new directories usable
* `Disk.MakesInParent`: an attempt to make a file succeeds, in the directory of its parent

## Main results

* `Storage.makesInParent_of_absent`: a handle for a file that is not there can be used to make it
-/

namespace UserStorage

/-- A path that can name a file: it ends in a name, goes up nowhere and is short enough. -/
structure Path.NamesFile (path : String) : Prop where
  forward : ".." ∉ Path.pieces path
  named : ∀ last ∈ (Path.pieces path).getLast?, Path.isIdle last = false
  nulFree : hasNul path = false
  component_le : ∀ p ∈ Path.pieces path, p.utf8ByteSize ≤ maxNameBytes
  size_le : path.utf8ByteSize ≤ maxPathBytes

theorem Path.NamesFile.admissible {path : String} (h : Path.NamesFile path) :
    Path.Admissible path where
  nulFree := h.nulFree
  ne_empty := by
    rintro rfl
    exact absurd (h.named "" rfl) (by decide)
  size_le := h.size_le

/-- Behind the last component of such a path nothing stands. -/
theorem Path.NamesFile.tail_eq_nil {path first : String} {ps tail : List String}
    (h : Path.NamesFile path) (hp : Path.pieces path = ps ++ first :: tail)
    (hi : Path.AllIdle tail) : tail = [] := by
  rcases List.eq_nil_or_concat tail with rfl | ⟨tail', last, rfl⟩
  · rfl
  · have hlast : (Path.pieces path).getLast? = some last := by
      have hps : ps ++ first :: tail'.concat last = (ps ++ first :: tail') ++ [last] := by simp
      rw [hp, hps, List.getLast?_concat]
    have hidle := hi last (by simp)
    rw [h.named last hlast] at hidle
    cases hidle

namespace Disk

/-- The mask leaves an owner the rights to write and to search a new directory. -/
def MaskKeepsMaking (disk : Disk) : Prop :=
  disk.umask.ownerMayWrite = false ∧ disk.umask.ownerMaySearch = false

instance (disk : Disk) : Decidable disk.MaskKeepsMaking := inferInstanceAs (Decidable (_ ∧ _))

/-- A new directory allows making entries in it exactly when the mask keeps the rights for that. -/
theorem LeadsToNew.allowsMaking_iff {disk after : Disk} {path : String}
    (h : LeadsToNew disk after path) (hle : disk ≤ after) :
    after.allowsMaking path = true ↔ disk.MaskKeepsMaking := by
  rw [h.allowsMaking, ← hle.2.2, MaskKeepsMaking, Bool.and_eq_true, Bool.not_eq_true',
    Bool.not_eq_true']

/-- An attempt to make a file at the path succeeds: its parent leads to a directory, in which the
path's last component is free, and there the attempt adds the new file. -/
def MakesInParent (disk : Disk) (path : String) : Prop :=
  ∃ parent d n, Path.parent? path = some parent ∧ disk.LeadsTo parent d ∧
    (Path.pieces path).getLast? = some n ∧ disk.tree.get? (n :: d) = none ∧
    disk.makeFile path = (.ok (), disk.adding n d disk.newFile) ∧
    (disk.adding n d disk.newFile).tree.get? (n :: d) = some disk.newFile

/-- In a directory that allows it, a file that is not seen can be made. -/
theorem makesInParent_of_directory {disk : Disk} {path q : String} {d : Location} {m : Mode}
    (h : Path.NamesFile path) (hq : Path.parent? path = some q) (cut : Path.Cut path q)
    (hd : disk.LeadsToDirectory q d m) (hw : m.ownerMayWrite = true)
    (hs : m.ownerMaySearch = true) (unseen : disk.lookup? false path = none) :
    disk.MakesInParent path := by
  have hcut : Path.pieces path = (cut.core ++ cut.gap) ++ cut.name :: cut.tail := by
    rw [cut.pieces_eq, List.append_assoc]
  have htail : cut.tail = [] := h.tail_eq_nil hcut cut.tail_idle
  have hpieces : Path.pieces path = cut.core ++ cut.gap ++ [cut.name] := by
    rw [hcut, htail]
  have hmem : cut.name ∈ Path.pieces path := by simp [hpieces]
  obtain ⟨hempty, hdot⟩ := Path.isIdle_eq_false_iff.mp cut.name_named
  have hname : Tree.IsName cut.name := ⟨hempty, hdot, cut.name_ne_dotDot h.forward⟩
  have hsize := h.component_le cut.name hmem
  have hfree : disk.tree.get? (cut.name :: d) = none := by
    cases hg : disk.tree.get? (cut.name :: d) with
    | none => rfl
    | some e =>
      rw [lookup?_false_of_get? cut h.admissible htail hname hsize hd hs hg] at unseen
      cases unseen
  have hvacant : disk.vacancy path = .ok (cut.name, d) :=
    vacancy_eq_ok_iff.mpr ⟨place_of_parent cut h.admissible htail hname hsize hd hs, hfree,
      (mayChange_of_directory hd.2).trans hw⟩
  have hdir : disk.tree.isDirectory d = true := by
    simp [Tree.isDirectory, hd.2, Entry.isDirectory]
  refine ⟨q, d, cut.name, hq, hd.1, by simp [hpieces], hfree, ?_, ?_⟩
  · rw [makeFile, hvacant, asksForDirectory_eq_false hpieces hempty]
    rfl
  · exact Tree.get?_add_self hdir hfree _

end Disk

namespace Storage

variable {home name : String} {disk : Disk} {handle : Handle}

/-- The path of a file that can be named has a parent to walk to. -/
theorem exists_cut_of_namesFile (h : Path.NamesFile (filePath home name)) :
    ∃ directory, containingDirectory home (filePath home name) = directory ∧ directory ≠ "" ∧
      Path.parent? (filePath home name) = some directory ∧
      Nonempty (Path.Cut (filePath home name) directory) := by
  rcases containingDirectory_cases home name with ⟨hi, -⟩ | ⟨-, first, tail, hne, hp, hi⟩ | hcut
  · obtain ⟨ps, last, hp⟩ := List.eq_nil_or_concat (Path.pieces (filePath home name)) |>.resolve_left
      (Path.pieces_ne_nil _)
    have hlast := h.named last (by rw [hp, List.concat_eq_append, List.getLast?_concat]; rfl)
    rw [hi last (by simp [hp])] at hlast
    cases hlast
  · have hp' : Path.pieces (filePath home name) = [] ++ first :: tail := hp
    exact absurd (h.tail_eq_nil hp' hi) hne
  · exact hcut

/-- On the disk that a probe leaves, a handle for a file that is not there can be used to make
it. -/
theorem makesInParent_of_absent (hn : Path.NamesFile (filePath home name))
    (hmask : disk.MaskKeepsMaking)
    (h : ((accessibleFile home name).runOn disk).answer = .ok (.accessible handle))
    (absent : handle.isPresent = false) :
    handle.path = filePath home name ∧
      ((accessibleFile home name).runOn disk).state.MakesInParent handle.path := by
  have hprobing := probing_accessibleFile home name disk
  obtain ⟨directory, hdir, hne, hparent, ⟨cut⟩⟩ := exists_cut_of_namesFile hn
  rw [hdir] at hprobing
  generalize (accessibleFile home name).runOn disk = outcome at h hprobing ⊢
  generalize filePath home name = file at hn hprobing hparent cut ⊢
  cases hprobing with
  | usable =>
    obtain rfl : _ = handle := by simpa using h
    cases absent
  | ready mute allows settling =>
    obtain ⟨d, m, hd, hw, hs⟩ := Disk.allowsMaking_iff.mp allows
    cases settling with
    | taken => cases h
    | vacant unseen =>
      cases h
      exact ⟨rfl, Disk.makesInParent_of_directory hn hparent cut hd hw hs unseen⟩
  | shut => cases h
  | unmade => cases h
  | @made after outcome mute unseen making settling =>
    -- the directory is new and was not asked for its rights: the mask has decided them
    obtain ⟨l, hl, hnew, -, -⟩ := making.leadsToNew rfl hne (cut.forward hn.forward) unseen
    have humask : after.umask = disk.umask := making.le.2.2.symm
    have hw : (Mode.full.without after.umask).ownerMayWrite = true := by
      rw [humask, Mode.ownerMayWrite_without, hmask.1]
      decide
    have hs : (Mode.full.without after.umask).ownerMaySearch = true := by
      rw [humask, Mode.ownerMaySearch_without, hmask.2]
      decide
    cases settling with
    | taken => cases h
    | vacant free =>
      cases h
      exact ⟨rfl, Disk.makesInParent_of_directory hn hparent cut ⟨hl, hnew⟩ hw hs free⟩

/-- Under a home that is not there yet, a file can be made after the probe. -/
theorem makesInParent_under_missing_home :
    ((accessibleFile "base/app" "notes").runOn Disk.bare).state.MakesInParent "base/app/notes" := by
  have hn : Path.NamesFile (filePath "base/app" "notes") :=
    ⟨by decide +kernel, by decide +kernel, by decide +kernel, by decide +kernel,
      by decide +kernel⟩
  have hmask : Disk.bare.MaskKeepsMaking := by decide +kernel
  have h : ((accessibleFile "base/app" "notes").runOn Disk.bare).answer =
      .ok (.accessible ⟨"base/app/notes", false, false, true⟩) := by decide +kernel
  exact (makesInParent_of_absent hn hmask h rfl).2

end Storage

end UserStorage
