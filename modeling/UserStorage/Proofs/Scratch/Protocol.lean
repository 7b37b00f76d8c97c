import UserStorage.Proofs.Program.Stages
import UserStorage.Proofs.Scratch.Hosting
import UserStorage.Proofs.Storage.Looks

/-!
# The protocol of scratch errands

An errand makes a scratch file, or it makes a scratch directory: then it reserves a name by a file,
which it deletes for the directory. So it goes through stages. First it has nothing, then it holds
a name by a file. An errand for a directory gives the file up, and has obtained its directory when
it has made it or has found one at its name: the making is tolerant, so a directory that another
errand has put there meanwhile is as good. In between the name is free for everybody.

## Main definitions

* `Scratch.Stage`: what an errand has
* `Scratch.Moves`, `Scratch.Fits`: how errands move, and what they may meet
* `Scratch.Errand`: what is to be made, with the tags that are drawn for it

## Main results

* `Scratch.proceeds_reserve`, `Scratch.proceeds_replaceWithDirectory`: the parts of an errand
* `Scratch.Errand.proceeds`: errands keep to the protocol
-/

namespace UserStorage

namespace Scratch

variable {α β : Type} {root : String} {n : Name} {d : Location} {disk : Disk}

/-! ## Stages and moves -/

/-- What an errand has. -/
inductive Stage
  /-- Nothing yet, or nothing any more. -/
  | free
  /-- The name, by a file. -/
  | holds (n : Name)
  /-- Nothing, since the file at the name has been deleted for a directory. -/
  | cleared (n : Name)
  /-- A directory at the name. -/
  | obtained (n : Name)

/-- How a call leads from a stage and a disk to others. -/
inductive Moves (root : String) : Stage → Disk → Stage → Disk → Prop
  /-- A name was taken, or no file could be made. -/
  | refused {disk : Disk} : Moves root .free disk .free disk
  | reserve {disk : Disk} {n : Name} {d : Location}
      (vacant : disk.vacancy (pathIn root n) = .ok (n, d)) :
      Moves root .free disk (.holds n) (disk.adding n d disk.newFile)
  | clear {disk : Disk} {n : Name} {d : Location}
      (place : disk.place (pathIn root n) = .ok (some (n, d))) :
      Moves root (.holds n) disk (.cleared n) { disk with tree := disk.tree.remove (n :: d) }
  /-- Somebody else has taken the name, or is seen to have it. -/
  | overtaken {disk : Disk} {n : Name} : Moves root (.cleared n) disk (.cleared n) disk
  | make {disk : Disk} {n : Name} {d : Location}
      (vacant : disk.vacancy (pathIn root n) = .ok (n, d)) :
      Moves root (.cleared n) disk (.obtained n) (disk.adding n d disk.newDirectory)
  | find {disk : Disk} {n : Name} (dir : disk.showsDirectory (pathIn root n) = true) :
      Moves root (.cleared n) disk (.obtained n) disk

/-- What an errand may meet: a name that it has had still has its place, and what it holds is
there. -/
def Fits (root : String) : Stage → Disk → Prop
  | .holds n, disk => ∃ d m content, disk.place (pathIn root n) = .ok (some (n, d)) ∧
      disk.mayChange d = true ∧ disk.tree.get? (n :: d) = some (.file m content)
  | .cleared n, disk => ∃ d, disk.place (pathIn root n) = .ok (some (n, d)) ∧
      disk.mayChange d = true
  | _, _ => True

/-- The protocol of scratch errands. -/
def protocol (root : String) : Protocol Disk Stage := ⟨Fits root, Moves root⟩

/-- From a stage on, a program keeps to the protocol. -/
def Proceeds (root : String) (ends : Stage → α → Prop) (p : DiskProgram α) (stage : Stage) :
    Prop :=
  Program.Proceeds (S := diskCalls) Disk.perform (protocol root) ends p stage

namespace Proceeds

variable {p : DiskProgram α} {ends : Stage → α → Prop} {ends' : Stage → β → Prop} {stage : Stage}
  {path : String}

theorem iff : Proceeds root ends p stage ↔
    Program.Proceeds (S := diskCalls) Disk.perform (protocol root) ends p stage := Iff.rfl

theorem done {a : α} (h : ends stage a) : Proceeds root ends (pure a) stage := h

theorem report_bind {e : Event} {f : Unit → DiskProgram β} (h : Proceeds root ends' (f ()) stage) :
    Proceeds root ends' (Program.report e >>= f) stage := h

theorem bind {f : α → DiskProgram β} (hp : Proceeds root ends p stage)
    (hf : ∀ stage a, ends stage a → Proceeds root ends' (f a) stage) :
    Proceeds root ends' (p >>= f) stage :=
  Program.Proceeds.bind hp hf

theorem makeFile_bind {f : Except IoError Unit → DiskProgram β}
    (h : ∀ met, Fits root stage met → ∃ next, Moves root stage met next (met.makeFile path).2 ∧
      Proceeds root ends' (f (met.makeFile path).1) next) :
    Proceeds root ends' (DiskProgram.makeFile path >>= f) stage := h

theorem removeFile_bind {f : Except IoError Unit → DiskProgram β}
    (h : ∀ met, Fits root stage met → ∃ next, Moves root stage met next (met.removeFile path).2 ∧
      Proceeds root ends' (f (met.removeFile path).1) next) :
    Proceeds root ends' (DiskProgram.removeFile path >>= f) stage := h

theorem makeDirectory_bind {f : Except IoError Unit → DiskProgram β}
    (h : ∀ met, Fits root stage met →
      ∃ next, Moves root stage met next (met.makeDirectory path).2 ∧
        Proceeds root ends' (f (met.makeDirectory path).1) next) :
    Proceeds root ends' (DiskProgram.makeDirectory path >>= f) stage := h

theorem isDirectory_bind {f : Bool → DiskProgram β}
    (h : ∀ met, Fits root stage met → ∃ next, Moves root stage met next met ∧
      Proceeds root ends' (f (met.showsDirectory path)) next) :
    Proceeds root ends' (Storage.isDirectory path >>= f) stage := by
  intro met hmet
  obtain ⟨next, hmove, hf⟩ := h met hmet
  rw [← Storage.kind_beq_directory] at hf
  exact ⟨next, hmove, hf⟩

end Proceeds

-- what follows goes by these lemmas, so that no program is unfolded on the way
attribute [irreducible] Proceeds

/-! ## Calls at a place -/

/-- A file is made at a vacant place, or nothing changes. -/
theorem makeFile_cases (disk : Disk) (path : String) :
    (∃ n d, disk.vacancy path = .ok (n, d) ∧
        disk.makeFile path = (.ok (), disk.adding n d disk.newFile)) ∨
      ∃ cause, disk.makeFile path = (.error cause, disk) := by
  rw [Disk.makeFile]
  cases hv : disk.vacancy path with
  | error cause => exact Or.inr ⟨cause, rfl⟩
  | ok p =>
    obtain ⟨n, d⟩ := p
    dsimp only
    split_ifs
    · exact Or.inr ⟨_, rfl⟩
    · exact Or.inl ⟨n, d, rfl, rfl⟩

/-- The file at a place can be removed, in a directory that may be changed. -/
theorem removeFile_of_place {path : String} {m : Mode} {content : ByteArray}
    (hplace : disk.place path = .ok (some (n, d))) (hmay : disk.mayChange d = true)
    (hfile : disk.tree.get? (n :: d) = some (.file m content))
    (hasks : Disk.asksForDirectory path = false) :
    disk.removeFile path = (.ok (), { disk with tree := disk.tree.remove (n :: d) }) := by
  have hremovable : disk.removable path = .ok (n :: d) := by
    rw [Disk.removable, hplace]
    simp [bind, Except.bind, hfile, hmay, Entry.isDirectory, hasks]
  rw [Disk.removeFile, hremovable]

/-- The file that is held at a scratch path can be removed. -/
theorem removeFile_pathIn {m : Mode} {content : ByteArray}
    (hplace : disk.place (pathIn root n) = .ok (some (n, d))) (hmay : disk.mayChange d = true)
    (hfile : disk.tree.get? (n :: d) = some (.file m content)) :
    disk.removeFile (pathIn root n) = (.ok (), { disk with tree := disk.tree.remove (n :: d) }) := by
  obtain ⟨hn, hname⟩ := name_of_place hplace
  exact removeFile_of_place hplace hmay hfile (asksForDirectory_pathIn root hn hname.ne_empty)

/-! ## Reserving a name -/

/-- A reserved path holds one of the drawn names. -/
def Reserved (root : String) (draw : Nat → String) : Stage → Except IoError String → Prop
  | stage, .error _ => stage = .free
  | stage, .ok path =>
    ∃ k, path = pathIn root (nameOf (draw k)) ∧ stage = .holds (nameOf (draw k))

theorem proceeds_reserve {draw : Nat → String} (hdraw : ∀ k, '/' ∉ (draw k).toList)
    (left next : Nat) :
    Proceeds root (Reserved root draw) (reserve root draw left next) .free := by
  induction left generalizing next with
  | zero => exact .done rfl
  | succ left ih =>
    refine .makeFile_bind fun met _ => ?_
    have hname := isName_nameOf (draw next)
    rcases makeFile_cases met (pathIn root (nameOf (draw next))) with
      ⟨n, d, hv, hmade⟩ | ⟨cause, hrefused⟩
    · obtain ⟨hplace, -⟩ := Disk.vacancy_eq_ok_iff.mp hv
      obtain ⟨rfl, -⟩ :=
        (place_pathIn_iff (slashFree_nameOf (hdraw next)) hname.ne_empty).mp hplace
      rw [hmade]
      exact ⟨.holds (nameOf (draw next)), .reserve hv, .done ⟨next, rfl, rfl⟩⟩
    · rw [hrefused]
      refine ⟨.free, .refused, ?_⟩
      dsimp only
      split_ifs
      · exact ih (next + 1)
      · exact .done rfl

/-! ## Putting a directory in the place of a file -/

/-- What is answered about the directory for which the file at a name was deleted. -/
def Replaced (n : Name) : Stage → Except IoError Unit → Prop
  | stage, .ok () => stage = .obtained n
  | stage, .error cause => stage = .cleared n ∧ cause.kind = .alreadyExists

theorem proceeds_unlessDirectory {cause : IoError} (hkind : cause.kind = .alreadyExists) :
    Proceeds root (Replaced n) (Storage.unlessDirectory (pathIn root n) cause) (.cleared n) := by
  refine .isDirectory_bind fun met _ => ?_
  cases hdir : met.showsDirectory (pathIn root n) with
  | true => exact ⟨.obtained n, .find hdir, .done rfl⟩
  | false => exact ⟨.cleared n, .overtaken, .done ⟨rfl, hkind⟩⟩

/-- At the name that was given up a directory is made, or somebody else has taken the name. -/
theorem makeDirectory_cases (hfits : Fits root (.cleared n) disk) :
    (∃ d, disk.vacancy (pathIn root n) = .ok (n, d) ∧
        disk.makeDirectory (pathIn root n) = (.ok (), disk.adding n d disk.newDirectory)) ∨
      disk.makeDirectory (pathIn root n) = (.error (.system .alreadyExists), disk) := by
  obtain ⟨d, hplace, hmay⟩ := hfits
  have hv := Disk.vacancy_of_place hplace
  rw [hmay, Bool.not_true, if_neg Bool.false_ne_true] at hv
  split_ifs at hv with htaken
  · exact Or.inr (by rw [Disk.makeDirectory, hv])
  · exact Or.inl ⟨d, hv, by rw [Disk.makeDirectory, hv]⟩

/-- Nothing is ever missing on the way to the name, so the attempt decides, with a look when the
name is taken. -/
theorem proceeds_attempt {f : Except IoError Unit → DiskProgram (Except IoError Unit)}
    (hok : f (.ok ()) = pure (.ok ()))
    (htaken : f (.error (.system .alreadyExists)) =
      Storage.unlessDirectory (pathIn root n) (.system .alreadyExists)) :
    Proceeds root (Replaced n) (DiskProgram.makeDirectory (pathIn root n) >>= f) (.cleared n) := by
  refine .makeDirectory_bind fun met hmet => ?_
  rcases makeDirectory_cases hmet with ⟨d, hv, hmade⟩ | htook
  · rw [hmade, hok]
    exact ⟨.obtained n, .make hv, .done rfl⟩
  · rw [htook, htaken]
    exact ⟨.cleared n, .overtaken, proceeds_unlessDirectory rfl⟩

theorem proceeds_createDirectory :
    Proceeds root (Replaced n) (Storage.createDirectory (pathIn root n)) (.cleared n) := by
  have hne : pathIn root n ≠ "" := Path.withTrailingSeparator_append_ne_empty root n
  have hwithin (ancestors : List String) :
      Proceeds root (Replaced n) (Storage.makeWithin (pathIn root n) ancestors) (.cleared n) := by
    cases ancestors with
    | nil =>
      rw [Storage.makeWithin, if_neg hne]
      exact proceeds_attempt rfl rfl
    | cons parent others =>
      rw [Storage.makeWithin, if_neg hne]
      exact proceeds_attempt rfl rfl
  unfold Storage.createDirectory Storage.makeWithAncestors
  refine (hwithin (Path.ancestors (pathIn root n))).bind fun stage answer hanswer => ?_
  cases answer with
  | ok u => exact .done hanswer
  | error cause =>
    -- a second look, for the name may have got its directory since the first
    obtain ⟨rfl, hkind⟩ := hanswer
    simp only [if_pos hkind]
    exact proceeds_unlessDirectory hkind

/-! ## Errands -/

/-- What an errand is to make. -/
inductive Purpose
  | file | directory

/-- The stage at which an errand has made what it is to make. -/
def Purpose.last : Purpose → Name → Stage
  | file => .holds
  | directory => .obtained

/-- What is to be made, with the tags that are drawn for its name. -/
structure Errand where
  purpose : Purpose
  draw : Nat → String

/-- The program of an errand. -/
def Errand.program (root : String) (errand : Errand) : DiskProgram (Except StorageError String) :=
  match errand.purpose with
  | .file => createScratchFile root errand.draw
  | .directory => createScratchDirectory root errand.draw

/-- What an errand answers: a path with one of its drawn names, at which it has made what it is to
make. One that fails has nothing. -/
def Errand.Ends (root : String) (errand : Errand) : Stage → Except StorageError String → Prop
  | stage, .error _ => stage = .free ∨ ∃ n, stage = .cleared n
  | stage, .ok path => ∃ k, path = pathIn root (nameOf (errand.draw k)) ∧
      stage = errand.purpose.last (nameOf (errand.draw k))

/-- Who has obtained a directory answers its path. -/
theorem Errand.Ends.eq_ok {errand : Errand} {answer : Except StorageError String}
    (h : errand.Ends root (.obtained n) answer) : answer = .ok (pathIn root n) := by
  cases answer with
  | error e =>
    rcases h with hfree | ⟨k, hcleared⟩
    · cases hfree
    · cases hcleared
  | ok path =>
    obtain ⟨purpose, draw⟩ := errand
    obtain ⟨k, rfl, hstage⟩ := h
    cases purpose with
    | file => cases hstage
    | directory => rw [Stage.obtained.inj hstage]

theorem proceeds_createScratchFile {draw : Nat → String} (hdraw : ∀ k, '/' ∉ (draw k).toList) :
    Proceeds root ((Errand.mk .file draw).Ends root) (createScratchFile root draw) .free := by
  unfold createScratchFile
  refine (proceeds_reserve hdraw maxDraws 0).bind fun stage answer hanswer => ?_
  cases answer with
  | error cause => exact .report_bind (.done (Or.inl hanswer))
  | ok path => exact .report_bind (.done hanswer)

/-- The file that holds a drawn name is deleted, and then a directory is at the name or the errand
fails. -/
theorem proceeds_replaceWithDirectory (draw : Nat → String) (k : Nat) :
    Proceeds root ((Errand.mk .directory draw).Ends root)
      (replaceWithDirectory (pathIn root (nameOf (draw k)))) (.holds (nameOf (draw k))) := by
  unfold replaceWithDirectory
  generalize hn : nameOf (draw k) = n
  refine .removeFile_bind fun met hmet => ?_
  obtain ⟨d, m, content, hplace, hmay, hfile⟩ := hmet
  rw [removeFile_pathIn hplace hmay hfile]
  refine ⟨.cleared n, .clear hplace, ?_⟩
  refine proceeds_createDirectory.bind fun stage answer hanswer => ?_
  cases answer with
  | error cause => exact .report_bind (.done (Or.inr ⟨n, hanswer.1⟩))
  | ok u =>
    subst hn
    exact .report_bind (.done ⟨k, rfl, hanswer⟩)

/-- An errand whose tags hold no slash keeps to the protocol. -/
theorem Errand.proceeds (root : String) (errand : Errand)
    (hdraw : ∀ k, '/' ∉ (errand.draw k).toList) :
    Proceeds root (errand.Ends root) (errand.program root) .free := by
  obtain ⟨purpose, draw⟩ := errand
  cases purpose with
  | file => exact proceeds_createScratchFile hdraw
  | directory =>
    show Proceeds root _ (createScratchDirectory root draw) .free
    unfold createScratchDirectory
    refine (proceeds_createScratchFile hdraw).bind fun stage answer hanswer => ?_
    cases answer with
    | error e => exact .done hanswer
    | ok path =>
      obtain ⟨k, rfl, rfl⟩ := hanswer
      exact proceeds_replaceWithDirectory draw k

end Scratch

end UserStorage
