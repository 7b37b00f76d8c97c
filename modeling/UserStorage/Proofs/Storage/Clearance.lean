import UserStorage.Proofs.Disk.Names
import UserStorage.Proofs.Storage.FreshFile
import UserStorage.Proofs.Storage.Obtaining

/-!
# What it takes to make a private directory

A private directory is obtained exactly when its path leads to a directory already, or the names of
the path can be followed to a directory that takes entries and holds nothing under the name that
comes next. Then that name and all names behind it are made, one directory for each, and nothing
else; every other obstacle is final, at whatever depth it is met.

## Main definitions

* `Disk.Deepest`: how far the names of a path can be followed
* `Disk.Clear`: the next name can be made there
* `Tree.chain`, `Disk.GainsChain`: the directories that the missing names are made as, and a disk
  that has gained just these

## Main results

* `Storage.Making.of_clear`: a clear path is made
* `Storage.Making.clear_of_ok`: what is made was clear
* `Storage.obtains_clear`: what it takes to obtain a private directory
-/

namespace UserStorage

/-- The locations of some names, each one in the one before it, the first one in a directory. -/
def Tree.chain : Location → List Name → List Location
  | _, [] => []
  | d, n :: ns => (n :: d) :: chain (n :: d) ns

theorem Tree.chain_snoc (d : Location) (ns : List Name) (n : Name) :
    chain d (ns ++ [n]) = chain d ns ++ [n :: (ns.reverse ++ d)] := by
  induction ns generalizing d with
  | nil => rfl
  | cons first ns ih =>
    rw [List.cons_append, chain, chain, ih]
    simp

theorem Tree.length_le_of_mem_chain {d l : Location} {ns : List Name} (h : l ∈ chain d ns) :
    l.length ≤ ns.length + d.length := by
  induction ns generalizing d with
  | nil => cases h
  | cons n ns ih =>
    rcases List.mem_cons.mp h with rfl | h
    · simp only [List.length_cons]
      omega
    · have hle := ih h
      simp only [List.length_cons] at hle ⊢
      omega

/-- Nothing lies at any depth below a place without an entry. -/
theorem Tree.get?_append_eq_none {t : Tree} {l : Location} (h : t.get? l = none) (ns : List Name) :
    t.get? (ns ++ l) = none := by
  induction ns with
  | nil => exact h
  | cons n ns ih => exact get?_cons_eq_none ih n

namespace Disk

variable {disk mid after : Disk} {path : String} {found others missing : List Name} {next n : Name}
  {d : Location}

/-- The names of a path can be followed just so far: those behind are missing. -/
structure Deepest (disk : Disk) (path : String) (found missing : List Name) (d : Location) :
    Prop where
  names_eq : Path.names path = found ++ missing
  leads : disk.LeadsAlong path found d
  /-- No longer beginning leads anywhere. -/
  last {more : List Name} (h : more <+: missing) (ne_nil : more ≠ []) (l : Location) :
    ¬ disk.LeadsAlong path (found ++ more) l

/-- The names can be followed to a directory that takes entries and holds none under the next
name. -/
structure Clear (disk : Disk) (path : String) (found : List Name) (next : Name)
    (others : List Name) (d : Location) : Prop where
  deepest : disk.Deepest path found (next :: others) d
  takes : disk.TakesEntries d
  free : disk.tree.get? (next :: d) = none

/-- Where the next name is missing the names can be followed no further. -/
theorem Clear.of_free (hpath : Path.Ordinary path) (names_eq : Path.names path = found ++ next :: others)
    (leads : disk.LeadsAlong path found d) (takes : disk.TakesEntries d)
    (free : disk.tree.get? (next :: d) = none) : disk.Clear path found next others d where
  deepest := {
    names_eq
    leads
    last := fun {more} hmore hne l => by
      obtain ⟨first, more, rfl⟩ := List.exists_cons_of_ne_nil hne
      obtain rfl : first = next := (List.cons_prefix_cons.mp hmore).1
      exact not_leadsAlong_of_free leads (hpath.isName (by rw [names_eq]; simp)) free }
  takes
  free

/-- A clear path is not seen. -/
theorem Clear.lookup?_eq_none (h : disk.Clear path found next others d) :
    disk.lookup? true path = none := by
  cases hl : disk.lookup? true path with
  | none => rfl
  | some e =>
    obtain ⟨l, hl, -⟩ := lookup?_true_eq_some_iff.mp hl
    have hleads := hl.leadsAlong
    rw [h.deepest.names_eq] at hleads
    exact absurd hleads (h.deepest.last List.prefix_rfl (by simp) l)

/-- A disk that has gained a new directory for each of some names, and nothing else. -/
structure GainsChain (before after : Disk) (d : Location) (missing : List Name) : Prop where
  new : ∀ l ∈ Tree.chain d missing, before.tree.get? l = none
  get?_eq (l : Location) : after.tree.get? l =
    if l ∈ Tree.chain d missing then some before.newDirectory else before.tree.get? l
  cwd_eq : after.cwd = before.cwd
  umask_eq : after.umask = before.umask

theorem GainsChain.refl (disk : Disk) (d : Location) : disk.GainsChain disk d [] where
  new l h := by cases h
  get?_eq l := (if_neg List.not_mem_nil).symm
  cwd_eq := rfl
  umask_eq := rfl

/-- One directory more at the end of a chain. -/
theorem GainsChain.snoc (h : disk.GainsChain mid d missing) (hle : disk ≤ mid)
    (hv : mid.vacancy path = .ok (n, missing.reverse ++ d)) :
    disk.GainsChain (mid.adding n (missing.reverse ++ d) mid.newDirectory) d (missing ++ [n]) where
  new l hl := by
    rw [Tree.chain_snoc, List.mem_append, List.mem_singleton] at hl
    rcases hl with hl | rfl
    · exact h.new l hl
    · exact Tree.get?_eq_none_of_le hle.1 (vacancy_eq_ok_iff.mp hv).2.1
  get?_eq l := by
    rw [get?_adding_of_vacancy hv, h.get?_eq, newDirectory_of_le hle, Tree.chain_snoc]
    by_cases hlast : l = n :: (missing.reverse ++ d)
    · rw [if_pos hlast, if_pos (by simp [hlast])]
    · rw [if_neg hlast]
      simp only [List.mem_append, List.mem_singleton, hlast, or_false]
  cwd_eq := h.cwd_eq
  umask_eq := h.umask_eq

/-- A new directory takes entries, unless the mask takes that away. -/
theorem takesEntries_of_newDirectory (mask : disk.MaskKeepsMaking) {l : Location}
    (h : after.tree.get? l = some disk.newDirectory) : after.TakesEntries l := by
  refine ⟨_, h, ?_, ?_⟩
  · rw [Mode.ownerMayWrite_without, mask.1]
    decide
  · rw [Mode.ownerMaySearch_without, mask.2]
    decide

/-- Names that are directories one in the other lead from one to the next. -/
theorem LeadsAlong.chain (h : disk.LeadsAlong path found d) (takes : disk.TakesEntries d)
    (named : ∀ n ∈ missing, Tree.IsName n ∧ n.utf8ByteSize ≤ maxNameBytes)
    (hchain : ∀ l ∈ Tree.chain d missing, disk.TakesEntries l) :
    disk.LeadsAlong path (found ++ missing) (missing.reverse ++ d) ∧
      disk.TakesEntries (missing.reverse ++ d) := by
  induction missing generalizing found d with
  | nil =>
    rw [List.append_nil]
    exact ⟨h, takes⟩
  | cons n missing ih =>
    obtain ⟨m, hd, -, hs⟩ := takes
    have hnext : disk.TakesEntries (n :: d) := hchain _ List.mem_cons_self
    have ⟨m', hd', _⟩ := hnext
    obtain ⟨hname, hsize⟩ := named n List.mem_cons_self
    have hrest := ih (h.snoc hd hs hname hsize hd') hnext
      (fun n' hn' => named n' (List.mem_cons_of_mem _ hn'))
      fun l hl => hchain l (List.mem_cons_of_mem _ hl)
    simpa using hrest

end Disk

namespace Storage

open Disk

variable {path : String} {disk mid after : Disk} {answer : Except IoError Unit} {cause : IoError}
  {ancestors : List String} {found others : List Name} {next n : Name} {d : Location}

/-- A clear path that lacks one name makes it at once. -/
theorem vacancy_of_clear (hpath : Path.Ordinary path) (clear : disk.Clear path found next [] d) :
    disk.vacancy path = .ok (next, d) :=
  vacancy_of_names hpath clear.deepest.names_eq clear.deepest.leads clear.takes clear.free

/-- One that lacks more names lacks something on the way. -/
theorem lacks_of_clear (hpath : Path.Ordinary path)
    (clear : disk.Clear path found next (others ++ [n]) d) :
    Lacks path disk (.system .notFound) :=
  ⟨vacancy_eq_notFound_of_names hpath clear.deepest.names_eq clear.deepest.leads clear.takes
    clear.free, rfl⟩

/-- A clear path that lacks something on the way lacks more than one name, so that it has a parent
which lacks one less. -/
theorem Lacks.exists_parent (h : Lacks path disk cause) (hpath : Path.Ordinary path)
    (clear : disk.Clear path found next others d) :
    ∃ q n others', Path.ancestors path = q :: Path.ancestors q ∧ Path.Ordinary q ∧
      Path.names path = Path.names q ++ [n] ∧ Path.isAbsolute q = Path.isAbsolute path ∧
      others = others' ++ [n] := by
  have hnames := clear.deepest.names_eq
  rcases List.eq_nil_or_concat others with rfl | ⟨others', n, rfl⟩
  · have hv := vacancy_of_clear hpath clear
    rw [h.1] at hv
    cases hv
  rw [List.concat_eq_append] at hnames ⊢
  rcases hpath.lineage_cases with ⟨-, hnone⟩ | ⟨-, m, hone⟩ | ⟨q, m, ha, -, hq, hlast, habs⟩
  · rw [hnone] at hnames
    simp at hnames
  · rw [hone] at hnames
    have hlength := congrArg List.length hnames
    simp only [List.length_cons, List.length_append, List.length_nil] at hlength
    omega
  · have hsplit : Path.names q ++ [m] = (found ++ next :: others') ++ [n] := by
      rw [← hlast, hnames]
      simp
    obtain rfl : m = n := List.singleton_inj.mp (List.append_inj_right' hsplit rfl)
    exact ⟨q, m, others', ha, hq, hlast, habs, rfl⟩

section Parent

variable {q : String} (habs : Path.isAbsolute q = Path.isAbsolute path)
  (hnames : Path.names path = Path.names q ++ [n])

include habs hnames

/-- The parent of a clear path that lacks more than one name is clear. -/
theorem clear_parent (hq : Path.Ordinary q)
    (clear : disk.Clear path found next (others ++ [n]) d) : disk.Clear q found next others d := by
  have hsplit : Path.names q ++ [n] = (found ++ next :: others) ++ [n] := by
    rw [← hnames, clear.deepest.names_eq]
    simp
  exact .of_free hq (List.append_inj_left' hsplit rfl)
    ((leadsAlong_congr habs).mpr clear.deepest.leads) clear.takes clear.free

/-- A path behind a clear one is clear. -/
theorem clear_of_parent (hpath : Path.Ordinary path) (clear : disk.Clear q found next others d) :
    disk.Clear path found next (others ++ [n]) d := by
  have hsplit : Path.names path = found ++ next :: (others ++ [n]) := by
    rw [hnames, clear.deepest.names_eq]
    simp
  exact .of_free hpath hsplit ((leadsAlong_congr habs).mp clear.deepest.leads) clear.takes clear.free

/-- Once the parent of a clear path is made, the path makes its last name in it. -/
theorem vacancy_of_gainsChain (hpath : Path.Ordinary path) (mask : disk.MaskKeepsMaking)
    (clear : disk.Clear q found next others d) (hle : disk ≤ mid)
    (gains : disk.GainsChain mid d (next :: others)) :
    mid.vacancy path = .ok (n, (next :: others).reverse ++ d) := by
  have hmem {n' : Name} (hn' : n' ∈ next :: others) : n' ∈ Path.names path := by
    rw [hnames, clear.deepest.names_eq]
    simp only [List.mem_append, List.mem_cons] at hn' ⊢
    exact Or.inl (Or.inr hn')
  have hchain : ∀ l ∈ Tree.chain d (next :: others), mid.TakesEntries l := fun l hl =>
    takesEntries_of_newDirectory mask ((gains.get?_eq l).trans (if_pos hl))
  have takes : mid.TakesEntries d := by
    obtain ⟨m, hd, hrights⟩ := clear.takes
    exact ⟨m, Tree.get?_of_le hle.1 hd, hrights⟩
  obtain ⟨leads, open'⟩ := (((leadsAlong_congr habs).mp clear.deepest.leads).mono hle).chain takes
    (fun n' hn' => ⟨hpath.isName (hmem hn'), hpath.size (hmem hn')⟩) hchain
  rw [← clear.deepest.names_eq] at leads
  refine vacancy_of_names hpath hnames leads open' ?_
  have hdeep : n :: ((next :: others).reverse ++ d) ∉ Tree.chain d (next :: others) := by
    intro hmem
    have hlength := Tree.length_le_of_mem_chain hmem
    simp only [List.length_cons, List.length_append, List.length_reverse] at hlength
    omega
  rw [gains.get?_eq, if_neg hdeep, List.reverse_cons, List.append_assoc]
  exact Tree.get?_append_eq_none clear.free (n :: others.reverse)

end Parent

/-- A clear path is made: with one directory for each missing name, and nothing else. -/
theorem Making.of_clear (h : Making path ancestors disk answer after)
    (ha : ancestors = Path.ancestors path) (hpath : Path.Ordinary path)
    (mask : disk.MaskKeepsMaking) (clear : disk.Clear path found next others d) :
    answer = .ok () ∧ disk.GainsChain after d (next :: others) := by
  induction h generalizing others with
  | empty =>
    have hnames := clear.deepest.names_eq
    simp [Path.names] at hnames
  | once _ complete attempt =>
    rcases List.eq_nil_or_concat others with rfl | ⟨others', n, rfl⟩
    · obtain ⟨hanswer, rfl⟩ := attempt.eq_of_vacancy (vacancy_of_clear hpath clear)
      exact ⟨hanswer, (GainsChain.refl _ d).snoc le_rfl (vacancy_of_clear hpath clear)⟩
    · rw [List.concat_eq_append] at clear
      exact absurd (lacks_of_clear hpath clear) (complete _)
  | lost _ lacks =>
    obtain ⟨q, n, others', hancestors, -⟩ := lacks.exists_parent hpath clear
    rw [hancestors] at ha
    cases ha
  | orphan _ lacks above ih =>
    obtain ⟨q, n, others', hancestors, hq, hnames, habs, rfl⟩ := lacks.exists_parent hpath clear
    obtain ⟨rfl, hrest⟩ := List.cons.inj (ha.trans hancestors)
    cases (ih hrest hq mask (clear_parent habs hnames hq clear)).1
  | again _ lacks above attempt ih =>
    obtain ⟨q, n, others', hancestors, hq, hnames, habs, rfl⟩ := lacks.exists_parent hpath clear
    obtain ⟨rfl, hrest⟩ := List.cons.inj (ha.trans hancestors)
    -- by then the parent has been made, and the second attempt adds the last name to its chain
    have clear' := clear_parent habs hnames hq clear
    obtain ⟨-, gains⟩ := ih hrest hq mask clear'
    have hv := vacancy_of_gainsChain habs hnames hpath mask clear' above.le gains
    obtain ⟨hanswer, rfl⟩ := attempt.eq_of_vacancy hv
    exact ⟨hanswer, gains.snoc above.le hv⟩

/-- What a run makes was clear, unless it was a directory already. -/
theorem Making.clear_of_ok (h : Making path ancestors disk (.ok ()) after)
    (ha : ancestors = Path.ancestors path) (hpath : Path.Ordinary path) (hne : path ≠ "") :
    disk.showsDirectory path = true ∨ ∃ found next others d, disk.Clear path found next others d := by
  generalize hanswer : (Except.ok () : Except IoError Unit) = answer at h
  induction h with
  | empty => exact absurd rfl hne
  | once _ _ attempt =>
    cases attempt with
    | made hv =>
      obtain ⟨found, hnames, leads, takes, free⟩ := exists_of_vacancy hv
      exact Or.inr ⟨found, _, [], _, .of_free hpath hnames leads takes free⟩
    | settled _ dir => exact Or.inl dir
    | refused => cases hanswer
  | lost => cases hanswer
  | orphan => cases hanswer
  | @again path parent others disk mid _ _ _ _ lacks above attempt ih =>
    subst hanswer
    -- where the run for the parent has changed nothing, the second attempt fails as the first did
    have hunchanged (hmid : mid = disk) : disk.showsDirectory path = true := by
      subst hmid
      cases attempt with
      | made hv =>
        rw [lacks.1] at hv
        cases hv
      | settled _ dir => exact dir
    rcases hpath.lineage_cases with ⟨hroot, -⟩ | ⟨hsingle, -⟩ |
      ⟨q, n, hancestors, hqne, hq, hnames, habs⟩
    · rw [hroot] at ha
      cases ha
    · obtain ⟨rfl, -⟩ := List.cons.inj (ha.trans hsingle)
      exact Or.inl (hunchanged above.eq_of_empty)
    · obtain ⟨rfl, hrest⟩ := List.cons.inj (ha.trans hancestors)
      rcases ih hrest hq hqne rfl with hdir | ⟨found, next, others', d, clear⟩
      · obtain ⟨d, m, hd⟩ := showsDirectory_iff.mp hdir
        exact Or.inl (hunchanged (above.eq_of_lookup? (lookup?_of_leadsToDirectory hd)))
      · exact Or.inr ⟨found, next, others' ++ [n], d, clear_of_parent habs hnames hpath clear⟩

/-! ## Private directories -/

/-- A directory is obtained exactly when its path leads to one or is clear. In the first case nothing
is made, in the second one directory for each missing name and nothing else. -/
structure ObtainsClear (directory : String) (disk : Disk)
    (outcome : Outcome Disk (Except StorageError Handle)) : Prop where
  ok_iff : (∃ handle, outcome.answer = .ok handle) ↔
    disk.showsDirectory directory = true ∨
      ∃ found next others d, disk.Clear directory found next others d
  found (h : disk.showsDirectory directory = true) : outcome.state = disk
  made {found others : List Name} {next : Name} {d : Location}
    (h : disk.Clear directory found next others d) :
    disk.GainsChain outcome.state d (next :: others)

/-- What it takes to obtain a directory at an ordinary path. -/
theorem Obtaining.obtainsClear {outcome : Outcome Disk (Except StorageError Handle)}
    (h : Obtaining path disk outcome) (hpath : Path.Ordinary path) (hne : path ≠ "")
    (mask : disk.MaskKeepsMaking) : ObtainsClear path disk outcome := by
  cases h with
  | found dir =>
    exact {
      ok_iff := ⟨fun _ => Or.inl dir, fun _ => ⟨_, rfl⟩⟩
      found := fun _ => rfl
      made := fun clear => absurd clear.lookup?_eq_none (lookup?_ne_none_of_showsDirectory dir) }
  | conflict seen other =>
    have notClear {found others : List Name} {next : Name} {d : Location} :
        ¬ disk.Clear path found next others d := by
      intro clear
      rw [clear.lookup?_eq_none] at seen
      cases seen
    exact {
      ok_iff := by
        constructor
        · rintro ⟨handle, h⟩
          cases h
        · rintro (dir | ⟨found, next, others, d, clear⟩)
          · rw [other] at dir
            cases dir
          · exact absurd clear notClear
      found := fun _ => rfl
      made := fun clear => absurd clear notClear }
  | unmade unseen making =>
    have notClear {found others : List Name} {next : Name} {d : Location} :
        ¬ disk.Clear path found next others d := by
      intro clear
      cases (making.of_clear rfl hpath mask clear).1
    exact {
      ok_iff := by
        constructor
        · rintro ⟨handle, h⟩
          cases h
        · rintro (dir | ⟨found, next, others, d, clear⟩)
          · exact absurd unseen (lookup?_ne_none_of_showsDirectory dir)
          · exact absurd clear notClear
      found := fun dir => absurd unseen (lookup?_ne_none_of_showsDirectory dir)
      made := fun clear => absurd clear notClear }
  | made unseen making =>
    exact {
      ok_iff := ⟨fun _ => making.clear_of_ok rfl hpath hne, fun _ => ⟨_, rfl⟩⟩
      found := fun dir => absurd unseen (lookup?_ne_none_of_showsDirectory dir)
      made := fun clear => (making.of_clear rfl hpath mask clear).2 }

/-- What it takes to obtain a private directory. -/
theorem obtains_clear {home name : String} (hpath : Path.Ordinary (directoryPath home name))
    (mask : disk.MaskKeepsMaking) :
    ObtainsClear (directoryPath home name) disk ((privateDirectory home name).runOn disk) :=
  (obtaining_privateDirectory home name disk).obtainsClear hpath
    (Path.withTrailingSeparator_append_ne_empty home name) mask

/-- A disk with one directory, which only its owner may enter. -/
def diskWithBase : Disk :=
  ⟨(Tree.bare ⟨0o755⟩).add "base" [] (.directory ⟨0o700⟩), [], ⟨0o022⟩⟩

/-- Two names are missing behind that directory, and the slash that is repeated does not count. -/
theorem obtains_clear_behind_base :
    Path.Ordinary (directoryPath "/base" "a//b") ∧ diskWithBase.MaskKeepsMaking ∧
      diskWithBase.Clear (directoryPath "/base" "a//b") ["base"] "a" ["b"] ["base"] ∧
      (∃ handle, ((privateDirectory "/base" "a//b").runOn diskWithBase).answer = .ok handle) ∧
      diskWithBase.GainsChain ((privateDirectory "/base" "a//b").runOn diskWithBase).state
        ["base"] ["a", "b"] := by
  have hpath : Path.Ordinary (directoryPath "/base" "a//b") :=
    ⟨by decide +kernel, by decide +kernel, by decide +kernel, by decide +kernel⟩
  have mask : diskWithBase.MaskKeepsMaking := by decide +kernel
  have takes : diskWithBase.TakesEntries ["base"] :=
    ⟨⟨0o700⟩, Tree.get?_add_self (by decide +kernel) (Tree.get?_bare _ _) _, by decide, by decide⟩
  have clear : diskWithBase.Clear (directoryPath "/base" "a//b") ["base"] "a" ["b"] ["base"] :=
    .of_free hpath (by decide +kernel) ⟨maxLinks, by decide +kernel⟩ takes
      (Option.isNone_iff_eq_none.mp (by decide +kernel))
  have obtains := obtains_clear hpath mask
  exact ⟨hpath, mask, clear, obtains.ok_iff.mpr (Or.inr ⟨_, _, _, _, clear⟩), obtains.made clear⟩

end Storage

end UserStorage
