import UserStorage.Proofs.Disk.Gains
import UserStorage.Proofs.Disk.Kindred
import UserStorage.Proofs.Storage.Clearance
import UserStorage.Proofs.Storage.Conflict

/-!
# Private directories at kindred paths

What a making meets at a path and at its ancestors is decided by the components and by what stands
behind the last one. So at kindred paths that end alike it runs alike. A dot at the end is gone from
the parent upwards, and the path itself makes nothing then; so such a run leaves what a run without
the dot leaves, up to the directory that is made last.

What a request answers can be told from the disk that it leaves, but for the kind of an error: where
something else is in the place of the directory, a slash or a dot at the end keeps the look from
finding it, and then the error is that of a directory that could not be made.

## Main definitions

* `Disk.Blocked`: something else is in the place of the directory, and one of two paths ends in a
  slash
* `Storage.Alike`: answers with the same flags, or with the same kind of error
* `Storage.BothFail`: answers that are errors

## Main results

* `Storage.Making.eq_of_kindred`: runs for kindred paths that end alike
* `Storage.Making.eq_of_dotted`: a run for a path that ends in a dot, where one without the dot
  makes nothing last
* `Storage.Obtaining.alike_of_kindred`: requests for kindred paths that end alike
* `Storage.Obtaining.alike_of_dotted_failed`, `Storage.Obtaining.alike_of_dotted_old`: requests for
  kindred paths, one of which ends in a dot
-/

namespace UserStorage

open UserStorage.Path (endsInDot Kindred Dotted)

/-- Something that is no directory is at one of two paths, of which only one ends in a slash. -/
def Disk.Blocked (disk : Disk) (path other : String) : Prop :=
  asksForDirectory path ≠ asksForDirectory other ∧ (disk.Occupied path ∨ disk.Occupied other)

/-- What is seen and is no directory is in the way. -/
theorem Disk.occupied_of_seen {disk : Disk} {path : String}
    (seen : (disk.lookup? true path).isSome = true) (no : disk.showsDirectory path = false) :
    disk.Occupied path := by
  obtain ⟨e, he⟩ := Option.isSome_iff_exists.mp seen
  exact ⟨Option.isSome_iff_exists.mpr (lookup?_false_isSome he), no⟩

namespace Storage

variable {path other parent : String} {disk mid after after' : Disk}
  {answer answer' : Except IoError Unit} {cause : IoError} {ancestors others : List String}

/-! ## Runs by what they lack -/

namespace Making

theorem attempt_of_complete (h : Making path ancestors disk answer after) (hne : path ≠ "")
    (complete : ∀ cause, ¬ Lacks path disk cause) : Attempt path disk answer after := by
  cases h with
  | empty => exact absurd rfl hne
  | once _ _ attempt => exact attempt
  | lost _ lacks => exact absurd lacks (complete _)
  | orphan _ lacks => exact absurd lacks (complete _)
  | again _ lacks => exact absurd lacks (complete _)

/-- Where there is no ancestor to make, what is lacking is final. -/
theorem eq_of_lacks (h : Making path [] disk answer after) (hne : path ≠ "")
    (lacks : Lacks path disk cause) : answer = .error cause ∧ after = disk := by
  cases h with
  | empty => exact absurd rfl hne
  | once _ complete => exact absurd lacks (complete _)
  | lost _ lacks' =>
    obtain rfl : _ = cause := Except.error.inj (lacks'.1.symm.trans lacks.1)
    exact ⟨rfl, rfl⟩

/-- Where something is lacking, the parent is made first. -/
theorem cases_of_lacks (h : Making path (parent :: others) disk answer after) (hne : path ≠ "")
    (lacks : Lacks path disk cause) :
    (∃ e, answer = .error e ∧ Making parent others disk (.error e) after) ∨
      ∃ mid, Making parent others disk (.ok ()) mid ∧ Attempt path mid answer after := by
  cases h with
  | empty => exact absurd rfl hne
  | once _ complete => exact absurd lacks (complete _)
  | orphan _ _ above => exact Or.inl ⟨_, rfl, above⟩
  | again _ _ above attempt => exact Or.inr ⟨_, above, attempt⟩

end Making

/-! ## Kindred paths that end alike -/

section Alike

variable (kindred : Kindred path other)
  (hdot : endsInDot (Path.pieces path) = endsInDot (Path.pieces other))

include kindred hdot

theorem Attempt.eq_of_kindred (h : Attempt path disk answer after)
    (h' : Attempt other disk answer' after') : answer' = answer ∧ after' = after := by
  have hv := Disk.vacancy_of_kindred disk kindred hdot
  have hd := Disk.showsDirectory_of_kindred disk kindred hdot
  cases h with
  | made free => exact h'.eq_of_vacancy (hv ▸ free)
  | settled taken dir =>
    cases h' with
    | made free => simp [← hv, taken] at free
    | settled => exact ⟨rfl, rfl⟩
    | refused _ no => simp [← hd, dir] at no
  | refused taken no =>
    cases h' with
    | made free => simp [← hv, taken] at free
    | settled _ dir => simp [← hd, no] at dir
    | refused taken' =>
      rw [← hv, taken] at taken'
      exact ⟨congrArg _ (Except.error.inj taken').symm, rfl⟩

theorem lacks_iff_of_kindred : Lacks path disk cause ↔ Lacks other disk cause := by
  rw [Lacks, Lacks, Disk.vacancy_of_kindred disk kindred hdot]

end Alike

/-- Runs for kindred paths that end alike answer alike and leave the same disk. -/
theorem Making.eq_of_kindred {ancestors' : List String}
    (h : Making path ancestors disk answer after) (ha : ancestors = Path.ancestors path)
    (kindred : Kindred path other)
    (hdot : endsInDot (Path.pieces path) = endsInDot (Path.pieces other))
    (h' : Making other ancestors' disk answer' after') (ha' : ancestors' = Path.ancestors other) :
    answer' = answer ∧ after' = after := by
  -- by induction on the one run, which the other one follows to the same ancestors
  induction h generalizing other ancestors' answer' after' with
  | empty =>
    obtain rfl := kindred.empty_iff.mp rfl
    cases h' with
    | empty => exact ⟨rfl, rfl⟩
    | _ => contradiction
  | once hne complete attempt =>
    have complete' cause : ¬ Lacks other _ cause :=
      mt (lacks_iff_of_kindred kindred hdot).mpr (complete cause)
    exact attempt.eq_of_kindred kindred hdot
      (h'.attempt_of_complete (mt kindred.empty_iff.mpr hne) complete')
  | lost hne lacks =>
    rw [ha', kindred.ancestors_eq_nil ha.symm] at h'
    exact h'.eq_of_lacks (mt kindred.empty_iff.mpr hne)
      ((lacks_iff_of_kindred kindred hdot).mp lacks)
  | orphan hne lacks above ih =>
    obtain ⟨hrest, r, hr, kindred', hdot'⟩ := kindred.exists_ancestors ha
    rw [ha', hr] at h'
    rcases h'.cases_of_lacks (mt kindred.empty_iff.mpr hne)
      ((lacks_iff_of_kindred kindred hdot).mp lacks) with ⟨e, rfl, above'⟩ | ⟨mid, above', -⟩
    · exact ih hrest kindred' hdot' above' rfl
    · cases (ih hrest kindred' hdot' above' rfl).1
  | again hne lacks above attempt ih =>
    obtain ⟨hrest, r, hr, kindred', hdot'⟩ := kindred.exists_ancestors ha
    rw [ha', hr] at h'
    rcases h'.cases_of_lacks (mt kindred.empty_iff.mpr hne)
      ((lacks_iff_of_kindred kindred hdot).mp lacks) with ⟨e, -, above'⟩ | ⟨mid, above', attempt'⟩
    · cases (ih hrest kindred' hdot' above' rfl).1
    · obtain ⟨-, rfl⟩ := ih hrest kindred' hdot' above' rfl
      exact attempt.eq_of_kindred kindred hdot attempt'

/-! ## Kindred paths of which one ends in a dot -/

theorem Lacks.of_dotted (lacks : Lacks path disk cause) (dotted : Dotted path other) :
    Lacks other disk cause := by
  obtain ⟨hv, hkind⟩ := lacks
  cases hp : disk.place path with
  | error e =>
    rw [Disk.vacancy_of_place_error hp] at hv
    cases hv
    exact ⟨Disk.vacancy_of_place_error (Disk.place_error_of_dotted dotted hp), hkind⟩
  | ok x =>
    cases x with
    | none =>
      rw [Disk.vacancy, hp] at hv
      cases hv
      cases hkind
    | some p =>
      rw [Disk.vacancy_of_place hp] at hv
      split_ifs at hv
      · cases hv
        cases hkind
      · cases hv
        cases hkind

/-- An attempt at a path that ends in a dot makes nothing. -/
theorem Attempt.eq_of_dotted (h : Attempt other disk answer after)
    (hdot : endsInDot (Path.pieces other) = true) : after = disk := by
  cases h with
  | made free =>
    obtain ⟨cause, taken⟩ := Disk.exists_vacancy_error_of_dotted disk hdot
    simp [taken] at free
  | settled => rfl
  | refused => rfl

namespace Making

/-- Where a path lacks no ancestor and makes no entry, a run for it with a dot behind changes
nothing. -/
theorem eq_of_dotted_of_taken (dotted : Dotted path other)
    (taken : disk.vacancy path = .error cause) (complete : cause.kind ≠ .notFound)
    (h : Making other ancestors disk answer after)
    (ha : ancestors = Path.ancestors other) : after = disk := by
  obtain ⟨cause', taken'⟩ := Disk.exists_vacancy_error_of_dotted disk dotted.dotted
  refine h.eq_of_taken taken' fun {r others _ mid} heq lacks above => ?_
  cases hplace : disk.place path with
  | error e =>
    -- the dot is refused for the same reason, and then no ancestor is tried
    rw [Disk.vacancy_of_place_error hplace] at taken
    rw [Disk.vacancy_of_place_error (Disk.place_error_of_dotted dotted hplace)] at taken'
    cases taken
    cases taken'
    exact absurd lacks complete
  | ok x =>
    obtain ⟨hr, -⟩ := exists_parent_of_ancestors (heq.symm.trans ha)
    obtain ⟨q, hq, kindred, hdot⟩ := dotted.symm.exists_parent hr
    by_cases hroot : r = ""
    · subst hroot
      exact above.eq_of_empty
    · obtain ⟨d, m, hd⟩ := Disk.exists_parent_of_place hplace hq (mt kindred.empty_iff.mpr hroot)
      have hd' := (Disk.leadsToDirectory_of_kindred kindred hdot).mpr hd
      exact above.eq_of_lookup? (Disk.lookup?_of_leadsToDirectory hd')

/-- A run for a path that ends in a dot leaves what one without the dot leaves, unless that one has
made its directory last. -/
theorem eq_of_dotted {ancestors' : List String} (h : Making path ancestors disk answer after)
    (ha : ancestors = Path.ancestors path) (hne : path ≠ "") (dotted : Dotted path other)
    (old : ∀ l m, after.LeadsToDirectory path l m → disk.tree.get? l ≠ none)
    (h' : Making other ancestors' disk answer' after') (ha' : ancestors' = Path.ancestors other) :
    after' = after := by
  have notMade {mid : Disk} (hle : disk ≤ mid) (attempt : Attempt path mid answer after) :
      after = mid ∧ ∃ cause, mid.vacancy path = .error cause := by
    cases attempt with
    | made free =>
      obtain ⟨l, hl, hd, hnew, -⟩ := Disk.leadsToNew_of_vacancy free
      exact absurd (Tree.get?_eq_none_of_le hle.1 hnew) (old l _ ⟨hl, hd⟩)
    | settled taken => exact ⟨rfl, _, taken⟩
    | refused taken => exact ⟨rfl, _, taken⟩
  by_cases hlacks : ∃ cause, Lacks path disk cause
  · obtain ⟨cause, lacks⟩ := hlacks
    have hne' := mt dotted.empty_iff.mpr hne
    have lacks' := lacks.of_dotted dotted
    cases ancestors with
    | nil =>
      rw [ha', dotted.ancestors_eq_nil ha.symm] at h'
      rw [(h.eq_of_lacks hne lacks).2, (h'.eq_of_lacks hne' lacks').2]
    | cons q others =>
      obtain ⟨hrest, r, hr, kindred, hdot⟩ := dotted.exists_ancestors ha
      rw [ha', hr] at h'
      rcases h.cases_of_lacks hne lacks with ⟨e, rfl, above⟩ | ⟨mid, above, attempt⟩
      · rcases h'.cases_of_lacks hne' lacks' with ⟨e', -, above'⟩ | ⟨mid', above', -⟩
        · exact (above.eq_of_kindred hrest kindred hdot above' rfl).2
        · cases (above.eq_of_kindred hrest kindred hdot above' rfl).1
      · rcases h'.cases_of_lacks hne' lacks' with ⟨e', -, above'⟩ | ⟨mid', above', attempt'⟩
        · cases (above.eq_of_kindred hrest kindred hdot above' rfl).1
        · obtain ⟨-, rfl⟩ := above.eq_of_kindred hrest kindred hdot above' rfl
          rw [attempt'.eq_of_dotted dotted.dotted, (notMade above.le attempt).1]
  · have complete := not_exists.mp hlacks
    obtain ⟨rfl, cause, taken⟩ := notMade le_rfl (h.attempt_of_complete hne complete)
    exact h'.eq_of_dotted_of_taken dotted taken (fun hkind => complete cause ⟨taken, hkind⟩) ha'

end Making

/-! ## Requests -/

/-- Two answers with the same flags, or with the same kind of error. -/
inductive Alike : Except StorageError Handle → Except StorageError Handle → Prop
  | granted {a b : Handle} (present : a.isPresent = b.isPresent)
      (readable : a.isReadable = b.isReadable) (writable : a.isWritable = b.isWritable) :
      Alike (.ok a) (.ok b)
  | conflict (path other : String) :
      Alike (.error (.pathConflict path)) (.error (.pathConflict other))
  | notCreated (path other : String) (cause cause' : IoError) :
      Alike (.error (.directoryNotCreated path cause)) (.error (.directoryNotCreated other cause'))

/-- Two answers that are errors. -/
def BothFail (a b : Except StorageError Handle) : Prop := (∃ e, a = .error e) ∧ ∃ e, b = .error e

/-- The flags are those of the directory that the paths lead to. -/
theorem alike_handleAt {l : Location} {m : Mode} (h : disk.LeadsToDirectory path l m)
    (h' : disk.LeadsToDirectory other l m) :
    Alike (.ok (handleAt path disk)) (.ok (handleAt other disk)) := by
  have hlook : disk.lookup? true path = disk.lookup? true other :=
    (Disk.lookup?_of_leadsToDirectory h).trans (Disk.lookup?_of_leadsToDirectory h').symm
  have hshows : disk.showsDirectory path = disk.showsDirectory other := by
    rw [Disk.showsDirectory, Disk.showsDirectory, hlook]
  have hgrants (access : Access) : disk.grants path access = disk.grants other access := by
    rw [Disk.grants, Disk.grants, hlook]
  refine .granted hshows (hgrants _) ?_
  show disk.allowsMaking path = disk.allowsMaking other
  rw [Disk.allowsMaking, Disk.allowsMaking, hshows, hgrants]

namespace Obtaining

variable {first second outcome : Outcome Disk (Except StorageError Handle)}

/-- A request that sees something changes nothing, and another one makes a directory. -/
theorem state_cases (h : Obtaining path disk outcome) :
    (∃ e, disk.lookup? true path = some e) ∧ outcome.state = disk ∨
      disk.lookup? true path = none ∧
        ∃ answer, Making path (Path.ancestors path) disk answer outcome.state := by
  cases h with
  | found dir =>
    exact Or.inl ⟨Option.ne_none_iff_exists'.mp (Disk.lookup?_ne_none_of_showsDirectory dir), rfl⟩
  | conflict seen => exact Or.inl ⟨Option.isSome_iff_exists.mp seen, rfl⟩
  | unmade unseen making => exact Or.inr ⟨unseen, _, making⟩
  | made unseen making => exact Or.inr ⟨unseen, _, making⟩

/-- Where the path leads to a directory in the end, the request answers with its handle. -/
theorem answer_of_shows (h : Obtaining path disk outcome)
    (shows : outcome.state.showsDirectory path = true) :
    outcome.answer = .ok (handleAt path outcome.state) := by
  cases h with
  | found => rfl
  | conflict _ other =>
    rw [other] at shows
    cases shows
  | unmade _ making =>
    rw [making.showsDirectory_of_error rfl] at shows
    cases shows
  | made => rfl

/-- Where it does not, the kind of the error is decided by what the request has seen. -/
theorem error_cases (h : Obtaining path disk outcome) (hne : path ≠ "")
    (no : outcome.state.showsDirectory path = false) :
    ((disk.lookup? true path).isSome = true ∧ disk.showsDirectory path = false) ∧
        outcome.answer = .error (.pathConflict path) ∨
      disk.lookup? true path = none ∧
        ∃ cause, outcome.answer = .error (.directoryNotCreated path cause) := by
  cases h with
  | found dir =>
    rw [dir] at no
    cases no
  | conflict seen other => exact Or.inl ⟨⟨seen, other⟩, rfl⟩
  | unmade unseen => exact Or.inr ⟨unseen, _, rfl⟩
  | made _ making =>
    rw [making.showsDirectory_of_ok hne] at no
    cases no

/-- Requests that leave the same disk answer alike where both paths lead to the same directory. -/
theorem alike_of_leads {l : Location} {m : Mode} (h : Obtaining path disk first)
    (h' : Obtaining other disk second) (hstate : second.state = first.state)
    (leads : first.state.LeadsToDirectory path l m)
    (leads' : first.state.LeadsToDirectory other l m) : Alike first.answer second.answer := by
  have hanswer := h.answer_of_shows (Disk.showsDirectory_iff.mpr ⟨l, m, leads⟩)
  have hanswer' := h'.answer_of_shows (Disk.showsDirectory_iff.mpr ⟨l, m, hstate ▸ leads'⟩)
  rw [hanswer, hanswer', hstate]
  exact alike_handleAt leads leads'

theorem state_eq_of_kindred (h : Obtaining path disk first) (h' : Obtaining other disk second)
    (kindred : Kindred path other)
    (hdot : endsInDot (Path.pieces path) = endsInDot (Path.pieces other)) :
    second.state = first.state := by
  have hv := Disk.vacancy_of_kindred disk kindred hdot
  rcases h.state_cases with ⟨⟨e, he⟩, hstate⟩ | ⟨-, answer, making⟩
  · rcases h'.state_cases with ⟨-, hstate'⟩ | ⟨-, answer', making'⟩
    · rw [hstate, hstate']
    · rw [hstate]
      exact making'.eq_of_taken (hv ▸ Disk.vacancy_of_lookup? he) fun _ hkind => by cases hkind
  · rcases h'.state_cases with ⟨⟨e, he⟩, hstate'⟩ | ⟨-, answer', making'⟩
    · rw [hstate']
      exact (making.eq_of_taken (hv.trans (Disk.vacancy_of_lookup? he))
        fun _ hkind => by cases hkind).symm
    · exact (making.eq_of_kindred rfl kindred hdot making' rfl).2

/-- Requests for kindred paths that end alike leave the same disk and answer alike, but for the kind
of the error where a slash keeps one of the looks from finding what is in the way. -/
theorem alike_of_kindred (h : Obtaining path disk first) (h' : Obtaining other disk second)
    (hne : path ≠ "") (kindred : Kindred path other)
    (hdot : endsInDot (Path.pieces path) = endsInDot (Path.pieces other)) :
    second.state = first.state ∧ (Alike first.answer second.answer ∨
      disk.Blocked path other ∧ BothFail first.answer second.answer) := by
  have hstate := h.state_eq_of_kindred h' kindred hdot
  refine ⟨hstate, ?_⟩
  cases hs : first.state.showsDirectory path with
  | true =>
    obtain ⟨l, m, leads⟩ := Disk.showsDirectory_iff.mp hs
    exact Or.inl (h.alike_of_leads h' hstate leads
      ((Disk.leadsToDirectory_of_kindred kindred hdot).mp leads))
  | false =>
    have hs' : second.state.showsDirectory other = false := by
      rw [hstate, ← Disk.showsDirectory_of_kindred first.state kindred hdot, hs]
    have hlook := Disk.lookup?_of_kindred disk kindred hdot
    -- a conflict on one side only comes from a slash on one side only
    rcases h.error_cases hne hs with ⟨⟨seen, no⟩, hanswer⟩ | ⟨unseen, cause, hanswer⟩
    · rcases h'.error_cases (mt kindred.empty_iff.mpr hne) hs' with
        ⟨-, hanswer'⟩ | ⟨unseen', cause', hanswer'⟩
      · rw [hanswer, hanswer']
        exact Or.inl (.conflict _ _)
      · refine Or.inr ⟨⟨fun hasks => ?_, Or.inl (Disk.occupied_of_seen seen no)⟩,
          ⟨_, hanswer⟩, ⟨_, hanswer'⟩⟩
        simp [hlook hasks, unseen'] at seen
    · rcases h'.error_cases (mt kindred.empty_iff.mpr hne) hs' with
        ⟨⟨seen', no'⟩, hanswer'⟩ | ⟨unseen', cause', hanswer'⟩
      · refine Or.inr ⟨⟨fun hasks => ?_, Or.inr (Disk.occupied_of_seen seen' no')⟩,
          ⟨_, hanswer⟩, ⟨_, hanswer'⟩⟩
        simp [← hlook hasks, unseen] at seen'
      · rw [hanswer, hanswer']
        exact Or.inl (.notCreated _ _ _ _)

theorem state_eq_of_dotted (h : Obtaining path disk first) (h' : Obtaining other disk second)
    (hne : path ≠ "") (dotted : Dotted path other)
    (old : ∀ l m, first.state.LeadsToDirectory path l m → disk.tree.get? l ≠ none) :
    second.state = first.state := by
  rcases h.state_cases with ⟨⟨e, he⟩, hstate⟩ | ⟨unseen, answer, making⟩
  · rcases h'.state_cases with ⟨-, hstate'⟩ | ⟨-, answer', making'⟩
    · rw [hstate, hstate']
    · rw [hstate]
      exact making'.eq_of_dotted_of_taken dotted (Disk.vacancy_of_lookup? he) (by decide) rfl
  · rcases h'.state_cases with ⟨⟨e, he⟩, -⟩ | ⟨-, answer', making'⟩
    · have unseen' := Disk.unseen_of_dotted dotted (Disk.showsDirectory_of_unseen unseen)
      rw [unseen'] at he
      cases he
    · exact making.eq_of_dotted rfl hne dotted old making' rfl

/-- Where a request fails, one with a dot behind fails too and leaves the same disk. -/
theorem alike_of_dotted_failed (h : Obtaining path disk first) (h' : Obtaining other disk second)
    (hne : path ≠ "") (dotted : Dotted path other) {e : StorageError}
    (failed : first.answer = .error e) :
    second.state = first.state ∧ (Alike first.answer second.answer ∨
      disk.Occupied path ∧ BothFail first.answer second.answer) := by
  have no : first.state.showsDirectory path = false := by
    by_contra shows
    rw [h.answer_of_shows (by simpa using shows)] at failed
    cases failed
  have hstate : second.state = first.state := by
    refine h.state_eq_of_dotted h' hne dotted fun l m hl => ?_
    rw [Disk.showsDirectory_iff.mpr ⟨l, m, hl⟩] at no
    cases no
  have no' : second.state.showsDirectory other = false := by
    rw [hstate]
    exact Disk.showsDirectory_of_unseen (Disk.unseen_of_dotted dotted no)
  refine ⟨hstate, ?_⟩
  -- behind a dot there is no conflict, for what is seen there is a directory
  rcases h'.error_cases (mt dotted.empty_iff.mpr hne) no' with
    ⟨⟨seen', noDir'⟩, -⟩ | ⟨-, cause', hanswer'⟩
  · rw [Disk.unseen_of_endsNameless (Path.endsNameless_of_endsInDot dotted.dotted) noDir'] at seen'
    cases seen'
  · rcases h.error_cases hne no with ⟨⟨seen, noDir⟩, hanswer⟩ | ⟨-, cause, hanswer⟩
    · exact Or.inr ⟨Disk.occupied_of_seen seen noDir, ⟨_, hanswer⟩, ⟨_, hanswer'⟩⟩
    · rw [hanswer, hanswer']
      exact Or.inl (.notCreated _ _ _ _)

/-- Where a request answers for a directory that was there before, one with a dot behind leaves the
same disk, and answers alike if the directory may be searched; otherwise it fails. -/
theorem alike_of_dotted_old {l : Location} {m : Mode} (h : Obtaining path disk first)
    (h' : Obtaining other disk second) (hne : path ≠ "") (dotted : Dotted path other)
    (leads : first.state.LeadsToDirectory path l m) (old : (disk.tree.get? l).isSome = true) :
    second.state = first.state ∧ if m.ownerMaySearch then Alike first.answer second.answer
      else ∃ e, second.answer = .error e := by
  have hstate : second.state = first.state := by
    refine h.state_eq_of_dotted h' hne dotted fun k m' hk => ?_
    rw [hk.1.unique leads.1]
    exact Option.isSome_iff_ne_none.mp old
  refine ⟨hstate, ?_⟩
  split_ifs with hm
  · exact h.alike_of_leads h' hstate leads
      ((Disk.leadsToDirectory_of_dotted dotted).mpr ⟨leads, hm⟩)
  · have no : second.state.showsDirectory other = false := by
      by_contra shows
      rw [hstate] at shows
      obtain ⟨k, m', hk⟩ := Disk.showsDirectory_iff.mp (by simpa using shows)
      obtain ⟨hk, hm'⟩ := (Disk.leadsToDirectory_of_dotted dotted).mp hk
      obtain rfl := hk.1.unique leads.1
      obtain rfl : m' = m := by simpa [leads.2] using hk.2.symm
      exact hm hm'
    rcases h'.error_cases (mt dotted.empty_iff.mpr hne) no with ⟨-, hanswer'⟩ | ⟨-, _, hanswer'⟩
    · exact ⟨_, hanswer'⟩
    · exact ⟨_, hanswer'⟩

end Obtaining

end Storage

end UserStorage
