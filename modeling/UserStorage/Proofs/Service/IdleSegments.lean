import UserStorage.Proofs.Path.Padding
import UserStorage.Proofs.Service.HomeRoot
import UserStorage.Proofs.Storage.Kindred

/-!
# Idle segments

Empty segments and dots that are put in anywhere in a list of segments change neither what is left
on the disk nor what is answered, as long as they put no dot newly at the end; only where something
else is in the place of the directory, a slash at the end decides which of the two errors is told. A
dot that is newly at the end asks for the right to search the directory. So a directory that was
there before and may not be searched is found without the dot, and refused with it.

## Main definitions

* `Storage.IdleChanges`: what idle segments change

## Main results

* `Desk.idleChanges`: what idle segments change in the requests at a desk
-/

namespace UserStorage

open UserStorage.Path (endsInDot)

namespace Storage

/-- What idle segments change that turn one path into another one, by the disk before the requests
and by what each of them leaves and answers. -/
structure IdleChanges (path padded : String) (disk : Disk)
    (first second : Outcome Disk (Except StorageError Handle)) : Prop where
  /-- Without a dot newly at the end the same disk is left and the answers are alike, but where
  something else is in the way and one of the paths ends in a slash: then both are errors. -/
  of_same_end (h : endsInDot (Path.pieces path) = endsInDot (Path.pieces padded)) :
    second.state = first.state ∧ (Alike first.answer second.answer ∨
      disk.Blocked path padded ∧ BothFail first.answer second.answer)
  /-- With a dot newly at the end an error stays an error. -/
  of_error (h : endsInDot (Path.pieces path) ≠ endsInDot (Path.pieces padded)) {e : StorageError}
    (failed : first.answer = .error e) :
    second.state = first.state ∧ (Alike first.answer second.answer ∨
      disk.Occupied path ∧ BothFail first.answer second.answer)
  /-- With a dot newly at the end, the directory that is answered for has to be one that may be
  searched, if it was there before. -/
  of_old (h : endsInDot (Path.pieces path) ≠ endsInDot (Path.pieces padded)) {l : Location}
    {m : Mode} (leads : first.state.LeadsToDirectory path l m)
    (old : (disk.tree.get? l).isSome = true) :
    second.state = first.state ∧ if m.ownerMaySearch then Alike first.answer second.answer
      else ∃ e, second.answer = .error e

/-- What idle segments change in the requests for a private directory. -/
theorem idleChanges_privateDirectory {segments padded : List String} (home : String)
    (h : Path.Padded segments padded)
    (hsize : (directoryPath home (Path.ofPieces padded)).utf8ByteSize ≤ maxPathBytes)
    (disk : Disk) : IdleChanges (directoryPath home (Path.ofPieces segments))
      (directoryPath home (Path.ofPieces padded)) disk
      ((privateDirectory home (Path.ofPieces segments)).runOn disk)
      ((privateDirectory home (Path.ofPieces padded)).runOn disk) := by
  have first := obtaining_privateDirectory home (Path.ofPieces segments) disk
  have second := obtaining_privateDirectory home (Path.ofPieces padded) disk
  have hne : directoryPath home (Path.ofPieces segments) ≠ "" :=
    Path.withTrailingSeparator_append_ne_empty home _
  obtain ⟨start, hstart, -⟩ := Path.withTrailingSeparator_eq home
  have hpath (segments : List String) :
      directoryPath home (Path.ofPieces segments) = start ++ "/" ++ Path.ofPieces segments := by
    rw [directoryPath, hstart]
  have kindred : Path.Kindred (directoryPath home (Path.ofPieces segments))
      (directoryPath home (Path.ofPieces padded)) := by
    rw [hpath] at hsize
    rw [hpath, hpath]
    exact h.kindred hsize
  have dotted (hend : endsInDot (Path.pieces (directoryPath home (Path.ofPieces segments))) ≠
      endsInDot (Path.pieces (directoryPath home (Path.ofPieces padded)))) :
      Path.Dotted (directoryPath home (Path.ofPieces segments))
        (directoryPath home (Path.ofPieces padded)) := by
    rw [hpath] at hsize
    rw [hpath, hpath] at hend ⊢
    exact h.dotted hsize hend
  exact {
    of_same_end := fun hend => first.alike_of_kindred second hne kindred hend
    of_error := fun hend _ failed => first.alike_of_dotted_failed second hne (dotted hend) failed
    of_old := fun hend _ _ leads old =>
      first.alike_of_dotted_old second hne (dotted hend) leads old }

end Storage

namespace Desk

variable {desk : Desk} {id : ConfigurationId} {segments padded : List String}

/-- What idle segments change in the requests for segments at a service with a registered
configuration. -/
theorem idleChanges (h : desk.slot = some id) (hpadded : Path.Padded segments padded)
    (hsize : (Storage.directoryPath (desk.values id).homeRoot
      (Path.ofPieces padded)).utf8ByteSize ≤ maxPathBytes) (disk : Disk) :
    Storage.IdleChanges
      (Storage.directoryPath (desk.values id).homeRoot (Path.ofPieces segments))
      (Storage.directoryPath (desk.values id).homeRoot (Path.ofPieces padded)) disk
      ((desk.requestSegments segments).runOn disk) ((desk.requestSegments padded).runOn disk) := by
  have hhome : desk.requestHome = .ok (desk.values id).homeRoot := requestHome_of_slot h
  have hrequest (segments : List String) : desk.requestSegments segments =
      Storage.privateDirectory (desk.values id).homeRoot (Path.ofPieces segments) := by
    rw [requestSegments, requestDirectory, withHome, hhome]
  rw [hrequest, hrequest]
  exact Storage.idleChanges_privateDirectory _ hpadded hsize disk

/-- A disk with a directory under the home root that may not be searched. -/
def diskWithShut : Disk :=
  (Disk.bare.adding "app" [] (.directory ⟨0o755⟩)).adding "d" ["app"] (.directory ⟨0o600⟩)

/-- Two directories are made with idle segments around them as they are without. -/
theorem idleChanges_around_missing : (configured "." "app").slot = some 0 ∧
    Path.Padded ["d", "e"] ["", "d", ".", "e", ""] ∧
    ∃ first second, ((configured "." "app").requestSegments ["d", "e"]).runOn Disk.bare = first ∧
      ((configured "." "app").requestSegments ["", "d", ".", "e", ""]).runOn Disk.bare = second ∧
        second.state = first.state ∧ Storage.Alike first.answer second.answer := by
  have hslot : (configured "." "app").slot = some 0 := rfl
  have hpadded : Path.Padded ["d", "e"] ["", "d", ".", "e", ""] :=
    .pad (by decide) (.keep "d" (.pad (by decide) (.keep "e" (.pad (by decide) .nil))))
  have changes := idleChanges hslot hpadded (by decide +kernel) Disk.bare
  obtain ⟨hstate, alike | ⟨⟨-, ⟨seen, -⟩ | ⟨seen, -⟩⟩, -⟩⟩ :=
    changes.of_same_end (by decide +kernel)
  · exact ⟨hslot, hpadded, _, _, rfl, rfl, hstate, alike⟩
  · exact absurd seen (by decide +kernel)
  · exact absurd seen (by decide +kernel)

/-- A directory that may not be searched is found by its name, and is said to be one that could not
be made when a dot is put behind it. -/
theorem dot_asks_for_searching : (configured "." "app").slot = some 0 ∧
    diskWithShut.MaskKeepsMaking ∧ Path.Padded ["d"] ["d", "."] ∧
    (Storage.directoryPath ((configured "." "app").values 0).homeRoot
      (Path.ofPieces ["d", "."])).utf8ByteSize ≤ maxPathBytes ∧
    (((configured "." "app").requestSegments ["d"]).runOn diskWithShut).answer =
      .ok ⟨"./app/d", true, true, false⟩ ∧
    (((configured "." "app").requestSegments ["d", "."]).runOn diskWithShut).answer =
      .error (.directoryNotCreated "./app/d/." (.system .accessDenied)) := by
  refine ⟨rfl, by decide +kernel, .keep "d" (.pad (by decide) .nil), ?_⟩
  decide +kernel

/-- Of a directory that is still missing nothing is said. With a dot behind it the home root is made,
and then the directory is not. -/
example :
    let outcome := ((configured "." "app").requestSegments ["x", "."]).runOn Disk.bare
    outcome.answer = .error (.directoryNotCreated "./app/x/." (.system .notFound)) ∧
      outcome.state.showsDirectory "./app" = true := by
  decide +kernel

end Desk

end UserStorage
