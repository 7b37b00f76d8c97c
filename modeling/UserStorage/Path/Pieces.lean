/-!
# Paths and their pieces

A path is the exact string it was written as. Its pieces are what stands between the slashes,
empty pieces included, so that the string can be put together again from them: `a//b/` has the
pieces `a`, the empty one, `b`, the empty one. Nothing here looks at a file system.

## Main definitions

* `Path.pieces`, `Path.ofPieces`: the pieces of a path, and the path of some pieces
* `Path.isAbsolute`: whether a path starts at the root
* `Path.withTrailingSeparator`: a fragment that ends in a slash
* `Path.composeHome`: the home root of a location and a directory name

## Main results

* `Path.ofPieces_pieces`: the pieces determine the path
* `Path.pieces_append_slash`: a slash separates the pieces of what stands around it
-/

namespace UserStorage.Path

/-- The runs of characters between the slashes; never an empty list. -/
def runs : List Char → List (List Char)
  | [] => [[]]
  | c :: cs =>
    if c = '/' then [] :: runs cs
    else match runs cs with
      | [] => [[c]]
      | p :: ps => (c :: p) :: ps

/-- Some runs of characters with a slash between every two neighbours. -/
def glue : List (List Char) → List Char
  | [] => []
  | [p] => p
  | p :: q :: ps => p ++ '/' :: glue (q :: ps)

/-- The pieces of a path, in order; a slash at an end leaves an empty piece there. -/
def pieces (path : String) : List String := (runs path.toList).map String.ofList

/-- Some pieces with one slash between every two neighbours; no pieces make the empty path. -/
def ofPieces (ps : List String) : String := String.ofList (glue (ps.map String.toList))

/-- A path that starts with a slash is walked from the root. -/
def isAbsolute (path : String) : Bool := path.toList.head? == some '/'

/-- A fragment with a slash at its end; one that has some there already is left as it is. -/
def withTrailingSeparator (fragment : String) : String :=
  if fragment.toList.getLast? = some '/' then fragment else fragment ++ "/"

/-- The home root: the location and the directory name, each closed by a slash. -/
def composeHome (location name : String) : String :=
  withTrailingSeparator location ++ withTrailingSeparator name

theorem runs_ne_nil (cs : List Char) : runs cs ≠ [] := by
  cases cs with
  | nil => simp [runs]
  | cons c cs =>
    simp only [runs]
    split
    · simp
    · split <;> simp

theorem glue_cons_of_ne_nil (p : List Char) {ps : List (List Char)} (h : ps ≠ []) :
    glue (p :: ps) = p ++ '/' :: glue ps := by
  cases ps with
  | nil => exact absurd rfl h
  | cons q ps => rfl

theorem glue_runs (cs : List Char) : glue (runs cs) = cs := by
  induction cs with
  | nil => rfl
  | cons c cs ih =>
    simp only [runs]
    by_cases hc : c = '/'
    · rw [if_pos hc, glue_cons_of_ne_nil _ (runs_ne_nil cs), ih, hc]
      rfl
    · rw [if_neg hc]
      cases h : runs cs with
      | nil => exact absurd h (runs_ne_nil cs)
      | cons p ps =>
        rw [h] at ih
        cases ps with
        | nil => simpa [glue] using ih
        | cons q ps => simpa [glue] using ih

theorem runs_append_slash (cs ds : List Char) :
    runs (cs ++ '/' :: ds) = runs cs ++ runs ds := by
  induction cs with
  | nil => simp [runs]
  | cons c cs ih =>
    simp only [List.cons_append, runs]
    by_cases hc : c = '/'
    · simp [hc, ih]
    · simp only [if_neg hc, ih]
      cases h : runs cs with
      | nil => exact absurd h (runs_ne_nil cs)
      | cons p ps => simp

theorem pieces_ne_nil (path : String) : pieces path ≠ [] := by
  simp [pieces, runs_ne_nil]

/-- The pieces determine the path. -/
theorem ofPieces_pieces (path : String) : ofPieces (pieces path) = path := by
  simp [ofPieces, pieces, glue_runs, Function.comp_def]

/-- A slash separates the pieces of what stands around it. -/
theorem pieces_append_slash (s t : String) : pieces (s ++ "/" ++ t) = pieces s ++ pieces t := by
  have h : (s ++ "/" ++ t).toList = s.toList ++ '/' :: t.toList := by simp
  rw [pieces, h, runs_append_slash, List.map_append]
  rfl

end UserStorage.Path
