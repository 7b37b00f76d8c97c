import UserStorage.Settings.Toml.Value

/-!
# TOML documents

A document is a row of sections: the pairs at its start, then those under each header. A header
names a table, or adds a table to an array; what a longer header names lies in the last table of an
array on the way. No table has two headers of its own, and no name in a table is given twice.

## Main definitions

* `Toml.Section`, `Toml.sections`: a section, and the sections of a text
* `Toml.declare`: puts a section into the tables before it
* `Toml.parse`: the data of a TOML text, if it is one
-/

namespace UserStorage.Settings.Toml

/-- The fields of a section under its header; the header names a table, or the array to which the
section adds one. -/
structure Section where
  header : List String
  isElement : Bool
  fields : List (String × Node)

/-- Reads a header from behind its first bracket to the end of its line: the names in it, and
whether it stood between two brackets. -/
def header : Reader (List String × Bool) := fun cs => do
  let (double, cs) := match cs with
    | '[' :: rest => (true, rest)
    | _ => (false, cs)
  let (names, cs) ← dottedKey (skip cs)
  match double, skip cs with
  | false, ']' :: cs => return ((names, false), ← lineEnd (skip cs))
  | true, ']' :: ']' :: cs => return ((names, true), ← lineEnd (skip cs))
  | _, _ => none

/-- Reads the sections of a text from within `current` on, in at most `fuel` lines. -/
def sections (value : Reader Data) : (fuel : Nat) → (current : Section) → List Char →
    Option (List Section)
  | 0, _, _ => none
  | fuel + 1, current, cs => do
    match ← skipAllLines cs with
    | [] => return [current]
    | '[' :: cs =>
      let ((names, double), cs) ← header cs
      return current :: (← sections value fuel ⟨names, double, []⟩ cs)
    | cs =>
      let ((key, data), cs) ← pair value cs
      let fields ← insertDotted data key current.fields
      sections value fuel { current with fields } (← lineEnd (skip cs))

/-- Two tables have no name in common. -/
def areDisjoint (fields others : List (String × Node)) : Bool :=
  fields.all fun (name, _) => (others.lookup name).isNone

/-- Some fields with a section put in under its header. -/
def declare (isElement : Bool) (content : List (String × Node)) :
    List String → List (String × Node) → Option (List (String × Node))
  | [], _ => none
  | [name], fields =>
    match fields.lookup name, isElement with
    | none, false => some (fields ++ [(name, .table true content)])
    | none, true => some (fields ++ [(name, .tables [content])])
    | some (.table false sub), false =>
      if areDisjoint content sub then some (setField name (.table true (sub ++ content)) fields)
      else none
    | some (.tables lastFirst), true =>
      some (setField name (.tables (content :: lastFirst)) fields)
    | some _, _ => none
  | name :: next :: rest, fields =>
    match fields.lookup name with
    | none =>
      (declare isElement content (next :: rest) []).map fun sub =>
        fields ++ [(name, .table false sub)]
    | some (.table isDeclared sub) =>
      (declare isElement content (next :: rest) sub).map fun sub =>
        setField name (.table isDeclared sub) fields
    | some (.tables (last :: before)) =>
      (declare isElement content (next :: rest) last).map fun last =>
        setField name (.tables (last :: before)) fields
    | some _ => none

/-- Some characters in which a line break is one character. -/
def foldLineBreaks : List Char → List Char
  | '\r' :: '\n' :: cs => '\n' :: foldLineBreaks cs
  | c :: cs => c :: foldLineBreaks cs
  | [] => []

/-- A text without the mark that may begin it. -/
def withoutMark (cs : List Char) : List Char :=
  match cs with
  | '\ufeff' :: rest => rest
  | _ => cs

/-- The data of a TOML text; none if it is none. -/
def parse (text : String) : Option Data := do
  let cs := withoutMark (foldLineBreaks text.toList)
  let found ← sections (value (cs.length + 1)) (cs.length + 1) ⟨[], false, []⟩ cs
  match found with
  | [] => none
  | first :: others =>
    let fields ← others.foldlM (fun fields s => declare s.isElement s.fields s.header fields)
      first.fields
    return .table (fieldsToData fields)

end UserStorage.Settings.Toml
