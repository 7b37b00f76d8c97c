import UserStorage.Settings.Key

/-!
# Layers of settings

Settings come in layers, each of which assigns to paths in what the layers before it left. A scalar
or an array replaces what is there; a table is merged into it field by field, so that an empty
table changes nothing that is there already. A path into something that is no table, or no array,
puts a new one in its place.

Arrays and nulls remember the source that they came from. What is made on the way has no source,
and tables have none.

## Main definitions

* `Setting`: a setting with the sources of its parts
* `Setting.ofData`: what a source gives
* `Setting.assign`: a setting after an assignment to a path in it
* `Layers.assign`: the top-level settings after an assignment to a key
-/

namespace UserStorage.Settings

/-- The value of a setting. Of a scalar only the text counts. -/
inductive Setting
  | scalar (text : String)
  | null (source : Option String)
  | array (source : Option String) (items : List Setting)
  | table (fields : List (String × Setting))

namespace Setting

mutual

/-- What a source gives. -/
def ofData (source : String) : Data → Setting
  | .null => .null (some source)
  | .scalar x => .scalar x.text
  | .list items => .array (some source) (ofItems source items)
  | .table fields => .table (ofFields source fields)

/-- The items that a source gives. -/
def ofItems (source : String) : List Data → List Setting
  | [] => []
  | d :: ds => ofData source d :: ofItems source ds

/-- The fields that a source gives. -/
def ofFields (source : String) : List (String × Data) → List (String × Setting)
  | [] => []
  | (name, d) :: rest => (name, ofData source d) :: ofFields source rest

end

/-- The fields of a table; anything else has none. -/
def fields : Setting → List (String × Setting)
  | table fs => fs
  | _ => []

/-- The source and the items of an array; anything else has none. -/
def items : Setting → Option String × List Setting
  | array source xs => (source, xs)
  | _ => (none, [])

mutual

/-- What is there after a value was put on it: a table is merged into it, anything else replaces
it. Where nothing is there a table starts out empty. -/
def put : Option Setting → Setting → Setting
  | old, .table new => putFields (old.getD (.table [])) new
  | _, .scalar s => .scalar s
  | _, .null source => .null source
  | _, .array source xs => .array source xs

/-- A setting with fields merged into it one by one; the first one makes a table of it. -/
def putFields : Setting → List (String × Setting) → Setting
  | old, [] => old
  | old, (name, new) :: rest =>
    putFields (.table (setField name (put (old.fields.lookup name) new) old.fields)) rest

end

/-- The place of an item in a list of so many items; a negative index counts from the end. -/
def place (index : Int) (count : Nat) : Nat :=
  if index < 0 then count - index.natAbs else index.toNat

/-- A list with an item put at a place; nulls fill the gap before it. -/
def setItem (xs : List Setting) (i : Nat) (x : Setting) : List Setting :=
  if i < xs.length then xs.set i x
  else xs ++ List.replicate (i - xs.length) (.null none) ++ [x]

/-- A setting after an assignment to a path in it. At the end of the path a field is merged with
what is there, while an item of an array is replaced. -/
def assign (new : Setting) : Option Setting → List Step → Setting
  | old, [] => put old new
  | old, .field name :: steps =>
    let old := old.getD (.null none)
    .table (setField name (assign new (old.fields.lookup name) steps) old.fields)
  | old, .item i :: steps =>
    let (source, xs) := (old.getD (.null none)).items
    let spot := place i xs.length
    let item := if steps = [] then new else assign new xs[spot]? steps
    .array source (setItem xs spot item)

end Setting

/-- The top-level settings by name. -/
abbrev Layers := List (String × Setting)

namespace Layers

/-- The settings after an assignment to a key. -/
def assign (layers : Layers) (key : String) (new : Setting) : Layers :=
  let k := Key.ofText key
  setField k.name (Setting.assign new (layers.lookup k.name) k.steps) layers

/-- The settings after the assignments of a source, in order. -/
def assignAll (layers : Layers) (source : List (String × Setting)) : Layers :=
  source.foldl (fun ls (key, new) => ls.assign key new) layers

end Layers

end UserStorage.Settings
