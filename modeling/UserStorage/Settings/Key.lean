import UserStorage.Settings.Data

/-!
# Keys of settings

A key names a setting by a path: an identifier, then fields `.name` and items `[i]`. A key that is
no such path is the name of a setting as it stands.

## Main definitions

* `Step`, `Key`: the steps of a path, and a path from its first name on
* `Key.ofText`: the path that a key spells, or the key as one name
-/

namespace UserStorage.Settings

/-- A step of a path into a setting. -/
inductive Step
  | field (name : String)
  | item (index : Int)
  deriving DecidableEq, Repr

/-- A path to a setting: its first name and the steps from there. -/
structure Key where
  name : String
  steps : List Step
  deriving DecidableEq, Repr

namespace Key

/-- The characters of identifiers: ASCII letters and digits, the space, `_` and `-`. -/
def isIdentifier (c : Char) : Bool := c.isAlphanum || c == ' ' || c == '_' || c == '-'

/-- Reads an identifier. -/
def identifier : Reader String := fun cs =>
  match cs.span isIdentifier with
  | ([], _) => none
  | (name, rest) => some (String.ofList name, rest)

/-- The blanks allowed around an index. -/
def isSpace (c : Char) : Bool := c == ' ' || c == '\t'

/-- Reads an index with its closing bracket; it has to fit in 64 bits. -/
def index : Reader Int := fun cs =>
  let (negative, cs) := match cs.dropWhile isSpace with
    | '-' :: rest => (true, rest)
    | rest => (false, rest)
  let (digits, rest) := digitsOf cs
  match digits, rest.dropWhile isSpace with
  | _ :: _, ']' :: rest => (integer? negative (decimalValue digits)).map (·, rest)
  | _, _ => none

/-- The steps that all of some characters spell, at most `fuel` of them. -/
def stepsOf? : (fuel : Nat) → List Char → Option (List Step)
  | _, [] => some []
  | fuel + 1, '.' :: cs => do
    let (name, rest) ← identifier cs
    return .field name :: (← stepsOf? fuel rest)
  | fuel + 1, '[' :: cs => do
    let (i, rest) ← index cs
    return .item i :: (← stepsOf? fuel rest)
  | _, _ => none

/-- The path that a key spells, or the key as one name. -/
def ofText (key : String) : Key :=
  let path : Option Key := do
    let (name, rest) ← identifier key.toList
    return ⟨name, ← stepsOf? rest.length rest⟩
  path.getD ⟨key, []⟩

end Key

end UserStorage.Settings
