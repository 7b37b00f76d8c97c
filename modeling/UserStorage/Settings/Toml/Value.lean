import UserStorage.Settings.Toml.Number

/-!
# Values in TOML

A value is a string, a boolean, a number or an instant, an array, or an inline table. Arrays go over
several lines, inline tables do not. The keys of a table may be dotted, which puts a value into
tables inside; such tables can be added to by further dotted keys, an inline table cannot.

## Main definitions

* `Toml.dottedKey`: reads a key
* `Toml.Node`, `Toml.insertDotted`: what a table holds under a name, and adding a value to a table
* `Toml.value`: reads a value
-/

namespace UserStorage.Settings.Toml

/-- What a table holds under a name while it is put together. -/
inductive Node
  /-- A value that was written out, and is complete. -/
  | value (data : Data)
  /-- A table made by dotted keys. -/
  | dotted (fields : List (String × Node))
  /-- A table made by headers; `isDeclared` tells that one of them is its own. -/
  | table (isDeclared : Bool) (fields : List (String × Node))
  /-- An array made by headers, its last table first. -/
  | tables (lastFirst : List (List (String × Node)))

mutual

/-- The data of a finished node. -/
def Node.toData : Node → Data
  | .value data => data
  | .dotted fields => .table (fieldsToData fields)
  | .table _ fields => .table (fieldsToData fields)
  | .tables lastFirst => .list (tablesToData lastFirst).reverse

/-- The data of finished fields. -/
def fieldsToData : List (String × Node) → List (String × Data)
  | [] => []
  | (name, node) :: rest => (name, node.toData) :: fieldsToData rest

/-- The data of finished tables. -/
def tablesToData : List (List (String × Node)) → List Data
  | [] => []
  | fields :: rest => .table (fieldsToData fields) :: tablesToData rest

end

/-- Some fields with a value added under a dotted key. No name is given twice, and only tables made
by dotted keys are added to. -/
def insertDotted (data : Data) : List String → List (String × Node) →
    Option (List (String × Node))
  | [], _ => none
  | [name], fields =>
    match fields.lookup name with
    | none => some (fields ++ [(name, .value data)])
    | some _ => none
  | name :: next :: rest, fields =>
    match fields.lookup name with
    | none =>
      (insertDotted data (next :: rest) []).map fun sub => fields ++ [(name, .dotted sub)]
    | some (.dotted sub) =>
      (insertDotted data (next :: rest) sub).map fun sub => setField name (.dotted sub) fields
    | some _ => none

/-- Reads one name of a key: a bare word or a string of one line. -/
def keyName : Reader String
  | '\x22' :: cs => oneLine .basic cs
  | '\x27' :: cs => oneLine .literal cs
  | cs => (bareWord cs).map fun (word, rest) => (String.ofList word, rest)
where
  /-- Reads a string that may not stand between three quotes. -/
  oneLine (q : Quoting) : Reader String := fun cs => do
    let ((name, lines), cs) ← string q cs
    if lines then none else some (name, cs)

/-- Reads a key from its first name on, in at most `fuel` names. -/
def dottedNames : (fuel : Nat) → Reader (List String)
  | 0, _ => none
  | fuel + 1, cs => do
    let (name, cs) ← keyName cs
    match skip cs with
    | '.' :: cs =>
      let (names, cs) ← dottedNames fuel (skip cs)
      return (name :: names, cs)
    | cs => return ([name], cs)

/-- Reads a key: names with points between them, and blanks around the points. -/
def dottedKey : Reader (List String) := fun cs => dottedNames (cs.length + 1) cs

/-- Some characters from the end of a line on; none if the comment that ends the line holds a
control character. -/
def lineEnd (cs : List Char) : Option (List Char) :=
  let cs := match cs with
    | '#' :: comment => comment.dropWhile fun c => c == '\t' || ' ' ≤ c
    | _ => cs
  match cs with
  | [] => some []
  | '\n' :: rest => some rest
  | _ => none

/-- Some characters without blanks, line breaks and comments in front. -/
def skipLines : (fuel : Nat) → List Char → Option (List Char)
  | 0, cs => some cs
  | fuel + 1, cs =>
    match skip cs with
    | '\n' :: rest => skipLines fuel rest
    | '#' :: rest => do skipLines fuel (← lineEnd ('#' :: rest))
    | rest => some rest

/-- Some characters without blanks, line breaks and comments in front; none if a comment holds a
control character. -/
def skipAllLines (cs : List Char) : Option (List Char) := skipLines (cs.length + 1) cs

/-- Reads a key, an equals sign and a value. -/
def pair (value : Reader Data) : Reader (List String × Data) := fun cs => do
  let (key, cs) ← dottedKey cs
  match skip cs with
  | '=' :: cs =>
    let (data, cs) ← value (skip cs)
    return ((key, data), cs)
  | _ => none

/-- Reads the items of an array up to its bracket. -/
def items (value : Reader Data) : (fuel : Nat) → Reader (List Data)
  | 0, _ => none
  | fuel + 1, cs => do
    match ← skipAllLines cs with
    | ']' :: cs => return ([], cs)
    | cs =>
      let (first, cs) ← value cs
      match ← skipAllLines cs with
      | ',' :: cs =>
        let (others, cs) ← items value fuel cs
        return (first :: others, cs)
      | ']' :: cs => return ([first], cs)
      | _ => none

/-- Reads the pairs of an inline table up to its brace, at least one, adding them to those
before. -/
def pairs (value : Reader Data) :
    (fuel : Nat) → List (String × Node) → Reader (List (String × Node))
  | 0, _, _ => none
  | fuel + 1, before, cs => do
    let ((key, data), cs) ← pair value cs
    let fields ← insertDotted data key before
    match skip cs with
    | '\x7d' :: cs => return (fields, cs)
    | ',' :: cs => pairs value fuel fields (skip cs)
    | _ => none

/-- Reads an inline table from behind its brace. -/
def inlineTable (value : Reader Data) : Reader Data := fun cs =>
  match skip cs with
  | '\x7d' :: cs => some (.table [], cs)
  | cs => (pairs value (cs.length + 1) [] cs).map
      fun (fields, rest) => (.table (fieldsToData fields), rest)

/-- Reads a string value. -/
def stringValue (q : Quoting) : Reader Data := fun cs =>
  (string q cs).map fun ((s, _), rest) => (.scalar (.string s), rest)

/-- Reads a value that begins with a bare word. -/
def wordValue : Reader Data := fun cs => do
  let (word, cs) ← bareWord cs
  if word = ['t', 'r', 'u', 'e'] then return (.scalar (.boolean true), cs)
  else if word = ['f', 'a', 'l', 's', 'e'] then return (.scalar (.boolean false), cs)
  else if word = ['i', 'n', 'f'] ∨ word = ['n', 'a', 'n'] then numberOrInstant word cs
  else match word with
    | c :: _ => if c = '-' ∨ c.isDigit then numberOrInstant word cs else none
    | [] => none

/-- Reads a value in which so many arrays and tables lie inside each other at most. -/
def value : (depth : Nat) → Reader Data
  | _, '\x22' :: cs => stringValue .basic cs
  | _, '\x27' :: cs => stringValue .literal cs
  | _, '+' :: cs => do
    let (word, cs) ← bareWord cs
    number word cs
  | depth + 1, '[' :: cs =>
    (items (value depth) (cs.length + 1) cs).map fun (vs, rest) => (.list vs, rest)
  | depth + 1, '\x7b' :: cs => inlineTable (value depth) cs
  | _, cs => wordValue cs

end UserStorage.Settings.Toml
