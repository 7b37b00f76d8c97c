import UserStorage.Settings.Json.Number

/-!
# JSON documents

Reads a JSON text into structured data: strictly by the grammar, up to 127 arrays and objects
inside each other, and of two fields with one name the last counts.

## Main definitions

* `Json.parse`: the value of a JSON text, if it is one
-/

namespace UserStorage.Settings.Json

/-- The blanks between tokens. -/
def isSpace (c : Char) : Bool := c == ' ' || c == '\n' || c == '\t' || c == '\r'

/-- Some characters without the blanks in front. -/
def skip (cs : List Char) : List Char := cs.dropWhile isSpace

/-- Reads four hexadecimal digits behind a backslash and `u`; a first half of a surrogate pair
takes the second half with it. -/
def codePoint : Reader Char := fun cs => do
  let (n, cs) ← hexadecimal 4 cs
  if 0xD800 ≤ n ∧ n < 0xDC00 then
    match cs with
    | '\x5c' :: 'u' :: cs =>
      let (m, cs) ← hexadecimal 4 cs
      if 0xDC00 ≤ m ∧ m < 0xE000 then
        return (← charOf? (0x10000 + (n - 0xD800) * 0x400 + (m - 0xDC00)), cs)
      else none
    | _ => none
  else return (← charOf? n, cs)

/-- Reads what follows a backslash. -/
def escape : Reader Char
  | '\x22' :: cs => some ('\x22', cs)
  | '\x5c' :: cs => some ('\x5c', cs)
  | '/' :: cs => some ('/', cs)
  | 'b' :: cs => some ('\x08', cs)
  | 'f' :: cs => some ('\x0c', cs)
  | 'n' :: cs => some ('\n', cs)
  | 'r' :: cs => some ('\r', cs)
  | 't' :: cs => some ('\t', cs)
  | 'u' :: cs => codePoint cs
  | _ => none

/-- Reads a string from behind its opening quote, in at most `fuel` characters. -/
def stringBody : (fuel : Nat) → Reader (List Char)
  | 0, _ => none
  | _, [] => none
  | _ + 1, '\x22' :: cs => some ([], cs)
  | fuel + 1, '\x5c' :: cs => do
    let (c, cs) ← escape cs
    let (body, cs) ← stringBody fuel cs
    return (c :: body, cs)
  | fuel + 1, c :: cs => do
    if c < ' ' then none
    let (body, cs) ← stringBody fuel cs
    return (c :: body, cs)

/-- Reads a string from behind its opening quote. -/
def string : Reader String := fun cs =>
  (stringBody (cs.length + 1) cs).map fun (body, rest) => (String.ofList body, rest)

/-- Reads the items of an array from behind its bracket and the blanks there. -/
def items (value : Reader Data) : (fuel : Nat) → Reader (List Data)
  | 0, _ => none
  | fuel + 1, cs => do
    let (first, cs) ← value cs
    match skip cs with
    | ']' :: cs => return ([first], cs)
    | ',' :: cs =>
      let (others, cs) ← items value fuel (skip cs)
      return (first :: others, cs)
    | _ => none

/-- Reads one field of an object: a name, a colon and a value. -/
def member (value : Reader Data) : Reader (String × Data)
  | '\x22' :: cs => do
    let (name, cs) ← string cs
    match skip cs with
    | ':' :: cs =>
      let (v, cs) ← value (skip cs)
      return ((name, v), cs)
    | _ => none
  | _ => none

/-- Reads the fields of an object from behind its brace and the blanks there, adding them to those
before. -/
def members (value : Reader Data) :
    (fuel : Nat) → List (String × Data) → Reader (List (String × Data))
  | 0, _, _ => none
  | fuel + 1, before, cs => do
    let ((name, v), cs) ← member value cs
    let fields := setField name v before
    match skip cs with
    | '\x7d' :: cs => return (fields, cs)
    | ',' :: cs => members value fuel fields (skip cs)
    | _ => none

/-- Reads a word that stands for a value. -/
def word (letters : List Char) (value : Data) : Reader Data := fun cs =>
  if letters.isPrefixOf cs then some (value, cs.drop letters.length) else none

/-- Reads a value in which so many arrays and objects lie inside each other at most. -/
def value : (depth : Nat) → Reader Data
  | _, '\x22' :: cs => (string cs).map fun (s, rest) => (.scalar (.string s), rest)
  | _, 'n' :: cs => word ['u', 'l', 'l'] .null cs
  | _, 't' :: cs => word ['r', 'u', 'e'] (.scalar (.boolean true)) cs
  | _, 'f' :: cs => word ['a', 'l', 's', 'e'] (.scalar (.boolean false)) cs
  | 0, '[' :: _ => none
  | 0, '\x7b' :: _ => none
  | depth + 1, '[' :: cs =>
    match skip cs with
    | ']' :: cs => some (.list [], cs)
    | cs => (items (fun cs => value depth (skip cs)) cs.length cs).map
        fun (vs, rest) => (.list vs, rest)
  | depth + 1, '\x7b' :: cs =>
    match skip cs with
    | '\x7d' :: cs => some (.table [], cs)
    | cs => (members (fun cs => value depth cs) cs.length [] cs).map
        fun (fields, rest) => (.table fields, rest)
  | _, cs => number cs

/-- How many arrays and objects may lie inside each other. -/
def maxDepth : Nat := 127

/-- The value of a JSON text; none if it is none. -/
def parse (text : String) : Option Data := do
  let (v, rest) ← value maxDepth (skip text.toList)
  if skip rest = [] then some v else none

end UserStorage.Settings.Json
