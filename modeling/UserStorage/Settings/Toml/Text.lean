import UserStorage.Settings.Data

/-!
# Strings and bare words in TOML

A string stands between one or three quotes. Between double quotes a backslash escapes, between
single quotes nothing does. Three quotes may enclose line breaks, of which one right behind the
opening is dropped, and up to two more quotes right before the closing ones.

## Main definitions

* `Toml.isBare`: the characters of bare words
* `Toml.string`: reads a string, and tells whether it stood between three quotes
-/

namespace UserStorage.Settings.Toml

/-- The blanks inside a line. -/
def isSpace (c : Char) : Bool := c == ' ' || c == '\t'

/-- Some characters without the blanks in front. -/
def skip (cs : List Char) : List Char := cs.dropWhile isSpace

/-- The characters of bare words: ASCII letters and digits, `-` and `_`. -/
def isBare (c : Char) : Bool := c.isAlphanum || c == '-' || c == '_'

/-- The characters that may stand in a string as they are. -/
def isPlain (c : Char) : Bool := c == '\t' || (' ' ≤ c && c != '\x7f')

/-- The two kinds of strings. -/
inductive Quoting
  /-- Between double quotes, with escapes. -/
  | basic
  /-- Between single quotes, as it stands. -/
  | literal
  deriving DecidableEq, Repr

/-- The quote of a kind. -/
def Quoting.mark : Quoting → Char
  | basic => '\x22'
  | literal => '\x27'

/-- Reads what follows a backslash. -/
def escape : Reader Char
  | '\x22' :: cs => some ('\x22', cs)
  | '\x5c' :: cs => some ('\x5c', cs)
  | 'b' :: cs => some ('\x08', cs)
  | 'f' :: cs => some ('\x0c', cs)
  | 'n' :: cs => some ('\n', cs)
  | 'r' :: cs => some ('\r', cs)
  | 't' :: cs => some ('\t', cs)
  | 'u' :: cs => do
    let (n, cs) ← hexadecimal 4 cs
    return (← charOf? n, cs)
  | 'U' :: cs => do
    let (n, cs) ← hexadecimal 8 cs
    return (← charOf? n, cs)
  | _ => none

/-- What follows a backslash at the end of a line: the line break and all blanks and line breaks
after it are dropped. -/
def joinLines (cs : List Char) : Option (List Char) :=
  match skip cs with
  | '\n' :: cs => some (cs.dropWhile fun c => isSpace c || c == '\n')
  | _ => none

/-- Reads a string of one line from behind its opening quote, in at most `fuel` steps. -/
def lineBody (q : Quoting) : (fuel : Nat) → Reader (List Char)
  | 0, _ => none
  | _, [] => none
  | fuel + 1, c :: cs => do
    if c = q.mark then return ([], cs)
    else if c = '\x5c' ∧ q = .basic then
      let (c, cs) ← escape cs
      let (body, cs) ← lineBody q fuel cs
      return (c :: body, cs)
    else if isPlain c then
      let (body, cs) ← lineBody q fuel cs
      return (c :: body, cs)
    else none

/-- The closing of a string between three quotes, from behind the first of them: up to two quotes
before the last three belong to the string. -/
def closing (mark : Char) (cs : List Char) : Option (List Char × List Char) :=
  let (more, rest) := (cs.takeWhile (· == mark), cs.dropWhile (· == mark))
  if more.length < 2 then none
  else
    let own := min (more.length - 2) 2
    some (List.replicate own mark, List.replicate (more.length - 2 - own) mark ++ rest)

/-- Reads a string between three quotes from behind the opening, in at most `fuel` steps. -/
def linesBody (q : Quoting) : (fuel : Nat) → Reader (List Char)
  | 0, _ => none
  | _, [] => none
  | fuel + 1, c :: cs => do
    if c = q.mark then
      match closing q.mark cs with
      | some (own, rest) => return (own, rest)
      | none =>
        let (body, cs) ← linesBody q fuel cs
        return (c :: body, cs)
    else if c = '\x5c' ∧ q = .basic then
      match cs with
      | ' ' :: _ | '\t' :: _ | '\n' :: _ => linesBody q fuel (← joinLines cs)
      | _ =>
        let (c, cs) ← escape cs
        let (body, cs) ← linesBody q fuel cs
        return (c :: body, cs)
    else if c = '\n' ∨ isPlain c then
      let (body, cs) ← linesBody q fuel cs
      return (c :: body, cs)
    else none

/-- Reads a string from behind its first quote: its text, and whether it stood between three
quotes. -/
def string (q : Quoting) : Reader (String × Bool) := fun cs =>
  match cs with
  | c :: d :: rest =>
    if c = q.mark ∧ d = q.mark then
      let lines := match rest with
        | '\n' :: lines => lines
        | _ => rest
      (linesBody q (lines.length + 1) lines).map
        fun (body, rest) => ((String.ofList body, true), rest)
    else (lineBody q (cs.length + 1) cs).map
        fun (body, rest) => ((String.ofList body, false), rest)
  | _ => (lineBody q (cs.length + 1) cs).map
        fun (body, rest) => ((String.ofList body, false), rest)

end UserStorage.Settings.Toml
