import UserStorage.Settings.Toml.Instant
import UserStorage.Settings.Toml.Text

/-!
# Numbers in TOML

Numbers and instants begin as bare words, which points, colons and plus signs join to what follows.
Digits may be parted by single underscores; decimal integers and the part of a float before the
point have no zero in front. Integers have 64 bits, and floats are rounded once.

## Main definitions

* `Toml.digitRun`: reads the digits of a base
* `Toml.number`: reads a number from a bare word and what follows it
* `Toml.numberOrInstant`: reads a number or an instant
-/

namespace UserStorage.Settings.Toml

open Decimal (Magnitude Binary64)

/-- Reads a bare word of at least one character. -/
def bareWord : Reader (List Char) := fun cs =>
  match cs.span isBare with
  | ([], _) => none
  | (word, rest) => some (word, rest)

/-- What was read last of a run of digits. -/
inductive LastRead
  | nothing | digit | underscore
  deriving DecidableEq, Repr

/-- Reads digits and single underscores between them, and leaves what follows; the underscores are
dropped. When `zeros` is false, a zero at the start must be the only digit; `alone` remembers that
it was there. -/
def digitRun (base : Nat) (zeros : Bool) : LastRead → (alone : Bool) → Reader (List Char)
  | last, _, [] => if last = .digit then some ([], []) else none
  | last, alone, c :: cs =>
    if digitValue c < base then
      if alone then none
      else
        (digitRun base zeros .digit (last == .nothing && c == '0' && !zeros) cs).map
          fun (digits, rest) => (c :: digits, rest)
    else if last = .digit then
      if c = '_' then digitRun base zeros .underscore alone cs else some ([], c :: cs)
    else none

/-- Reads digits from the start. -/
def digits (base : Nat) (zeros : Bool) : Reader (List Char) := digitRun base zeros .nothing false

/-- Some characters without a minus in front, and whether there was one. -/
def signOf (cs : List Char) : Bool × List Char :=
  match cs with
  | '-' :: rest => (true, rest)
  | _ => (false, cs)

/-- The integer of some digits; none if 64 bits do not hold it. -/
def integerOf (negative : Bool) (n : Nat) : Option Data :=
  (integer? negative n).map fun i => .scalar (.integer i)

/-- The integer that a whole word of digits stands for. -/
def wholeWord (base : Nat) (word : List Char) : Option Data := do
  let (negative, word) := if base = 10 then signOf word else (false, word)
  let (ds, rest) ← digits base (base != 10) word
  if rest = [] then integerOf negative (valueOf base digitValue ds) else none

/-- Reads the digits of an exponent, which may be the rest of the word behind the letter, or stand
behind a plus sign that follows the word. -/
def exponentDigits (word : List Char) : Reader (Bool × List Char) := fun cs => do
  let (negative, word, cs) ←
    match word, cs with
    | [], '+' :: cs => (bareWord cs).map fun (word, cs) => (false, word, cs)
    | [], _ => none
    | _, _ =>
      let (negative, word) := signOf word
      some (negative, word, cs)
  let (ds, rest) ← digits 10 true word
  if rest = [] then some ((negative, ds), cs) else none

/-- Reads a float: a word, the word behind its point if there is one, and the exponent. -/
def float (word : List Char) (places : Option (List Char)) : Reader Data := fun cs => do
  let (negative, word) := signOf word
  let (before, rest) ← digits 10 false word
  let (after, rest) ← match places with
    | none => some ([], rest)
    | some places => if rest = [] then digits 10 true places else none
  let ((down, power), cs) ← match rest with
    | [] => some ((false, []), cs)
    | c :: rest => if c = 'e' ∨ c = 'E' then exponentDigits rest cs else none
  let e : Int := decimalValue power
  let x ← Magnitude.ofDecimal (decimalValue (before ++ after))
    ((if down then -e else e) - after.length)
  return (.scalar (.float (.finite negative x)), cs)

/-- Reads a number whose first bare word has been read. -/
def number (word : List Char) : Reader Data := fun cs =>
  match word with
  | '0' :: 'x' :: ds => (wholeWord 16 ds).map (·, cs)
  | '0' :: 'o' :: ds => (wholeWord 8 ds).map (·, cs)
  | '0' :: 'b' :: ds => (wholeWord 2 ds).map (·, cs)
  | _ =>
    if word.contains 'e' ∨ word.contains 'E' then float word none cs
    else match cs with
      | '.' :: cs => do
        let (places, cs) ← bareWord cs
        float word (some places) cs
      | _ =>
        if word = ['i', 'n', 'f'] then some (.scalar (.float (.infinite false)), cs)
        else if word = ['-', 'i', 'n', 'f'] then some (.scalar (.float (.infinite true)), cs)
        else if word = ['n', 'a', 'n'] ∨ word = ['-', 'n', 'a', 'n'] then
          some (.scalar (.float .notANumber), cs)
        else (wholeWord 10 word).map (·, cs)

/-- Reads a character and a bare word behind it, if they are there, as they stand. -/
def joined (c : Char) : Reader (List Char)
  | d :: cs =>
    if c = d then (bareWord cs).map fun (word, cs) => (c :: word, cs) else some ([], d :: cs)
  | [] => some ([], [])

/-- Reads the hour behind a date and a single blank, if it is there. -/
def hourAfterBlank (cs : List Char) : List Char × List Char :=
  match cs with
  | ' ' :: cs' =>
    match bareWord cs' with
    | some (word, rest) => (' ' :: word, rest)
    | none => ([], cs)
  | _ => ([], cs)

/-- Reads the characters of an instant whose first bare word has been read. -/
def instantText (word : List Char) : Reader (List Char) := fun cs => do
  let (hour, cs) := hourAfterBlank cs
  match cs with
  | ':' :: _ =>
    let (minute, cs) ← joined ':' cs
    let (second, cs) ← joined ':' cs
    if second = [] then none
    let (places, cs) ← joined '.' cs
    let (offset, cs) ← joined '+' cs
    let (minutes, cs) ← joined ':' cs
    return (word ++ hour ++ minute ++ second ++ places ++ offset ++ minutes, cs)
  | _ => return (word ++ hour, cs)

/-- A bare word begins a date: it holds the `T` before a time, or a minus inside that belongs to no
exponent. -/
def beginsDate (word : List Char) : Bool :=
  let neighbours := word.zip word.tail
  word.contains 'T' || word.contains 't' ||
    (word.tail.contains '-' && !neighbours.contains ('e', '-') && !neighbours.contains ('E', '-'))

/-- Reads the number or the instant that a bare word begins. -/
def numberOrInstant (word : List Char) : Reader Data := fun cs =>
  if beginsDate word ∨ cs.head? = some ':' then do
    let (shown, cs) ← instantText word cs
    return (.scalar (.instant (← Instant.ofText? shown).text), cs)
  else number word cs

end UserStorage.Settings.Toml
