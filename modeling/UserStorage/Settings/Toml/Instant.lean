import UserStorage.Settings.Data

/-!
# Dates and times in TOML

A date, a time, or both with or without an offset. Their fields have fixed widths and are checked
one by one; a fraction of a second counts nine digits. An instant is shown in one form: `T` between
date and time, the fraction without zeros at its end.

## Main definitions

* `Toml.Instant`: a date, a time and an offset
* `Toml.Instant.ofText?`, `Toml.Instant.text`: reading and showing one
-/

namespace UserStorage.Settings.Toml

/-- A calendar day. -/
structure Date where
  year : Nat
  month : Nat
  day : Nat
  deriving DecidableEq, Repr

/-- A time of day. -/
structure Time where
  hour : Nat
  minute : Nat
  second : Nat
  nanosecond : Nat
  deriving DecidableEq, Repr

/-- The offset of a time from universal time. -/
inductive Offset
  | universal
  | hours (negative : Bool) (hours minutes : Nat)
  deriving DecidableEq, Repr

/-- A date, a time, or both, the latter with or without an offset. -/
structure Instant where
  date : Option Date
  time : Option Time
  offset : Option Offset
  deriving DecidableEq, Repr

/-- Reads a number of exactly `count` digits. -/
def fixed (count : Nat) : Reader Nat := fun cs =>
  let digits := cs.take count
  if digits.length = count ∧ digits.all Char.isDigit then some (decimalValue digits, cs.drop count)
  else none

/-- Reads one character. -/
def mark (c : Char) : Reader Unit
  | d :: cs => if c = d then some ((), cs) else none
  | [] => none

/-- Reads a date. -/
def readDate : Reader Date := fun cs => do
  let (year, cs) ← fixed 4 cs
  let ((), cs) ← mark '-' cs
  let (month, cs) ← fixed 2 cs
  let ((), cs) ← mark '-' cs
  let (day, cs) ← fixed 2 cs
  if 1 ≤ month ∧ month ≤ 12 ∧ 1 ≤ day ∧ day ≤ 31 then some (⟨year, month, day⟩, cs) else none

/-- The digits that a fraction of a second counts. -/
def maxPlaces : Nat := 9

/-- Reads a fraction of a second, if there is one, as nanoseconds. -/
def readNanoseconds : Reader Nat
  | '.' :: cs =>
    let (digits, rest) := digitsOf cs
    if digits = [] then none
    else
      let counted := digits.take maxPlaces
      let padding := List.replicate (maxPlaces - counted.length) '0'
      some (decimalValue (counted ++ padding), rest)
  | cs => some (0, cs)

/-- Reads a time. -/
def readTime : Reader Time := fun cs => do
  let (hour, cs) ← fixed 2 cs
  let ((), cs) ← mark ':' cs
  let (minute, cs) ← fixed 2 cs
  let ((), cs) ← mark ':' cs
  let (second, cs) ← fixed 2 cs
  let (nanosecond, cs) ← readNanoseconds cs
  if hour ≤ 24 ∧ minute ≤ 59 ∧ second ≤ 59 then some (⟨hour, minute, second, nanosecond⟩, cs)
  else none

/-- Reads an offset, if anything is left. -/
def readOffset : Reader (Option Offset)
  | [] => some (none, [])
  | 'Z' :: cs | 'z' :: cs => some (some .universal, cs)
  | sign :: cs => do
    if sign ≠ '+' ∧ sign ≠ '-' then none
    let (hours, cs) ← fixed 2 cs
    let ((), cs) ← mark ':' cs
    let (minutes, cs) ← fixed 2 cs
    return (some (.hours (sign == '-' && hours != 0) hours minutes), cs)

/-- Reads a time behind a date, with its offset. -/
def readTimeAfter (d : Date) : Reader Instant
  | 'T' :: cs | 't' :: cs | ' ' :: cs => do
    let (t, cs) ← readTime cs
    let (o, cs) ← readOffset cs
    return (⟨some d, some t, o⟩, cs)
  | cs => some (⟨some d, none, none⟩, cs)

namespace Instant

/-- The instant that a text stands for. A colon in third place shows a time without date. -/
def ofText? (cs : List Char) : Option Instant := do
  let (instant, rest) ←
    if cs[2]? = some ':' then (readTime cs).map fun (t, rest) => (⟨none, some t, none⟩, rest)
    else do
      let (d, cs) ← readDate cs
      readTimeAfter d cs
  if rest = [] then some instant else none

/-- A number with zeros in front up to a width. -/
def padded (width n : Nat) : List Char :=
  let digits := Nat.toDigits 10 n
  List.replicate (width - digits.length) '0' ++ digits

/-- The text of a date. -/
def dateText (d : Date) : List Char :=
  padded 4 d.year ++ '-' :: padded 2 d.month ++ '-' :: padded 2 d.day

/-- The text of a time. -/
def timeText (t : Time) : List Char :=
  let places := ((padded maxPlaces t.nanosecond).reverse.dropWhile (· == '0')).reverse
  padded 2 t.hour ++ ':' :: padded 2 t.minute ++ ':' :: padded 2 t.second ++
    (if places = [] then [] else '.' :: places)

/-- The text of an offset. -/
def offsetText : Offset → List Char
  | .universal => ['Z']
  | .hours negative h m => (if negative then '-' else '+') :: padded 2 h ++ ':' :: padded 2 m

/-- The text of an instant. -/
def text (i : Instant) : String :=
  let date := i.date.elim [] dateText
  let time := i.time.elim [] timeText
  let between := if i.date.isSome && i.time.isSome then ['T'] else []
  String.ofList (date ++ between ++ time ++ i.offset.elim [] offsetText)

end Instant

end UserStorage.Settings.Toml
