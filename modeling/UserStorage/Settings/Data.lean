import UserStorage.Decimal.Shortest

/-!
# Structured data

What a settings file holds: scalars, lists, and tables whose fields have names. Every scalar has a
text, which is what a setting that asks for a string gets from it.

## Main definitions

* `Scalar`, `Data`: the values of a settings file
* `Scalar.text`: the text of a scalar
* `Reader`: what reads a value off the front of some characters
-/

namespace UserStorage.Settings

open Decimal (Binary64)

/-- The values that hold no others. -/
inductive Scalar
  | boolean (value : Bool)
  | integer (value : Int)
  | float (value : Binary64)
  | string (value : String)
  /-- A date, a time or both, as its text. -/
  | instant (shown : String)

/-- The text of a scalar. -/
def Scalar.text : Scalar → String
  | boolean b => if b then "true" else "false"
  | integer i => toString i
  | float x => x.text
  | string s | instant s => s

/-- The values of a settings file. -/
inductive Data
  | null
  | scalar (value : Scalar)
  | list (items : List Data)
  | table (fields : List (String × Data))

/-- The fields of a table; anything else is none. -/
def Data.fields? : Data → Option (List (String × Data))
  | table fields => some fields
  | _ => none

theorem Data.eq_table_of_fields? {d : Data} {fields : List (String × Data)}
    (h : d.fields? = some fields) : d = .table fields := by
  cases d with
  | table own => rw [Option.some.inj h]
  | null | scalar | list => cases h

/-- The field of a name, replaced in its place or put at the end. -/
def setField {α : Type} (name : String) (value : α) : List (String × α) → List (String × α)
  | [] => [(name, value)]
  | (k, v) :: rest => if k = name then (k, value) :: rest else (k, v) :: setField name value rest

/-- Reads a value off the front of some characters and leaves the rest; nothing when there is no
such value in front. -/
abbrev Reader (α : Type) := List Char → Option (α × List Char)

/-- The digits in front of some characters, and the rest. -/
def digitsOf (cs : List Char) : List Char × List Char := cs.span Char.isDigit

/-- The value of some characters as digits of a base. -/
def valueOf (base : Nat) (digit : Char → Nat) (cs : List Char) : Nat :=
  cs.foldl (fun n c => base * n + digit c) 0

/-- The value of a digit up to `f`. -/
def digitValue (c : Char) : Nat :=
  if c.isDigit then c.toNat - '0'.toNat
  else if 'a' ≤ c ∧ c ≤ 'f' then c.toNat - 'a'.toNat + 10
  else if 'A' ≤ c ∧ c ≤ 'F' then c.toNat - 'A'.toNat + 10
  else 16

/-- The value of some decimal digits. -/
def decimalValue (cs : List Char) : Nat := valueOf 10 digitValue cs

/-- The value of exactly `count` hexadecimal digits in front. -/
def hexadecimal (count : Nat) : Reader Nat := fun cs =>
  let digits := cs.take count
  if digits.length = count ∧ digits.all (digitValue · < 16) then
    some (valueOf 16 digitValue digits, cs.drop count)
  else none

/-- The first magnitude that does not fit in 64 bits with a sign. -/
def integerLimit : Nat := 1 <<< 63

/-- The integer of a sign and a magnitude; none if 64 bits do not hold it. -/
def integer? (negative : Bool) (n : Nat) : Option Int :=
  if negative then if n ≤ integerLimit then some (-n) else none
  else if n < integerLimit then some n else none

/-- The character of a number, unless that is a surrogate or too large. -/
def charOf? (n : Nat) : Option Char := if n.isValidChar then some (Char.ofNat n) else none

end UserStorage.Settings
