import UserStorage.Settings.Data

/-!
# Numbers in JSON

An integer that fits in 64 bits stays an integer. Any other number is a float that is built in two
steps: of its digits as many leading ones are kept as make a number below 2^64, and that number is
scaled once by a power of ten. Each step rounds, so the result may differ from the float nearest
to the number that was written.

## Main definitions

* `Json.number`: reads a number
-/

namespace UserStorage.Settings.Json

open Decimal (Magnitude Binary64)

/-- The first number that does not fit in 64 bits. -/
def wordLimit : Nat := 1 <<< 64

/-- Adds digits to a number as long as it stays below the limit: the number, and the digits that
were not added. -/
def absorb : Nat → List Char → Nat × List Char
  | n, [] => (n, [])
  | n, c :: cs =>
    let next := 10 * n + digitValue c
    if next < wordLimit then absorb next cs else (n, c :: cs)

/-- The largest power of ten that a float holds to its precision. -/
def maxPower : Nat := 308

/-- A power of ten up to that, rounded. -/
def power (n : Nat) : Magnitude := (Magnitude.ofDecimal 1 n).getD Magnitude.zero

/-- Divides by `10 ^ n`, in steps of at most the largest power. -/
def scaleDown (x : Magnitude) (n : Nat) : Magnitude :=
  if n ≤ maxPower then (x.div (power n)).getD x
  else if x.significand = 0 then x
  else scaleDown ((x.div (power maxPower)).getD x) (n - maxPower)
termination_by n
decreasing_by simp only [maxPower] at *; omega

/-- The float of a kept number and a power of ten; none if it is too large. -/
def scaled (kept : Nat) (e : Int) : Option Magnitude := do
  let x ← Magnitude.round kept 1
  if e < 0 then some (scaleDown x (-e).toNat)
  else if e.toNat ≤ maxPower then x.mul (power e.toNat)
  else if x.significand = 0 then some x
  else none

/-- Reads an exponent, if there is one: a letter, a sign and at least one digit. -/
def exponent : Reader (Option Int)
  | c :: cs =>
    if c = 'e' ∨ c = 'E' then
      let (negative, cs) := match cs with
        | '-' :: rest => (true, rest)
        | '+' :: rest => (false, rest)
        | _ => (false, cs)
      let (digits, rest) := digitsOf cs
      if digits = [] then none
      else
        let n : Int := decimalValue digits
        some (some (if negative then -n else n), rest)
    else some (none, c :: cs)
  | [] => some (none, [])

/-- Reads a fraction, if there is one: a point and at least one digit. -/
def fraction : Reader (Option (List Char))
  | '.' :: cs =>
    let (digits, rest) := digitsOf cs
    if digits = [] then none else some (some digits, rest)
  | cs => some (none, cs)

/-- Reads the digits before the point: a zero stands alone. -/
def wholePart : Reader (List Char) := fun cs =>
  match digitsOf cs with
  | ([], _) => none
  | ('0' :: _ :: _, _) => none
  | (digits, rest) => some (digits, rest)

/-- The value of a number without fraction and exponent. Zero with a minus is a float, for no
integer is. -/
def whole (negative : Bool) (n : Nat) : Option Data :=
  match if negative ∧ n = 0 then none else integer? negative n with
  | some i => some (.scalar (.integer i))
  | none => (Magnitude.round n 1).map fun x => .scalar (.float (.finite negative x))

/-- Reads a number. -/
def number : Reader Data := fun cs => do
  let (negative, cs) := match cs with
    | '-' :: rest => (true, rest)
    | _ => (false, cs)
  let (digits, cs) ← wholePart cs
  let (places, cs) ← fraction cs
  let (power, cs) ← exponent cs
  let (kept, dropped) := absorb 0 digits
  if dropped = [] ∧ places = none ∧ power = none then
    return (← whole negative kept, cs)
  let shown := places.getD []
  let (kept, droppedPlaces) := absorb kept shown
  let used := shown.length - droppedPlaces.length
  let x ← scaled kept (dropped.length - used + power.getD 0)
  return (.scalar (.float (.finite negative x)), cs)

end UserStorage.Settings.Json
