/-!
# Binary floating point numbers

The numbers of the 64-bit binary format, as exact values: a finite magnitude is `m · 2 ^ q`.
Rounding a fraction to the nearest of them, a tie going to the even one, gives the reading of a
decimal and the arithmetic on them; nothing is computed in floating point.

## Main definitions

* `Magnitude`: a finite non-negative number
* `Magnitude.round`: the number nearest to a fraction
* `Magnitude.ofDecimal`, `Magnitude.mul`, `Magnitude.div`: a decimal, a product and a quotient,
  each rounded once
* `Binary64`: a number with its sign, an infinity, or no number
-/

namespace UserStorage.Decimal

/-- A finite number without its sign: `significand · 2 ^ exponent`. -/
structure Magnitude where
  significand : Nat
  exponent : Int
  deriving DecidableEq, Repr

/-- A power of ten. -/
def tenTo (k : Nat) : Nat := Nat.pow 10 k

namespace Magnitude

/-- The significands of normal numbers have 53 binary digits. -/
def precision : Nat := 53

/-- The first significand with more digits than that. -/
def overflow : Nat := 1 <<< precision

/-- The exponent of the least numbers. -/
def minExponent : Int := -1074

/-- The exponent of the largest numbers. -/
def maxExponent : Int := 971

/-- Zero. -/
def zero : Magnitude := ⟨0, minExponent⟩

/-- The quotient of a fraction by `2 ^ q`: its integral part, and twice the remainder beside the
divisor, which tells on which side of a half the rest lies. -/
def quotient (num den : Nat) (q : Int) : Nat × Nat × Nat :=
  let n := num <<< (-q).toNat
  let d := den <<< q.toNat
  (n / d, 2 * (n % d), d)

/-- The number nearest to `num / den`, a tie going to the even significand; none if that is beyond
the largest number. -/
def round (num den : Nat) : Option Magnitude :=
  if num = 0 then some zero
  else
    let guess : Int := (num.log2 : Int) - den.log2 - precision
    let fits := (quotient num den guess).1 < overflow
    let q := max (if fits then guess else guess + 1) minExponent
    let (low, rest, half) := quotient num den q
    let m := if rest > half ∨ (rest = half ∧ low % 2 = 1) then low + 1 else low
    let (m, q) := if m = overflow then (overflow / 2, q + 1) else (m, q)
    if q > maxExponent then none else some ⟨m, q⟩

/-- The powers of ten beyond which every decimal is too large, and below which it is nothing. -/
def decimalReach : Nat := 400

/-- The number of decimal digits of a natural number. -/
def digitCount (n : Nat) : Nat := (Nat.toDigits 10 n).length

/-- The number nearest to `digits · 10 ^ e`; none if that is too large. -/
def ofDecimal (digits : Nat) (e : Int) : Option Magnitude :=
  if digits = 0 then some zero
  else if e > decimalReach then none
  else if e + digitCount digits < -decimalReach then some zero
  else round (digits * tenTo e.toNat) (tenTo (-e).toNat)

/-- The product of two numbers; none if it is too large. -/
def mul (x y : Magnitude) : Option Magnitude :=
  let q := x.exponent + y.exponent
  round ((x.significand * y.significand) <<< q.toNat) (1 <<< (-q).toNat)

/-- The quotient of two numbers, the second of which is not zero; none if it is too large. -/
def div (x y : Magnitude) : Option Magnitude :=
  let q := x.exponent - y.exponent
  round (x.significand <<< q.toNat) (y.significand <<< (-q).toNat)

end Magnitude

/-- A number of the format: finite with its sign, which zero has too, infinite, or no number. -/
inductive Binary64
  | finite (negative : Bool) (magnitude : Magnitude)
  | infinite (negative : Bool)
  | notANumber
  deriving DecidableEq, Repr

end UserStorage.Decimal
