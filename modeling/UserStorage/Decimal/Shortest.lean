import UserStorage.Decimal.Binary64

/-!
# The shortest decimal of a number

A number is written with the fewest decimal digits that read back as the same number; of two such
decimals the nearer one is taken, and the greater one if both are equally near. The digits are
written positionally, whatever their number.

## Main definitions

* `Magnitude.readsBack`: the decimals that round to a number
* `Magnitude.shortest`: the shortest of them
* `positional`: a decimal without exponent
* `Binary64.text`: the text of a number
-/

namespace UserStorage.Decimal

namespace Magnitude

/-- How `digits · 10 ^ e` compares with `n · 2 ^ j`. -/
def compareScaled (digits : Nat) (e : Int) (n : Nat) (j : Int) : Ordering :=
  compare ((digits * tenTo e.toNat) <<< (-j).toNat) ((n * tenTo (-e).toNat) <<< j.toNat)

/-- The gap to the next number below is half the gap to the next number above: so it is at the
powers of two, the least normal one excepted. -/
def isNarrowBelow (x : Magnitude) : Bool :=
  x.significand == overflow / 2 && x.exponent != minExponent

/-- The decimal `digits · 10 ^ e` lies among the reals that round to the number. These reach
halfway to both neighbours, the ends included when the significand is even. -/
def readsBack (x : Magnitude) (digits : Nat) (e : Int) : Bool :=
  let low := compareScaled digits e (4 * x.significand - if x.isNarrowBelow then 1 else 2)
    (x.exponent - 2)
  let high := compareScaled digits e (4 * x.significand + 2) (x.exponent - 2)
  let closed := x.significand % 2 == 0
  (low == .gt || (closed && low == .eq)) && (high == .lt || (closed && high == .eq))

/-- The integral part of the number divided by `10 ^ e`. -/
def floorAt (x : Magnitude) (e : Int) : Nat :=
  ((x.significand * tenTo (-e).toNat) <<< x.exponent.toNat) /
    (tenTo e.toNat <<< (-x.exponent).toNat)

/-- The least power of ten above a number that is not zero. -/
def scale (x : Magnitude) : Int :=
  (digitCount (x.floorAt (-(decimalReach : Int))) : Int) - decimalReach

/-- The neighbour of the number on the grid of the multiples of `10 ^ e` that reads back; of two
the nearer one, and the greater one if both are equally near. -/
def onGrid (x : Magnitude) (e : Int) : Option Nat :=
  let below := x.floorAt e
  match x.readsBack below e, x.readsBack (below + 1) e with
  | false, false => none
  | true, false => some below
  | false, true => some (below + 1)
  | true, true =>
    if compareScaled (2 * below + 1) e (2 * x.significand) x.exponent == .gt then some below
    else some (below + 1)

/-- Seventeen digits always read back. -/
def maxDigits : Nat := 17

/-- The shortest decimal that reads back, as digits and a power of ten. Were there none, all the
digits of the number would be taken. -/
def shortest (x : Magnitude) : Nat × Int :=
  if x.significand = 0 then (0, 0)
  else
    let k := x.scale
    let found := (List.range maxDigits).findSome? fun (n : Nat) =>
      let e : Int := k - (n + 1 : Nat)
      (x.onGrid e).map fun digits => (digits, e)
    found.getD (x.floorAt (min x.exponent 0), min x.exponent 0)

end Magnitude

/-- The decimal `digits · 10 ^ e` without exponent and without zeros at the end of its fraction. -/
def positional (digits : Nat) (e : Int) : List Char :=
  let shown := Nat.toDigits 10 digits
  if 0 ≤ e then shown ++ (if digits = 0 then [] else List.replicate e.toNat '0')
  else
    let places := (-e).toNat
    let padded := List.replicate (places + 1 - shown.length) '0' ++ shown
    let whole := padded.take (padded.length - places)
    let fraction := ((padded.drop (padded.length - places)).reverse.dropWhile (· == '0')).reverse
    if fraction = [] then whole else whole ++ '.' :: fraction

/-- The text of a number. -/
def Binary64.text : Binary64 → String
  | .finite negative x =>
    let (digits, e) := x.shortest
    String.ofList ((if negative then ['-'] else []) ++ positional digits e)
  | .infinite negative => if negative then "-inf" else "inf"
  | .notANumber => "NaN"

end UserStorage.Decimal
