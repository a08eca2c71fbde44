import Peg.Text.Basic
import Peg.Decimal.Binary

/-!
The shortest decimal that reads back as a given float, and of those the one
nearest to it; of two equally near the larger. The search looks at decimals of
one digit, of two, and so on up to seventeen, which always suffice, and tests
at each length the two neighbours of the value in exact arithmetic.
-/
namespace Peg.Decimal

/-- The number `0.d₁d₂… * 10 ^ point` with digits `d₁d₂…`. -/
structure Digits where
  digits : Text
  point : Int
  deriving DecidableEq

/-- A positive value with the interval of the reals that round to it, all over
one denominator. The ends belong to the interval when `closed` holds. -/
structure Interval where
  low : Nat
  value : Nat
  high : Nat
  denominator : Nat
  closed : Bool

namespace Interval

/-- The reals that round to `significand * 2 ^ exponent`: half a unit to both
sides, but only a quarter below the least normal significand, where the units
of the numbers underneath are half as large. An even significand wins ties, so
it owns both ends. -/
def around (significand : Nat) (exponent : Int) : Interval :=
  let up := Nat.pow 2 (exponent - 2).toNat
  { low := (4 * significand - if significand = Binary.leastNormal then 1 else 2) * up
    value := 4 * significand * up
    high := (4 * significand + 2) * up
    denominator := Nat.pow 2 (2 - exponent).toNat
    closed := significand % 2 = 0 }

def scale (i : Interval) (power : Int) : Interval :=
  let up := Nat.pow 10 power.toNat
  { i with
    low := i.low * up
    value := i.value * up
    high := i.high * up
    denominator := i.denominator * Nat.pow 10 (-power).toNat }

def holds (i : Interval) (n : Nat) : Bool :=
  let position := n * i.denominator
  if i.closed then i.low ≤ position && position ≤ i.high
  else i.low < position && position < i.high

def nearest? (i : Interval) : Option Nat :=
  let below := i.value / i.denominator
  match i.holds below, i.holds (below + 1) with
  | true, true => some (if 2 * (i.value % i.denominator) < i.denominator then below else below + 1)
  | true, false => some below
  | false, true => some (below + 1)
  | false, false => none

def leadingZeros (i : Interval) : (limit : Nat) → Nat
  | 0 => 0
  | limit + 1 => if i.denominator ≤ i.value then 0 else leadingZeros (i.scale 1) limit + 1

/-- The power of ten next above the value, which is at least `10 ^ (-324)`. -/
def magnitude (i : Interval) : Int :=
  if i.denominator ≤ i.value then (Text.ofNat (i.value / i.denominator)).length
  else 1 - i.leadingZeros 330

def digits? (i : Interval) (magnitude : Int) (count : Nat) : Option Digits :=
  let power := magnitude - count
  (i.scale (-power)).nearest?.map fun n =>
    let written := Text.ofNat n
    { digits := (written.reverse.dropWhile (· = '0')).reverse
      point := written.length + power }

end Interval

def shortest (significand : Nat) (exponent : Int) : Digits :=
  let i := Interval.around significand exponent
  (((List.range 17).map (· + 1)).findSome? (i.digits? i.magnitude)).getD ⟨[], 0⟩

end Peg.Decimal
