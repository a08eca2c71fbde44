import Peg.Text.Basic

/-!
Numbers read from text: signed whole numbers of sixty-four bits, and decimals
rounded to the nearest float.
-/
namespace Peg.Decimal

def digitsValue (digits : Text) : Nat :=
  digits.foldl (fun value c => 10 * value + (c.toNat - '0'.toNat)) 0

def splitSign : Text → Bool × Text
  | '-' :: text => (true, text)
  | '+' :: text => (false, text)
  | text => (false, text)

def isDigits (text : Text) : Bool := !text.isEmpty && text.all Char.isDigit

def int64? (text : Text) : Option Int64 :=
  let (negative, digits) := splitSign text
  if isDigits digits then
    let value : Int := if negative then -digitsValue digits else digitsValue digits
    if Int64.minValue.toInt ≤ value ∧ value ≤ Int64.maxValue.toInt then some (Int64.ofInt value)
    else none
  else none

/-- The float nearest to `significand * 10 ^ exponent`. Far outside the range
of floats the exponent is not worked out: the number is zero or infinite. -/
def nearestFloat (significand : Nat) (exponent : Int) : Float :=
  let magnitude : Int := (Text.ofNat significand).length + exponent
  if significand = 0 ∨ magnitude < -400 then 0
  else if 400 < magnitude then 1 / 0
  else Float.ofScientific significand (exponent < 0) exponent.natAbs

def exponent? : Text → Option Int
  | [] => some 0
  | c :: text =>
    if c = 'e' ∨ c = 'E' then
      let (negative, digits) := splitSign text
      if isDigits digits then
        some (if negative then -digitsValue digits else digitsValue digits)
      else none
    else none

def unsignedFloat? (text : Text) : Option Float :=
  let whole := text.takeWhile Char.isDigit
  let afterWhole := text.dropWhile Char.isDigit
  let afterPoint := if afterWhole.head? = some '.' then afterWhole.drop 1 else []
  let fraction := afterPoint.takeWhile Char.isDigit
  let tail := if afterWhole.head? = some '.' then afterPoint.dropWhile Char.isDigit else afterWhole
  if whole.isEmpty && fraction.isEmpty then none
  else (exponent? tail).map fun exponent =>
    nearestFloat (digitsValue (whole ++ fraction)) (exponent - fraction.length)

def named? (text : Text) : Option Float :=
  let name := text.map Char.toLower
  if name = "inf".toList ∨ name = "infinity".toList then some (1 / 0)
  else if name = "nan".toList then some (0 / 0)
  else none

def float? (text : Text) : Option Float :=
  let (negative, unsigned) := splitSign text
  ((named? unsigned).or (unsignedFloat? unsigned)).map fun x => if negative then -x else x

end Peg.Decimal
