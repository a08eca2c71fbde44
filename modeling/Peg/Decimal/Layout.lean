import Peg.Decimal.Shortest

/-!
How the digits of a float are laid out: with the point in its place, or as one
digit, a fraction and a power of ten.
-/
namespace Peg.Decimal

/-- The free choices in writing a float. The point is put in its place when its
position lies in `positional`, everywhere if that is `none`; `whole` is written
after a whole number. -/
structure Layout where
  positional : Option (Int × Int)
  whole : Text

namespace Layout

def isPositional (layout : Layout) (point : Int) : Bool :=
  match layout.positional with
  | none => true
  | some (lowest, highest) => lowest ≤ point && point ≤ highest

def place (layout : Layout) (number : Digits) : Text :=
  let size : Int := number.digits.length
  if number.point ≤ 0 then
    "0.".toList ++ List.replicate (-number.point).toNat '0' ++ number.digits
  else if size ≤ number.point then
    number.digits ++ List.replicate (number.point - size).toNat '0' ++ layout.whole
  else
    number.digits.take number.point.toNat ++ '.' :: number.digits.drop number.point.toNat

def scientific (number : Digits) : Text :=
  let fraction := number.digits.drop 1
  number.digits.take 1 ++ (if fraction.isEmpty then [] else '.' :: fraction) ++
    'e' :: Text.ofInt (number.point - 1)

def signed (negative : Bool) (text : Text) : Text :=
  if negative then '-' :: text else text

def render (layout : Layout) (x : Float) : Text :=
  match Binary.ofFloat x with
  | .nan => "NaN".toList
  | .infinite negative => signed negative "inf".toList
  | .finite negative 0 _ => signed negative ('0' :: layout.whole)
  | .finite negative significand exponent =>
    let number := shortest significand exponent
    signed negative <|
      if layout.isPositional number.point then layout.place number else scientific number

end Layout
end Peg.Decimal
