/-!
What a double-precision number is: not a number, an infinity, or a whole
significand times a power of two, read off its sixty-four bits.
-/
namespace Peg.Decimal

/-- The value of a float, exactly. The finite number is
`significand * 2 ^ exponent`, with a sign of its own so that zero has two. -/
inductive Binary where
  | nan
  | infinite (negative : Bool)
  | finite (negative : Bool) (significand : Nat) (exponent : Int)
  deriving DecidableEq

namespace Binary

def leastNormal : Nat := Nat.pow 2 52

def ofBits (bits : Nat) : Binary :=
  let negative := Nat.pow 2 63 ≤ bits
  let field : Nat := bits / leastNormal % 2048
  let fraction := bits % leastNormal
  if field = 2047 then
    if fraction = 0 then infinite negative else nan
  else if field = 0 then finite negative fraction (-1074)
  else finite negative (leastNormal + fraction) ((field : Int) - 1075)

def ofFloat (x : Float) : Binary := ofBits x.toBits.toNat

end Binary
end Peg.Decimal
