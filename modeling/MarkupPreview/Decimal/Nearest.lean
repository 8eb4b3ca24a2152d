/-!
# The double nearest to a rational

A double-precision number is a sign and a multiple of a power of two: `52` bits
of fraction and a least exponent of `-1074`. This module rounds an exact
rational onto that grid, to the nearest point and on a tie to the even one.

All of it is exact arithmetic on `Rat` and `Nat`, so nothing depends on how the
machine divides. The bit pattern of a nonnegative double is
`(quantum + 1074) * 2 ^ 52 + count`, whether it is subnormal or not, and a
count that rounds up to `2 ^ 53` carries into the exponent by itself.
-/

namespace MarkupPreview.Decimal

/-! ## Rounding to an integer -/

/-- The nearest integer, and the even one of two equally near. -/
def roundEven (x : Rat) : Int :=
  let below := x.floor
  let rest := x - below
  if rest < 1 / 2 then below
  else if 1 / 2 < rest then below + 1
  else if below % 2 = 0 then below
  else below + 1

/-! ## The binary grid -/

/-- The exponent of the largest power of two that a positive rational
reaches. -/
def binaryExponent (x : Rat) : Int :=
  let guess : Int := (x.num.toNat.log2 : Int) - (x.den.log2 : Int)
  if (2 : Rat) ^ guess ≤ x then guess else guess - 1

/-- The spacing, as a power of two, of the doubles around a positive
rational. -/
def quantumAt (x : Rat) : Int := max (binaryExponent x - 52) (-1074)

/-- The bit pattern of positive infinity: every finite pattern is below it. -/
def infinityBits : Nat := 0x7FF0000000000000

/-- The bit pattern of the double nearest to a nonnegative rational. -/
def nearestBits (x : Rat) : Nat :=
  if x = 0 then 0
  else
    let quantum := quantumAt x
    let count := (roundEven (x / (2 : Rat) ^ quantum)).toNat
    min infinityBits ((quantum + 1074).toNat * (1 <<< 52) + count)

/-- The double nearest to a rational given by its sign and size. -/
def nearest (negative : Bool) (size : Rat) : Float :=
  Float.ofBits (UInt64.ofNat ((if negative then 1 <<< 63 else 0) + nearestBits size))

/-- The double nearest to a power of ten. -/
def powerOfTen (exponent : Nat) : Float := nearest false ((10 : Rat) ^ exponent)

end MarkupPreview.Decimal
