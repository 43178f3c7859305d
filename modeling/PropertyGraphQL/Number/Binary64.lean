/-
Numbers of the IEEE 754 format binary64.

A number is its 64 bits: a sign, 11 bits of exponent and 52 bits of
fraction. Everything asked of it here is exact arithmetic on these parts,
so that it can be reasoned about: its magnitude `m · 2^e`, equality (a
NaN differs from itself, the two zeros are equal), the number nearest to a
given ratio, ties going to the even significand, and products and
quotients, which are rounded in the same way.
-/
namespace PropertyGraphQL

/-- A binary64 number, given by its bits. -/
structure Binary64 where
  bits : UInt64
deriving DecidableEq, Repr

namespace Binary64

/-- The weight of the sign bit. -/
def signWeight : Nat := 0x8000000000000000

/-- The weight of the lowest bit of the exponent, which is also that of the
leading bit of a significand. -/
def exponentWeight : Nat := 0x10000000000000

/-- Two to the power `n`. -/
def twoPow (n : Nat) : Nat := Nat.pow 2 n

/-- Ten to the power `n`. -/
def tenPow (n : Nat) : Nat := Nat.pow 10 n

/-- The sign bit. -/
def isNegative (x : Binary64) : Bool :=
  signWeight ≤ x.bits.toNat

/-- The exponent field, from 0 to 2047. -/
def exponentField (x : Binary64) : Nat :=
  x.bits.toNat / exponentWeight % 2048

/-- The fraction field. -/
def fraction (x : Binary64) : Nat :=
  x.bits.toNat % exponentWeight

/-- All bits but the sign. -/
def magnitudeBits (x : Binary64) : Nat :=
  x.bits.toNat % signWeight

/-- Neither an infinity nor a NaN. -/
def isFinite (x : Binary64) : Bool :=
  x.exponentField != 2047

def isNaN (x : Binary64) : Bool :=
  x.exponentField == 2047 && x.fraction != 0

def isZero (x : Binary64) : Bool :=
  x.magnitudeBits == 0

/-- Numeric equality: a NaN equals nothing, and the two zeros are equal. -/
def equal (x y : Binary64) : Bool :=
  !x.isNaN && !y.isNaN && (x.bits == y.bits || (x.isZero && y.isZero))

/-- The magnitude of a finite number, as a significand and a power of two. -/
def magnitude (x : Binary64) : Nat × Int :=
  if x.exponentField = 0 then (x.fraction, -1074)
  else (exponentWeight + x.fraction, x.exponentField - 1075)

-- ================================================== numbers from parts

/-- The number with the given sign and magnitude bits. -/
def ofMagnitudeBits (negative : Bool) (bits : Nat) : Binary64 :=
  ⟨UInt64.ofNat (if negative then signWeight + bits else bits)⟩

/-- The magnitude bits of an infinity. -/
def infinityBits : Nat := 2047 * exponentWeight

def infinity (negative : Bool) : Binary64 := ofMagnitudeBits negative infinityBits

def nan : Binary64 := ofMagnitudeBits false (infinityBits + exponentWeight / 2)

def zero (negative : Bool) : Binary64 := ofMagnitudeBits negative 0

/-- `numerator / denominator` rounded to an integer, ties to even. -/
def roundHalfEven (numerator denominator : Nat) : Nat :=
  let quotient := numerator / denominator
  let twice := 2 * (numerator % denominator)
  if twice < denominator then quotient
  else if denominator < twice then quotient + 1
  else if quotient % 2 = 0 then quotient
  else quotient + 1

/-- `numerator / (denominator · 2^e)` rounded to an integer, ties to even. -/
def scaledRound (numerator denominator : Nat) (e : Int) : Nat :=
  if 0 ≤ e then roundHalfEven numerator (denominator * twoPow e.toNat)
  else roundHalfEven (numerator * twoPow (-e).toNat) denominator

/-- The power of two of the last place of the number nearest to the
positive ratio: the significand then has 53 bits, or fewer at the lowest
power -1074. -/
def lastPlace (numerator denominator : Nat) : Int :=
  let e : Int := (numerator.log2 : Int) - denominator.log2 - 53
  -- The ratio lies between 2^(e+52) and 2^(e+54).
  let tooFine := if 0 ≤ e + 1 then denominator * twoPow (e + 1 + 52).toNat ≤ numerator
    else denominator * exponentWeight ≤ numerator * twoPow (-(e + 1)).toNat
  max (if tooFine then e + 1 else e) (-1074)

/-- The number nearest to the ratio, ties to even; an infinity if that is
beyond the largest finite number. -/
def ofRatio (negative : Bool) (numerator denominator : Nat) : Binary64 :=
  if numerator = 0 then zero negative
  else
    let e := lastPlace numerator denominator
    -- A significand of 2^53 carries into the exponent field by itself.
    let bits := (e + 1074).toNat * exponentWeight + scaledRound numerator denominator e
    ofMagnitudeBits negative (min bits infinityBits)

/-- The number nearest to an integer. -/
def ofInt (n : Int) : Binary64 :=
  ofRatio (n < 0) n.natAbs 1

-- =========================================================== arithmetic

/-- The number nearest to `numerator / denominator · 2^e`. -/
def ofScaledRatio (negative : Bool) (numerator denominator : Nat) (e : Int) : Binary64 :=
  if 0 ≤ e then ofRatio negative (numerator * twoPow e.toNat) denominator
  else ofRatio negative numerator (denominator * twoPow (-e).toNat)

/-- The product of two finite numbers, rounded. -/
def mul (x y : Binary64) : Binary64 :=
  let (m, e) := x.magnitude
  let (n, f) := y.magnitude
  ofScaledRatio (x.isNegative != y.isNegative) (m * n) 1 (e + f)

/-- The quotient of two finite numbers, rounded. The divisor is not zero. -/
def div (x y : Binary64) : Binary64 :=
  let (m, e) := x.magnitude
  let (n, f) := y.magnitude
  ofScaledRatio (x.isNegative != y.isNegative) m n (e - f)

/-- The number nearest to a power of ten. -/
def ofTenPow (n : Nat) : Binary64 := ofRatio false (tenPow n) 1

/-- The largest power of ten below infinity has this exponent. -/
def maxTenPow : Nat := 308

/-- A finite number divided by `10^n`: by the largest power of ten first, as
often as it takes, every quotient being rounded. -/
def divTenPow (x : Binary64) (n : Nat) : Binary64 :=
  if n ≤ maxTenPow then x.div (ofTenPow n)
  else if x.isZero then x
  else divTenPow (x.div (ofTenPow maxTenPow)) (n - maxTenPow)
termination_by n
decreasing_by simp only [maxTenPow] at *; omega

/-- `significand · 10^e`, computed from the float nearest to the significand
in steps that are rounded; an infinity beyond the range of the format. -/
def ofDecimal (negative : Bool) (significand : Nat) (e : Int) : Binary64 :=
  let x := ofRatio negative significand 1
  if x.isZero then x
  else if maxTenPow < e then infinity negative
  else if 0 ≤ e then x.mul (ofTenPow e.toNat)
  else x.divTenPow (-e).toNat

end Binary64

end PropertyGraphQL
