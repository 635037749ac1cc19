/-!
# Binary64 numbers

A `Binary64` is the 64 bits of an IEEE double: sign, eleven exponent bits and fifty-two fraction
bits. Everything here is exact integer arithmetic on them.

* `significand`, `exponent` : a finite number is `± significand * 2 ^ exponent`;
* `ratio` : the same magnitude as a quotient of naturals;
* `toInt?` : the integer that an integral number equals.
-/

namespace FeatureServing

structure Binary64 where
  bits : UInt64
deriving DecidableEq

namespace Binary64

/-- The weight of the sign bit. -/
def signBit : Nat := 0x8000000000000000

/-- The weight of the bit in front of the fraction, which is the last one of the exponent field. -/
def leadingBit : Nat := 0x10000000000000

def negative (x : Binary64) : Bool :=
  signBit ≤ x.bits.toNat

def exponentField (x : Binary64) : Nat :=
  x.bits.toNat / leadingBit % 2048

def fraction (x : Binary64) : Nat :=
  x.bits.toNat % leadingBit

def isFinite (x : Binary64) : Bool :=
  x.exponentField != 2047

def isNaN (x : Binary64) : Bool :=
  x.exponentField == 2047 && x.fraction != 0

def isInfinite (x : Binary64) : Bool :=
  x.exponentField == 2047 && x.fraction == 0

def isZero (x : Binary64) : Bool :=
  x.exponentField == 0 && x.fraction == 0

/-- Whether the number has no leading one bit in front of its fraction. -/
def isSubnormal (x : Binary64) : Bool :=
  x.exponentField == 0

def significand (x : Binary64) : Nat :=
  if x.isSubnormal then x.fraction else leadingBit + x.fraction

def exponent (x : Binary64) : Int :=
  if x.isSubnormal then -1074 else (x.exponentField : Int) - 1075

/-- The magnitude of a finite number as numerator and denominator. -/
def ratio (x : Binary64) : Nat × Nat :=
  (x.significand <<< x.exponent.toNat, 1 <<< (-x.exponent).toNat)

/-- The integer that a finite, integral number equals. -/
def toInt? (x : Binary64) : Option Int :=
  let (num, den) := x.ratio
  if x.isFinite && num % den == 0 then
    some (if x.negative then -((num / den : Nat) : Int) else ((num / den : Nat) : Int))
  else none

/-- The number whose sign is given and whose other bits are those of a magnitude. -/
def ofMagnitude (negative : Bool) (bits : Nat) : Binary64 :=
  ⟨UInt64.ofNat (bits + if negative then signBit else 0)⟩

/-- The bits of an infinite magnitude. -/
def infiniteBits : Nat :=
  2047 * leadingBit

def infinity (negative : Bool) : Binary64 :=
  ofMagnitude negative infiniteBits

/-- The one NaN that is ever made. -/
def nan : Binary64 :=
  ofMagnitude false (infiniteBits + leadingBit / 2)

def zero (negative : Bool) : Binary64 :=
  ofMagnitude negative 0

/-- The bits, every NaN as the same ones. -/
def canonicalBits (x : Binary64) : UInt64 :=
  if x.isNaN then nan.bits else x.bits

theorem fraction_lt (x : Binary64) : x.fraction < leadingBit :=
  Nat.mod_lt _ (by decide)

theorem significand_lt (x : Binary64) : x.significand < 2 * leadingBit := by
  have := x.fraction_lt
  unfold significand
  split <;> omega

end Binary64

end FeatureServing
