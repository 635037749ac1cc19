import FeatureServing.Binary64
import FeatureServing.Text.Digits

/-!
# Rounding to binary64

`magnitudeBits num den` are the bits of the double nearest to a quotient, a half going to the
even neighbour and an overflow to infinity; `mul` and `div` are the rounded operations on finite
numbers and `ofDecimal` reads `digits * 10 ^ exponent`.
-/

namespace FeatureServing.Binary64

/-- A quotient rounded to the nearest natural, a half going to the even neighbour. -/
def divRoundEven (num den : Nat) : Nat :=
  let q := num / den
  let r := num % den
  if 2 * r < den then q
  else if den < 2 * r then q + 1
  else if q % 2 = 0 then q else q + 1

/-- The exponent of the last place of the double nearest to a positive quotient. -/
def lastPlace (num den : Nat) : Int :=
  let e : Int := (Nat.log2 num : Int) - (Nat.log2 den : Int)
  let reached : Bool := den <<< e.toNat ≤ num <<< (-e).toNat
  max ((if reached then e else e - 1) - 52) (-1074)

/-- The bits of the double nearest to a quotient. A carry out of the fraction runs into the
exponent field, which is the next double. -/
def magnitudeBits (num den : Nat) : Nat :=
  if num = 0 then 0
  else
    let q := lastPlace num den
    let m := divRoundEven (num <<< (-q).toNat) (den <<< q.toNat)
    min ((q + 1074).toNat * leadingBit + m) infiniteBits

def ofRatio (negative : Bool) (num den : Nat) : Binary64 :=
  ofMagnitude negative (magnitudeBits num den)

def ofNat (n : Nat) : Binary64 :=
  ofRatio false n 1

/-- The rounded product of two finite numbers. -/
def mul (x y : Binary64) : Binary64 :=
  ofRatio (x.negative != y.negative) (x.ratio.1 * y.ratio.1) (x.ratio.2 * y.ratio.2)

/-- The rounded quotient of two finite numbers, the divisor not zero. -/
def div (x y : Binary64) : Binary64 :=
  ofRatio (x.negative != y.negative) (x.ratio.1 * y.ratio.2) (x.ratio.2 * y.ratio.1)

def neg (x : Binary64) : Binary64 :=
  ⟨x.bits ^^^ 0x8000000000000000⟩

/-- The double nearest to `digits * 10 ^ exponent`. Beyond four hundred places on either side of
the point the answer is infinite or zero, whatever the digits are. -/
def ofDecimal (negative : Bool) (digits : Nat) (exponent : Int) : Binary64 :=
  let size : Int := (Text.decimalDigits digits).length
  if digits = 0 then zero negative
  else if 400 < size + exponent then infinity negative
  else if size + exponent < -400 then zero negative
  else
    ofRatio negative (digits * Text.placeValue exponent.toNat) (Text.placeValue (-exponent).toNat)

/-- The nearest integer, a half going away from zero, clamped to `0 … bound`. A NaN gives zero. -/
def roundClamped (bound : Nat) (x : Binary64) : Nat :=
  if x.isNaN || x.negative then 0
  else if !x.isFinite then bound
  else
    let (num, den) := x.ratio
    min ((2 * num + den) / (2 * den)) bound

end FeatureServing.Binary64
