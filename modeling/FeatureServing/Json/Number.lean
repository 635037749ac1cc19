import FeatureServing.Binary64.Rounding
import FeatureServing.Json
import FeatureServing.Word

/-!
# The numbers of JSON numerals

A numeral without point and power is an integer if 64 bits hold it, with or without a sign; every
other one is a double. Its digits are collected in 64 bits, what does not fit is dropped, and the
result is scaled by powers of ten up to `10 ^ 308`, each step rounded. A numeral beyond the range
of doubles has no number.
-/

namespace FeatureServing.Numeral

/-- The number of a numeral. -/
inductive Number
  | unsigned (n : Nat)
  | negative (i : Int)
  | float (x : Binary64)

/-- The largest number that digits are collected to. -/
def collectBound : Nat := Word.capacity 64 - 1

/-- Collects digits while they fit; gives the number and the digits that are left. -/
def collect : Nat → List Char → Nat × List Char
  | n, [] => (n, [])
  | n, c :: cs =>
    let next := 10 * n + Text.digitValue c
    if next ≤ collectBound then collect next cs else (n, c :: cs)

/-- Scales by a power of ten in rounded steps; none when the result is too large. -/
def scale? (x : Binary64) (power : Int) : Option Binary64 :=
  if power < -308 then
    if x.isZero then some x
    else scale? (x.div (.ofNat (Text.placeValue 308))) (power + 308)
  else if power < 0 then some (x.div (.ofNat (Text.placeValue (-power).toNat)))
  else if power ≤ 308 then
    let y := x.mul (.ofNat (Text.placeValue power.toNat))
    if y.isFinite then some y else none
  else if x.isZero then some x
  else none
termination_by (-power).toNat
decreasing_by omega

/-- The double of a numeral, whatever its form. -/
def float? (n : Numeral) : Option Binary64 :=
  let (m, dropped) := collect 0 n.whole
  let (m, unread) := collect m n.fraction
  let taken := n.fraction.length - unread.length
  let power := n.power.getD 0 + dropped.length - taken
  (scale? (.ofNat m) power).map fun x => if n.negative then x.neg else x

/-- The number of a numeral, none beyond the range of doubles. -/
def number? (n : Numeral) : Option Number :=
  let m := Text.numberOf n.whole
  if n.isIntegral && m ≤ collectBound && !n.negative then some (.unsigned m)
  else if n.isIntegral && 0 < m && m ≤ Word.capacity 63 && n.negative then some (.negative (-(m : Int)))
  else n.float?.map .float

end FeatureServing.Numeral
