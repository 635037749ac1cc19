import FeatureServing.Binary64
import FeatureServing.Decimal

/-!
# The fewest digits that read back

`shortest tie x` is the decimal with the fewest digits among those that round to `x`, and of these
the one nearest to `x`; `tie` chooses when two are equally near. The candidates with `n` digits are
the two neighbours of `x` on the grid of the decimals with `n` digits: when a grid point rounds to
`x`, so does one of them.
-/

namespace FeatureServing.Binary64

/-- The choice between the two equally near candidates. -/
inductive Tie
  | up
  | even
deriving DecidableEq

/-- The reals that round to a positive number, as `low … high` around `value`, all over `unit`.
The ends belong to them if `closed`. -/
structure Interval where
  low : Nat
  value : Nat
  high : Nat
  unit : Nat
  closed : Bool

/-- The half-way points between a finite number and its neighbours. The gap below a power of two
is half as wide as the gap above it. -/
def interval (x : Binary64) : Interval :=
  let m := x.significand
  let below := if x.fraction == 0 && 1 < x.exponentField then 1 else 2
  let q := x.exponent - 2
  { low := (4 * m - below) <<< q.toNat
    value := (4 * m) <<< q.toNat
    high := (4 * m + 2) <<< q.toNat
    unit := 1 <<< (-q).toNat
    closed := m % 2 == 0 }

namespace Interval

/-- The interval over the grid step `10 ^ k`. -/
def onGrid (i : Interval) (k : Int) : Interval :=
  let s := Text.placeValue (-k).toNat
  { low := i.low * s
    value := i.value * s
    high := i.high * s
    unit := i.unit * Text.placeValue k.toNat
    closed := i.closed }

def holds (i : Interval) (c : Nat) : Bool :=
  let p := c * i.unit
  if i.closed then i.low ≤ p && p ≤ i.high else i.low < p && p < i.high

/-- The grid point nearest to the value among its two neighbours inside the interval. -/
def nearest? (tie : Tie) (i : Interval) : Option Nat :=
  let c := i.value / i.unit
  let r := i.value % i.unit
  match i.holds c, i.holds (c + 1) with
  | true, false => some c
  | false, true => some (c + 1)
  | false, false => none
  | true, true =>
    if 2 * r < i.unit then some c
    else if i.unit < 2 * r then some (c + 1)
    else
      match tie with
      | .up => some (c + 1)
      | .even => some (if c % 2 == 0 then c else c + 1)

end Interval

/-- The number of digits in front of the point of a positive number. -/
def magnitude (i : Interval) : Int :=
  ((Text.decimalDigits (i.value * Text.placeValue 400 / i.unit)).length : Int) - 400

/-- The shortest decimal of a finite number; seventeen digits always suffice. -/
def shortest (tie : Tie) (x : Binary64) : Decimal :=
  if x.isZero then ⟨x.negative, 0, 0⟩
  else
    let i := x.interval
    let p := magnitude i
    let found := (List.range 17).findSome? fun (n : Nat) =>
      let k : Int := p - (n + 1)
      ((i.onGrid k).nearest? tie).map fun c => (c, k)
    let (c, k) := found.getD ((i.onGrid (p - 17)).value / (i.onGrid (p - 17)).unit, p - 17)
    (Decimal.mk x.negative c k).reduced

end FeatureServing.Binary64
