import Mathlib.Algebra.Order.Field.Power
import Mathlib.Data.Rat.Cast.Order
import Mathlib.Tactic.FieldSimp
import Mathlib.Tactic.Linarith
import Mathlib.Tactic.Positivity
import Mathlib.Tactic.Ring
import FeatureServing.Binary64.Shortest

/-!
# The numbers that round to a double

* `Binary64.absValue` : the exact magnitude of a finite number;
* `Binary64.eq_of_parts` : sign, significand and exponent determine a finite number;
* `Binary64.Interval.Contains` : the rationals of an interval; `holds_iff`, `contains_onGrid` tie it
  to the exact integer comparison;
* `Binary64.contains_absValue` : a number lies in its own interval;
* `Binary64.same_of_contains` : the intervals of two numbers of different magnitude are disjoint.
-/

namespace FeatureServing.Binary64

/-! ## Significand and exponent -/

/-- The exact magnitude of a finite number. -/
def absValue (x : Binary64) : ℚ :=
  x.significand * 2 ^ x.exponent

theorem leadingBit_eq : leadingBit = 4503599627370496 := rfl

theorem isSubnormal_iff {x : Binary64} : x.isSubnormal = true ↔ x.exponentField = 0 :=
  beq_iff_eq

theorem exponent_ge (x : Binary64) : -1074 ≤ x.exponent := by
  unfold exponent
  split
  · exact Int.le_refl _
  · next h =>
    rw [isSubnormal_iff] at h
    omega

theorem leadingBit_le_significand {x : Binary64} (h : -1074 < x.exponent) :
    leadingBit ≤ x.significand := by
  unfold exponent at h
  unfold significand
  split at h
  · exact absurd h (by decide)
  · next hs =>
    rw [if_neg hs]
    omega

/-- Significand and exponent determine all bits but the sign. -/
theorem fields_of_parts {x y : Binary64} (hm : x.significand = y.significand)
    (he : x.exponent = y.exponent) :
    x.exponentField = y.exponentField ∧ x.fraction = y.fraction := by
  have hx := x.fraction_lt
  have hy := y.fraction_lt
  unfold significand at hm
  unfold exponent at he
  simp only [isSubnormal_iff] at hm he
  split_ifs at hm he <;> omega

theorem toNat_bits (x : Binary64) :
    x.bits.toNat = (if x.negative then signBit else 0) + x.exponentField * leadingBit +
      x.fraction := by
  have hbits : x.bits.toNat < 18446744073709551616 := x.bits.toNat_lt
  unfold negative exponentField fraction signBit leadingBit
  simp only [decide_eq_true_eq]
  split <;> omega

theorem eq_of_fields {x y : Binary64} (hsign : x.negative = y.negative)
    (hfield : x.exponentField = y.exponentField) (hfraction : x.fraction = y.fraction) : x = y := by
  have hbits : x.bits.toNat = y.bits.toNat := by
    rw [toNat_bits, toNat_bits, hsign, hfield, hfraction]
  cases x
  cases y
  exact congrArg Binary64.mk (UInt64.toNat_inj.1 hbits)

theorem eq_of_parts {x y : Binary64} (hsign : x.negative = y.negative)
    (hm : x.significand = y.significand) (he : x.exponent = y.exponent) : x = y :=
  eq_of_fields hsign (fields_of_parts hm he).1 (fields_of_parts hm he).2

/-! ## Intervals of rationals -/

namespace Interval

/-- Whether a rational lies in the interval. -/
def Contains (i : Interval) (q : ℚ) : Prop :=
  if i.closed then (i.low : ℚ) ≤ q * i.unit ∧ q * i.unit ≤ i.high
  else (i.low : ℚ) < q * i.unit ∧ q * i.unit < i.high

theorem holds_iff {i : Interval} {c : Nat} : i.holds c = true ↔ i.Contains c := by
  unfold holds Contains
  split
  · rw [Bool.and_eq_true, decide_eq_true_eq, decide_eq_true_eq]
    exact_mod_cast Iff.rfl
  · rw [Bool.and_eq_true, decide_eq_true_eq, decide_eq_true_eq]
    exact_mod_cast Iff.rfl

theorem Contains.between {i : Interval} {a b q : ℚ} (ha : i.Contains a) (hb : i.Contains b)
    (haq : a ≤ q) (hqb : q ≤ b) : i.Contains q := by
  have hunit : (0 : ℚ) ≤ i.unit := Nat.cast_nonneg _
  have hlow := mul_le_mul_of_nonneg_right haq hunit
  have hhigh := mul_le_mul_of_nonneg_right hqb hunit
  unfold Contains at *
  split_ifs at *
  · exact ⟨ha.1.trans hlow, hhigh.trans hb.2⟩
  · exact ⟨ha.1.trans_le hlow, hhigh.trans_lt hb.2⟩

theorem cast_placeValue (n : Nat) : ((Text.placeValue n : Nat) : ℚ) = 10 ^ n :=
  Nat.cast_pow 10 n

theorem placeValue_toNat (k : Int) :
    ((Text.placeValue k.toNat : Nat) : ℚ) = 10 ^ k * (Text.placeValue (-k).toNat : Nat) := by
  rw [cast_placeValue, cast_placeValue, ← zpow_natCast, ← zpow_natCast, ← zpow_add₀ (by norm_num)]
  congr 1
  omega

theorem placeValue_pos (n : Nat) : (0 : ℚ) < (Text.placeValue n : Nat) :=
  Nat.cast_pos.2 (Nat.pow_pos (by decide))

theorem contains_onGrid {i : Interval} {k : Int} {q : ℚ} :
    (i.onGrid k).Contains q ↔ i.Contains (q * 10 ^ k) := by
  have hs := placeValue_pos (-k).toNat
  have hq : q * (i.unit * (Text.placeValue k.toNat : Nat)) =
      q * 10 ^ k * i.unit * (Text.placeValue (-k).toNat : Nat) := by
    rw [placeValue_toNat]
    ring
  unfold Contains onGrid
  simp only [Nat.cast_mul, hq, mul_le_mul_iff_left₀ hs, mul_lt_mul_iff_left₀ hs]

end Interval

/-! ## The interval of a number -/

/-- How far below a number its interval reaches, in quarters of its last place. -/
def below (x : Binary64) : Nat :=
  if x.fraction == 0 && 1 < x.exponentField then 1 else 2

theorem below_spec (x : Binary64) :
    x.below = 2 ∧ (x.exponent = -1074 ∨ x.significand ≠ leadingBit) ∨
      x.below = 1 ∧ x.significand = leadingBit := by
  unfold below significand exponent
  have hf := x.fraction_lt
  simp only [Bool.and_eq_true, beq_iff_eq, decide_eq_true_eq, isSubnormal_iff]
  split_ifs <;> omega

/-- The lower end of the interval, in quarters of the last place. -/
def lowQuarters (x : Binary64) : Nat :=
  4 * x.significand - x.below

/-- The upper end of the interval, in quarters of the last place. -/
def highQuarters (x : Binary64) : Nat :=
  4 * x.significand + 2

theorem shiftLeft_toNat (n : Nat) (k : Int) :
    ((n <<< k.toNat : Nat) : ℚ) = n * 2 ^ k * (1 <<< (-k).toNat : Nat) := by
  rw [Nat.shiftLeft_eq, Nat.one_shiftLeft]
  push_cast
  rw [← zpow_natCast, ← zpow_natCast, mul_assoc, ← zpow_add₀ (by norm_num)]
  congr 2
  omega

theorem unit_pos (x : Binary64) : (0 : ℚ) < x.interval.unit := by
  have hunit : x.interval.unit = 2 ^ (-(x.exponent - 2)).toNat := Nat.one_shiftLeft _
  rw [hunit]
  exact Nat.cast_pos.2 (Nat.two_pow_pos _)

/-- The interval of a number over the rationals; its ends belong to it when the significand is
even. -/
theorem contains_interval {x : Binary64} {q : ℚ} :
    x.interval.Contains q ↔
      if x.significand % 2 = 0 then
        x.lowQuarters * 2 ^ (x.exponent - 2) ≤ q ∧ q ≤ x.highQuarters * 2 ^ (x.exponent - 2)
      else
        x.lowQuarters * 2 ^ (x.exponent - 2) < q ∧ q < x.highQuarters * 2 ^ (x.exponent - 2) := by
  have hlow : (x.interval.low : ℚ) =
      x.lowQuarters * 2 ^ (x.exponent - 2) * (x.interval.unit : ℚ) := shiftLeft_toNat _ _
  have hhigh : (x.interval.high : ℚ) =
      x.highQuarters * 2 ^ (x.exponent - 2) * (x.interval.unit : ℚ) := shiftLeft_toNat _ _
  have hclosed : x.interval.closed = true ↔ x.significand % 2 = 0 := beq_iff_eq
  have hunit := x.unit_pos
  unfold Interval.Contains
  simp only [hlow, hhigh, hclosed, mul_le_mul_iff_left₀ hunit, mul_lt_mul_iff_left₀ hunit]

theorem absValue_eq_quarters (x : Binary64) :
    x.absValue = ((4 * x.significand : Nat) : ℚ) * 2 ^ (x.exponent - 2) := by
  have hexp : (2 : ℚ) ^ x.exponent = 2 ^ (x.exponent - 2) * 4 := by
    rw [zpow_sub₀ (by norm_num)]
    norm_num
  rw [absValue, hexp]
  push_cast
  ring

/-- **A number lies in its own interval.** -/
theorem contains_absValue (x : Binary64) : x.interval.Contains x.absValue := by
  have hstep : (0 : ℚ) < 2 ^ (x.exponent - 2) := by positivity
  rw [contains_interval, absValue_eq_quarters]
  simp only [mul_le_mul_iff_left₀ hstep, mul_lt_mul_iff_left₀ hstep, Nat.cast_le, Nat.cast_lt]
  unfold lowQuarters highQuarters
  have hbelow := x.below_spec
  split <;> omega

/-! ## Different magnitudes, disjoint intervals -/

/-- Two intervals with a common point overlap, and at one point only if they own their ends. -/
theorem quarters_le_of_contains {x y : Binary64} {q : ℚ} (hx : x.interval.Contains q)
    (hy : y.interval.Contains q) {d : Nat} (hd : y.exponent = x.exponent + d) :
    y.lowQuarters * 2 ^ d ≤ x.highQuarters ∧
      (y.lowQuarters * 2 ^ d = x.highQuarters →
        x.significand % 2 = 0 ∧ y.significand % 2 = 0) := by
  have hstep : (0 : ℚ) < 2 ^ (x.exponent - 2) := by positivity
  have hscale : (y.lowQuarters : ℚ) * 2 ^ (y.exponent - 2) =
      ((y.lowQuarters * 2 ^ d : Nat) : ℚ) * 2 ^ (x.exponent - 2) := by
    rw [hd, show x.exponent + d - 2 = d + (x.exponent - 2) by ring, zpow_add₀ (by norm_num),
      zpow_natCast]
    push_cast
    ring
  rw [contains_interval] at hx hy
  rw [hscale] at hy
  have hle : ((y.lowQuarters * 2 ^ d : Nat) : ℚ) ≤ x.highQuarters := by
    refine (mul_le_mul_iff_left₀ hstep).1 ?_
    split_ifs at hx hy <;> linarith [hx.2, hy.1]
  refine ⟨Nat.cast_le.1 hle, fun heq => ?_⟩
  rw [heq] at hy
  split_ifs at hx hy with hxm hym
  · exact ⟨hxm, hym⟩
  · exact absurd (hy.1.trans_le hx.2) (lt_irrefl _)
  · exact absurd (hy.1.trans_lt hx.2) (lt_irrefl _)
  · exact absurd (hy.1.trans hx.2) (lt_irrefl _)

theorem not_contains_of_exponent_lt {x y : Binary64} {q : ℚ} (h : x.exponent < y.exponent)
    (hx : x.interval.Contains q) : ¬ y.interval.Contains q := by
  intro hy
  obtain ⟨d, hd⟩ : ∃ d : Nat, y.exponent = x.exponent + (d + 1 : Nat) :=
    ⟨(y.exponent - x.exponent - 1).toNat, by omega⟩
  obtain ⟨hle, heq⟩ := quarters_le_of_contains hx hy hd
  have htwice : y.lowQuarters * 2 ≤ y.lowQuarters * 2 ^ (d + 1) :=
    Nat.mul_le_mul_left _ (Nat.le_self_pow (Nat.succ_ne_zero d) 2)
  have hxlow := x.exponent_ge
  have hym := leadingBit_le_significand (hxlow.trans_lt h)
  have hxm := x.significand_lt
  have hbelow := y.below_spec
  -- the largest significand below is odd, so its interval does not own the end they share
  unfold lowQuarters highQuarters at *
  rw [leadingBit_eq] at *
  omega

/-- **A rational rounds to one magnitude only.** -/
theorem same_of_contains {x y : Binary64} {q : ℚ} (hx : x.interval.Contains q)
    (hy : y.interval.Contains q) : x.significand = y.significand ∧ x.exponent = y.exponent := by
  have hexp : x.exponent = y.exponent := by
    rcases Int.lt_trichotomy x.exponent y.exponent with h | h | h
    · exact absurd hy (not_contains_of_exponent_lt h hx)
    · exact h
    · exact absurd hx (not_contains_of_exponent_lt h hy)
  have hxy := quarters_le_of_contains (d := 0) hx hy (by rw [hexp]; exact (Int.add_zero _).symm)
  have hyx := quarters_le_of_contains (d := 0) hy hx (by rw [hexp]; exact (Int.add_zero _).symm)
  rw [pow_zero, Nat.mul_one] at hxy hyx
  have hxb := x.below_spec
  have hyb := y.below_spec
  unfold lowQuarters highQuarters at *
  exact ⟨by omega, hexp⟩

theorem absValue_eq_of_contains {x y : Binary64} {q : ℚ} (hx : x.interval.Contains q)
    (hy : y.interval.Contains q) : x.absValue = y.absValue := by
  obtain ⟨hm, he⟩ := same_of_contains hx hy
  rw [absValue, absValue, hm, he]

end FeatureServing.Binary64
