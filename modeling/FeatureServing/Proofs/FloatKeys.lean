import FeatureServing.Proofs.ShortestDigits
import FeatureServing.Value.KeyText

/-!
# The key texts of numbers

* `Binary64.toRat` : the exact value of a finite number;
* `Binary64.toInt?_eq_some_iff` : `toInt?` finds the integer that a number equals;
* `Binary64.KeyDecimal` : the decimals that the key text of a finite number can show;
* `Binary64.toRat_eq_of_keyDecimal` : two finite numbers with one key text are equal;
* `Binary64.toRat_eq_of_int` : so are a 64-bit integer and a finite number.
-/

namespace FeatureServing

/-- The number of a sign and a magnitude. -/
def signedRat (negative : Bool) (magnitude : ℚ) : ℚ :=
  if negative then -magnitude else magnitude

theorem signedRat_congr {b b' : Bool} {m m' : ℚ} (hm : m = m') (hb : m ≠ 0 → b = b') :
    signedRat b m = signedRat b' m' := by
  subst hm
  by_cases hzero : m = 0
  · unfold signedRat
    rw [hzero, neg_zero, ite_self, ite_self]
  · rw [hb hzero]

theorem signedRat_int (i : Int) : signedRat (i < 0) i.natAbs = i := by
  have habs : ((i.natAbs : Nat) : ℚ) = ((|i| : Int) : ℚ) := by
    rw [← Int.natCast_natAbs, Int.cast_natCast]
  unfold signedRat
  rw [habs]
  by_cases hneg : i < 0
  · rw [if_pos (decide_eq_true hneg), abs_of_neg hneg, Int.cast_neg, neg_neg]
  · rw [if_neg (by simpa using hneg), abs_of_nonneg (Int.not_lt.1 hneg)]

namespace Binary64

variable {x y : Binary64} {d d' : Decimal}

/-- The exact value of a finite number. -/
def toRat (x : Binary64) : ℚ :=
  signedRat x.negative x.absValue

/-! ## Integral numbers -/

theorem absValue_mul_denominator (x : Binary64) : x.absValue * x.ratio.2 = x.ratio.1 :=
  (shiftLeft_toNat x.significand x.exponent).symm

theorem denominator_pos (x : Binary64) : 0 < x.ratio.2 := by
  have hden : x.ratio.2 = 2 ^ (-x.exponent).toNat := Nat.one_shiftLeft _
  rw [hden]
  exact Nat.two_pow_pos _

theorem absValue_eq_natCast_iff {n : Nat} : x.absValue = n ↔ x.ratio.1 = n * x.ratio.2 := by
  have hden : (x.ratio.2 : ℚ) ≠ 0 := Nat.cast_ne_zero.2 x.denominator_pos.ne'
  rw [← mul_left_inj' hden, absValue_mul_denominator]
  exact_mod_cast Iff.rfl

theorem toInt?_eq_some_iff (hx : x.isFinite = true) {i : Int} :
    x.toInt? = some i ↔
      ∃ n : Nat, x.absValue = n ∧ i = if x.negative then -(n : Int) else n := by
  have hden := x.denominator_pos
  unfold toInt?
  simp only [hx, Bool.true_and, beq_iff_eq, absValue_eq_natCast_iff]
  constructor
  · intro h
    split at h
    · next hmod =>
      exact ⟨x.ratio.1 / x.ratio.2, (Nat.div_mul_cancel (Nat.dvd_of_mod_eq_zero hmod)).symm,
        (Option.some.inj h).symm⟩
    · cases h
  · rintro ⟨n, hn, rfl⟩
    rw [if_pos (by rw [hn, Nat.mul_mod_left]), hn, Nat.mul_div_cancel _ hden]

/-- A number whose last place is at least one is integral. -/
theorem exists_absValue_eq (h : 0 ≤ x.exponent) : ∃ n : Nat, x.absValue = n := by
  obtain ⟨k, hk⟩ := Int.eq_ofNat_of_zero_le h
  exact ⟨x.significand * 2 ^ k, by rw [absValue, hk, zpow_natCast]; push_cast; rfl⟩

/-- An integer that rounds to a number with a last place below one is the number itself. -/
theorem absValue_eq_of_contains_nat (h : x.exponent < 0) {n : Nat} (hn : x.interval.Contains n) :
    x.absValue = n := by
  obtain ⟨k, hk⟩ : ∃ k : Nat, x.exponent - 2 = -((k + 2 : Nat) : Int) ∧ x.exponent = -(k : Int) :=
    ⟨(-x.exponent).toNat, by omega⟩
  have hscale (a : Nat) : (a : ℚ) * 2 ^ (x.exponent - 2) = a / ((2 ^ (k + 2) : Nat) : ℚ) := by
    rw [hk.1, zpow_neg, zpow_natCast, div_eq_mul_inv]
    push_cast
    rfl
  have hpos : (0 : ℚ) < ((2 ^ (k + 2) : Nat) : ℚ) := Nat.cast_pos.2 (Nat.two_pow_pos _)
  have hbounds : x.lowQuarters ≤ n * 2 ^ (k + 2) ∧ n * 2 ^ (k + 2) ≤ x.highQuarters := by
    rw [contains_interval, hscale, hscale] at hn
    have hlow : (x.lowQuarters : ℚ) / ((2 ^ (k + 2) : Nat) : ℚ) ≤ n := by
      split_ifs at hn
      · exact hn.1
      · exact hn.1.le
    have hhigh : (n : ℚ) ≤ x.highQuarters / ((2 ^ (k + 2) : Nat) : ℚ) := by
      split_ifs at hn
      · exact hn.2
      · exact hn.2.le
    rw [div_le_iff₀ hpos] at hlow
    rw [le_div_iff₀ hpos] at hhigh
    exact ⟨mod_cast hlow, mod_cast hhigh⟩
  -- in quarters of the last place an integer is a multiple of four
  have hm : x.significand = n * 2 ^ k := by
    have hbelow := x.below_spec
    rw [Nat.pow_succ, Nat.pow_succ] at hbounds
    unfold lowQuarters highQuarters at hbounds
    rw [show n * (2 ^ k * 2 * 2) = 4 * (n * 2 ^ k) by ring] at hbounds
    omega
  rw [absValue, hm, hk.2, zpow_neg, zpow_natCast]
  push_cast
  exact mul_inv_cancel_right₀ (by positivity) _

/-! ## The text of `2 ^ 63` -/

/-- The numbers `± 2 ^ 63`, the first ones that keep their digits instead of an integer's. -/
def twoPow63 (negative : Bool) : Binary64 :=
  ofMagnitude negative 0x43e0000000000000

theorem shortest_twoPow63 (negative : Bool) :
    (twoPow63 negative).shortest .up = ⟨negative, 9223372036854776, 3⟩ := by
  cases negative <;> decide +kernel

theorem absValue_twoPow63 (negative : Bool) : (twoPow63 negative).absValue = 2 ^ 63 := by
  have hm : (twoPow63 negative).significand = 2 ^ 52 := by cases negative <;> decide
  have he : (twoPow63 negative).exponent = 11 := by cases negative <;> decide
  rw [absValue, hm, he]
  norm_num

theorem eq_twoPow63 (h : x.interval.Contains (2 ^ 63)) : x = twoPow63 x.negative := by
  have htop := (twoPow63 x.negative).contains_absValue
  rw [absValue_twoPow63] at htop
  have hsign : x.negative = (twoPow63 x.negative).negative := by
    cases x.negative <;> decide
  exact eq_of_parts hsign (same_of_contains h htop).1 (same_of_contains h htop).2

/-- **The digits of a number beyond the 64-bit integers are those of none of them.** -/
theorem absValue_eq_of_shortest {n : Nat} (hn : n ≤ 2 ^ 63)
    (h : (x.shortest .up).magnitude = n) (hx : ∀ k : Nat, x.absValue = k → 2 ^ 63 ≤ k) :
    x.absValue = n := by
  have hcontains := x.contains_shortest .up
  rw [h] at hcontains
  by_cases hexp : x.exponent < 0
  · exact absValue_eq_of_contains_nat hexp hcontains
  · obtain ⟨k, hk⟩ := exists_absValue_eq (Int.not_lt.1 hexp)
    have hlow : (n : ℚ) ≤ 2 ^ 63 := by exact_mod_cast hn
    have hhigh : (2 ^ 63 : ℚ) ≤ x.absValue := by
      rw [hk]
      exact_mod_cast hx k hk
    -- the interval reaches down to `2 ^ 63`, whose own digits are those of a greater number
    have htop := eq_twoPow63 (hcontains.between x.contains_absValue hlow hhigh)
    rw [htop, shortest_twoPow63, Decimal.magnitude] at h
    norm_num at h
    have : (9223372036854776000 : Nat) = n := by exact_mod_cast h
    omega

/-! ## The decimals of key texts -/

/-- The decimals that the key text of a finite number can show: the number itself, or the shortest
digits of one that is no integer below `2 ^ 63`. Only a zero can lose its sign. -/
structure KeyDecimal (x : Binary64) (d : Decimal) : Prop where
  sign : x.absValue ≠ 0 → d.negative = x.negative
  digits : d.magnitude = x.absValue ∨
    d = x.shortest .up ∧ ∀ k : Nat, x.absValue = k → 2 ^ 63 ≤ k

theorem KeyDecimal.shortest (h : ∀ k : Nat, x.absValue = k → 2 ^ 63 ≤ k) :
    x.KeyDecimal (x.shortest .up) :=
  ⟨fun _ => negative_shortest, .inr ⟨rfl, h⟩⟩

theorem KeyDecimal.contains (h : x.KeyDecimal d) : x.interval.Contains d.magnitude := by
  rcases h.digits with hd | ⟨rfl, -⟩
  · exact hd ▸ x.contains_absValue
  · exact x.contains_shortest .up

/-- **Two finite numbers with one key text are equal.** -/
theorem toRat_eq_of_keyDecimal (hx : x.KeyDecimal d) (hy : y.KeyDecimal d')
    (hsign : d.negative = d'.negative) (hdigits : d.magnitude = d'.magnitude) :
    x.toRat = y.toRat := by
  have habs := absValue_eq_of_contains hx.contains (hdigits ▸ hy.contains)
  refine signedRat_congr habs fun hne => ?_
  rw [← hx.sign hne, hsign, hy.sign (habs ▸ hne)]

/-- **A finite number with the key text of a 64-bit integer equals it.** -/
theorem toRat_eq_of_int (hx : x.KeyDecimal d) {i : Int} (hi : i.natAbs ≤ 2 ^ 63)
    (hsign : d.negative = decide (i < 0)) (hdigits : d.magnitude = i.natAbs) : x.toRat = i := by
  have habs : x.absValue = i.natAbs := by
    rcases hx.digits with hd | ⟨rfl, hbig⟩
    · rw [← hd, hdigits]
    · exact absValue_eq_of_shortest hi hdigits hbig
  calc x.toRat = signedRat (i < 0) i.natAbs :=
        signedRat_congr habs fun hne => (hx.sign hne).symm.trans hsign
    _ = i := signedRat_int i

end Binary64

namespace Value

open Binary64

variable {x : Binary64}

theorem toList_writeFloat (hx : x.isFinite = true) :
    (writeFloat x).toList = (x.shortest .up).plain [] := by
  have hnan : x.isNaN = false := by
    unfold isFinite at hx
    unfold isNaN
    simp only [bne_iff_ne] at hx
    simp [hx]
  unfold writeFloat
  simp only [hnan, hx, Bool.false_eq_true, if_false, if_true, String.toList_ofList]

theorem exists_keyDecimal (hx : x.isFinite = true) :
    ∃ d, (floatKeyText x).toList = d.plain [] ∧ x.KeyDecimal d := by
  unfold floatKeyText
  split
  · next i hi =>
    obtain ⟨n, hn, hin⟩ := (toInt?_eq_some_iff hx).1 hi
    have hnat : i.natAbs = n := by
      rw [hin]
      split <;> omega
    split
    · refine ⟨_, Text.toList_signed i, fun hne => ?_, .inl ?_⟩
      · have hpos : n ≠ 0 := by
          rintro rfl
          exact hne (hn.trans Nat.cast_zero)
        rw [hin]
        cases x.negative with
        | true => exact decide_eq_true (show -(n : Int) < 0 by omega)
        | false => exact decide_eq_false (show ¬ (n : Int) < 0 by omega)
      · rw [hn, Decimal.magnitude, hnat, zpow_zero, mul_one]
    · next hbig =>
      refine ⟨_, toList_writeFloat hx, .shortest fun k hk => ?_⟩
      have hkn : k = n := by exact_mod_cast hk.symm.trans hn
      rw [hkn, ← hnat]
      exact Nat.not_lt.1 hbig
  · next hnone =>
    refine ⟨_, toList_writeFloat hx, .shortest fun k hk => ?_⟩
    rw [(toInt?_eq_some_iff hx).2 ⟨k, hk, rfl⟩] at hnone
    cases hnone

end Value

end FeatureServing
