import FeatureServing.Proofs.DecimalText
import FeatureServing.Proofs.RoundingIntervals

/-!
# The fewest digits lie where they should

* `Binary64.pow_magnitude_le` : the power of ten of the leading digit of a number is at most it;
* `Binary64.nearest?_seventeen` : with seventeen digits a neighbour on the grid always rounds back;
* `Binary64.contains_shortest` : the shortest decimal of a finite number rounds to it.
-/

namespace FeatureServing.Binary64

variable {x : Binary64}

theorem significand_eq_zero_iff : x.significand = 0 ↔ x.isZero = true := by
  have hf := x.fraction_lt
  unfold significand isZero
  rw [Bool.and_eq_true, beq_iff_eq, beq_iff_eq, leadingBit_eq]
  simp only [isSubnormal_iff]
  split_ifs <;> omega

theorem significand_pos (h : x.isZero = false) : 0 < x.significand := by
  refine Nat.pos_of_ne_zero fun hzero => ?_
  rw [significand_eq_zero_iff.1 hzero] at h
  cases h

/-! ## The leading digit -/

theorem interval_value (x : Binary64) :
    (x.interval.value : ℚ) = x.absValue * x.interval.unit := by
  rw [absValue_eq_quarters]
  exact shiftLeft_toNat _ _

theorem pow_length_decimalDigits_le {n : Nat} (h : n ≠ 0) :
    10 ^ ((Text.decimalDigits n).length - 1) ≤ n := by
  by_contra hlt
  have hpos : 0 < (Text.decimalDigits n).length :=
    List.length_pos_iff.2 (Text.decimalDigits_ne_nil n)
  have hone : 0 < (Text.decimalDigits n).length - 1 := by
    rcases Nat.eq_zero_or_pos ((Text.decimalDigits n).length - 1) with h0 | h0
    · rw [h0] at hlt
      omega
    · exact h0
  have hle := (Nat.length_toDigits_le_iff (by decide) hone).2 (Nat.not_le.1 hlt)
  exact absurd hle (by unfold Text.decimalDigits at hpos ⊢; omega)

/-- Four hundred places are enough for the smallest number. -/
theorem unit_le_places (x : Binary64) : x.interval.unit ≤ Text.placeValue 400 := by
  have hexp := x.exponent_ge
  have hpow (n : Nat) (hn : (-(x.exponent - 2)).toNat ≤ 3 * n) :
      x.interval.unit ≤ Text.placeValue n :=
    calc x.interval.unit = 2 ^ (-(x.exponent - 2)).toNat := Nat.one_shiftLeft _
      _ ≤ 2 ^ (3 * n) := Nat.pow_le_pow_right (by decide) hn
      _ = (2 ^ 3) ^ n := Nat.pow_mul _ _ _
      _ ≤ 10 ^ n := Nat.pow_le_pow_left (by decide) _
  exact hpow 400 (by omega)

theorem pow_magnitude_le (h : x.isZero = false) :
    (10 : ℚ) ^ (magnitude x.interval - 1) ≤ x.absValue := by
  have hunit : 0 < x.interval.unit := Nat.cast_pos.1 x.unit_pos
  have hvalue : 0 < x.interval.value := by
    have hm := significand_pos h
    change 0 < (4 * x.significand) <<< _
    rw [Nat.shiftLeft_eq]
    exact Nat.mul_pos (by omega) (Nat.two_pow_pos _)
  -- the leading digits of the number, over `10 ^ 400`
  obtain ⟨n, hn⟩ : ∃ n, n = x.interval.value * Text.placeValue 400 / x.interval.unit := ⟨_, rfl⟩
  have hn0 : n ≠ 0 := by
    have hle : x.interval.unit ≤ x.interval.value * Text.placeValue 400 :=
      x.unit_le_places.trans (Nat.le_mul_of_pos_left _ hvalue)
    rw [hn]
    exact (Nat.div_pos hle hunit).ne'
  have hmul : (n : ℚ) ≤ x.absValue * 10 ^ 400 := by
    have hdiv : (n : ℚ) * x.interval.unit ≤ x.interval.value * (Text.placeValue 400 : Nat) := by
      rw [hn]
      exact_mod_cast Nat.div_mul_le_self _ _
    rw [interval_value, Interval.cast_placeValue, mul_right_comm] at hdiv
    exact (mul_le_mul_iff_left₀ x.unit_pos).1 hdiv
  have hpow : (10 : ℚ) ^ ((Text.decimalDigits n).length - 1) ≤ x.absValue * 10 ^ 400 :=
    le_trans (by exact_mod_cast pow_length_decimalDigits_le hn0) hmul
  have hlen : 0 < (Text.decimalDigits n).length :=
    List.length_pos_iff.2 (Text.decimalDigits_ne_nil n)
  have hexp : magnitude x.interval - 1 =
      (((Text.decimalDigits n).length - 1 : Nat) : Int) - (400 : Nat) := by
    unfold magnitude
    rw [← hn]
    omega
  rw [hexp, zpow_sub₀ (by norm_num), zpow_natCast, zpow_natCast]
  exact (div_le_iff₀ (by positivity)).2 hpow

/-! ## Neighbours on a grid -/

theorem le_low_of_not_contains {q : ℚ} (h : ¬ x.interval.Contains q) (hq : q ≤ x.absValue) :
    q ≤ x.lowQuarters * 2 ^ (x.exponent - 2) := by
  by_contra hlt
  have hself := x.contains_absValue
  rw [contains_interval] at h hself
  split_ifs at h hself
  · exact h ⟨(not_le.1 hlt).le, hq.trans hself.2⟩
  · exact h ⟨not_le.1 hlt, hq.trans_lt hself.2⟩

theorem high_le_of_not_contains {q : ℚ} (h : ¬ x.interval.Contains q) (hq : x.absValue ≤ q) :
    x.highQuarters * 2 ^ (x.exponent - 2) ≤ q := by
  by_contra hlt
  have hself := x.contains_absValue
  rw [contains_interval] at h hself
  split_ifs at h hself
  · exact h ⟨hself.1.trans hq, (not_le.1 hlt).le⟩
  · exact h ⟨hself.1.trans_le hq, not_le.1 hlt⟩

/-- The interval is wider than the step of the grid of seventeen digits. -/
theorem width_gt (h : x.isZero = false) :
    4 * x.significand + 10 ^ 16 * x.lowQuarters < 10 ^ 16 * x.highQuarters := by
  have hm := significand_pos h
  have hlt := x.significand_lt
  have hbelow := x.below_spec
  rw [leadingBit_eq] at *
  unfold lowQuarters highQuarters
  omega

namespace Interval

variable {i : Interval} {tie : Tie} {c : Nat}

theorem holds_of_nearest? (h : i.nearest? tie = some c) : i.holds c = true := by
  unfold nearest? at h
  simp only at h
  split at h
  · next hc _ => exact Option.some.inj h ▸ hc
  · next _ hc => exact Option.some.inj h ▸ hc
  · cases h
  · next hc hc' =>
    have hone : i.value / i.unit = c ∨ i.value / i.unit + 1 = c := by
      cases tie <;> split_ifs at h <;> rw [Option.some.injEq] at h <;> omega
    rcases hone with rfl | rfl
    · exact hc
    · exact hc'

theorem not_holds_of_nearest? (h : i.nearest? tie = none) :
    i.holds (i.value / i.unit) = false ∧ i.holds (i.value / i.unit + 1) = false := by
  unfold nearest? at h
  simp only at h
  split at h
  · cases h
  · cases h
  · next hc hc' => exact ⟨hc, hc'⟩
  · cases tie <;> split_ifs at h

end Interval

variable {tie : Tie} {k : Int} {c : Nat}

theorem contains_of_nearest? (h : (x.interval.onGrid k).nearest? tie = some c) :
    x.interval.Contains (c * 10 ^ k) :=
  Interval.contains_onGrid.1 (Interval.holds_iff.1 (Interval.holds_of_nearest? h))

/-- If neither neighbour rounds to the number, its interval fits between them. -/
theorem width_le_of_nearest? (h : (x.interval.onGrid k).nearest? tie = none) :
    (x.highQuarters - x.lowQuarters : ℚ) * 2 ^ (x.exponent - 2) ≤ 10 ^ k := by
  obtain ⟨g, hg⟩ : ∃ g, g = x.interval.onGrid k := ⟨_, rfl⟩
  obtain ⟨c, hc⟩ : ∃ c, c = g.value / g.unit := ⟨_, rfl⟩
  have hstep : (0 : ℚ) < 10 ^ k := by positivity
  have hunit : (0 : ℚ) < g.unit := by
    rw [hg]
    unfold Interval.onGrid
    rw [Nat.cast_mul]
    exact mul_pos x.unit_pos (Interval.placeValue_pos _)
  have hvalue : x.absValue * g.unit = g.value * 10 ^ k := by
    have hplaces := Interval.placeValue_toNat k
    rw [hg]
    unfold Interval.onGrid
    rw [Nat.cast_mul, Nat.cast_mul, interval_value, hplaces]
    ring
  have hlow : (c : ℚ) * 10 ^ k ≤ x.absValue := by
    have hdiv : (c : ℚ) * g.unit ≤ g.value := by
      rw [hc]
      exact_mod_cast Nat.div_mul_le_self _ _
    refine (mul_le_mul_iff_left₀ hunit).1 ?_
    rw [hvalue, mul_right_comm]
    exact mul_le_mul_of_nonneg_right hdiv hstep.le
  have hhigh : x.absValue ≤ ((c + 1 : Nat) : ℚ) * 10 ^ k := by
    have hdiv : (g.value : ℚ) ≤ ((c + 1 : Nat) : ℚ) * g.unit := by
      rw [hc]
      exact_mod_cast (Nat.lt_mul_of_div_lt (Nat.lt_succ_self _) (Nat.cast_pos.1 hunit)).le
    refine (mul_le_mul_iff_left₀ hunit).1 ?_
    rw [hvalue, mul_right_comm]
    exact mul_le_mul_of_nonneg_right hdiv hstep.le
  have hout : g.holds c = false ∧ g.holds (c + 1) = false := by
    rw [hc]
    exact Interval.not_holds_of_nearest? (hg ▸ h)
  have hnot (n : Nat) (hn : g.holds n = false) : ¬ x.interval.Contains (n * 10 ^ k) := by
    intro hcontains
    rw [hg, Interval.holds_iff.2 (Interval.contains_onGrid.2 hcontains)] at hn
    cases hn
  have hbelow := le_low_of_not_contains (hnot c hout.1) hlow
  have habove := high_le_of_not_contains (hnot (c + 1) hout.2) hhigh
  push_cast at habove
  linarith

/-- **Seventeen digits always suffice.** -/
theorem nearest?_seventeen (tie : Tie) (h : x.isZero = false) :
    ∃ c, (x.interval.onGrid (magnitude x.interval - 17)).nearest? tie = some c := by
  refine Option.ne_none_iff_exists'.1 fun hnone => ?_
  have hstep : (0 : ℚ) < 2 ^ (x.exponent - 2) := by positivity
  have hwidth := width_le_of_nearest? hnone
  have hlead : (10 : ℚ) ^ 16 * 10 ^ (magnitude x.interval - 17) ≤ x.absValue := by
    have heq : (10 : ℚ) ^ (magnitude x.interval - 1) =
        10 ^ 16 * 10 ^ (magnitude x.interval - 17) := by
      rw [← zpow_natCast, ← zpow_add₀ (by norm_num)]
      congr 1
      omega
    exact heq ▸ pow_magnitude_le h
  have hgt : ((4 * x.significand : Nat) : ℚ) + 10 ^ 16 * x.lowQuarters <
      10 ^ 16 * x.highQuarters := mod_cast width_gt h
  rw [absValue_eq_quarters] at hlead
  nlinarith

/-! ## The shortest decimal -/

theorem negative_shortest : (x.shortest tie).negative = x.negative := by
  unfold shortest
  split <;> rfl

/-- **The shortest decimal of a number rounds to it.** -/
theorem contains_shortest (x : Binary64) (tie : Tie) :
    x.interval.Contains (x.shortest tie).magnitude := by
  unfold shortest
  cases hz : x.isZero with
  | true =>
    have habs : x.absValue = 0 := by
      rw [absValue, significand_eq_zero_iff.2 hz, Nat.cast_zero, zero_mul]
    have hzero : (Decimal.mk x.negative 0 0).magnitude = x.absValue := by
      rw [habs, Decimal.magnitude, Nat.cast_zero, zero_mul]
    rw [if_pos rfl, hzero]
    exact x.contains_absValue
  | false =>
    simp only [Bool.false_eq_true, if_false, Decimal.magnitude_reduced]
    cases hfound : (List.range 17).findSome? fun (n : Nat) =>
        ((x.interval.onGrid (magnitude x.interval - (n + 1))).nearest? tie).map
          fun c => (c, magnitude x.interval - (n + 1)) with
    | none =>
      obtain ⟨c, hc⟩ := nearest?_seventeen tie hz
      have hlast := List.findSome?_eq_none_iff.1 hfound 16 (by decide)
      rw [Option.map_eq_none_iff] at hlast
      cases hlast.symm.trans hc
    | some found =>
      obtain ⟨n, -, hn⟩ := List.exists_of_findSome?_eq_some hfound
      obtain ⟨c, hc, rfl⟩ := Option.map_eq_some_iff.1 hn
      exact contains_of_nearest? hc

end FeatureServing.Binary64
