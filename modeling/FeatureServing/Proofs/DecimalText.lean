import Mathlib.Data.Rat.Cast.Order
import Mathlib.Tactic.FieldSimp
import Mathlib.Tactic.Positivity
import Mathlib.Tactic.Ring
import FeatureServing.Decimal

/-!
# The number that a decimal text spells

* `Decimal.magnitude` : the exact magnitude of a decimal; `Decimal.magnitude_reduced` : zeros at the
  end of the coefficient do not count;
* `Text.quantity` : the magnitude that digits with an optional point spell;
* `Decimal.quantity_plain` : a positional text spells the magnitude of its decimal;
* `Decimal.plain_inj` : hence equal positional texts are those of one sign and one magnitude, and
  the text of an integer determines it (`Text.signed_injective`).
-/

namespace FeatureServing

namespace Text

/-! ## Digits -/

theorem numberOf_append (cs ds : List Char) :
    numberOf (cs ++ ds) = 10 ^ ds.length * numberOf cs + numberOf ds := by
  have hcs : numberOf (cs ++ ds) = Nat.ofDigitChars 10 ds (numberOf cs) :=
    Nat.ofDigitChars_append 0
  exact hcs.trans Nat.ofDigitChars_eq_ofDigitChars_zero

@[simp] theorem numberOf_zeros (k : Nat) : numberOf (List.replicate k '0') = 0 :=
  Nat.ofDigitChars_replicate_zero

theorem numberOf_zeros_append (k : Nat) (ds : List Char) :
    numberOf (List.replicate k '0' ++ ds) = numberOf ds := by
  rw [numberOf_append, numberOf_zeros, Nat.mul_zero, Nat.zero_add]

/-! ## Digits with a point -/

/-- The magnitude that digits with at most one point among them spell, whatever their sign. -/
def quantity (cs : List Char) : ℚ :=
  numberOf (cs.filter isDigit) / 10 ^ (cs.dropWhile (· != '.')).tail.length

/-- Whether every character of a text is a digit. -/
def AllDigits (cs : List Char) : Prop :=
  ∀ c ∈ cs, isDigit c = true

theorem AllDigits.append {cs ds : List Char} (hcs : AllDigits cs) (hds : AllDigits ds) :
    AllDigits (cs ++ ds) := fun c hc => (List.mem_append.1 hc).elim (hcs c) (hds c)

theorem allDigits_decimalDigits (n : Nat) : AllDigits (decimalDigits n) := fun _ =>
  isDigit_of_mem_decimalDigits

theorem allDigits_zeros (k : Nat) : AllDigits (List.replicate k '0') := by
  intro c hc
  rw [List.eq_of_mem_replicate hc]
  rfl

theorem AllDigits.dropWhile_append {cs : List Char} (h : AllDigits cs) (rest : List Char) :
    (cs ++ rest).dropWhile (· != '.') = rest.dropWhile (· != '.') := by
  refine List.dropWhile_append_of_pos fun c hc => bne_iff_ne.2 ?_
  rintro rfl
  exact absurd (h _ hc) (by decide)

theorem quantity_digits {cs : List Char} (h : AllDigits cs) : quantity cs = numberOf cs := by
  have hplaces : cs.dropWhile (· != '.') = [] := by simpa using h.dropWhile_append []
  rw [quantity, List.filter_eq_self.2 h, hplaces, List.tail_nil, List.length_nil, pow_zero, div_one]

theorem quantity_point {whole fraction : List Char} (hw : AllDigits whole)
    (hf : AllDigits fraction) :
    quantity (whole ++ '.' :: fraction) = numberOf (whole ++ fraction) / 10 ^ fraction.length := by
  have hdigits : (whole ++ '.' :: fraction).filter isDigit = whole ++ fraction := by
    rw [List.filter_append, List.filter_cons_of_neg (by decide), List.filter_eq_self.2 hw,
      List.filter_eq_self.2 hf]
  have hplaces : ('.' :: fraction).dropWhile (· != '.') = '.' :: fraction :=
    List.dropWhile_cons_of_neg (by decide)
  rw [quantity, hdigits, hw.dropWhile_append, hplaces, List.tail_cons]

theorem quantity_minus (cs : List Char) : quantity ('-' :: cs) = quantity cs := by
  rw [quantity, List.filter_cons_of_neg (by decide), List.dropWhile_cons_of_pos (by decide)]
  rfl

end Text

namespace Decimal

open Text

/-! ## Magnitude -/

/-- The exact magnitude. -/
def magnitude (d : Decimal) : ℚ :=
  d.coefficient * 10 ^ d.exponent

theorem dropZeros_magnitude (fuel c : Nat) (e : Int) :
    ((dropZeros fuel c e).1 : ℚ) * 10 ^ (dropZeros fuel c e).2 = c * 10 ^ e := by
  induction fuel generalizing c e with
  | zero => rfl
  | succ fuel ih =>
    unfold dropZeros
    split
    · next h =>
      have hc : c / 10 * 10 = c := by
        simp only [Bool.and_eq_true, beq_iff_eq] at h
        omega
      have hcast : ((c / 10 : Nat) : ℚ) * 10 = c := mod_cast hc
      rw [ih, zpow_add_one₀ (by norm_num), ← hcast]
      ring
    · rfl

@[simp] theorem magnitude_reduced (d : Decimal) : d.reduced.magnitude = d.magnitude :=
  dropZeros_magnitude _ _ _

/-! ## Positional text -/

theorem plain_eq_append (d : Decimal) :
    d.plain [] = d.sign ++ ({ d with negative := false } : Decimal).plain [] := rfl

theorem quantity_unsigned {d : Decimal} (h : d.negative = false) :
    quantity (d.plain []) = d.magnitude := by
  have hsign : d.sign = [] := by rw [sign, h]; rfl
  have hds := allDigits_decimalDigits d.coefficient
  have hpoint : d.point = (decimalDigits d.coefficient).length + d.exponent := rfl
  unfold plain magnitude
  simp only [hsign, List.nil_append, List.append_nil]
  by_cases hexp : 0 ≤ d.exponent
  · -- a whole number
    obtain ⟨k, hk⟩ := Int.eq_ofNat_of_zero_le hexp
    rw [if_pos hexp, quantity_digits (hds.append (allDigits_zeros _)), numberOf_append,
      numberOf_zeros, numberOf_decimalDigits, List.length_replicate, hk]
    push_cast
    rw [Int.toNat_natCast, zpow_natCast]
    ring
  · -- all digits of the coefficient, the last ones behind the point
    obtain ⟨k, hk⟩ : ∃ k : Nat, d.exponent = -k := ⟨d.exponent.natAbs, by omega⟩
    have hvalue (n : Nat) : (n : ℚ) / 10 ^ k = n * 10 ^ d.exponent := by
      rw [hk, zpow_neg, zpow_natCast, div_eq_mul_inv]
    rw [if_neg hexp]
    by_cases hp : 0 < d.point
    · have hplaces : ((decimalDigits d.coefficient).drop d.point.toNat).length = k := by
        rw [List.length_drop]
        omega
      rw [if_pos hp, quantity_point (fun c hc => hds c (List.mem_of_mem_take hc))
        (fun c hc => hds c (List.mem_of_mem_drop hc)), List.take_append_drop,
        numberOf_decimalDigits, hplaces, hvalue]
    · have hplaces : (List.replicate (-d.point).toNat '0' ++ decimalDigits d.coefficient).length =
          k := by
        rw [List.length_append, List.length_replicate]
        omega
      have hzero : AllDigits ['0'] := allDigits_zeros 1
      have hnumber : numberOf (['0'] ++ (List.replicate (-d.point).toNat '0' ++
          decimalDigits d.coefficient)) = d.coefficient := by
        rw [numberOf_append, numberOf_zeros_append, numberOf_decimalDigits]
        exact Nat.zero_add _
      have hquantity := quantity_point hzero ((allDigits_zeros (-d.point).toNat).append hds)
      rw [hnumber, hplaces, hvalue] at hquantity
      rw [if_neg hp]
      exact hquantity

/-- **A positional text spells the magnitude of its decimal.** -/
theorem quantity_plain (d : Decimal) : quantity (d.plain []) = d.magnitude := by
  rw [plain_eq_append, sign]
  split
  · rw [List.singleton_append, quantity_minus, quantity_unsigned rfl]
    rfl
  · rw [List.nil_append, quantity_unsigned rfl]
    rfl

theorem exists_plain_eq (d : Decimal) :
    ∃ c cs, d.plain [] = d.sign ++ c :: cs ∧ isDigit c = true := by
  obtain ⟨c, cs, hcs⟩ := List.exists_cons_of_ne_nil (decimalDigits_ne_nil d.coefficient)
  have hc : isDigit c = true := isDigit_of_mem_decimalDigits (hcs ▸ List.mem_cons_self)
  unfold plain
  simp only [hcs]
  split
  · exact ⟨c, _, rfl, hc⟩
  · split
    · next hp =>
      obtain ⟨k, hk⟩ : ∃ k, d.point.toNat = k + 1 := ⟨d.point.toNat - 1, by omega⟩
      exact ⟨c, _, by rw [hk, List.take_succ_cons, List.cons_append], hc⟩
    · exact ⟨'0', _, rfl, rfl⟩

theorem head?_plain (d : Decimal) : (d.plain []).head? = some '-' ↔ d.negative = true := by
  obtain ⟨c, cs, h, hc⟩ := d.exists_plain_eq
  rw [h, sign]
  cases d.negative with
  | true => simp
  | false =>
    have hne : c ≠ '-' := by
      rintro rfl
      exact absurd hc (by decide)
    simp [hne]

/-- **Equal positional texts have one sign and one magnitude.** -/
theorem plain_inj {d d' : Decimal} (h : d.plain [] = d'.plain []) :
    d.negative = d'.negative ∧ d.magnitude = d'.magnitude := by
  refine ⟨?_, by rw [← quantity_plain, ← quantity_plain, h]⟩
  have hsign := d'.head?_plain
  rw [← h, d.head?_plain] at hsign
  exact Bool.eq_iff_iff.2 hsign

end Decimal

namespace Text

/-- The text of an integer is the positional text of a decimal. -/
theorem toList_signed (i : Int) :
    (signed i).toList = (Decimal.mk (i < 0) i.natAbs 0).plain [] := by
  have hplain : (Decimal.mk (i < 0) i.natAbs 0).plain [] =
      (if i < 0 then ['-'] else []) ++ decimalDigits i.natAbs := by
    simp [Decimal.plain, Decimal.sign]
  rw [hplain, signed]
  split
  · exact String.toList_append.trans (congrArg (['-'] ++ ·) String.toList_ofList)
  · rw [decimal, String.toList_ofList]
    rfl

theorem signed_injective : Function.Injective signed := by
  intro i j h
  have hplain := congrArg String.toList h
  rw [toList_signed, toList_signed] at hplain
  obtain ⟨hsign, hdigits⟩ := Decimal.plain_inj hplain
  have hneg : i < 0 ↔ j < 0 := decide_eq_decide.1 hsign
  have habs : i.natAbs = j.natAbs := by
    simp only [Decimal.magnitude, zpow_zero, mul_one] at hdigits
    exact_mod_cast hdigits
  omega

end Text

end FeatureServing
