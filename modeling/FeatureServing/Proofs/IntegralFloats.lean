import FeatureServing.Proofs.FloatKeys
import FeatureServing.Proofs.KeyValues

/-!
# Floats that equal integers

A caller may pass a float for an integer key. A float that equals a 64-bit integer has its key text,
so it meets the rows that hold the integer; the least integer alone is missed, as its magnitude is
not below `2 ^ 63` and the float that equals it keeps the digits of a float:

* `Binary64.toInt?_eq_some_iff_toRat` : `toInt?` finds the integer that a number equals;
* `Value.keyText_float_of_natAbs_lt`, `Value.keyText_float_of_natAbs_eq` : below and at the edge;
* `Value.Fits` : the value of an entry is that of a column, or a float that equals it;
* `KeyIndex.integral_floats_match` : fitting values have one key text, and fitting entries and rows
  one key, exactly when no float stands for the least integer.
-/

namespace FeatureServing

namespace Binary64

variable {x : Binary64} {i : Int}

theorem signedRat_natCast (negative : Bool) (n : Nat) :
    signedRat negative n = ((if negative then -(n : Int) else n : Int) : ℚ) := by
  cases negative <;> simp [signedRat]

theorem absValue_eq_natAbs (h : x.toRat = i) : x.absValue = i.natAbs := by
  have habs : |x.toRat| = |x.absValue| := by
    unfold toRat signedRat
    split
    · exact abs_neg _
    · rfl
  have hnonneg : 0 ≤ x.absValue := by
    unfold absValue
    positivity
  rw [h, abs_of_nonneg hnonneg] at habs
  rw [← habs, ← Int.cast_abs, ← Int.natCast_natAbs, Int.cast_natCast]

theorem toInt?_eq_some_iff_toRat (hx : x.isFinite = true) : x.toInt? = some i ↔ x.toRat = i := by
  rw [toInt?_eq_some_iff hx]
  constructor
  · rintro ⟨n, hn, rfl⟩
    rw [toRat, hn, signedRat_natCast]
  · intro h
    refine ⟨i.natAbs, absValue_eq_natAbs h, ?_⟩
    rw [toRat, absValue_eq_natAbs h, signedRat_natCast] at h
    exact (Int.cast_injective h).symm

end Binary64

namespace Value

open Binary64

variable {x : Binary64} {i : Int} {v w : Value}

/-! ## The text of one float -/

theorem keyText_float_of_natAbs_lt (hx : x.isFinite = true) (h : x.toRat = i)
    (hi : i.natAbs < 2 ^ 63) : (float x).keyText = Text.signed i := by
  have hint := (toInt?_eq_some_iff_toRat hx).2 h
  rw [keyText, floatKeyText, hint]
  exact if_pos hi

/-- At the edge a float has the digits that round to it, zeros in the places behind them. -/
theorem keyText_float_of_natAbs_eq (h : x.toRat = i) (hi : i.natAbs = 2 ^ 63) :
    (float x).keyText = if x.negative then "-9223372036854776000" else "9223372036854776000" := by
  have hmagnitude : x.absValue = 2 ^ 63 := by
    rw [absValue_eq_natAbs h, hi]
    norm_num
  have htop : x = twoPow63 x.negative := eq_twoPow63 (hmagnitude ▸ x.contains_absValue)
  rw [htop]
  cases x.negative <;> decide +kernel

theorem natAbs_toInt_lt_iff (i : Int64) : i.toInt.natAbs < 2 ^ 63 ↔ i ≠ Int64.minValue := by
  have hlow := i.le_toInt
  have hhigh := i.toInt_lt
  rw [Ne, ← Int64.toInt_inj, Int64.toInt_minValue]
  omega

/-- **A float has the key text of the 64-bit integer that it equals**, unless that is the least
one. -/
theorem keyText_float_eq_keyText_int_iff {i : Int64} (hx : x.isFinite = true)
    (h : x.toRat = i.toInt) : (float x).keyText = (int i).keyText ↔ i ≠ Int64.minValue := by
  rw [← natAbs_toInt_lt_iff]
  have hle : i.toInt.natAbs ≤ 2 ^ 63 := by
    have hlow := i.le_toInt
    have hhigh := i.toInt_lt
    omega
  rcases Nat.lt_or_eq_of_le hle with hlt | heq
  · exact iff_of_true (keyText_float_of_natAbs_lt hx h hlt) hlt
  · have hi : i = Int64.minValue := by
      by_contra hne
      exact absurd ((natAbs_toInt_lt_iff i).2 hne) heq.not_lt
    refine iff_of_false (fun htext => ?_) heq.not_lt
    rw [keyText_float_of_natAbs_eq h heq, hi] at htext
    revert htext
    cases x.negative <;> decide +kernel

/-! ## Entries and rows -/

/-- Whether a value that a caller passes is the one that a column holds: the same value, or a float
that equals an integer. -/
inductive Fits : Value → Value → Prop
  | same (v : Value) : Fits v v
  | integral {x : Binary64} {i : Int64} (hx : x.isFinite = true) (h : x.toRat = i.toInt) :
      Fits (float x) (int i)

theorem Fits.keyText_eq_iff (h : v.Fits w) :
    v.keyText = w.keyText ↔ ∀ x, v = float x → w ≠ int Int64.minValue := by
  cases h with
  | same => exact iff_of_true rfl fun x hx hv => by simp [hx] at hv
  | integral hx h =>
    rw [keyText_float_eq_keyText_int_iff hx h]
    simp

end Value

theorem map_eq_map_iff_of_forall₂ {α β γ : Type} {f g : α → Option β} {key : β → γ} {as : List α}
    {vs ws : List β} (hv : List.Forall₂ (fun a v => f a = some v) as vs)
    (hw : List.Forall₂ (fun a w => g a = some w) as ws) :
    vs.map key = ws.map key ↔ ∀ a ∈ as, ∀ v w, f a = some v → g a = some w → key v = key w := by
  induction hv generalizing ws with
  | nil =>
    cases hw
    simp
  | cons hfa _ ih =>
    cases hw with
    | cons hga hrest => simp [ih hrest, hfa, hga]

namespace KeyIndex

/-- **A float key meets the integer that it equals**: a 64-bit integer has the key text of every
float that equals it, and an entry has the key of a row that its values fit, exactly when no float
stands for the least integer. -/
theorem integral_floats_match (f : Binary64) (i : Int64) :
    (f.isFinite = true → f.toRat = i.toInt →
      ((Value.float f).keyText = (Value.int i).keyText ↔ i ≠ Int64.minValue)) ∧
      ∀ (x : KeyIndex) (p : Position) (keys : List ServingKey) (e : Entry) (row : Row),
        x.keysAt? p = some keys →
        (∀ k ∈ keys, ∃ v w, keyValue? e k = some v ∧ row.get? (x.column p k) = some w ∧ v.Fits w) →
        ∃ own key, x.entryKey? e p = some own ∧ x.rowKey? row p = some key ∧
          (own = key ↔ ∀ k ∈ keys, ∀ y, keyValue? e k = some (.float y) →
            row.get? (x.column p k) ≠ some (.int Int64.minValue)) := by
  refine ⟨fun hf h => Value.keyText_float_eq_keyText_int_iff hf h, ?_⟩
  intro x p keys e row hkeys hfits
  obtain ⟨vs, hvs⟩ := exists_mapM_some_iff.2 fun k hk => (hfits k hk).imp fun v ⟨_, hv, _⟩ => hv
  obtain ⟨ws, hws⟩ := exists_mapM_some_iff.2 fun k hk =>
    have ⟨_, w, _, hw, _⟩ := hfits k hk
    ⟨w, hw⟩
  refine ⟨vs.map Value.keyText, ws.map Value.keyText, ?_, ?_, ?_⟩
  · rw [entryKey?, hkeys, Option.bind_some, tuple?, hvs, Option.map_some]
  · rw [rowKey?, hkeys, Option.bind_some, hws, Option.map_some]
  · rw [map_eq_map_iff_of_forall₂ (mapM_some_iff.1 hvs) (mapM_some_iff.1 hws)]
    refine forall₂_congr fun k hk => ?_
    obtain ⟨v, w, hv, hw, hfit⟩ := hfits k hk
    simp only [hv, hw, Option.some.injEq, ne_eq]
    rw [← hfit.keyText_eq_iff]
    exact ⟨fun h => h v w rfl rfl, fun h _ _ hv' hw' => hv' ▸ hw' ▸ h⟩

/-- The least integer and the float that equals it have different key texts. -/
theorem least_integer_missed :
    (Binary64.twoPow63 true).isFinite = true ∧
      (Binary64.twoPow63 true).toRat = (Int64.minValue.toInt : ℚ) ∧
      (Value.float (Binary64.twoPow63 true)).keyText = "-9223372036854776000" ∧
      (Value.int Int64.minValue).keyText = "-9223372036854775808" := by
  have hnegative : (Binary64.twoPow63 true).negative = true := by decide
  refine ⟨by decide, ?_, by decide +kernel, by decide +kernel⟩
  rw [Binary64.toRat, hnegative, Binary64.absValue_twoPow63, Int64.toInt_minValue]
  norm_num [signedRat]

/-! ### Keys at the edge and at zero -/

def accountKeys : KeyIndex :=
  ofKeys [] [.of "account" 0 none true none, .of "shard" 0 none true none]

/-- The float next to the least integer, and a negative zero. -/
def accountEntry : Entry :=
  SortedMap.ofList [("account", .float ⟨0xc3dfffffffffffff⟩), ("shard", .float (.zero true))]

def accountRow : Row :=
  SortedMap.ofList [("account", .int (-9223372036854774784)), ("shard", .int 0)]

theorem keysAt?_accountKeys : accountKeys.keysAt? 0 =
    some [.of "account" 0 none true none, .of "shard" 0 none true none] := by
  rw [accountKeys, keysAt?_ofKeys, if_neg (by decide)]
  apply congrArg some
  apply List.mergeSort_of_pairwise
  simp [order, statementAt?, keysOf, ServingKey.of]

/-- Both floats of the entry meet the integers of the row. -/
theorem integral_floats_match_account :
    accountKeys.keysAt? 0 =
        some [.of "account" 0 none true none, .of "shard" 0 none true none] ∧
      (Value.float (.zero true)).keyText = (Value.int 0).keyText ∧
      ∃ own key, accountKeys.entryKey? accountEntry 0 = some own ∧
        accountKeys.rowKey? accountRow 0 = some key ∧ own = key := by
  have haccount : (⟨0xc3dfffffffffffff⟩ : Binary64).toRat =
      (((-9223372036854774784 : Int64).toInt : Int) : ℚ) :=
    (Binary64.toInt?_eq_some_iff_toRat (by decide)).1 (by decide +kernel)
  have hshard : (Binary64.zero true).toRat = (((0 : Int64).toInt : Int) : ℚ) :=
    (Binary64.toInt?_eq_some_iff_toRat (by decide)).1 (by decide +kernel)
  obtain ⟨hzero, hmatch⟩ := integral_floats_match (.zero true) 0
  obtain ⟨own, key, hown, hkey, heq⟩ := hmatch accountKeys 0 _ accountEntry accountRow
    keysAt?_accountKeys (by
      rw [List.forall_mem_cons, List.forall_mem_singleton]
      exact ⟨⟨_, _, rfl, rfl, .integral (by decide) haccount⟩,
        _, _, rfl, rfl, .integral (by decide) hshard⟩)
  refine ⟨keysAt?_accountKeys, (hzero (by decide) hshard).2 (by decide), own, key, hown, hkey,
    heq.2 ?_⟩
  rw [List.forall_mem_cons, List.forall_mem_singleton]
  exact ⟨fun _ _ h => absurd (Value.int.inj (Option.some.inj h)) (by decide),
    fun _ _ h => absurd (Value.int.inj (Option.some.inj h)) (by decide)⟩

end KeyIndex

end FeatureServing
