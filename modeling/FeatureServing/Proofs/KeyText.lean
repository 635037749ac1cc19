import FeatureServing.Value.KeyText

/-!
# Key texts

* `Value.keyText_ne_null` : only a null has the key text of a null, so a key column that is null or
  missing matches no key of an entry.
-/

namespace FeatureServing

namespace Text

theorem ne_null_of_toList {s : String} {c : Char} {cs : List Char} (h : s.toList = c :: cs)
    (hc : c ≠ 'n') : s ≠ "null" := by
  rintro rfl
  exact hc (List.head_eq_of_cons_eq h).symm

theorem n_not_mem_decimalDigits (n : Nat) : 'n' ∉ decimalDigits n := fun h =>
  absurd (isDigit_of_mem_decimalDigits h) (by decide)

theorem ofList_ne_null {cs : List Char} (h : 'n' ∉ cs) : String.ofList cs ≠ "null" := by
  intro he
  have hcs : cs = ['n', 'u', 'l', 'l'] := by
    rw [← String.toList_ofList (l := cs), he]
    rfl
  exact h (hcs ▸ List.mem_cons_self)

theorem signed_ne_null (i : Int) : signed i ≠ "null" := by
  rw [signed]
  split
  · exact ne_null_of_toList String.toList_append (by decide)
  · exact ofList_ne_null (n_not_mem_decimalDigits _)

end Text

theorem Decimal.n_not_mem_plain (d : Decimal) : 'n' ∉ d.plain [] := by
  have hdigits := Text.n_not_mem_decimalDigits d.coefficient
  have htake : ∀ k, 'n' ∉ (Text.decimalDigits d.coefficient).take k := fun k h =>
    hdigits (List.mem_of_mem_take h)
  have hdrop : ∀ k, 'n' ∉ (Text.decimalDigits d.coefficient).drop k := fun k h =>
    hdigits (List.mem_of_mem_drop h)
  have hsign : 'n' ∉ d.sign := by
    rw [Decimal.sign]
    split <;> decide
  simp only [Decimal.plain, List.mem_append, not_or]
  refine ⟨hsign, ?_⟩
  split
  · simp [hdigits]
  · split <;> simp [hdigits, htake, hdrop]

namespace Value

theorem writeFloat_ne_null (x : Binary64) : writeFloat x ≠ "null" := by
  rw [writeFloat]
  split
  · decide
  · split
    · exact Text.ofList_ne_null (Decimal.n_not_mem_plain _)
    · split <;> decide

theorem floatKeyText_ne_null (x : Binary64) : floatKeyText x ≠ "null" := by
  rw [floatKeyText]
  split
  · split
    · exact Text.signed_ne_null _
    · exact writeFloat_ne_null x
  · exact writeFloat_ne_null x

/-- **Only a null has the key text of a null.** -/
theorem keyText_ne_null {v : Value} (h : v.isNull = false) : v.keyText ≠ "null" := by
  cases v with
  | null => simp [isNull] at h
  | bool b => cases b <;> decide
  | int i => exact Text.signed_ne_null _
  | float x => exact floatKeyText_ne_null x
  | text s => exact Text.ne_null_of_toList String.toList_ofList (by decide)
  | timestamp t => exact Text.ne_null_of_toList String.toList_append (by decide)
  | list items =>
    cases items with
    | nil => exact Text.ne_null_of_toList String.toList_ofList (by decide)
    | cons v rest => exact Text.ne_null_of_toList String.toList_ofList (by decide)
  | object members =>
    cases members with
    | nil => exact Text.ne_null_of_toList String.toList_ofList (by decide)
    | cons m rest => exact Text.ne_null_of_toList String.toList_ofList (by decide)

end Value

end FeatureServing
