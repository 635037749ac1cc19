import FeatureServing.Proofs.FloatKeys
import FeatureServing.Proofs.InstantText
import FeatureServing.Proofs.KeyValues
import FeatureServing.Proofs.QuotedText

/-!
# Equal key texts, equal keys

Nulls, booleans, numbers, texts and timestamps share one space of key texts. The first characters of
a key text tell its kind (`KeyKind`, `Value.HasKind.ofText_keyText`), and every kind determines its
value as far as the text promises:

* `Value.number?` : the exact value of a number;
* `Value.SameKey` : one value, two numbers of one exact value, or two NaNs; an equivalence;
* `Value.sameKey_of_word`, `Value.sameKey_of_number` : the two kinds with several forms of values;
* `Value.sameKey_of_keyText`, `Value.forall₂_sameKey` : equal key texts, and equal lists of them;
* `KeyIndex.sameKey_of_stitched` : an entry meets a row only if they hold the same keys.
-/

namespace FeatureServing

open Text

/-! ## Kinds of key texts -/

/-- What the first characters of a key text tell. -/
inductive KeyKind
  | word
  | number
  | text
  | timestamp
deriving DecidableEq

/-- A text is quoted, a timestamp has its mark, a number starts with a digit or a minus and a
digit. -/
def KeyKind.ofText : List Char → KeyKind
  | [] => word
  | c :: cs =>
    if c = '\x22' then text
    else if isDigit c then number
    else if c = '-' then if cs.head?.any isDigit then number else word
    else if c = 't' ∧ cs.head? = some 's' then timestamp
    else word

theorem KeyKind.ofText_plain (d : Decimal) : ofText (d.plain []) = number := by
  obtain ⟨c, cs, hplain, hc⟩ := d.exists_plain_eq
  rw [hplain, Decimal.sign]
  split
  · exact if_pos hc
  · have hquote : c ≠ '\x22' := by
      rintro rfl
      cases hc
    exact (if_neg hquote).trans (if_pos hc)

namespace Value

variable {v w u : Value} {k : KeyKind}

/-- The kind of the key text of a value that is neither a list nor an object. -/
inductive HasKind : Value → KeyKind → Prop
  | null : HasKind null .word
  | bool (b : Bool) : HasKind (bool b) .word
  | special {x : Binary64} (hx : x.isFinite = false) : HasKind (float x) .word
  | int (i : Int64) : HasKind (int i) .number
  | float {x : Binary64} (hx : x.isFinite = true) : HasKind (float x) .number
  | text (s : String) : HasKind (text s) .text
  | timestamp (t : Instant) : HasKind (timestamp t) .timestamp

theorem exists_hasKind (h : v.isScalar = true) : ∃ k, v.HasKind k := by
  cases v with
  | null => exact ⟨_, .null⟩
  | bool b => exact ⟨_, .bool b⟩
  | int i => exact ⟨_, .int i⟩
  | float x =>
    cases hx : x.isFinite with
    | true => exact ⟨_, .float hx⟩
    | false => exact ⟨_, .special hx⟩
  | text s => exact ⟨_, .text s⟩
  | timestamp t => exact ⟨_, .timestamp t⟩
  | list items => cases h
  | object members => cases h

theorem floatKeyText_of_not_finite {x : Binary64} (hx : x.isFinite = false) :
    floatKeyText x = if x.isNaN then "NaN" else if x.negative then "-inf" else "inf" := by
  have hint : x.toInt? = none := by
    unfold Binary64.toInt?
    simp [hx]
  unfold floatKeyText writeFloat
  simp [hint, hx]

/-- **The first characters of a key text tell its kind.** -/
theorem HasKind.ofText_keyText (h : v.HasKind k) : KeyKind.ofText v.keyText.toList = k := by
  cases h with
  | null => decide
  | bool b => cases b <;> decide
  | special hx =>
    rw [keyText, floatKeyText_of_not_finite hx]
    split_ifs <;> decide
  | int i => exact (congrArg KeyKind.ofText (toList_signed _)).trans (KeyKind.ofText_plain _)
  | float hx =>
    obtain ⟨d, hd, -⟩ := exists_keyDecimal hx
    exact (congrArg KeyKind.ofText hd).trans (KeyKind.ofText_plain d)
  | text s => exact congrArg KeyKind.ofText String.toList_ofList
  | timestamp t => exact congrArg KeyKind.ofText String.toList_append

/-! ## One key in two values -/

/-- The exact value of a number; a NaN and the infinities have none. -/
def number? : Value → Option ℚ
  | int i => some i.toInt
  | float x => if x.isFinite then some x.toRat else none
  | _ => none

theorem number?_float {x : Binary64} (hx : x.isFinite = true) :
    (float x).number? = some x.toRat :=
  if_pos hx

theorem number?_of_isNaN {x : Binary64} (h : x.isNaN = true) : (float x).number? = none := by
  refine if_neg ?_
  unfold Binary64.isNaN at h
  unfold Binary64.isFinite
  rw [Bool.and_eq_true, beq_iff_eq] at h
  simp [h.1]

/-- Whether two values are the same key: the same value, two numbers of one exact value or two
NaNs. -/
inductive SameKey : Value → Value → Prop
  | value (v : Value) : SameKey v v
  | number {v w : Value} {q : ℚ} (hv : v.number? = some q) (hw : w.number? = some q) : SameKey v w
  | nan {x y : Binary64} (hx : x.isNaN = true) (hy : y.isNaN = true) : SameKey (float x) (float y)

namespace SameKey

theorem symm (h : SameKey v w) : SameKey w v := by
  cases h with
  | value => exact .value v
  | number hv hw => exact .number hw hv
  | nan hx hy => exact .nan hy hx

theorem trans (h : SameKey v w) (h' : SameKey w u) : SameKey v u := by
  cases h with
  | value => exact h'
  | number hv hw =>
    cases h' with
    | value => exact .number hv hw
    | number hw' hu => exact .number hv (hw.symm.trans hw' ▸ hu)
    | nan hx _ => cases hw.symm.trans (number?_of_isNaN hx)
  | nan hx hy =>
    cases h' with
    | value => exact .nan hx hy
    | number hw _ => cases hw.symm.trans (number?_of_isNaN hy)
    | nan _ hz => exact .nan hx hz

end SameKey

/-! ## Words -/

/-- The value that a word stands for. -/
def ofWord (s : String) : Value :=
  if s = "null" then null
  else if s = "true" then bool true
  else if s = "false" then bool false
  else if s = "inf" then float (.infinity false)
  else if s = "-inf" then float (.infinity true)
  else float .nan

theorem eq_infinity {x : Binary64} (hx : x.isFinite = false) (hnan : x.isNaN = false) :
    x = .infinity x.negative := by
  have hfield : x.exponentField = 2047 := by
    unfold Binary64.isFinite at hx
    simpa using hx
  have hfraction : x.fraction = 0 := by
    unfold Binary64.isNaN at hnan
    simpa [hfield] using hnan
  have hinfinity : ∀ b, (Binary64.infinity b).negative = b ∧
      (Binary64.infinity b).exponentField = 2047 ∧ (Binary64.infinity b).fraction = 0 := by decide
  obtain ⟨hs, he, hf⟩ := hinfinity x.negative
  exact Binary64.eq_of_fields hs.symm (hfield.trans he.symm) (hfraction.trans hf.symm)

theorem sameKey_ofWord (h : v.HasKind .word) : SameKey v (ofWord v.keyText) := by
  cases h with
  | null => exact .value _
  | bool b => cases b <;> exact .value _
  | @special x hx =>
    rw [keyText, floatKeyText_of_not_finite hx]
    cases hnan : x.isNaN with
    | true => exact .nan hnan rfl
    | false =>
      rw [eq_infinity hx hnan]
      cases x.negative <;> exact .value _

theorem sameKey_of_word (hv : v.HasKind .word) (hw : w.HasKind .word)
    (h : v.keyText = w.keyText) : SameKey v w :=
  (sameKey_ofWord hv).trans (h ▸ (sameKey_ofWord hw).symm)

/-! ## Numbers -/

theorem sameKey_int_float {i : Int64} {x : Binary64} (hx : x.isFinite = true)
    (h : (int i).keyText = (float x).keyText) : SameKey (int i) (float x) := by
  obtain ⟨d, hd, hkey⟩ := exists_keyDecimal hx
  have hplain : (Decimal.mk (i.toInt < 0) i.toInt.natAbs 0).plain [] = d.plain [] := by
    rw [← toList_signed, ← hd]
    exact congrArg String.toList h
  obtain ⟨hsign, hdigits⟩ := Decimal.plain_inj hplain
  have hi : i.toInt.natAbs ≤ 2 ^ 63 := by
    have hlow := i.le_toInt
    have hhigh := i.toInt_lt
    omega
  have hnat : d.magnitude = i.toInt.natAbs := by
    rw [← hdigits, Decimal.magnitude, zpow_zero, mul_one]
  have hrat := Binary64.toRat_eq_of_int hkey hi hsign.symm hnat
  exact .number rfl (hrat ▸ number?_float hx)

theorem sameKey_float_float {x y : Binary64} (hx : x.isFinite = true) (hy : y.isFinite = true)
    (h : (float x).keyText = (float y).keyText) : SameKey (float x) (float y) := by
  obtain ⟨d, hd, hkey⟩ := exists_keyDecimal hx
  obtain ⟨d', hd', hkey'⟩ := exists_keyDecimal hy
  have hplain : d.plain [] = d'.plain [] := by
    rw [← hd, ← hd']
    exact congrArg String.toList h
  obtain ⟨hsign, hdigits⟩ := Decimal.plain_inj hplain
  have hrat := Binary64.toRat_eq_of_keyDecimal hkey hkey' hsign hdigits
  exact .number (number?_float hx) (hrat ▸ number?_float hy)

theorem sameKey_of_number (hv : v.HasKind .number) (hw : w.HasKind .number)
    (h : v.keyText = w.keyText) : SameKey v w := by
  cases hv with
  | int i =>
    cases hw with
    | int j => exact Int64.toInt_inj.1 (signed_injective h) ▸ .value _
    | float hy => exact sameKey_int_float hy h
  | float hx =>
    cases hw with
    | int j => exact (sameKey_int_float hx h.symm).symm
    | float hy => exact sameKey_float_float hx hy h

/-! ## Keys -/

/-- **Equal key texts are those of one key.** -/
theorem sameKey_of_keyText (hv : v.isScalar = true) (hw : w.isScalar = true)
    (h : v.keyText = w.keyText) : SameKey v w := by
  obtain ⟨k, hvk⟩ := exists_hasKind hv
  obtain ⟨k', hwk⟩ := exists_hasKind hw
  obtain rfl : k = k' := by rw [← hvk.ofText_keyText, h, hwk.ofText_keyText]
  cases k with
  | word => exact sameKey_of_word hvk hwk h
  | number => exact sameKey_of_number hvk hwk h
  | text =>
    cases hvk
    cases hwk
    exact quote_injective h ▸ .value _
  | timestamp =>
    cases hvk
    cases hwk
    exact Instant.write_injective rfl ((String.append_right_inj _).1 h) ▸ .value _

variable {vs ws : List Value}

/-- **Equal lists of key texts are those of the same keys, one by one.** -/
theorem forall₂_sameKey (hvs : ∀ v ∈ vs, v.isScalar = true) (hws : ∀ w ∈ ws, w.isScalar = true)
    (h : vs.map keyText = ws.map keyText) : List.Forall₂ SameKey vs ws := by
  induction vs generalizing ws with
  | nil =>
    obtain rfl := List.map_eq_nil_iff.1 h.symm
    exact .nil
  | cons v vs ih =>
    cases ws with
    | nil => cases h
    | cons w ws =>
      rw [List.forall_mem_cons] at hvs hws
      rw [List.map_cons, List.map_cons, List.cons.injEq] at h
      exact .cons (sameKey_of_keyText hvs.1 hws.1 h.1) (ih hvs.2 hws.2 h.2)

/-- **Key texts confuse no two keys**, neither of single values nor of tuples. -/
theorem key_texts_agree :
    (∀ v w : Value, v.isScalar = true → w.isScalar = true → v.keyText = w.keyText → SameKey v w) ∧
      ∀ vs ws : List Value, (∀ v ∈ vs, v.isScalar = true) → (∀ w ∈ ws, w.isScalar = true) →
        vs.map keyText = ws.map keyText →
          vs.length = ws.length ∧ List.Forall₂ SameKey vs ws :=
  ⟨fun _ _ hv hw h => sameKey_of_keyText hv hw h, fun _ _ hvs hws h =>
    have hagree := forall₂_sameKey hvs hws h
    ⟨hagree.length_eq, hagree⟩⟩

/-- A float and a text that a caller passes meet the integer and the text of a key column. -/
theorem key_texts_agree_collapsed :
    ([float (.ofNat 7), text "a\x22b"].map keyText = [int 7, text "a\x22b"].map keyText ∧
      SameKey (float (.ofNat 7)) (int 7)) ∧
      List.Forall₂ SameKey [float (.ofNat 7), text "a\x22b"] [int 7, text "a\x22b"] := by
  have hfloat : (float (.ofNat 7)).keyText = (int 7).keyText := by decide +kernel
  have htexts : [float (.ofNat 7), text "a\x22b"].map keyText =
      [int 7, text "a\x22b"].map keyText :=
    congrArg (· :: [keyText (text "a\x22b")]) hfloat
  exact ⟨⟨htexts, key_texts_agree.1 _ _ rfl rfl hfloat⟩,
    (key_texts_agree.2 _ _ (by simp [isScalar]) (by simp [isScalar]) htexts).2⟩

/-- The least integer and the float that equals it are one key with two texts. -/
example : (int (-9223372036854775808)).keyText ≠ (float (Binary64.twoPow63 true)).keyText := by
  decide +kernel

end Value

namespace KeyIndex

/-- **An entry meets a row only if they hold the same keys.** -/
theorem sameKey_of_stitched {x : KeyIndex} {e : Entry} {row : Row} {p : Position} {key : KeyTexts}
    {keys : List ServingKey} (hkeys : x.keysAt? p = some keys) (he : x.entryKey? e p = some key)
    (hrow : x.rowKey? row p = some key)
    (hscalar : ∀ k ∈ keys, (∀ v ∈ keyValue? e k, v.isScalar = true) ∧
      ∀ w ∈ row.get? (x.column p k), w.isScalar = true) :
    ∀ k ∈ keys, ∃ v w, keyValue? e k = some v ∧ row.get? (x.column p k) = some w ∧ v.SameKey w := by
  rw [entryKey?, hkeys, Option.bind_some, Option.map_eq_some_iff] at he
  rw [rowKey?, hkeys, Option.bind_some, Option.map_eq_some_iff] at hrow
  obtain ⟨vs, hvs, rfl⟩ := he
  obtain ⟨ws, hws, htexts⟩ := hrow
  intro k hk
  obtain ⟨i, hi⟩ := List.getElem?_of_mem hk
  obtain ⟨v, hv, hkv⟩ := getElem?_of_forall₂ (tuple?_eq_some_iff.1 hvs) hi
  obtain ⟨w, hw, hkw⟩ := getElem?_of_forall₂ (mapM_some_iff.1 hws) hi
  have htext : w.keyText = v.keyText := by
    have hat := congrArg (·[i]?) htexts
    simpa [hv, hw] using hat
  obtain ⟨hvscalar, hwscalar⟩ := hscalar k hk
  exact ⟨v, w, hkv, hkw,
    Value.sameKey_of_keyText (hvscalar v hkv) (hwscalar w hkw) htext.symm⟩

end KeyIndex

end FeatureServing
