import FeatureServing.Proofs.LastWrites
import FeatureServing.Proofs.TimestampDecoding

/-!
# Decoding the timestamps of a vector

`Schema.coerce` goes through a vector and stops at the first value that it cannot decode:

* `Value.IsDecodable` : what a timestamp can be decoded from, said without any reading;
* `Schema.coerce_ok_iff` : a decoded vector has the same names, and name by name the decoded values;
* `Schema.coerce_again` : a decoded vector stays as it is;
* `Schema.coerceIn`, `Schema.coerceIn_ok_iff` : any order of the names leads to the same end;
* `Schema.coerce_timestamps` : which vectors are decoded and what becomes of them.
-/

namespace FeatureServing

/-- The values that a timestamp can be decoded from: a null, an instant, a number of milliseconds
within the calendar, a text in the layout of relational columns. -/
inductive Value.IsDecodable : Value → Prop
  | null : IsDecodable .null
  | timestamp (t : Instant) : IsDecodable (.timestamp t)
  | millis {i : Int64} (hfirst : -8334601228800000 ≤ i.toInt)
    (hlast : i.toInt ≤ 8210266876799999) : IsDecodable (.int i)
  | text {s : String} {t : Instant} (w : Timestamp.Written) (hs : s.toList = w.text)
    (ht : w.Names t) : IsDecodable (.text s)

theorem exists_decodes_iff {v : Value} : (∃ w, Decodes v w) ↔ v.IsDecodable := by
  constructor
  · rintro ⟨w, h⟩
    cases h with
    | null => exact .null
    | timestamp t => exact .timestamp t
    | millis ht =>
      obtain ⟨hfirst, hlast⟩ := Instant.exists_ofEpochMillis?_iff.1 ⟨_, ht⟩
      exact .millis hfirst hlast
    | text ht =>
      obtain ⟨w, hs, hw⟩ := readTimestamp_ok_iff.1 ht
      exact .text w hs hw
  · intro h
    cases h with
    | null => exact ⟨_, .null⟩
    | timestamp t => exact ⟨_, .timestamp t⟩
    | millis hfirst hlast =>
      obtain ⟨t, ht⟩ := Instant.exists_ofEpochMillis?_iff.2 ⟨hfirst, hlast⟩
      exact ⟨_, .millis ht⟩
    | text w hs ht => exact ⟨_, .text (readTimestamp_ok_iff.2 ⟨w, hs, ht⟩)⟩

/-- A decoded value is an instant, or a null that was one before. -/
theorem Decodes.null_or_timestamp {v w : Value} (h : Decodes v w) :
    w = .null ∨ ∃ t, w = .timestamp t := by
  cases h with
  | null => exact .inl rfl
  | timestamp t => exact .inr ⟨t, rfl⟩
  | millis _ => exact .inr ⟨_, rfl⟩
  | text _ => exact .inr ⟨_, rfl⟩

theorem Decodes.again {v w : Value} (h : Decodes v w) : Decodes w w := by
  rcases h.null_or_timestamp with rfl | ⟨t, rfl⟩
  · exact .null
  · exact .timestamp t

namespace Schema

variable {s : Schema} {u v : FeatureVector} {name : String} {e : ServingError}

/-! ## One value -/

theorem Decoded.again {w w' : Value} (h : s.Decoded name w w') : s.Decoded name w' w' :=
  ⟨fun ht => (h.1 ht).again, fun _ => rfl⟩

/-- Whether an error is about a value under a name that is typed as a timestamp, which cannot be
decoded. -/
def Refuses (s : Schema) (v : FeatureVector) (e : ServingError) : Prop :=
  ∃ name w c, s.IsTyped name .timestamp ∧ v.get? name = some w ∧ ¬ w.IsDecodable ∧
    coerceTimestamp w = .error c ∧ e = .data (.feature name c)

theorem refuses_of_coerceValue {w : Value} (hw : v.get? name = some w)
    (h : s.coerceValue name w = .error e) : s.Refuses v e := by
  obtain ⟨ht, c, hc, rfl⟩ := coerceValue_error_iff.1 h
  refine ⟨name, w, c, ht, hw, fun hd => ?_, hc, rfl⟩
  obtain ⟨w', hw'⟩ := exists_decodes_iff.2 hd
  rw [coerceTimestamp_ok_iff.2 hw'] at hc
  cases hc

/-! ## Vectors -/

/-- **A decoded vector** has the names of the vector, and the decoded value under each. -/
theorem coerce_ok_iff : s.coerce v = .ok u ↔ u.keys = v.keys ∧
    ∀ name w w', v.get? name = some w → u.get? name = some w' → s.Decoded name w w' := by
  unfold coerce
  rw [SortedMap.traverse_ok_iff_keys]
  simp only [coerceValue_ok_iff]

theorem exists_coerce_ok_iff : (∃ u, s.coerce v = .ok u) ↔
    ∀ name w, s.IsTyped name .timestamp → v.get? name = some w → w.IsDecodable := by
  unfold coerce
  rw [SortedMap.exists_traverse_ok_iff]
  simp only [exists_coerceValue_ok_iff, exists_decodes_iff]
  constructor
  · intro h name w ht hw
    exact h name w hw ht
  · intro h name w hw ht
    exact h name w ht hw

theorem exists_coerce_error_iff : (∃ e, s.coerce v = .error e) ↔
    ∃ name w, s.IsTyped name .timestamp ∧ v.get? name = some w ∧ ¬ w.IsDecodable := by
  have herror : (∃ e, s.coerce v = .error e) ↔ ¬ ∃ u, s.coerce v = .ok u := by
    cases s.coerce v <;> simp
  rw [herror, exists_coerce_ok_iff]
  push Not
  rfl

theorem refuses_of_coerce (h : s.coerce v = .error e) : s.Refuses v e := by
  obtain ⟨name, w, hw, herror⟩ := SortedMap.exists_error_of_traverse h
  exact refuses_of_coerceValue hw herror

theorem get?_of_coerce (h : s.coerce v = .ok u) {w' : Value} :
    u.get? name = some w' ↔ ∃ w, v.get? name = some w ∧ s.Decoded name w w' := by
  rw [SortedMap.get?_of_traverse h]
  simp only [coerceValue_ok_iff]

theorem get?_of_not_isTyped (h : s.coerce v = .ok u) (ht : ¬ s.IsTyped name .timestamp) :
    u.get? name = v.get? name := by
  apply Option.ext
  intro w'
  rw [get?_of_coerce h]
  constructor
  · rintro ⟨w, hw, hd⟩
    rw [hd.2 ht, hw]
  · intro hw
    exact ⟨w', hw, fun ht' => absurd ht' ht, fun _ => rfl⟩

/-- **A decoded vector stays as it is** when it is decoded again. -/
theorem coerce_again (h : s.coerce v = .ok u) : s.coerce u = .ok u := by
  apply coerce_ok_iff.2
  refine ⟨rfl, fun name w w' hw hw' => ?_⟩
  obtain rfl := Option.some.inj (hw.symm.trans hw')
  obtain ⟨w₀, -, hd⟩ := (get?_of_coerce h).1 hw
  exact hd.again

/-! ## Other orders -/

/-- Decodes the values of some names in the order of a list, up to the first error. -/
def coerceIn (s : Schema) (es : List (String × Value)) : Except ServingError FeatureVector :=
  (SortedMap.traverseEntries s.coerceValue es).map SortedMap.ofList

theorem coerceIn_of_coerce {es : List (String × Value)} (hes : es.Perm v.entries)
    (h : s.coerce v = .ok u) : s.coerceIn es = .ok u := by
  obtain ⟨ws, hws, hu⟩ := SortedMap.exists_traverseEntries_of_perm h hes
  unfold coerceIn
  rw [hws, ← hu]
  rfl

/-- **The order of the visits does not matter** to the decoded vector. -/
theorem coerceIn_ok_iff {es : List (String × Value)} (hes : es.Perm v.entries) :
    s.coerceIn es = .ok u ↔ s.coerce v = .ok u := by
  refine ⟨fun h => ?_, coerceIn_of_coerce hes⟩
  obtain ⟨ws, hws, -⟩ := map_ok_iff.1 h
  -- every value is visited, so all of them can be decoded
  obtain ⟨u', hu'⟩ : ∃ u', s.coerce v = .ok u' := by
    apply SortedMap.exists_traverse_ok_iff.2
    intro name w hw
    have hmem : (name, w) ∈ es := hes.mem_iff.2 (SortedMap.mem_entries_iff.2 hw)
    obtain ⟨⟨_, w'⟩, -, -, hw'⟩ :=
      exists_left_of_forall₂ (SortedMap.traverseEntries_ok_iff.1 hws).flip hmem
    exact ⟨w', hw'⟩
  rw [hu', Except.ok.inj ((coerceIn_of_coerce hes hu').symm.trans h)]

theorem refuses_of_coerceIn {es : List (String × Value)} (hes : es.Perm v.entries)
    (h : s.coerceIn es = .error e) : s.Refuses v e := by
  obtain ⟨name, w, hmem, herror⟩ :=
    SortedMap.exists_error_of_traverseEntries (map_error_iff.1 h)
  exact refuses_of_coerceValue (SortedMap.mem_entries_iff.1 (hes.mem_iff.1 hmem)) herror

/-- **Decoding touches exactly the timestamps.** It fails if and only if some name that is typed as
a timestamp has a value that is neither a null nor an instant, nor a number within the calendar,
nor a text in the layout, and the error is that of such a value. Otherwise the names stay, those of
other types with their values, those of timestamps with a null or the decoded instant, and decoding
again changes nothing. All this holds in every order of the visits. -/
theorem coerce_timestamps (s : Schema) (v : FeatureVector) :
    ((∃ e, s.coerce v = .error e) ↔
      ∃ name w, s.IsTyped name .timestamp ∧ v.get? name = some w ∧ ¬ w.IsDecodable) ∧
    (∀ e, s.coerce v = .error e → s.Refuses v e) ∧
    (∀ u, s.coerce v = .ok u → u.keys = v.keys ∧
      (∀ name, ¬ s.IsTyped name .timestamp → u.get? name = v.get? name) ∧
      (∀ name w', s.IsTyped name .timestamp → u.get? name = some w' →
        (w' = .null ∨ ∃ t, w' = .timestamp t) ∧ ∃ w, v.get? name = some w ∧ Decodes w w') ∧
      s.coerce u = .ok u) ∧
    ∀ es, es.Perm v.entries → (∀ u, s.coerceIn es = .ok u ↔ s.coerce v = .ok u) ∧
      ∀ e, s.coerceIn es = .error e → s.Refuses v e := by
  refine ⟨exists_coerce_error_iff, fun e => refuses_of_coerce, fun u hu => ?_, fun es hes => ?_⟩
  · refine ⟨(coerce_ok_iff.1 hu).1, fun name => get?_of_not_isTyped hu, ?_, coerce_again hu⟩
    intro name w' ht hw'
    obtain ⟨w, hw, hd⟩ := (get?_of_coerce hu).1 hw'
    exact ⟨(hd.1 ht).null_or_timestamp, w, hw, hd.1 ht⟩
  · exact ⟨fun u => coerceIn_ok_iff hes, fun e => refuses_of_coerceIn hes⟩

/-! ### A text under two names -/

/-- When a page was seen, declared as a text before, and the page. -/
def visitSchema : Schema :=
  ⟨[{ name := "seen", type := .string }, { name := "seen", type := .timestamp },
    { name := "page", type := .string }]⟩

def visit : FeatureVector :=
  .ofList [("seen", .int 0), ("page", .text "noon"), ("left", .null)]

theorem exists_coerce_visit : ∃ u, visitSchema.coerce visit = .ok u := by
  apply exists_coerce_ok_iff.2
  intro name w ht hw
  have hmem := SortedMap.mem_of_find (SortedMap.get?_ofList _ name ▸ hw)
  simp only [List.reverse_cons, List.reverse_nil, List.nil_append, List.cons_append, List.mem_cons,
    List.not_mem_nil, or_false, Prod.mk.injEq] at hmem
  rcases hmem with ⟨rfl, rfl⟩ | ⟨rfl, rfl⟩ | ⟨rfl, rfl⟩
  · exact .null
  · cases (typeOf?_eq_some_iff.2 ht).symm.trans (show _ = some FeatureType.string by decide)
  · exact .millis (by decide) (by decide)

theorem not_isDecodable_noon : ¬ (Value.text "noon").IsDecodable := by
  intro h
  obtain ⟨_, hd⟩ := exists_decodes_iff.2 h
  cases hd with
  | text ht => cases (show readTimestamp "noon" = .error .invalid from rfl).symm.trans ht

/-- The same text is refused as a time and kept as a page. -/
theorem coerce_timestamps_visit :
    ∃ u t, visitSchema.coerce visit = .ok u ∧ visitSchema.coerceIn visit.entries.reverse = .ok u ∧
      u.get? "seen" = some (.timestamp t) ∧ u.get? "page" = some (.text "noon") ∧
      visitSchema.coerce u = .ok u ∧
      ∃ e, visitSchema.coerce (.ofList [("seen", .text "noon")]) = .error e := by
  have htyped : visitSchema.IsTyped "seen" .timestamp := typeOf?_eq_some_iff.1 (by decide)
  have huntyped : ¬ visitSchema.IsTyped "page" .timestamp := fun h =>
    absurd (typeOf?_eq_some_iff.2 h) (by decide)
  obtain ⟨u, hu⟩ := exists_coerce_visit
  obtain ⟨-, -, hdecoded, horder⟩ := coerce_timestamps visitSchema visit
  obtain ⟨hkeys, hother, htime, hagain⟩ := hdecoded u hu
  have hvisit : visit.get? "seen" = some (.int 0) := rfl
  obtain ⟨w', hw'⟩ := SortedMap.mem_keys_iff.1 (hkeys ▸ SortedMap.mem_keys_iff.2 ⟨_, hvisit⟩)
  obtain ⟨-, w, hw, hd⟩ := htime "seen" w' htyped hw'
  obtain rfl := Option.some.inj (hvisit.symm.trans hw)
  cases hd with
  | @millis _ t _ =>
    refine ⟨u, t, hu, (horder _ (List.reverse_perm _)).1 u |>.2 hu, hw', ?_, hagain, ?_⟩
    · exact hother "page" huntyped
    · exact (coerce_timestamps _ _).1.2 ⟨"seen", .text "noon", htyped, rfl, not_isDecodable_noon⟩

end Schema

end FeatureServing
