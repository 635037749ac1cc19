import FeatureServing.Proofs.VectorDecoding

/-!
# Rows by position and by name

A row of values is decoded column by column (`Schema.convertRow`), a vector name by name
(`Schema.coerce`). Columns may share a name and differ in type:

* `Schema.pairRow` : the values of a row under the names of their columns;
* `Schema.coerce_insert` : one more column, `Schema.coerce_insertMany` : all columns of a row;
* `Schema.coerce_of_convertRow` : the vector of a row is decoded from its pairs by the types of the
  columns that have a value;
* `Schema.coerce_congr` : types of names that a vector does not have do not matter;
* `Schema.convertRow_ok_iff_coerce` : distinct names;
* `Schema.positional_named` : both ways agree.
-/

namespace FeatureServing

theorem FeatureType.isTimestamp_iff {t : FeatureType} : t.isTimestamp = true ↔ t = .timestamp := by
  cases t <;> simp [isTimestamp]

namespace Schema

variable {s : Schema} {u v : FeatureVector} {name : String} {t : FeatureType} {f : Feature}
  {w w' : Value}

/-- The values of a row under the names of their columns, the last column of a name counts. -/
def pairRow (s : Schema) (values : List Value) : FeatureVector :=
  SortedMap.ofList ((s.columns.map (·.1)).zip values)

/-! ## One column -/

theorem isTyped_append_iff : (⟨s.features ++ [f]⟩ : Schema).IsTyped name t ↔
    f.name = name ∧ f.type = t ∨ f.name ≠ name ∧ s.IsTyped name t := by
  rw [← typeOf?_eq_some_iff, ← typeOf?_eq_some_iff]
  unfold typeOf?
  rw [List.foldl_concat]
  by_cases hf : f.name = name <;> simp [hf]

theorem convertValue_ok_iff {e : String × Value} : convertValue f w = .ok e ↔
    f.name = e.1 ∧ (f.type = .timestamp → Decodes w e.2) ∧ (f.type ≠ .timestamp → e.2 = w) := by
  obtain ⟨name, w'⟩ := e
  unfold convertValue
  by_cases ht : f.type = .timestamp
  · rw [if_pos (FeatureType.isTimestamp_iff.2 ht), map_ok_iff]
    simp only [mapError_ok_iff, coerceTimestamp_ok_iff, Prod.mk.injEq]
    constructor
    · rintro ⟨x, hx, hname, rfl⟩
      exact ⟨hname, fun _ => hx, fun hne => absurd ht hne⟩
    · rintro ⟨hname, hd, -⟩
      exact ⟨w', hd ht, hname, rfl⟩
  · rw [if_neg fun h => ht (FeatureType.isTimestamp_iff.1 h)]
    simp [ht, eq_comm]

/-- **One more column** overwrites the value, the type and the decoded value of its name. -/
theorem coerce_insert (h : s.coerce v = .ok u) (hw : convertValue f w = .ok (f.name, w')) :
    (⟨s.features ++ [f]⟩ : Schema).coerce (v.insert f.name w) = .ok (u.insert f.name w') := by
  obtain ⟨hkeys, hall⟩ := coerce_ok_iff.1 h
  obtain ⟨-, htimestamp, hother⟩ := convertValue_ok_iff.1 hw
  refine coerce_ok_iff.2 ⟨SortedMap.keys_insert_congr hkeys _ _ _, fun name x x' hx hx' => ?_⟩
  rw [SortedMap.get?_insert_eq] at hx hx'
  unfold Decoded
  rw [isTyped_append_iff]
  by_cases hname : name = f.name
  · subst hname
    rw [if_pos rfl, Option.some.injEq] at hx hx'
    subst hx hx'
    simpa using ⟨htimestamp, hother⟩
  · rw [if_neg hname] at hx hx'
    simpa [Ne.symm hname, Decoded] using hall name x x' hx hx'

/-! ## All columns -/

theorem coerce_insertMany {zs : List (Feature × Value)} {ws : List (String × Value)}
    (h : List.Forall₂ (fun z e => convertValue z.1 z.2 = .ok e) zs ws) (hu : s.coerce v = .ok u) :
    (⟨s.features ++ zs.map (·.1)⟩ : Schema).coerce
      (v.insertMany (zs.map fun z => (z.1.name, z.2))) = .ok (u.insertMany ws) := by
  induction h generalizing s u v with
  | nil =>
    rw [List.map_nil, List.append_nil]
    exact hu
  | @cons z e zs ws hz _ ih =>
    obtain ⟨name, w'⟩ := e
    obtain rfl : z.1.name = name := (convertValue_ok_iff.1 hz).1
    have hrest := ih (coerce_insert hu hz)
    rwa [List.append_assoc] at hrest

theorem convertRow_ok_iff {values : List Value} : s.convertRow (some values) = .ok u ↔
    ∃ ws, List.Forall₂ (fun z e => convertValue z.1 z.2 = .ok e) (s.features.zip values) ws ∧
      SortedMap.ofList ws = u := by
  unfold convertRow
  rw [map_ok_iff]
  simp only [mapM_ok_iff]

theorem exists_convertValue_ok_iff :
    (∃ e, convertValue f w = .ok e) ↔ (f.type = .timestamp → w.IsDecodable) := by
  rw [← exists_decodes_iff]
  constructor
  · rintro ⟨e, he⟩ ht
    exact ⟨e.2, (convertValue_ok_iff.1 he).2.1 ht⟩
  · intro h
    by_cases ht : f.type = .timestamp
    · obtain ⟨w', hw'⟩ := h ht
      exact ⟨(f.name, w'), convertValue_ok_iff.2 ⟨rfl, fun _ => hw', fun hne => absurd ht hne⟩⟩
    · exact ⟨(f.name, w), convertValue_ok_iff.2 ⟨rfl, fun ht' => absurd ht' ht, fun _ => rfl⟩⟩

theorem exists_convertRow_ok_iff {values : List Value} :
    (∃ u, s.convertRow (some values) = .ok u) ↔
      ∀ z ∈ s.features.zip values, z.1.type = .timestamp → z.2.IsDecodable := by
  simp only [convertRow_ok_iff]
  rw [exists_comm]
  simp only [exists_and_left, exists_eq', and_true, exists_forall₂_iff, exists_convertValue_ok_iff]

theorem pairRow_eq (s : Schema) (values : List Value) : s.pairRow values =
    SortedMap.ofList ((s.features.zip values).map fun z => (z.1.name, z.2)) := by
  unfold pairRow columns
  rw [List.map_map, List.zip_map_left]
  rfl

/-- **The vector of a row** is decoded from its pairs, by the columns that have a value. -/
theorem coerce_of_convertRow {values : List Value} (h : s.convertRow (some values) = .ok u) :
    (⟨(s.features.zip values).map (·.1)⟩ : Schema).coerce (s.pairRow values) = .ok u := by
  obtain ⟨ws, hws, rfl⟩ := convertRow_ok_iff.1 h
  have hnone : (⟨[]⟩ : Schema).coerce ∅ = .ok ∅ := rfl
  rw [pairRow_eq]
  exact coerce_insertMany hws hnone

/-! ## Distinct names -/

theorem isTyped_iff_of_nodup (hd : (s.features.map (·.name)).Nodup) :
    s.IsTyped name t ↔ ∃ f ∈ s.features, f.name = name ∧ f.type = t := by
  constructor
  · rintro ⟨before, f, after, hs, hf, -⟩
    exact ⟨f, hs ▸ List.mem_append_right _ List.mem_cons_self, hf⟩
  · rintro ⟨f, hmem, rfl, rfl⟩
    obtain ⟨before, after, hs⟩ := List.append_of_mem hmem
    refine ⟨before, f, after, hs, ⟨rfl, rfl⟩, fun g hg t hgt => ?_⟩
    rw [hs, List.map_append, List.map_cons] at hd
    have hnot := (List.nodup_cons.1 (List.nodup_append.1 hd).2.1).1
    exact hnot (List.mem_map.2 ⟨g, hg, hgt.1⟩)

theorem coerce_congr {s' : Schema}
    (h : ∀ name ∈ v.keys, s.IsTyped name .timestamp ↔ s'.IsTyped name .timestamp) :
    s.coerce v = .ok u ↔ s'.coerce v = .ok u := by
  rw [coerce_ok_iff, coerce_ok_iff]
  refine and_congr_right fun _ => ?_
  refine forall_congr' fun name => forall₂_congr fun w w' => forall_congr' fun hw => ?_
  unfold Decoded
  rw [h name (SortedMap.mem_keys_iff.2 ⟨w, hw⟩)]

theorem map_fst_zip (fs : List Feature) (values : List Value) :
    (fs.zip values).map (·.1) = fs.take (min fs.length values.length) := by
  rw [List.zip_eq_zip_take_min, List.map_fst_zip (by simp)]

section

variable {values : List Value} (hd : (s.features.map (·.name)).Nodup)

include hd

theorem nodup_zip_names : ((s.features.zip values).map (·.1.name)).Nodup := by
  have hnames : (s.features.zip values).map (·.1.name) =
      ((s.features.zip values).map (·.1)).map (·.name) := (List.map_map ..).symm
  rw [hnames, map_fst_zip]
  exact hd.sublist ((List.take_sublist _ _).map _)

/-- A column with a value has the only declaration of its name. -/
theorem isTyped_zip_iff (hname : name ∈ (s.pairRow values).keys) :
    (⟨(s.features.zip values).map (·.1)⟩ : Schema).IsTyped name t ↔ s.IsTyped name t := by
  have hd' : (((s.features.zip values).map (·.1)).map (·.name)).Nodup := by
    rw [List.map_map]
    exact nodup_zip_names hd
  rw [isTyped_iff_of_nodup hd, isTyped_iff_of_nodup hd']
  obtain ⟨w, hw⟩ := SortedMap.mem_keys_iff.1 hname
  rw [pairRow_eq] at hw
  obtain ⟨w, hmem⟩ := SortedMap.exists_get?_ofList_iff.1 ⟨w, hw⟩
  obtain ⟨z, hz, heq⟩ := List.mem_map.1 hmem
  obtain ⟨rfl, -⟩ := Prod.mk.inj heq
  constructor
  · rintro ⟨f, hf, hfz, ht⟩
    obtain ⟨z', hz', rfl⟩ := List.mem_map.1 hf
    exact ⟨z'.1, (List.of_mem_zip hz').1, hfz, ht⟩
  · rintro ⟨f, hf, hfz, ht⟩
    obtain rfl := List.inj_on_of_nodup_map hd hf (List.of_mem_zip hz).1 hfz
    exact ⟨z.1, List.mem_map.2 ⟨z, hz, rfl⟩, rfl, ht⟩

theorem get?_pairRow {z : Feature × Value} (hz : z ∈ s.features.zip values) :
    (s.pairRow values).get? z.1.name = some z.2 := by
  rw [pairRow_eq]
  refine SortedMap.get?_ofList_eq_some (List.mem_map.2 ⟨z, hz, rfl⟩) fun w hw => ?_
  obtain ⟨z', hz', heq⟩ := List.mem_map.1 hw
  obtain ⟨hname, rfl⟩ := Prod.mk.inj heq
  rw [List.inj_on_of_nodup_map (nodup_zip_names hd) hz' hz hname]

/-- With distinct names a row is decoded as its pairs are, even if it is too short. -/
theorem convertRow_ok_iff_coerce :
    s.convertRow (some values) = .ok u ↔ s.coerce (s.pairRow values) = .ok u := by
  have hforward : ∀ {u}, s.convertRow (some values) = .ok u →
      s.coerce (s.pairRow values) = .ok u := fun h =>
    (coerce_congr fun name hname => isTyped_zip_iff hd hname).1 (coerce_of_convertRow h)
  refine ⟨hforward, fun h => ?_⟩
  obtain ⟨u', hu'⟩ : ∃ u', s.convertRow (some values) = .ok u' := by
    refine exists_convertRow_ok_iff.2 fun z hz ht => ?_
    refine exists_coerce_ok_iff.1 ⟨u, h⟩ z.1.name z.2 ?_ (get?_pairRow hd hz)
    exact (isTyped_iff_of_nodup hd).2 ⟨z.1, (List.of_mem_zip hz).1, rfl, ht⟩
  rw [hu', Except.ok.inj ((hforward hu').symm.trans h)]

end

/-- **Decoding by position and by name agree.** Where a row with a value for every column is
decoded, its values under the names of their columns are decoded to the same vector, whatever names
and types are repeated. If no name is, they are decoded or refused together, however long the row
is. -/
theorem positional_named (s : Schema) (values : List Value) :
    (s.size ≤ values.length → ∀ u, s.convertRow (some values) = .ok u →
      s.coerce (s.pairRow values) = .ok u) ∧
    ((s.columns.map (·.1)).Nodup →
      (∀ u, s.convertRow (some values) = .ok u ↔ s.coerce (s.pairRow values) = .ok u) ∧
        ((∃ e, s.convertRow (some values) = .error e) ↔
          ∃ e, s.coerce (s.pairRow values) = .error e)) := by
  constructor
  · intro hlen u hu
    have hall : (s.features.zip values).map (·.1) = s.features := List.map_fst_zip hlen
    have hcoerce := coerce_of_convertRow hu
    rwa [hall] at hcoerce
  · intro hd
    have hd' : (s.features.map (·.name)).Nodup := by
      unfold columns at hd
      rwa [List.map_map] at hd
    have hok : ∀ u, s.convertRow (some values) = .ok u ↔ s.coerce (s.pairRow values) = .ok u :=
      fun u => convertRow_ok_iff_coerce hd'
    refine ⟨hok, ?_⟩
    cases hrow : s.convertRow (some values) with
    | ok u => simp [(hok u).1 hrow]
    | error e =>
      cases hnamed : s.coerce (s.pairRow values) with
      | ok u =>
        rw [(hok u).2 hnamed] at hrow
        cases hrow
      | error e' => simp

/-! ### Rows of a visit -/

/-- The row has two values of one name, of which the first is no time. -/
def visitRow : List Value :=
  [.text "noon", .int 0, .text "home"]

/-- The time of a visit and its page. -/
def pageSchema : Schema :=
  ⟨[{ name := "seen", type := .timestamp }, { name := "page", type := .string }]⟩

theorem exists_convertRow_visit : ∃ u, visitSchema.convertRow (some visitRow) = .ok u := by
  apply exists_convertRow_ok_iff.2
  intro z hz ht
  simp only [visitSchema, visitRow, List.zip_cons_cons, List.zip_nil_right, List.mem_cons,
    List.not_mem_nil, or_false] at hz
  rcases hz with rfl | rfl | rfl
  · cases ht
  · exact .millis (by decide) (by decide)
  · cases ht

/-- The second value of the name is taken both ways, and both refuse a row without a page. -/
theorem positional_named_visit :
    (∃ u, visitSchema.convertRow (some visitRow) = .ok u ∧
      visitSchema.coerce (visitSchema.pairRow visitRow) = .ok u) ∧
    (∃ e, pageSchema.convertRow (some [.text "noon"]) = .error e) ∧
      ∃ e, pageSchema.coerce (pageSchema.pairRow [.text "noon"]) = .error e := by
  obtain ⟨u, hu⟩ := exists_convertRow_visit
  obtain ⟨hcovered, -⟩ := positional_named visitSchema visitRow
  obtain ⟨-, hdistinct⟩ := positional_named pageSchema [.text "noon"]
  have hrefused : ∃ e, pageSchema.coerce (pageSchema.pairRow [.text "noon"]) = .error e :=
    exists_coerce_error_iff.2
      ⟨"seen", .text "noon", typeOf?_eq_some_iff.1 (by decide), rfl, not_isDecodable_noon⟩
  refine ⟨⟨u, hu, hcovered (by decide) u hu⟩, ?_, hrefused⟩
  exact (hdistinct (by decide)).2.2 hrefused

end Schema

end FeatureServing
