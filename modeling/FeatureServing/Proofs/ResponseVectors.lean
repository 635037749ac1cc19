import FeatureServing.Proofs.RowConversion

/-!
# The vectors of a response

A response lists rows, and a vector is made of each of them. A row without values gives a null under
every name of the schema; values are paired with the columns in order, so that a row which is too
short has nothing for the columns at the end:

* `Schema.names`, `Schema.reached` : the names of all columns, and of those that a row has a value
  for;
* `Schema.convertJsonRow_ok_iff` : the rows that a vector is made of;
* `Schema.mem_keys_of_convertRow` : a vector has the names that its row reaches;
* `Schema.Covers` : the number of values that reach every name;
* `Schema.response_vectors` : when a response has vectors, and the names of these.
-/

namespace FeatureServing.Schema

variable {s : Schema} {u : FeatureVector} {name : String} {j : Json} {row : Option (List Value)}
  {n : Nat}

/-- The names of the columns, in their order. -/
def names (s : Schema) : List String :=
  s.columns.map (·.1)

theorem names_eq (s : Schema) : s.names = s.features.map (·.name) := by
  unfold names columns
  rw [List.map_map]
  rfl

theorem length_names (s : Schema) : s.names.length = s.size := by
  rw [names_eq, List.length_map, size]

/-! ## Rows -/

/-- What a row of a response says: nothing at all, or a list of values. -/
inductive RowOf : Json → Option (List Value) → Prop
  | null : RowOf .null none
  | values {items : List Json} {values : List Value}
    (h : items.mapM Json.value? = some values) :
    RowOf (.list items) (some values)

theorem convertJsonRow_ok_iff :
    s.convertJsonRow j = .ok u ↔ ∃ row, RowOf j row ∧ s.convertRow row = .ok u := by
  constructor
  · intro h
    unfold convertJsonRow at h
    split at h
    · exact ⟨none, .null, h⟩
    · split at h
      · next values hvalues => exact ⟨some values, .values hvalues, h⟩
      · cases h
    · cases h
  · rintro ⟨row, hrow, hu⟩
    cases hrow with
    | null => exact hu
    | values hvalues =>
      unfold convertJsonRow
      simp only [hvalues, hu]

/-- Whether a vector can be made of a row: no value of a timestamp column is undecodable. -/
def Converts (s : Schema) (j : Json) : Prop :=
  ∃ row, RowOf j row ∧
    ∀ values, row = some values →
      ∀ z ∈ s.features.zip values, z.1.type = .timestamp → z.2.IsDecodable

theorem exists_convertJsonRow_ok_iff : (∃ u, s.convertJsonRow j = .ok u) ↔ s.Converts j := by
  have hrow : ∀ row, (∃ u, s.convertRow row = .ok u) ↔ ∀ values, row = some values →
      ∀ z ∈ s.features.zip values, z.1.type = .timestamp → z.2.IsDecodable := by
    intro row
    cases row with
    | none => exact iff_of_true ⟨s.nullVector, rfl⟩ nofun
    | some values => simp [exists_convertRow_ok_iff]
  simp only [convertJsonRow_ok_iff, Converts, ← hrow]
  rw [exists_comm]
  simp only [exists_and_left]

/-! ## Names -/

/-- The names of the columns that a row has something for. -/
def reached (s : Schema) : Option (List Value) → List String
  | none => s.names
  | some values => s.names.take values.length

theorem mem_keys_ofList {es : List (String × Value)} :
    name ∈ (SortedMap.ofList es).keys ↔ name ∈ es.map (·.1) := by
  rw [SortedMap.mem_keys_iff, SortedMap.exists_get?_ofList_iff]
  simp

theorem map_fst_of_converted {zs : List (Feature × Value)} {ws : List (String × Value)}
    (h : List.Forall₂ (fun z e => convertValue z.1 z.2 = .ok e) zs ws) :
    ws.map (·.1) = (zs.map (·.1)).map (·.name) := by
  induction h with
  | nil => rfl
  | cons hz _ ih =>
    rw [List.map_cons, List.map_cons, List.map_cons, ih, (convertValue_ok_iff.1 hz).1]

/-- **A vector has the names that its row reaches.** -/
theorem mem_keys_of_convertRow (h : s.convertRow row = .ok u) :
    name ∈ u.keys ↔ name ∈ s.reached row := by
  cases row with
  | none =>
    obtain rfl : s.nullVector = u := Except.ok.inj h
    rw [nullVector, mem_keys_ofList, List.map_map, reached, names_eq]
    rfl
  | some values =>
    obtain ⟨ws, hws, rfl⟩ := convertRow_ok_iff.1 h
    rw [mem_keys_ofList, map_fst_of_converted hws, map_fst_zip, List.map_take, ← names_eq, reached,
      ← size, ← length_names, List.take_eq_take_min (i := values.length), Nat.min_comm]

theorem eq_null_of_get?_nullVector {w : Value} (h : s.nullVector.get? name = some w) :
    w = .null := by
  unfold nullVector at h
  rw [SortedMap.get?_ofList] at h
  obtain ⟨f, -, heq⟩ := List.mem_map.1 (List.mem_reverse.1 (SortedMap.mem_of_find h))
  exact (Prod.mk.inj heq).2.symm

/-! ## Short rows -/

/-- Whether that many values reach every name: a column behind them repeats the name of one that has
a value. -/
def Covers (s : Schema) (n : Nat) : Prop :=
  ∀ name ∈ s.names.drop n, name ∈ s.names.take n

theorem covers_iff : s.Covers n ↔ ∀ name, name ∈ s.names.take n ↔ name ∈ s.names := by
  have hsplit : ∀ name, name ∈ s.names ↔ name ∈ s.names.take n ∨ name ∈ s.names.drop n := by
    intro name
    rw [← List.mem_append, List.take_append_drop]
  simp only [Covers, hsplit, iff_self_or]

theorem covers_of_size_le (h : s.size ≤ n) : s.Covers n := by
  intro name hname
  rw [List.drop_eq_nil_of_le (by rwa [length_names])] at hname
  cases hname

/-- Columns of distinct names need a value each. -/
theorem covers_iff_of_nodup (hd : s.names.Nodup) : s.Covers n ↔ s.size ≤ n := by
  refine ⟨fun h => ?_, covers_of_size_le⟩
  rw [← List.take_append_drop n s.names, List.nodup_append] at hd
  have hnil : s.names.drop n = [] := List.eq_nil_iff_forall_not_mem.2 fun name hname =>
    hd.2.2 name (h name hname) name hname rfl
  rw [← length_names]
  exact List.drop_eq_nil_iff.1 hnil

/-! ## Responses -/

theorem convertResponse_ok_iff {response : Json} {vectors : List FeatureVector} :
    s.convertResponse response = .ok vectors ↔
      ∃ rows, response.field? "features" = some (.list rows) ∧
        List.Forall₂ (fun j v => s.convertJsonRow j = .ok v) rows vectors := by
  unfold convertResponse
  split
  · next rows hrows => simp [hrows, mapM_ok_iff]
  · next hother =>
    constructor
    · nofun
    · rintro ⟨rows, hrows, -⟩
      exact absurd hrows (hother rows)

/-- Whether a vector is that of a row, with the names that come of it. -/
structure ComesOf (s : Schema) (j : Json) (v : FeatureVector) : Prop where
  converted : s.convertJsonRow j = .ok v
  null : j = .null → (∀ name, name ∈ v.keys ↔ name ∈ s.names) ∧
    ∀ name w, v.get? name = some w → w = .null
  values : ∀ items, j = .list items →
    (∀ name, name ∈ v.keys ↔ name ∈ s.names.take items.length) ∧
      ((∀ name, name ∈ v.keys ↔ name ∈ s.names) ↔ s.Covers items.length)

theorem comesOf_of_convertJsonRow (h : s.convertJsonRow j = .ok u) : s.ComesOf j u := by
  obtain ⟨row, hrow, hu⟩ := convertJsonRow_ok_iff.1 h
  have hkeys : ∀ name, name ∈ u.keys ↔ name ∈ s.reached row := fun _ => mem_keys_of_convertRow hu
  cases hrow with
  | null =>
    obtain rfl : s.nullVector = u := Except.ok.inj hu
    exact ⟨h, fun _ => ⟨hkeys, fun _ _ => eq_null_of_get?_nullVector⟩, nofun⟩
  | @values items values hvalues =>
    refine ⟨h, nofun, ?_⟩
    rintro _ ⟨⟩
    have hlen : items.length = values.length := (mapM_some_iff.1 hvalues).length_eq
    rw [reached, ← hlen] at hkeys
    refine ⟨hkeys, ?_⟩
    simp only [hkeys, covers_iff]

/-- **A response has a vector per row.** It has vectors if and only if it lists rows that vectors can
be made of; the vectors are those of the rows, in order. A row without values gives a null under
every name of the schema and no other name. A row of values gives the names of as many columns as it
has values, which are all names of the schema exactly when every column behind them repeats a name.
Rows as long as the schema are long enough, and if no name is repeated no others are. -/
theorem response_vectors (s : Schema) (response : Json) :
    ((∃ vectors, s.convertResponse response = .ok vectors) ↔
      ∃ rows, response.field? "features" = some (.list rows) ∧ ∀ j ∈ rows, s.Converts j) ∧
    (∀ vectors, s.convertResponse response = .ok vectors →
      ∃ rows, response.field? "features" = some (.list rows) ∧
        List.Forall₂ s.ComesOf rows vectors) ∧
    (∀ n, s.size ≤ n → s.Covers n) ∧ (s.names.Nodup → ∀ n, s.Covers n ↔ s.size ≤ n) := by
  refine ⟨?_, fun vectors h => ?_, fun _ => covers_of_size_le, fun hd _ => covers_iff_of_nodup hd⟩
  · simp only [convertResponse_ok_iff]
    rw [exists_comm]
    simp only [exists_and_left, exists_forall₂_iff, exists_convertJsonRow_ok_iff]
  · obtain ⟨rows, hrows, hall⟩ := convertResponse_ok_iff.1 h
    exact ⟨rows, hrows, hall.imp fun _ _ => comesOf_of_convertJsonRow⟩

/-! ### Pages of visits -/

/-- One visit in full, and one that could not be read. -/
def visitResponse : Json :=
  .record [("features", .list [.list [.null, .ofString "home", .bool true], .null])]

/-- Of a value too many nothing is left, and no name is missing. -/
theorem response_vectors_visit :
    pageSchema.size ≤ 3 ∧ pageSchema.names.Nodup ∧
      ∃ v v', pageSchema.convertResponse visitResponse = .ok [v, v'] ∧
        (∀ name, name ∈ v.keys ↔ name ∈ pageSchema.names) ∧
        (∀ name, name ∈ v'.keys ↔ name ∈ pageSchema.names) ∧ ¬ pageSchema.Covers 1 := by
  obtain ⟨hsome, hall, hlong, hdistinct⟩ := response_vectors pageSchema visitResponse
  have hsize : pageSchema.size ≤ 3 := by decide
  have hnodup : pageSchema.names.Nodup := by decide
  have hvalues : ∀ z ∈ pageSchema.features.zip [Value.null, .text "home", .bool true],
      z.1.type = .timestamp → z.2.IsDecodable := by
    intro z hz ht
    simp only [pageSchema, List.zip_cons_cons, List.zip_nil_left, List.mem_cons, List.not_mem_nil,
      or_false] at hz
    rcases hz with rfl | rfl
    · exact .null
    · cases ht
  obtain ⟨vectors, hvectors⟩ := hsome.2 ⟨_, rfl, List.forall_mem_cons.2
    ⟨⟨some [.null, .text "home", .bool true], .values rfl, fun _ h => Option.some.inj h ▸ hvalues⟩,
      List.forall_mem_singleton.2 ⟨none, .null, nofun⟩⟩⟩
  obtain ⟨rows, hrows, hof⟩ := hall vectors hvectors
  obtain rfl : _ = rows := Json.list.inj (Option.some.inj hrows)
  cases hof with
  | @cons _ v _ _ hv hrest =>
  cases hrest with
  | @cons _ v' _ _ hv' hnil =>
  cases hnil
  refine ⟨hsize, hnodup, v, v', hvectors, ?_, (hv'.null rfl).1, ?_⟩
  · exact (hv.values _ rfl).2.2 (hlong 3 hsize)
  · exact fun h => absurd ((hdistinct hnodup 1).1 h) (by decide)

/-- **A row that is too short drops features.** Its vector lacks the page, and nobody is told. -/
theorem page_dropped :
    ∃ v, pageSchema.convertResponse (.record [("features", .list [.list [.null]])]) = .ok [v] ∧
      "page" ∈ pageSchema.names ∧ "page" ∉ v.keys ∧
      ¬ ∀ name, name ∈ v.keys ↔ name ∈ pageSchema.names := by
  refine ⟨SortedMap.ofList [("seen", .null)], rfl, by decide, by decide, fun h => ?_⟩
  exact absurd ((h "page").2 (by decide)) (by decide)

end FeatureServing.Schema
