import FeatureServing.Proofs.Stitching

/-!
# The last write of a name

A single vector is what all rows write, one after another. Every name is decided by the last row
that writes it:

* `IsLast` : what the last of those items gives that give anything; `foldl_eq_some_iff`, a traversal
  that keeps the latest ends with it;
* `Schema.IsTyped` : the type that a schema declares last for a name;
* `Schema.Writes`, `Schema.IsLastWrite` : what a row writes, and what the last one has written;
  `Schema.get?_writeRows_eq_some_iff`, that is what the rows leave under a name;
* `Decodes`, `Schema.Decoded` : the values that timestamps are decoded from;
* `Schema.assemble_last_writes` : the vector in terms of last writes.
-/

namespace FeatureServing

/-! ## The last of a list -/

/-- What the last of those items gives that give anything. -/
def IsLast {α β : Type} (R : α → β → Prop) (l : List α) (b : β) : Prop :=
  ∃ before a after, l = before ++ a :: after ∧ R a b ∧ ∀ a' ∈ after, ∀ b', ¬ R a' b'

section

variable {α β γ : Type} {R : α → β → Prop} {a a' : α} {l l' before after : List α} {b : β}

theorem isLast_cons_iff :
    IsLast R (a :: l) b ↔ IsLast R l b ∨ (∀ a' ∈ l, ∀ b', ¬ R a' b') ∧ R a b := by
  constructor
  · rintro ⟨_ | ⟨a₀, before⟩, a₁, after, hl, hR, hafter⟩
    · obtain ⟨rfl, rfl⟩ := List.cons.inj hl
      exact .inr ⟨hafter, hR⟩
    · obtain ⟨rfl, rfl⟩ := List.cons.inj hl
      exact .inl ⟨before, a₁, after, rfl, hR, hafter⟩
  · rintro (⟨before, a₁, after, rfl, hR, hafter⟩ | ⟨hafter, hR⟩)
    · exact ⟨a :: before, a₁, after, rfl, hR, hafter⟩
    · exact ⟨[], a, l, rfl, hR, hafter⟩

theorem isLast_append_iff :
    IsLast R (l ++ l') b ↔ IsLast R l' b ∨ (∀ a ∈ l', ∀ b', ¬ R a b') ∧ IsLast R l b := by
  induction l with
  | nil => simp [IsLast]
  | cons a l ih =>
    rw [List.cons_append, isLast_cons_iff, isLast_cons_iff, ih, List.forall_mem_append]
    tauto

theorem exists_isLast_iff : (∃ b, IsLast R l b) ↔ ∃ a ∈ l, ∃ b, R a b := by
  induction l with
  | nil => simp [IsLast]
  | cons a l ih =>
    simp only [isLast_cons_iff, exists_or, ih, exists_and_left, List.exists_mem_cons_iff]
    by_cases hl : ∃ a' ∈ l, ∃ b', R a' b'
    · exact iff_of_true (.inl hl) (.inr hl)
    · have hnone : ∀ a' ∈ l, ∀ b', ¬ R a' b' := fun a' ha' b' h => hl ⟨a', ha', b', h⟩
      rw [or_iff_right hl, or_iff_left hl, and_iff_right hnone]

theorem isLast_of_insert (h : IsLast R (before ++ a :: after) b) :
    R a b ∨ IsLast R (before ++ after) b := by
  rw [isLast_append_iff, isLast_cons_iff, List.forall_mem_cons] at h
  rw [isLast_append_iff]
  tauto

theorem isLast_skip_iff (h : ∀ b, ¬ R a b) :
    IsLast R (before ++ a :: after) b ↔ IsLast R (before ++ after) b := by
  have hb := h b
  rw [isLast_append_iff, isLast_append_iff, isLast_cons_iff, List.forall_mem_cons]
  tauto

/-- An item may be replaced by one that gives the same, and by any if a later one gives something. -/
theorem isLast_replace_iff (h : (∀ b, R a b ↔ R a' b) ∨ ∃ c ∈ after, ∃ b', R c b') :
    IsLast R (before ++ a :: after) b ↔ IsLast R (before ++ a' :: after) b := by
  simp only [isLast_append_iff, isLast_cons_iff, List.forall_mem_cons]
  rcases h with h | ⟨c, hc, b', hR⟩
  · simp only [h]
  · have hlater : ¬ ∀ c ∈ after, ∀ b', ¬ R c b' := fun hnone => hnone c hc b' hR
    tauto

/-- **A traversal that keeps the latest** ends with the last, or with what it has begun with. -/
theorem foldl_eq_some_iff {f : γ → α → γ} {g : γ → Option β}
    (hf : ∀ c a b, g (f c a) = some b ↔ R a b ∨ (∀ b', ¬ R a b') ∧ g c = some b) (c : γ) :
    g (l.foldl f c) = some b ↔ IsLast R l b ∨ (∀ a ∈ l, ∀ b', ¬ R a b') ∧ g c = some b := by
  induction l generalizing c with
  | nil => simp [IsLast]
  | cons a l ih =>
    rw [List.foldl_cons, ih, hf, isLast_cons_iff, List.forall_mem_cons]
    tauto

end

/-! ## Declared types -/

namespace Schema

/-- Whether the last declaration of a name has a type. -/
def IsTyped (s : Schema) (name : String) (t : FeatureType) : Prop :=
  IsLast (fun f t => f.name = name ∧ f.type = t) s.features t

variable {s : Schema} {name : String} {v w : Value} {results : SortedMap Position RowSet}
  {j : Position}

theorem typeOf?_eq_some_iff {t : FeatureType} : s.typeOf? name = some t ↔ s.IsTyped name t := by
  have hstep : ∀ (c : Option FeatureType) (f : Feature) (t : FeatureType),
      (if f.name = name then some f.type else c) = some t ↔
        (f.name = name ∧ f.type = t) ∨ (∀ t', ¬ (f.name = name ∧ f.type = t')) ∧ c = some t := by
    intro c f t
    by_cases h : f.name = name <;> simp [h]
  apply (foldl_eq_some_iff (g := id) hstep none).trans
  simp [IsTyped]

/-! ## Writes -/

/-- What a row of a position writes under a name: a row that could be read its columns, any other
null, under the names of the features of the position. -/
inductive Writes (s : Schema) (name : String) : Position × Option Row → Value → Prop
  | column {j : Position} {row : Row} {v : Value} (h : row.get? name = some v) :
    Writes s name (j, some row) v
  | blank {j : Position} {f : Feature} (hf : f ∈ s.features) (hj : f.position = j)
    (hname : f.name = name) : Writes s name (j, none) .null

/-- All rows, by ascending position and then in their order. -/
def orderedRows (results : SortedMap Position RowSet) : List (Position × Option Row) :=
  results.entries.flatMap fun e => e.2.map fun r => (e.1, r)

/-- What the last row that writes a name has written. -/
def IsLastWrite (s : Schema) (results : SortedMap Position RowSet) (name : String)
    (v : Value) : Prop :=
  IsLast (s.Writes name) (orderedRows results) v

theorem writes_some_iff {row : Row} : s.Writes name (j, some row) v ↔ row.get? name = some v := by
  constructor
  · rintro ⟨h⟩
    exact h
  · exact .column

theorem writes_none_iff : s.Writes name (j, none) v ↔ name ∈ s.namesAt j ∧ v = .null := by
  unfold namesAt
  rw [List.mem_map]
  constructor
  · intro h
    cases h with
    | blank hf hj hname => exact ⟨⟨_, List.mem_filter.2 ⟨hf, decide_eq_true hj⟩, hname⟩, rfl⟩
  · rintro ⟨⟨f, hf, hname⟩, rfl⟩
    obtain ⟨hf, hj⟩ := List.mem_filter.1 hf
    exact .blank hf (of_decide_eq_true hj) hname

/-- One row decides the names that it writes and leaves the others as they are. -/
theorem get?_writeRow_eq_some_iff (u : FeatureVector) (r : Position × Option Row) :
    (s.writeRow r.1 u r.2).get? name = some v ↔
      s.Writes name r v ∨ (∀ w, ¬ s.Writes name r w) ∧ u.get? name = some v := by
  obtain ⟨j, _ | row⟩ := r
  · have hnull : ∀ k v w, (k, v) ∈ (s.namesAt j).map (fun n => (n, Value.null)) →
        (k, w) ∈ (s.namesAt j).map (fun n => (n, Value.null)) → v = w := by
      simp only [List.mem_map, Prod.mk.injEq]
      rintro k v w ⟨_, -, -, rfl⟩ ⟨_, -, -, rfl⟩
      rfl
    have hget : ∀ v, (SortedMap.ofList ((s.namesAt j).map fun n => (n, Value.null))).get? name =
        some v ↔ s.Writes name (j, none) v := by
      intro v
      rw [SortedMap.get?_ofList_eq_some_iff hnull, writes_none_iff]
      simp [eq_comm]
    unfold writeRow
    rw [SortedMap.get?_insertMany, ← SortedMap.get?_ofList, Option.or_eq_some_iff, hget,
      Option.eq_none_iff_forall_ne_some]
    simp only [ne_eq, hget]
  · unfold writeRow
    rw [SortedMap.get?_overlay, Option.or_eq_some_iff, Option.eq_none_iff_forall_ne_some]
    simp only [writes_some_iff, ne_eq]

/-- **The rows leave the last write under every name.** -/
theorem get?_writeRows_eq_some_iff :
    (s.writeRows results).get? name = some v ↔ s.IsLastWrite results name v := by
  have hrows : s.writeRows results =
      (orderedRows results).foldl (fun u r => s.writeRow r.1 u r.2) ∅ := by
    unfold writeRows orderedRows
    rw [List.foldl_flatMap]
    simp only [List.foldl_map]
  rw [hrows, foldl_eq_some_iff (g := fun u : FeatureVector => u.get? name)
    (fun u r _ => get?_writeRow_eq_some_iff u r)]
  simp [IsLastWrite]

end Schema

/-! ## Decoding -/

/-- The values that a timestamp may be decoded from, and to. -/
inductive Decodes : Value → Value → Prop
  | null : Decodes .null .null
  | timestamp (t : Instant) : Decodes (.timestamp t) (.timestamp t)
  | millis {i : Int64} {t : Instant} (h : Instant.ofEpochMillis? i.toInt = some t) :
    Decodes (.int i) (.timestamp t)
  | text {s : String} {t : Instant} (h : readTimestamp s = .ok t) :
    Decodes (.text s) (.timestamp t)

theorem coerceTimestamp_ok_iff {v w : Value} : coerceTimestamp v = .ok w ↔ Decodes v w := by
  constructor
  · intro h
    unfold coerceTimestamp at h
    split at h
    · obtain rfl := Except.ok.inj h
      exact .null
    · obtain rfl := Except.ok.inj h
      exact .timestamp _
    · split at h
      · next t ht =>
        obtain rfl := Except.ok.inj h
        exact .millis ht
      · cases h
    · obtain ⟨t, ht, rfl⟩ := map_ok_iff.1 (mapError_ok_iff.1 h)
      exact .text ht
    · cases h
  · intro h
    unfold coerceTimestamp
    cases h with
    | null => rfl
    | timestamp t => rfl
    | millis ht => simp only [ht]
    | text ht =>
      apply mapError_ok_iff.2
      rw [ht]
      rfl

namespace Schema

variable {s : Schema} {name : String} {v w : Value} {results : SortedMap Position RowSet}

/-- What a vector holds for a value that was written: the decoded one under a name that is typed as
a timestamp, the value itself under any other. -/
def Decoded (s : Schema) (name : String) (v w : Value) : Prop :=
  (s.IsTyped name .timestamp → Decodes v w) ∧ (¬ s.IsTyped name .timestamp → w = v)

theorem coerceValue_of_isTyped (h : s.IsTyped name .timestamp) (v : Value) :
    s.coerceValue name v = (coerceTimestamp v).mapError fun c => .data (.feature name c) := by
  unfold coerceValue
  rw [typeOf?_eq_some_iff.2 h]

theorem coerceValue_of_not_isTyped (h : ¬ s.IsTyped name .timestamp) (v : Value) :
    s.coerceValue name v = .ok v := by
  unfold coerceValue
  split
  · next htype => exact absurd (typeOf?_eq_some_iff.1 htype) h
  · rfl

theorem coerceValue_ok_iff : s.coerceValue name v = .ok w ↔ s.Decoded name v w := by
  by_cases h : s.IsTyped name .timestamp
  · rw [coerceValue_of_isTyped h, mapError_ok_iff, coerceTimestamp_ok_iff]
    simp [Decoded, h]
  · rw [coerceValue_of_not_isTyped h]
    simp [Decoded, h, eq_comm]

theorem coerceValue_error_iff {e : ServingError} :
    s.coerceValue name v = .error e ↔ s.IsTyped name .timestamp ∧
      ∃ c, coerceTimestamp v = .error c ∧ .data (.feature name c) = e := by
  by_cases h : s.IsTyped name .timestamp
  · rw [coerceValue_of_isTyped h, mapError_error_iff]
    simp [h]
  · rw [coerceValue_of_not_isTyped h]
    simp [h]

theorem exists_coerceValue_ok_iff :
    (∃ w, s.coerceValue name v = .ok w) ↔ (s.IsTyped name .timestamp → ∃ w, Decodes v w) := by
  by_cases h : s.IsTyped name .timestamp <;> simp [coerceValue_ok_iff, Decoded, h]

/-! ## Vectors -/

theorem exists_assemble_ok_iff :
    (∃ u, s.assemble results = .ok u) ↔ ∀ name v, s.IsTyped name .timestamp →
      s.IsLastWrite results name v → ∃ w, Decodes v w := by
  unfold assemble coerce
  rw [SortedMap.exists_traverse_ok_iff]
  simp only [get?_writeRows_eq_some_iff, exists_coerceValue_ok_iff]
  constructor
  · intro h name v ht hv
    exact h name v hv ht
  · intro h name v hv ht
    exact h name v ht hv

theorem get?_of_assemble {u : FeatureVector} (h : s.assemble results = .ok u) :
    u.get? name = some w ↔ ∃ v, s.IsLastWrite results name v ∧ s.Decoded name v w := by
  unfold assemble coerce at h
  rw [SortedMap.get?_of_traverse h]
  simp only [get?_writeRows_eq_some_iff, coerceValue_ok_iff]

theorem mem_keys_of_assemble {u : FeatureVector} (h : s.assemble results = .ok u) :
    name ∈ u.keys ↔ ∃ r ∈ orderedRows results, ∃ v, s.Writes name r v := by
  rw [SortedMap.mem_keys_iff, ← exists_isLast_iff]
  simp only [get?_of_assemble h]
  constructor
  · rintro ⟨w, v, hv, -⟩
    exact ⟨v, hv⟩
  · rintro ⟨v, hv⟩
    obtain ⟨w, hw⟩ := exists_coerceValue_ok_iff.2 fun ht =>
      exists_assemble_ok_iff.1 ⟨u, h⟩ name v ht hv
    exact ⟨w, v, hv, coerceValue_ok_iff.1 hw⟩

theorem error_of_assemble {e : ServingError} (h : s.assemble results = .error e) :
    ∃ name v c, s.IsTyped name .timestamp ∧ s.IsLastWrite results name v ∧
      coerceTimestamp v = .error c ∧ e = .data (.feature name c) := by
  unfold assemble coerce at h
  obtain ⟨name, v, hv, herror⟩ := SortedMap.exists_error_of_traverse h
  obtain ⟨ht, c, hc, rfl⟩ := coerceValue_error_iff.1 herror
  exact ⟨name, v, c, ht, get?_writeRows_eq_some_iff.1 hv, hc, rfl⟩

/-- Results with the same last writes are not told apart. -/
theorem assemble_congr {results' : SortedMap Position RowSet}
    (h : ∀ name v, s.IsLastWrite results name v ↔ s.IsLastWrite results' name v) :
    s.assemble results = s.assemble results' := by
  have hrows : s.writeRows results = s.writeRows results' := by
    apply SortedMap.ext_get?
    intro name
    apply Option.ext
    intro v
    rw [get?_writeRows_eq_some_iff, get?_writeRows_eq_some_iff, h]
  unfold assemble
  rw [hrows]

/-- A null row cannot make a vector fail, and decides no names but those of its position. -/
theorem assemble_insert_null {results' : SortedMap Position RowSet}
    {before after : List (Position × Option Row)} {j : Position} {u : FeatureVector}
    (h : orderedRows results = before ++ after)
    (h' : orderedRows results' = before ++ (j, none) :: after) (hu : s.assemble results = .ok u) :
    ∃ u', s.assemble results' = .ok u' ∧
      ∀ name, (∀ f ∈ s.features, f.position = j → f.name ≠ name) → u'.get? name = u.get? name := by
  have hok : ∃ u', s.assemble results' = .ok u' := by
    apply exists_assemble_ok_iff.2
    intro name v ht hv
    unfold IsLastWrite at hv
    rw [h'] at hv
    rcases isLast_of_insert hv with hnull | hlast
    · obtain ⟨-, rfl⟩ := writes_none_iff.1 hnull
      exact ⟨.null, .null⟩
    · exact exists_assemble_ok_iff.1 ⟨u, hu⟩ name v ht (by rwa [IsLastWrite, h])
  obtain ⟨u', hu'⟩ := hok
  refine ⟨u', hu', ?_⟩
  intro name hname
  have hother : ∀ v, ¬ s.Writes name (j, none) v := by
    intro v hv
    cases hv with
    | blank hf hj heq => exact hname _ hf hj heq
  apply Option.ext
  intro w
  rw [get?_of_assemble hu', get?_of_assemble hu]
  simp only [IsLastWrite, h, h', isLast_skip_iff hother]

/-- **The last write of a name counts.** The rows of all positions, ascending, write one after
another. There is a vector when under every name that is typed as a timestamp the last value can be
decoded, a null among them; it holds the names that are written, each with its last value, decoded
or as it is. Otherwise the error is that of a last value. What a row writes does not matter under
names that later rows write, decodable or not, and a null row decides the names of its position
only. -/
theorem assemble_last_writes (s : Schema) (results : SortedMap Position RowSet) :
    ((∃ u, s.assemble results = .ok u) ↔ ∀ name v, s.IsTyped name .timestamp →
        s.IsLastWrite results name v → ∃ w, Decodes v w) ∧
      (∀ u, s.assemble results = .ok u → ∀ name,
        (name ∈ u.keys ↔ ∃ r ∈ orderedRows results, ∃ v, s.Writes name r v) ∧
          ∀ w, u.get? name = some w ↔ ∃ v, s.IsLastWrite results name v ∧ s.Decoded name v w) ∧
      (∀ e, s.assemble results = .error e → ∃ name v c, s.IsTyped name .timestamp ∧
        s.IsLastWrite results name v ∧ coerceTimestamp v = .error c ∧
          e = .data (.feature name c)) ∧
      (∀ results' before r r' after, orderedRows results = before ++ r :: after →
        orderedRows results' = before ++ r' :: after →
        (∀ name, (∀ v, s.Writes name r v ↔ s.Writes name r' v) ∨
          ∃ later ∈ after, ∃ v, s.Writes name later v) →
          s.assemble results = s.assemble results') ∧
      ∀ results' before j after u, orderedRows results = before ++ after →
        orderedRows results' = before ++ (j, none) :: after → s.assemble results = .ok u →
          ∃ u', s.assemble results' = .ok u' ∧ ∀ name,
            (∀ f ∈ s.features, f.position = j → f.name ≠ name) → u'.get? name = u.get? name := by
  refine ⟨exists_assemble_ok_iff, ?_, ?_, ?_, ?_⟩
  · intro u hu name
    exact ⟨mem_keys_of_assemble hu, fun w => get?_of_assemble hu⟩
  · intro e he
    exact error_of_assemble he
  · intro results' before r r' after h h' hsame
    apply assemble_congr
    intro name v
    unfold IsLastWrite
    rw [h, h', isLast_replace_iff (hsame name)]
  · intro results' before j after u h h' hu
    exact assemble_insert_null h h' hu

/-! ### A time that is written twice -/

/-- The time of an order, and a rating from another position. -/
def orderSchema : Schema :=
  ⟨[{ name := "placed", type := .timestamp, position := 0 },
    { name := "rating", type := .double, position := 1 }]⟩

/-- A time that nobody can read, a rating that could not be read, and the time once more. -/
def orderResults : SortedMap Position RowSet :=
  .ofList [(1, [none, some (.ofList [("placed", .int 0)])]),
    (0, [some (.ofList [("id", .int 7), ("placed", .text "noon")])])]

theorem isLastWrite_order {name : String} {v : Value}
    (h : (orderSchema.writeRows orderResults).get? name = some v) :
    orderSchema.IsLastWrite orderResults name v :=
  get?_writeRows_eq_some_iff.1 h

/-- The time that was written last is the one that is decoded. -/
theorem assemble_last_writes_order :
    ∃ u t, orderSchema.assemble orderResults = .ok u ∧ Instant.ofEpochMillis? 0 = some t ∧
      u.get? "placed" = some (.timestamp t) ∧ u.get? "id" = some (.int 7) ∧
      u.get? "rating" = some .null := by
  obtain ⟨t, ht⟩ : ∃ t, Instant.ofEpochMillis? 0 = some t := Option.isSome_iff_exists.1 (by decide)
  obtain ⟨hok, hvector, -, -, -⟩ := assemble_last_writes orderSchema orderResults
  have hdecodes : ∀ name v, orderSchema.IsTyped name .timestamp →
      orderSchema.IsLastWrite orderResults name v → ∃ w, Decodes v w := by
    rintro _ v ⟨before, f, after, hfeatures, ⟨rfl, htype⟩, -⟩ hv
    have hf : f ∈ orderSchema.features := by
      rw [hfeatures]
      exact List.mem_append_right _ List.mem_cons_self
    rcases List.mem_pair.1 hf with rfl | rfl
    · obtain rfl : Value.int 0 = v := Option.some.inj (get?_writeRows_eq_some_iff.2 hv)
      exact ⟨_, .millis ht⟩
    · cases htype
  obtain ⟨u, hu⟩ := hok.2 hdecodes
  have hplain : ∀ name, orderSchema.typeOf? name ≠ some .timestamp → ∀ v,
      orderSchema.Decoded name v v :=
    fun name hname v => ⟨fun h => absurd (typeOf?_eq_some_iff.2 h) hname, fun _ => rfl⟩
  refine ⟨u, t, hu, ht, ?_, ?_, ?_⟩
  · apply ((hvector u hu _).2 _).2
    refine ⟨.int 0, isLastWrite_order rfl, fun _ => .millis ht, fun h => ?_⟩
    exact absurd (typeOf?_eq_some_iff.1 rfl) h
  · exact ((hvector u hu _).2 _).2 ⟨_, isLastWrite_order rfl, hplain _ (by decide) _⟩
  · exact ((hvector u hu _).2 _).2 ⟨_, isLastWrite_order rfl, hplain _ (by decide) _⟩

end Schema

end FeatureServing
