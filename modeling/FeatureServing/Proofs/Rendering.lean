import FeatureServing.Lookup.Render
import FeatureServing.Proofs.Fallible
import FeatureServing.Proofs.ParameterOrder

/-!
# Rendering lookups

A single lookup gives its placeholders names from left to right and later values by these names; a
batch lookup puts all its tuples in the place of its only placeholder:

* `Lookup.fill` : a query with values in the place of its placeholders, from left to right;
* `Lookup.exists_single_ok_iff`, `Lookup.exists_batch_ok_iff` : a statement compiles when it has a
  parameter per placeholder, or one placeholder for all tuples;
* `Lookup.render_single` : if a name has a value, the placeholder of the name gets it;
* `Lookup.exists_render_named_iff`, `Lookup.unbound_of_render` : named values render when every
  parameter has one, and otherwise a parameter without one is the error;
* `Lookup.exists_render_batch` : a batch lookup takes any tuples, if there are some.
-/

namespace FeatureServing.Lookup

/-- The tokens of a query with values in the place of the placeholders. -/
def fill : List Token → List Value → List Piece
  | .text s :: rest, vs => .text s :: fill rest vs
  | .placeholder :: rest, v :: vs => .value v :: fill rest vs
  | _, _ => []

/-! ## Single lookups -/

variable {position : Position} {count : Nat}

theorem exists_parametrize_ok_iff {tokens : List Token} {names : List String} :
    (∃ segments, parametrize position count tokens names = .ok segments) ↔
      names.length = tokens.count .placeholder := by
  induction tokens generalizing names with
  | nil => cases names <;> simp [parametrize]
  | cons t rest ih =>
    have hmore : ∀ {names : List String} {f : List Segment → List Segment},
        (∃ segments, (parametrize position count rest names >>= fun more => .ok (f more)) =
          .ok segments) ↔ names.length = rest.count .placeholder := by
      intro names f
      simp only [← ih, bind_ok_iff]
      exact ⟨fun ⟨_, more, h, _⟩ => ⟨more, h⟩, fun ⟨more, h⟩ => ⟨_, more, h, rfl⟩⟩
    cases t with
    | text s => rw [List.count_cons_of_ne (by simp), ← hmore]; rfl
    | placeholder =>
      cases names with
      | nil => simp [parametrize]
      | cons name names =>
        rw [List.count_cons_self, List.length_cons, Nat.succ_inj, ← hmore]
        rfl

/-- Names with values become those values, one placeholder after the other. -/
theorem mapM_segmentPieces (l : Lookup) {values : SortedMap String Value} {tokens : List Token}
    {names : List String} {segments : List Segment} {vs : List Value}
    (h : parametrize position count tokens names = .ok segments)
    (hvs : List.Forall₂ (fun name v => values.get? name = some v) names vs) :
    ∃ parts, segments.mapM (l.segmentPieces (.named values)) = .ok parts ∧
      parts.flatten = fill tokens vs := by
  simp only [mapM_ok_iff]
  induction tokens generalizing names segments vs with
  | nil =>
    cases names with
    | nil =>
      obtain rfl := Except.ok.inj h
      exact ⟨[], .nil, rfl⟩
    | cons name names => simp [parametrize] at h
  | cons t rest ih =>
    cases t with
    | text s =>
      obtain ⟨more, hmore, hsegments⟩ := bind_ok_iff.1 h
      obtain rfl := Except.ok.inj hsegments
      obtain ⟨parts, hparts, hflat⟩ := ih hmore hvs
      exact ⟨[.text s] :: parts, .cons rfl hparts, by rw [List.flatten_cons, hflat]; rfl⟩
    | placeholder =>
      cases hvs with
      | nil => simp [parametrize] at h
      | @cons name v names vs hv hvs =>
        obtain ⟨more, hmore, hsegments⟩ := bind_ok_iff.1 h
        obtain rfl := Except.ok.inj hsegments
        obtain ⟨parts, hparts, hflat⟩ := ih hmore hvs
        refine ⟨[.value v] :: parts, .cons ?_ hparts, by rw [List.flatten_cons, hflat]; rfl⟩
        simp only [segmentPieces, hv]

theorem filterMap_valueOf?_fill {tokens : List Token} {vs : List Value}
    (h : vs.length = tokens.count .placeholder) :
    (fill tokens vs).filterMap RenderedQuery.valueOf? = vs := by
  induction tokens generalizing vs with
  | nil =>
    obtain rfl := List.length_eq_zero_iff.1 h
    rfl
  | cons t rest ih =>
    cases t with
    | text s => exact ih (by rwa [List.count_cons_of_ne (by simp)] at h)
    | placeholder =>
      rw [List.count_cons_self] at h
      cases vs with
      | nil => simp at h
      | cons v vs => exact congrArg (v :: ·) (ih (Nat.succ.inj h))

theorem single_ok_iff {s : PreparedStatement} {l : Lookup} :
    single s = .ok l ↔ s.validate = .ok () ∧ ∃ segments,
      parametrize s.position s.primaryKeyNames.length (Query.tokens s.query) s.primaryKeyNames =
        .ok segments ∧
      ⟨s.position, s.group, s.keyPrefix, .single, segments, s.primaryKeyNames⟩ = l := by
  simp only [single, bind_ok_iff, mapError_ok_iff, Except.ok.injEq]
  exact ⟨fun ⟨_, hv, h⟩ => ⟨hv, h⟩, fun ⟨hv, h⟩ => ⟨(), hv, h⟩⟩

theorem parameters_of_single {s : PreparedStatement} {l : Lookup} (h : single s = .ok l) :
    l.parameters = s.primaryKeyNames := by
  obtain ⟨-, _, -, rfl⟩ := single_ok_iff.1 h
  rfl

theorem exists_single_ok_iff {s : PreparedStatement} :
    (∃ l, single s = .ok l) ↔
      s.validate = .ok () ∧ s.parameters.length = Query.placeholders s.query := by
  simp only [single_ok_iff, exists_and_left]
  rw [Query.placeholders, ← s.length_primaryKeyNames, ← exists_parametrize_ok_iff]
  exact and_congr_right fun _ =>
    ⟨fun ⟨_, segments, h, _⟩ => ⟨segments, h⟩, fun ⟨segments, h⟩ => ⟨_, segments, h, rfl⟩⟩

/-- **Values under the names of a single lookup** go to the placeholders of its query, the value
of the first name to the leftmost one and so on. -/
theorem render_single {s : PreparedStatement} {l : Lookup} (h : single s = .ok l)
    {values : SortedMap String Value} {vs : List Value}
    (hvs : List.Forall₂ (fun name v => values.get? name = some v) s.primaryKeyNames vs)
    (style : PlaceholderStyle) :
    l.render style (.named values) =
      .ok ⟨String.join (RenderedQuery.write style 1 (fill (Query.tokens s.query) vs)), vs⟩ := by
  obtain ⟨-, segments, hsegments, hl⟩ := single_ok_iff.1 h
  have hown : l.segments = segments := by rw [← hl]
  obtain ⟨parts, hparts, hflat⟩ := mapM_segmentPieces l hsegments hvs
  have hlen : vs.length = (Query.tokens s.query).count .placeholder := by
    rw [← hvs.length_eq, exists_parametrize_ok_iff.1 ⟨_, hsegments⟩]
  simp only [render, pieces, hown, hparts, Except.map, hflat, RenderedQuery.ofPieces,
    filterMap_valueOf?_fill hlen]

/-- The segments of a query are texts and the names it was given, none of which is left out. -/
theorem segments_of_parametrize {tokens : List Token} {names : List String}
    {segments : List Segment} (h : parametrize position count tokens names = .ok segments) :
    (∀ g ∈ segments, (∃ s, g = .text s) ∨ ∃ name ∈ names, g = .parameter name) ∧
      ∀ name ∈ names, Segment.parameter name ∈ segments := by
  induction tokens generalizing names segments with
  | nil =>
    cases names with
    | nil =>
      obtain rfl := Except.ok.inj h
      simp
    | cons name names => simp [parametrize] at h
  | cons t rest ih =>
    cases t with
    | text s =>
      obtain ⟨more, hmore, hsegments⟩ := bind_ok_iff.1 h
      obtain rfl := Except.ok.inj hsegments
      obtain ⟨hall, hnames⟩ := ih hmore
      exact ⟨List.forall_mem_cons.2 ⟨.inl ⟨s, rfl⟩, hall⟩,
        fun name hname => List.mem_cons_of_mem _ (hnames name hname)⟩
    | placeholder =>
      cases names with
      | nil => simp [parametrize] at h
      | cons name names =>
        obtain ⟨more, hmore, hsegments⟩ := bind_ok_iff.1 h
        obtain rfl := Except.ok.inj hsegments
        obtain ⟨hall, hnames⟩ := ih hmore
        refine ⟨List.forall_mem_cons.2 ⟨.inr ⟨name, List.mem_cons_self, rfl⟩, fun g hg => ?_⟩,
          List.forall_mem_cons.2 ⟨List.mem_cons_self,
            fun n hn => List.mem_cons_of_mem _ (hnames n hn)⟩⟩
        exact (hall g hg).imp_right fun ⟨n, hn, hgn⟩ => ⟨n, List.mem_cons_of_mem _ hn, hgn⟩

section Named

variable {s : PreparedStatement} {l : Lookup} {values : SortedMap String Value}
  {style : PlaceholderStyle}

/-- **The only error of named values** is a parameter without a value. -/
theorem unbound_of_render (h : single s = .ok l) {e : ServingError}
    (he : l.render style (.named values) = .error e) :
    ∃ name ∈ l.parameters, values.get? name = none ∧
      e = .configuration (.unboundParameter l.position name) := by
  obtain ⟨-, segments, hsegments, hl⟩ := single_ok_iff.1 h
  have hown : l.segments = segments := by rw [← hl]
  have hnames : l.parameters = s.primaryKeyNames := by rw [← hl]
  rw [render, map_error_iff, pieces, map_error_iff] at he
  obtain ⟨g, hg, herror⟩ := exists_error_of_mapM he
  rcases (segments_of_parametrize hsegments).1 g (hown ▸ hg) with ⟨t, rfl⟩ | ⟨name, hname, rfl⟩
  · cases herror
  · refine ⟨name, hnames ▸ hname, ?_⟩
    simp only [segmentPieces] at herror
    split at herror
    · cases herror
    · next hnone => exact ⟨hnone, (Except.error.inj herror).symm⟩

/-- **Named values render a single lookup** when every parameter has one. -/
theorem exists_render_named_iff (h : single s = .ok l) :
    (∃ q, l.render style (.named values) = .ok q) ↔
      ∀ name ∈ l.parameters, ∃ v, values.get? name = some v := by
  obtain ⟨-, segments, hsegments, hl⟩ := single_ok_iff.1 h
  have hown : l.segments = segments := by rw [← hl]
  have hnames : l.parameters = s.primaryKeyNames := by rw [← hl]
  constructor
  · intro hq name hname
    rw [render, exists_map_ok_iff, pieces, exists_map_ok_iff, exists_mapM_ok_iff, hown] at hq
    have hsegment := (segments_of_parametrize hsegments).2 name (hnames ▸ hname)
    obtain ⟨parts, hparts⟩ := hq _ hsegment
    simp only [segmentPieces] at hparts
    split at hparts
    · next v hv => exact ⟨v, hv⟩
    · cases hparts
  · intro hall
    obtain ⟨vs, hvs⟩ := exists_forall₂_iff.2 (hnames ▸ hall)
    exact ⟨_, render_single h hvs style⟩

end Named

/-! ## Batch lookups -/

theorem batch_ok_iff {s : PreparedStatement} {l : Lookup} :
    batch s = .ok l ↔ s.validate = .ok () ∧ Query.placeholders s.query = 1 ∧
      ⟨s.position, s.group, s.keyPrefix, .batch, (Query.tokens s.query).map batchSegment,
        [Binds.batchName]⟩ = l := by
  simp only [batch, bind_ok_iff, mapError_ok_iff]
  constructor
  · rintro ⟨_, hv, h⟩
    split at h
    · next hone => exact ⟨hv, hone, Except.ok.inj h⟩
    · simp at h
  · rintro ⟨hv, hone, h⟩
    exact ⟨(), hv, by rw [if_pos hone, h]⟩

theorem exists_batch_ok_iff {s : PreparedStatement} :
    (∃ l, batch s = .ok l) ↔ s.validate = .ok () ∧ Query.placeholders s.query = 1 := by
  simp only [batch_ok_iff, exists_and_left, exists_eq', and_true]

theorem exists_render_batch {s : PreparedStatement} {l : Lookup} (h : batch s = .ok l)
    {tuples : List (List Value)} (hne : tuples ≠ []) (style : PlaceholderStyle) :
    ∃ q, l.render style (.expanding tuples) = .ok q := by
  obtain ⟨-, -, hl⟩ := batch_ok_iff.1 h
  have hown : l.segments = (Query.tokens s.query).map batchSegment := by rw [← hl]
  obtain ⟨parts, hparts⟩ : ∃ parts,
      l.segments.mapM (l.segmentPieces (.expanding tuples)) = .ok parts := by
    rw [exists_mapM_ok_iff, hown, List.forall_mem_map]
    intro t _
    cases t with
    | text s => exact ⟨_, rfl⟩
    | placeholder =>
      cases tuples with
      | nil => exact absurd rfl hne
      | cons tuple tuples => exact ⟨_, rfl⟩
  exact ⟨_, by rw [render, pieces, hparts]; rfl⟩

end FeatureServing.Lookup
