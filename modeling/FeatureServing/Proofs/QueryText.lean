import FeatureServing.Proofs.KeyCoverage

/-!
# Query texts do not depend on key values

The text of a query tells nothing of the values that are bound to it but their shape. Binds without
their values (`Binds.blank`) render to the same text or fail with the same error, and binds of one
shape are the same without their values:

* `Binds.SameShape` : the same names, or tuples of the same lengths;
* `Lookup.pieces_blank`, `RenderedQuery.write_blank` : pieces are made and written without a look at
  values;
* `Lookup.text_of_sameShape` : binds of one shape render to one text;
* `KeyIndex.AlikeAt`, `KeyIndex.Alike` : entries that have values for the same keys;
  `KeyIndex.sameShape_resolve`, `KeyIndex.sameShape_resolveBatch`, their binds;
* `Lookup.text_independent` : from entries to texts.
-/

namespace FeatureServing

/-! ## Without values -/

/-- A piece with null for its value. -/
def Piece.blank : Piece → Piece
  | text s => text s
  | value _ => value .null

namespace Binds

/-- Whether two binds have the same names, or as many tuples of the same lengths. -/
def SameShape : Binds → Binds → Prop
  | named values, named values' => values.keys = values'.keys
  | expanding tuples, expanding tuples' =>
    List.Forall₂ (fun t t' => t.length = t'.length) tuples tuples'
  | _, _ => False

/-- Binds with null for all values. -/
def blank : Binds → Binds
  | named values => named (values.map fun _ => .null)
  | expanding tuples => expanding (tuples.map fun t => t.map fun _ => .null)

theorem blank_eq_of_sameShape {b b' : Binds} (h : b.SameShape b') : b.blank = b'.blank := by
  cases b with
  | named values =>
    cases b' with
    | expanding => exact h.elim
    | named values' =>
      refine congrArg named (SortedMap.ext_get? fun name => ?_)
      have hname := SortedMap.keys_eq_iff.1 h name
      rw [SortedMap.mem_keys_iff, SortedMap.mem_keys_iff] at hname
      rw [SortedMap.get?_map, SortedMap.get?_map]
      cases hv : values.get? name <;> cases hv' : values'.get? name <;> simp_all
  | expanding tuples =>
    cases b' with
    | named => exact h.elim
    | expanding tuples' =>
      refine congrArg expanding (List.forall₂_eq_eq_eq ▸ ?_)
      rw [List.forall₂_map_left_iff, List.forall₂_map_right_iff]
      exact h.imp fun t t' hlen => by rw [List.map_const', List.map_const', hlen]

end Binds

/-! ## Rendering -/

/-- Placeholders are written without a look at their values. -/
theorem RenderedQuery.write_blank (style : PlaceholderStyle) (n : Nat) (pieces : List Piece) :
    write style n (pieces.map Piece.blank) = write style n pieces := by
  induction pieces generalizing n with
  | nil => rfl
  | cons p rest ih => cases p <;> simp [write, Piece.blank, ih]

namespace Lookup

theorem map_blank_listed (parts : List (List Piece)) :
    (listed parts).map Piece.blank = listed (parts.map (·.map Piece.blank)) := by
  induction parts using listed.induct with
  | case1 => rfl
  | case2 p => rfl
  | case3 p q rest ih =>
    simp only [listed, List.map_cons, List.map_append, Piece.blank] at ih ⊢
    rw [ih]

theorem map_blank_tuplePieces (t : List Value) :
    (tuplePieces t).map Piece.blank = tuplePieces (t.map fun _ => .null) := by
  simp only [tuplePieces, List.length_map, List.map_map, Function.comp_def]
  split <;> simp [Piece.blank, map_blank_listed, Function.comp_def]

theorem segmentPieces_blank (l : Lookup) (b : Binds) (segment : Segment) :
    l.segmentPieces b.blank segment = (l.segmentPieces b segment).map (·.map Piece.blank) := by
  cases segment with
  | text s => rfl
  | parameter name =>
    cases b with
    | named values =>
      simp only [segmentPieces, Binds.blank, SortedMap.get?_map]
      cases values.get? name <;> rfl
    | expanding => rfl
  | expanding =>
    cases b with
    | named _ => rfl
    | expanding tuples =>
      cases tuples with
      | nil => rfl
      | cons t ts =>
        simp [segmentPieces, Binds.blank, Except.map, Piece.blank, map_blank_listed,
          map_blank_tuplePieces, Function.comp_def]

/-- **Pieces are made without a look at values.** -/
theorem pieces_blank (l : Lookup) (b : Binds) :
    l.pieces b.blank = (l.pieces b).map (·.map Piece.blank) := by
  have hsegments : ∀ segments : List Segment, segments.mapM (l.segmentPieces b.blank) =
      (segments.mapM (l.segmentPieces b)).map (·.map (·.map Piece.blank)) := by
    intro segments
    induction segments with
    | nil => rfl
    | cons segment rest ih =>
      rw [List.mapM_cons, List.mapM_cons, segmentPieces_blank, ih]
      cases l.segmentPieces b segment with
      | error e => rfl
      | ok _ => cases rest.mapM (l.segmentPieces b) <;> rfl
  rw [pieces, pieces, hsegments]
  cases l.segments.mapM (l.segmentPieces b) with
  | error e => rfl
  | ok parts => simp [Except.map, List.map_flatten]

theorem text_blank (l : Lookup) (style : PlaceholderStyle) (b : Binds) :
    (l.render style b.blank).map (·.text) = (l.render style b).map (·.text) := by
  rw [render, render, pieces_blank]
  cases l.pieces b with
  | error e => rfl
  | ok pieces =>
    simp only [Except.map, RenderedQuery.ofPieces, RenderedQuery.write_blank]

/-- **Binds of one shape render to one text**, or fail with one error. -/
theorem text_of_sameShape (l : Lookup) (style : PlaceholderStyle) {b b' : Binds}
    (h : b.SameShape b') : (l.render style b).map (·.text) = (l.render style b').map (·.text) := by
  rw [← text_blank, ← text_blank l style b', Binds.blank_eq_of_sameShape h]

end Lookup

/-! ## Resolution -/

namespace KeyIndex

/-- Whether two entries have values, not null, for the same of some keys. -/
def AlikeAt (keys : List ServingKey) (e e' : Entry) : Prop :=
  ∀ k ∈ keys, (keyValue? e k).isSome = (keyValue? e' k).isSome

/-- Whether two entries have values, not null, for the same serving keys. -/
def Alike (x : KeyIndex) (e e' : Entry) : Prop :=
  AlikeAt x.servingKeys e e'

variable {x : KeyIndex} {keys : List ServingKey} {j : Position} {e e' : Entry}
  {es es' : List Entry} {lookups : SortedMap Position Lookup}

theorem Alike.at (h : x.Alike e e') (hkeys : x.keysAt? j = some keys) : AlikeAt keys e e' := by
  intro k hk
  exact h k (mem_servingKeys hkeys hk)

theorem AlikeAt.symm (h : AlikeAt keys e e') : AlikeAt keys e' e :=
  fun k hk => (h k hk).symm

theorem exists_tuple?_of_alikeAt (h : AlikeAt keys e e') {vs : List Value}
    (hvs : tuple? keys e = some vs) :
    ∃ vs', tuple? keys e' = some vs' ∧ vs.length = vs'.length := by
  have hall : ∀ k ∈ keys, ∃ v, keyValue? e' k = some v := by
    intro k hk
    obtain ⟨v, hv⟩ := exists_mapM_some_iff.1 ⟨vs, hvs⟩ k hk
    rw [← Option.isSome_iff_exists, ← h k hk, hv]
    rfl
  obtain ⟨vs', hvs'⟩ := exists_mapM_some_iff.2 hall
  refine ⟨vs', hvs', ?_⟩
  rw [← (tuple?_eq_some_iff.1 hvs).length_eq, (tuple?_eq_some_iff.1 hvs').length_eq]

theorem forall₂_tuples_of_alikeAt (h : List.Forall₂ (AlikeAt keys) es es') :
    List.Forall₂ (fun t t' : List Value => t.length = t'.length) (es.filterMap (tuple? keys))
      (es'.filterMap (tuple? keys)) := by
  induction h with
  | nil => exact .nil
  | @cons e e' _ _ he _ ih =>
    cases hvs : tuple? keys e with
    | some vs =>
      obtain ⟨vs', hvs', hlen⟩ := exists_tuple?_of_alikeAt he hvs
      rw [List.filterMap_cons_some hvs, List.filterMap_cons_some hvs']
      exact .cons hlen ih
    | none =>
      have hvs' : tuple? keys e' = none := Option.eq_none_iff_forall_ne_some.2 fun vs' hvs' => by
        obtain ⟨vs, hsome, -⟩ := exists_tuple?_of_alikeAt he.symm hvs'
        simp [hvs] at hsome
      rw [List.filterMap_cons_none hvs, List.filterMap_cons_none hvs']
      exact ih

theorem sameShape_resolve (h : x.Alike e e') (j : Position) :
    Option.Rel Binds.SameShape ((x.resolve e lookups).get? j) ((x.resolve e' lookups).get? j) := by
  have hone : ∀ {e e'}, x.Alike e e' → ∀ b, (x.resolve e lookups).get? j = some b →
      ∃ b', (x.resolve e' lookups).get? j = some b' ∧ b.SameShape b' := by
    intro e e' h b hb
    obtain ⟨hl, keys, vs, hkeys, hvs, rfl⟩ := get?_resolve_eq_some_iff.1 hb
    obtain ⟨vs', hvs', -⟩ := exists_tuple?_of_alikeAt (h.at hkeys) hvs
    refine ⟨_, get?_resolve_eq_some_iff.2 ⟨hl, keys, vs', hkeys, hvs', rfl⟩, ?_⟩
    refine SortedMap.keys_eq_iff.2 fun name => ?_
    rw [SortedMap.mem_keys_iff, SortedMap.mem_keys_iff, exists_get?_namedValues_iff hvs,
      exists_get?_namedValues_iff hvs']
  cases hb : (x.resolve e lookups).get? j with
  | some b =>
    obtain ⟨b', hb', hshape⟩ := hone h b hb
    rw [hb']
    exact .some hshape
  | none =>
    cases hb' : (x.resolve e' lookups).get? j with
    | none => exact .none
    | some b' =>
      obtain ⟨b, hsome, -⟩ := hone (fun k hk => (h k hk).symm) b' hb'
      simp [hb] at hsome

theorem sameShape_resolveBatch (h : List.Forall₂ x.Alike es es') (j : Position) :
    Option.Rel Binds.SameShape ((x.resolveBatch es lookups).get? j)
      ((x.resolveBatch es' lookups).get? j) := by
  rw [resolveBatch, resolveBatch, SortedMap.get?_filterMap, SortedMap.get?_filterMap]
  cases lookups.get? j with
  | none => exact .none
  | some l =>
    cases hkeys : x.keysAt? j with
    | none => simp
    | some keys =>
      have htuples := forall₂_tuples_of_alikeAt (h.imp fun _ _ he => he.at hkeys)
      simp only [Option.bind_some]
      revert htuples
      generalize es.filterMap (tuple? keys) = tuples
      generalize es'.filterMap (tuple? keys) = tuples'
      intro htuples
      cases htuples with
      | nil => exact .none
      | cons hlen hrest => exact .some (.cons hlen hrest)

end KeyIndex

namespace Lookup

/-- The text of the query of a position with binds, or the error that it has instead. -/
def textAt? (style : PlaceholderStyle) (lookups : SortedMap Position Lookup)
    (binds : SortedMap Position Binds) (j : Position) : Option (Except ServingError String) :=
  (lookups.get? j).bind fun l => (binds.get? j).map fun b => (l.render style b).map (·.text)

/-- Binds of one shape at every position belong to the same positions and texts. -/
theorem texts_of_sameShape {lookups : SortedMap Position Lookup}
    {binds binds' : SortedMap Position Binds}
    (h : ∀ j, Option.Rel Binds.SameShape (binds.get? j) (binds'.get? j)) :
    binds.keys = binds'.keys ∧
      ∀ style j, textAt? style lookups binds j = textAt? style lookups binds' j := by
  have hboth : ∀ j, binds.get? j = none ∧ binds'.get? j = none ∨
      ∃ b b', binds.get? j = some b ∧ binds'.get? j = some b' ∧ b.SameShape b' := by
    intro j
    have hj := h j
    generalize binds.get? j = o, binds'.get? j = o' at hj
    cases hj with
    | none => exact .inl ⟨rfl, rfl⟩
    | some hshape => exact .inr ⟨_, _, rfl, rfl, hshape⟩
  refine ⟨SortedMap.keys_eq_iff.2 fun j => ?_, fun style j => ?_⟩
  · rw [SortedMap.mem_keys_iff, SortedMap.mem_keys_iff]
    rcases hboth j with ⟨hb, hb'⟩ | ⟨b, b', hb, hb', -⟩ <;> simp [hb, hb']
  · rw [textAt?, textAt?]
    rcases hboth j with ⟨hb, hb'⟩ | ⟨b, b', hb, hb', hshape⟩
    · rw [hb, hb']
    · simp only [hb, hb', Option.map_some, fun l => text_of_sameShape l style hshape]

/-- **Key values have no part in query texts.** Whatever a lookup is bound to, its text is the same
for all binds of one shape, in each style of placeholders, and so is its error. Two entries that
have values for the same serving keys get binds at the same positions, with the same texts and
errors, and so do two batches whose entries are alike one by one. -/
theorem text_independent :
    (∀ (l : Lookup) (style : PlaceholderStyle) (b b' : Binds), b.SameShape b' →
      (l.render style b).map (·.text) = (l.render style b').map (·.text)) ∧
    ∀ (x : KeyIndex) (lookups : SortedMap Position Lookup),
      (∀ e e', x.Alike e e' →
        (x.resolve e lookups).keys = (x.resolve e' lookups).keys ∧
        ∀ style j, textAt? style lookups (x.resolve e lookups) j =
          textAt? style lookups (x.resolve e' lookups) j) ∧
      ∀ es es', List.Forall₂ x.Alike es es' →
        (x.resolveBatch es lookups).keys = (x.resolveBatch es' lookups).keys ∧
        ∀ style j, textAt? style lookups (x.resolveBatch es lookups) j =
          textAt? style lookups (x.resolveBatch es' lookups) j :=
  ⟨fun l style _ _ h => l.text_of_sameShape style h, fun _ _ =>
    ⟨fun _ _ h => texts_of_sameShape (KeyIndex.sameShape_resolve h),
      fun _ _ h => texts_of_sameShape (KeyIndex.sameShape_resolveBatch h)⟩⟩

end Lookup

/-! ### Values that look like queries -/

def quoteEntry : Entry := SortedMap.ofList [("id", .text "1) OR (? = ?'")]

namespace Lookup

/-- A text with brackets, quotes and question marks leaves the queries as an integer does. -/
theorem text_independent_quotes :
    (saleLookup.render .numbered (.named quoteEntry)).map (·.text) =
        (saleLookup.render .numbered (.named (saleEntry 1))).map (·.text) ∧
      textAt? .questionMark (.ofList [(0, saleLookup)])
          (saleKeys.resolve quoteEntry (.ofList [(0, saleLookup)])) 0 =
        some (.ok "SELECT * FROM sale WHERE id = ?") ∧
      textAt? .questionMark saleLookups
          (saleKeys.resolveBatch [quoteEntry, saleEntry 2] saleLookups) 0 =
        some (.ok "SELECT * FROM sale WHERE id IN (?, ?)") := by
  obtain ⟨hrender, hresolve⟩ := text_independent
  have halike : saleKeys.Alike quoteEntry (saleEntry 1) := by
    intro k hk
    obtain rfl := List.mem_singleton.1 hk
    rfl
  refine ⟨hrender _ _ _ _ rfl, ?_, ?_⟩
  · rw [((hresolve saleKeys _).1 _ _ halike).2]
    rfl
  · rw [((hresolve saleKeys saleLookups).2 _ [saleEntry 1, saleEntry 2]
      (.cons halike (.cons (fun _ _ => rfl) .nil))).2]
    rfl

end Lookup

end FeatureServing
