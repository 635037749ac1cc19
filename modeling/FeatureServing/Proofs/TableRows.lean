import FeatureServing.Store
import FeatureServing.Proofs.KeyText
import FeatureServing.Proofs.KeyValues
import FeatureServing.Proofs.Stitching

/-!
# The row that a table has for an entry

Single lookups find the rows of an entry through their named values, batch lookups through a set of
tuples and the keys of the rows that come back. Both end at the same row:

* `Table.Fits` : a table that is filed under the keys of its position;
* `Table.rowKey_eq_iff` : there the store and the index agree on which rows have the key of an entry;
* `Store.foundRow?` : the last row of a position with the key of an entry;
* `Store.foldl_writeRow_select`, `Store.matchingRow?_select` : what single and batch lookups find.
-/

namespace FeatureServing

/-! ## Rows over each other -/

/-- Of rows with the same columns only the last one stays. -/
theorem foldl_overlay {rows : List Row} (h : ∀ r ∈ rows, ∀ r' ∈ rows, r.keys = r'.keys)
    (v : FeatureVector) :
    rows.foldl SortedMap.overlay v = rows.getLast?.elim v v.overlay := by
  induction rows generalizing v with
  | nil => rfl
  | cons r rest ih =>
    have hrest : ∀ a ∈ rest, ∀ b ∈ rest, a.keys = b.keys := fun a ha b hb =>
      h a (List.mem_cons_of_mem _ ha) b (List.mem_cons_of_mem _ hb)
    rw [List.foldl_cons, ih hrest, List.getLast?_cons]
    cases hlast : rest.getLast? with
    | none => rfl
    | some last =>
      have hmem := List.mem_of_getLast? hlast
      exact SortedMap.overlay_overlay (h r List.mem_cons_self last (List.mem_cons_of_mem _ hmem)) v

/-! ## Keys of rows -/

namespace KeyIndex

theorem null_not_mem_entryKey {x : KeyIndex} {e : Entry} {p : Position} {key : KeyTexts}
    (h : x.entryKey? e p = some key) : "null" ∉ key := by
  obtain ⟨keys, vs, -, hvs, rfl⟩ := entryKey?_eq_some_iff.1 h
  intro hnull
  obtain ⟨v, hv, htext⟩ := List.mem_map.1 hnull
  obtain ⟨k, -, hk⟩ := exists_left_of_forall₂ (tuple?_eq_some_iff.1 hvs) hv
  exact Value.keyText_ne_null (keyValue?_not_null hk) htext

end KeyIndex

namespace Table

/-- Whether the key columns of a table are the keys of a position in their order, behind its
prefix, and all its rows have the same columns. -/
structure Fits (t : Table) (x : KeyIndex) (p : Position) : Prop where
  keyColumns : t.keyColumns = ((x.keysAt? p).getD []).map (x.column p)
  columns : ∀ r ∈ t.rows, ∀ r' ∈ t.rows, r.keys = r'.keys

variable {t : Table} {x : KeyIndex} {p : Position} {row : Row} {key : KeyTexts}

theorem rowKey_of_rowKey? (ht : t.Fits x p) (h : x.rowKey? row p = some key) :
    t.rowKey row = key := by
  obtain ⟨keys, hkeys, hrow⟩ := Option.bind_eq_some_iff.1 h
  obtain ⟨vs, hvs, rfl⟩ := Option.map_eq_some_iff.1 hrow
  rw [rowKey, ht.keyColumns, hkeys, Option.getD_some, List.map_map, ← List.forall₂_eq_eq_eq,
    List.forall₂_map_left_iff, List.forall₂_map_right_iff]
  refine (mapM_some_iff.1 hvs).imp fun k v hv => ?_
  rw [Function.comp_apply, hv, Option.getD_some]

theorem rowKey?_of_rowKey (ht : t.Fits x p) {keys : List ServingKey}
    (hkeys : x.keysAt? p = some keys) (h : "null" ∉ t.rowKey row) :
    x.rowKey? row p = some (t.rowKey row) := by
  obtain ⟨vs, hvs⟩ : ∃ vs, (keys.mapM fun k => row.get? (x.column p k)) = some vs := by
    refine exists_mapM_some_iff.2 fun k hk => Option.ne_none_iff_exists'.1 fun hnone => h ?_
    rw [rowKey, ht.keyColumns, hkeys, Option.getD_some, List.map_map]
    refine List.mem_map.2 ⟨k, hk, ?_⟩
    rw [Function.comp_apply, hnone]
    rfl
  have hkey : x.rowKey? row p = some (vs.map Value.keyText) := by
    rw [KeyIndex.rowKey?, hkeys, Option.bind_some, hvs, Option.map_some]
  rw [hkey, rowKey_of_rowKey? ht hkey]

/-- **The key columns and the index agree** on the rows with the key of an entry. -/
theorem rowKey_eq_iff (ht : t.Fits x p) {e : Entry} (hkey : x.entryKey? e p = some key) :
    t.rowKey row = key ↔ x.rowKey? row p = some key := by
  constructor
  · rintro rfl
    obtain ⟨keys, -, hkeys, -⟩ := KeyIndex.entryKey?_eq_some_iff.1 hkey
    exact rowKey?_of_rowKey ht hkeys (KeyIndex.null_not_mem_entryKey hkey)
  · exact rowKey_of_rowKey? ht

end Table

/-! ## What lookups find -/

/-- Named values that are complete ask for the key of their entry. -/
theorem Lookup.wanted_named {l : Lookup} {keys : List ServingKey} {e : Entry} {vs : List Value}
    (hnames : keys.map (·.featureName) = l.parameters) (hd : l.parameters.Nodup)
    (hvs : KeyIndex.tuple? keys e = some vs) :
    l.wanted (.named (KeyIndex.namedValues keys vs)) = [vs.map Value.keyText] := by
  have hvalues := KeyIndex.forall₂_namedValues hvs (hnames ▸ hd)
  rw [hnames] at hvalues
  rw [wanted, List.singleton_inj, ← List.forall₂_eq_eq_eq, List.forall₂_map_left_iff,
    List.forall₂_map_right_iff]
  exact hvalues.imp fun name v hv => by rw [hv, Option.getD_some]

namespace Store

/-- The last row of a position whose key columns have the key of an entry. -/
def foundRow? (s : Store) (x : KeyIndex) (e : Entry) (p : Position) : Option Row :=
  (x.entryKey? e p).bind fun key => (s.tables.get? p).bind fun t =>
    (t.rows.filter fun row => t.rowKey row = key).getLast?

variable {s : Store} {x : KeyIndex} {e : Entry} {p : Position} {l : Lookup}

theorem select_eq_of_table {t : Table} (ht : s.tables.get? l.position = some t) (b : Binds) :
    s.select l b = (t.rows.filter fun row => t.rowKey row ∈ l.wanted b).map some := by
  rw [select, ht]
  simp only [List.contains_eq_mem]

/-- **The rows of a single lookup** write the row of their entry. -/
theorem foldl_writeRow_select (hfits : ∀ t, s.tables.get? p = some t → t.Fits x p)
    (hl : l.position = p) {keys : List ServingKey} {vs : List Value}
    (hnames : keys.map (·.featureName) = l.parameters) (hd : l.parameters.Nodup)
    (hkeys : x.keysAt? p = some keys) (hvs : KeyIndex.tuple? keys e = some vs) (schema : Schema)
    (v : FeatureVector) :
    (s.select l (.named (KeyIndex.namedValues keys vs))).foldl (schema.writeRow p) v =
      (s.foundRow? x e p).elim v v.overlay := by
  have hkey : x.entryKey? e p = some (vs.map Value.keyText) :=
    KeyIndex.entryKey?_eq_some_iff.2 ⟨keys, vs, hkeys, hvs, rfl⟩
  subst hl
  rw [foundRow?, hkey, Option.bind_some]
  cases ht : s.tables.get? l.position with
  | none => rw [select, ht]; rfl
  | some t =>
    have hcolumns := (hfits t ht).columns
    simp only [select_eq_of_table ht, Lookup.wanted_named hnames hd hvs, List.mem_singleton,
      List.foldl_map, Option.bind_some]
    exact foldl_overlay (fun r hr r' hr' =>
      hcolumns r (List.mem_of_mem_filter hr) r' (List.mem_of_mem_filter hr')) v

/-- **The rows of a batch lookup** give every entry of the batch its row. -/
theorem matchingRow?_select (hfits : ∀ t, s.tables.get? p = some t → t.Fits x p)
    (hl : l.position = p) {keys : List ServingKey} (hkeys : x.keysAt? p = some keys)
    {tuples : List (List Value)} (he : ∀ vs, KeyIndex.tuple? keys e = some vs → vs ∈ tuples) :
    matchingRow? x p (s.select l (.expanding tuples)) e = s.foundRow? x e p := by
  subst hl
  rw [matchingRow?, foundRow?]
  refine Option.bind_congr fun key hkey => ?_
  rw [lastRow?]
  cases ht : s.tables.get? l.position with
  | none => rw [select, ht]; rfl
  | some t =>
    have hwanted : key ∈ l.wanted (.expanding tuples) := by
      obtain ⟨keys', vs, hkeys', hvs, rfl⟩ := KeyIndex.entryKey?_eq_some_iff.1 hkey
      obtain rfl := Option.some.inj (hkeys.symm.trans hkeys')
      exact List.mem_map_of_mem (he vs hvs)
    have hpresent : presentRows (s.select l (.expanding tuples)) =
        t.rows.filter fun row => t.rowKey row ∈ l.wanted (.expanding tuples) := by
      rw [presentRows, select_eq_of_table ht, List.filterMap_map]
      exact List.filterMap_some
    rw [hpresent, List.filter_filter, Option.bind_some]
    congr 1
    refine List.filter_congr fun row _ => ?_
    rw [Bool.eq_iff_iff, Bool.and_eq_true, decide_eq_true_iff, decide_eq_true_iff,
      decide_eq_true_iff, Table.rowKey_eq_iff (hfits t ht) hkey]
    refine and_iff_left_of_imp fun h => ?_
    rwa [Table.rowKey_of_rowKey? (hfits t ht) h]

end Store

end FeatureServing
