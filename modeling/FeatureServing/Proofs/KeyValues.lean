import Mathlib.Data.List.Nodup
import FeatureServing.Resolution
import FeatureServing.Proofs.JoinPlan

/-!
# The key values of an entry

Single and batch calls walk over the keys of a position by different means, and find the same:

* `KeyIndex.tuple?_eq_some_iff` : a tuple is the value of every key;
* `KeyIndex.collect_eq_true_iff` : the named values are complete when there is a tuple, and then
  they are the tuple under the names of the keys;
* `KeyIndex.get?_resolve_eq_some_iff`, `KeyIndex.get?_resolveBatch_eq_some_iff` : the binds of a
  position in terms of tuples;
* `KeyIndex.keyValue?_derived` : a key made from a parameter asks for the value of that name only;
* `KeyIndex.exists_resolve_iff`, `KeyIndex.exists_resolveBatch_iff` : the positions that entries
  resolve are those they have a key for;
* `KeyIndex.get?_namedValues` : where keys of one name agree, every name has the value of its key;
* `KeyIndex.forall₂_namedValues` : with distinct names the named values are the tuple;
* `PreparedStatement.Receives` : values that are an entry's for the parameters of a statement, in
  the order of their indices.
-/

namespace FeatureServing

theorem Entry.present?_eq_some_iff {e : Entry} {name : String} {v : Value} :
    e.present? name = some v ↔ e.get? name = some v ∧ v.isNull = false := by
  rw [Entry.present?, Option.filter_eq_some_iff, Bool.not_eq_true']

theorem keyValue?_not_null {e : Entry} {k : ServingKey} {v : Value} (h : keyValue? e k = some v) :
    v.isNull = false := by
  rcases Option.or_eq_some_iff.1 h with h | ⟨-, h⟩ <;> exact (Entry.present?_eq_some_iff.1 h).2

namespace KeyIndex

theorem tuple?_eq_some_iff {keys : List ServingKey} {e : Entry} {vs : List Value} :
    tuple? keys e = some vs ↔ List.Forall₂ (fun k v => keyValue? e k = some v) keys vs :=
  mapM_some_iff

/-- A value per key under the names of the keys; the last key of a name counts. -/
def namedValues (keys : List ServingKey) (vs : List Value) : SortedMap String Value :=
  SortedMap.ofList ((keys.map (·.featureName)).zip vs)

theorem collectFrom_eq_true_iff {e : Entry} {found values : SortedMap String Value}
    {keys : List ServingKey} :
    collectFrom e found keys = (true, values) ↔
      ∃ vs, tuple? keys e = some vs ∧
        found.insertMany ((keys.map (·.featureName)).zip vs) = values := by
  simp only [tuple?_eq_some_iff]
  induction keys generalizing found with
  | nil => simp [collectFrom, SortedMap.insertMany]
  | cons k keys ih =>
    rw [collectFrom]
    cases hk : keyValue? e k with
    | none => simp [List.forall₂_cons_left_iff, hk]
    | some v =>
      simp only [ih, List.forall₂_cons_left_iff, hk, Option.some.injEq]
      constructor
      · rintro ⟨vs, hvs, rfl⟩
        exact ⟨v :: vs, ⟨v, vs, rfl, hvs, rfl⟩, rfl⟩
      · rintro ⟨_, ⟨_, vs, rfl, hvs, rfl⟩, rfl⟩
        exact ⟨vs, hvs, rfl⟩

theorem collect_eq_true_iff {x : KeyIndex} {e : Entry} {j : Position}
    {values : SortedMap String Value} :
    x.collect e j = (true, values) ↔
      ∃ keys vs, x.keysAt? j = some keys ∧ tuple? keys e = some vs ∧
        namedValues keys vs = values := by
  rw [collect]
  cases x.keysAt? j with
  | none => simp
  | some keys =>
    simp only [collectFrom_eq_true_iff, Option.some.injEq, exists_and_left, exists_eq_left']
    rfl

theorem get?_resolve_eq_some_iff {x : KeyIndex} {e : Entry} {lookups : SortedMap Position Lookup}
    {j : Position} {b : Binds} :
    (x.resolve e lookups).get? j = some b ↔
      (∃ l, lookups.get? j = some l) ∧ ∃ keys vs, x.keysAt? j = some keys ∧
        tuple? keys e = some vs ∧ .named (namedValues keys vs) = b := by
  rw [resolve, SortedMap.get?_filterMap, Option.bind_eq_some_iff, exists_and_right]
  refine and_congr_right fun _ => ?_
  constructor
  · intro h
    split at h
    · next values hc =>
      obtain ⟨keys, vs, hk, hvs, rfl⟩ := collect_eq_true_iff.1 hc
      exact ⟨keys, vs, hk, hvs, Option.some.inj h⟩
    · simp at h
  · rintro ⟨keys, vs, hk, hvs, rfl⟩
    rw [collect_eq_true_iff.2 ⟨keys, vs, hk, hvs, rfl⟩]

theorem get?_resolveBatch_eq_some_iff {x : KeyIndex} {es : List Entry}
    {lookups : SortedMap Position Lookup} {j : Position} {b : Binds} :
    (x.resolveBatch es lookups).get? j = some b ↔
      (∃ l, lookups.get? j = some l) ∧ ∃ keys, x.keysAt? j = some keys ∧
        es.filterMap (tuple? keys) ≠ [] ∧ .expanding (es.filterMap (tuple? keys)) = b := by
  rw [resolveBatch, SortedMap.get?_filterMap, Option.bind_eq_some_iff, exists_and_right]
  refine and_congr_right fun _ => ?_
  cases x.keysAt? j with
  | none => simp
  | some keys =>
    simp only [Option.some.injEq, exists_eq_left']
    cases es.filterMap (tuple? keys) <;> simp

theorem entryKey?_eq_some_iff {x : KeyIndex} {e : Entry} {j : Position} {key : KeyTexts} :
    x.entryKey? e j = some key ↔
      ∃ keys vs, x.keysAt? j = some keys ∧ tuple? keys e = some vs ∧ vs.map Value.keyText = key := by
  simp only [entryKey?, Option.bind_eq_some_iff, Option.map_eq_some_iff, exists_and_left]

/-- An entry resolves the positions with a lookup that it has a key for. -/
theorem exists_resolve_iff {x : KeyIndex} {e : Entry} {lookups : SortedMap Position Lookup}
    {j : Position} :
    (∃ b, (x.resolve e lookups).get? j = some b) ↔
      (∃ l, lookups.get? j = some l) ∧ ∃ key, x.entryKey? e j = some key := by
  simp only [get?_resolve_eq_some_iff, entryKey?_eq_some_iff]
  constructor
  · rintro ⟨_, hl, keys, vs, hkeys, hvs, -⟩
    exact ⟨hl, _, keys, vs, hkeys, hvs, rfl⟩
  · rintro ⟨hl, _, keys, vs, hkeys, hvs, -⟩
    exact ⟨_, hl, keys, vs, hkeys, hvs, rfl⟩

theorem exists_resolveBatch_iff {x : KeyIndex} {es : List Entry}
    {lookups : SortedMap Position Lookup} {j : Position} :
    (∃ b, (x.resolveBatch es lookups).get? j = some b) ↔
      (∃ l, lookups.get? j = some l) ∧ ∃ e ∈ es, ∃ key, x.entryKey? e j = some key := by
  simp only [get?_resolveBatch_eq_some_iff, entryKey?_eq_some_iff]
  constructor
  · rintro ⟨_, hl, keys, hkeys, hne, -⟩
    obtain ⟨vs, hmem⟩ := List.exists_mem_of_ne_nil _ hne
    obtain ⟨e, he, hvs⟩ := List.mem_filterMap.1 hmem
    exact ⟨hl, e, he, _, keys, vs, hkeys, hvs, rfl⟩
  · rintro ⟨hl, e, he, _, keys, vs, hkeys, hvs, -⟩
    exact ⟨_, hl, keys, hkeys, List.ne_nil_of_mem (List.mem_filterMap.2 ⟨e, he, hvs⟩), rfl⟩

/-- Where keys of one name ask for one value, every name has the value of its key. -/
theorem get?_namedValues {keys : List ServingKey} {e : Entry} {vs : List Value}
    (hvs : tuple? keys e = some vs)
    (hsame : ∀ k ∈ keys, ∀ k' ∈ keys, k.featureName = k'.featureName →
      keyValue? e k = keyValue? e k') {k : ServingKey} (hk : k ∈ keys) :
    ∃ v, keyValue? e k = some v ∧ (namedValues keys vs).get? k.featureName = some v := by
  obtain ⟨hlen, hzip⟩ := List.forall₂_iff_zip.1 (tuple?_eq_some_iff.1 hvs)
  have hfst : k ∈ (keys.zip vs).map Prod.fst := by rwa [List.map_fst_zip (Nat.le_of_eq hlen)]
  obtain ⟨⟨_, v⟩, hpair, rfl⟩ := List.mem_map.1 hfst
  refine ⟨v, hzip hpair, ?_⟩
  rw [namedValues, List.zip_map_left]
  refine SortedMap.get?_ofList_eq_some (List.mem_map.2 ⟨_, hpair, rfl⟩) fun w hw => ?_
  obtain ⟨⟨k', w'⟩, hmem, heq⟩ := List.mem_map.1 hw
  obtain ⟨hname, rfl⟩ := Prod.mk.inj heq
  have hw' : keyValue? e k' = some w' := hzip hmem
  rw [hsame k' (List.of_mem_zip hmem).1 _ hk hname, hzip hpair] at hw'
  exact (Option.some.inj hw').symm

theorem forall₂_namedValues {keys : List ServingKey} {e : Entry} {vs : List Value}
    (hvs : tuple? keys e = some vs) (hd : (keys.map (·.featureName)).Nodup) :
    List.Forall₂ (fun name v => (namedValues keys vs).get? name = some v)
      (keys.map (·.featureName)) vs := by
  rw [List.forall₂_map_left_iff]
  refine forall₂_imp_of_mem (tuple?_eq_some_iff.1 hvs) fun k hk v _ hv => ?_
  obtain ⟨v', hv', hget⟩ := get?_namedValues hvs (fun k hk k' hk' hname => by
    rw [List.inj_on_of_nodup_map hd hk hk' hname]) hk
  rw [hget, ← hv, hv']

theorem keyValue?_derived {s : PreparedStatement} {k : ServingKey} (hk : k ∈ derivedKeys s)
    (e : Entry) : keyValue? e k = e.present? k.featureName := by
  obtain ⟨p, -, rfl⟩ := List.mem_map.1 hk
  have hname : ServingKey.derivedName p.name s.keyPrefix true = p.name := by
    cases s.keyPrefix <;> rfl
  simp [keyValue?, ServingKey.of, hname]

end KeyIndex

/-! ## Values in the order of the parameters -/

namespace PreparedStatement

/-- Whether a list has one value per parameter: at place `k` the value, not null, that the entry
holds under the name of the parameter with the `k`-th smallest index. -/
def Receives (s : PreparedStatement) (e : Entry) (vs : List Value) : Prop :=
  vs.length = s.parameters.length ∧ ∀ k < s.parameters.length, ∃ p ∈ s.parameters, s.rank p = k ∧
    ∃ v, e.get? p.name = some v ∧ v.isNull = false ∧ vs[k]? = some v

theorem receives_iff {s : PreparedStatement} (h : (s.parameters.map (·.index)).Nodup) {e : Entry}
    {vs : List Value} :
    s.Receives e vs ↔
      List.Forall₂ (fun name v => e.present? name = some v) s.primaryKeyNames vs := by
  have hsorted := s.length_sortedParameters
  rw [primaryKeyNames, List.forall₂_map_left_iff]
  constructor
  · rintro ⟨hlen, hall⟩
    refine List.forall₂_iff_get.2 ⟨hsorted.trans hlen.symm, fun k hk hk' => ?_⟩
    obtain ⟨p, hp, hrank, v, hv, hnull, hplace⟩ := hall k (hsorted ▸ hk)
    rw [rank_eq_iff h hp, List.getElem?_eq_getElem hk] at hrank
    rw [List.getElem?_eq_getElem hk'] at hplace
    rw [List.get_eq_getElem, List.get_eq_getElem, Option.some.inj hrank, Option.some.inj hplace]
    exact Entry.present?_eq_some_iff.2 ⟨hv, hnull⟩
  · intro hall
    obtain ⟨hlen, hall⟩ := List.forall₂_iff_get.1 hall
    refine ⟨hlen.symm.trans hsorted, fun k hk => ?_⟩
    have hk' : k < s.sortedParameters.length := hsorted ▸ hk
    obtain ⟨hv, hnull⟩ := Entry.present?_eq_some_iff.1 (hall k hk' (hlen ▸ hk'))
    exact ⟨_, s.sortedParameters_perm.mem_iff.1 (List.getElem_mem hk'),
      rank_sortedParameters h k hk', _, hv, hnull, List.getElem?_eq_getElem (hlen ▸ hk')⟩

end PreparedStatement

end FeatureServing
