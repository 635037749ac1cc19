import FeatureServing.Proofs.BatchAgreement
import FeatureServing.Proofs.TupleOrder

/-!
# Keys that cover the parameters

A single call resolves a position when the entry has a value for every key of it, and binds these
values under the names of the keys. The lookup of the position asks for the names of its parameters.

* `Pipeline.Unbound` : an entry resolves a position without a value for a parameter, which depends on
  the names of the keys alone (`Pipeline.unbound_iff`);
* `KeyIndex.Covers` : keys name all parameters of a statement; keys made from it do
  (`KeyIndex.covers_derived`);
* `Pipeline.bound_of_covers`, `Pipeline.exists_unbound` : nothing is unbound when the keys cover the
  statements, and otherwise something is, for an entry that passes all checks;
* `Pipeline.unbound_of_render`, `Pipeline.Unbound.exists_error` : the queries of an entry fail to
  render when something is unbound, and for no other reason.
-/

namespace FeatureServing

/-- The value under the name of a parameter. -/
def Binds.value? : Binds → String → Option Value
  | named values, name => values.get? name
  | expanding _, _ => none

/-- Whether an entry resolves a position without a value for one of the parameters of its lookup. -/
def Pipeline.Unbound (p : Pipeline) (e : Entry) (j : Position) (name : String) : Prop :=
  ∃ l b, p.registry.single.get? j = some l ∧ (p.keys.resolve e p.registry.single).get? j = some b ∧
    name ∈ l.parameters ∧ b.value? name = none

namespace KeyIndex

/-- Whether the keys of the position of a statement name all its parameters. A position without keys
is never looked up. -/
def Covers (keys : List ServingKey) (s : PreparedStatement) : Prop :=
  keysOf keys s.position ≠ [] →
    ∀ p ∈ s.parameters, p.name ∈ (keysOf keys s.position).map (·.featureName)

instance (keys : List ServingKey) (s : PreparedStatement) : Decidable (Covers keys s) :=
  inferInstanceAs (Decidable (_ → _))

theorem covers_derived {ss : List PreparedStatement} {s : PreparedStatement} (hs : s ∈ ss) :
    Covers (derived ss) s := by
  intro _ p hp
  rw [keysOf_derived]
  refine List.mem_map.2 ⟨.of p.name s.position s.keyPrefix true none, ?_, rfl⟩
  refine List.mem_flatMap.2 ⟨s, List.mem_filter.2 ⟨hs, decide_eq_true rfl⟩, ?_⟩
  exact List.mem_map_of_mem (s.sortedParameters_perm.mem_iff.2 hp)

theorem keysAt?_ofKeys_eq_some {ss : List PreparedStatement} {keys ks : List ServingKey}
    {j : Position} (h : (ofKeys ss keys).keysAt? j = some ks) :
    keysOf keys j ≠ [] ∧ ks.Perm (keysOf keys j) := by
  rw [keysAt?_ofKeys] at h
  split at h
  · cases h
  · next hne => exact ⟨hne, Option.some.inj h ▸ List.mergeSort_perm _ _⟩

theorem exists_get?_namedValues_iff {ks : List ServingKey} {e : Entry} {vs : List Value}
    (hvs : tuple? ks e = some vs) {name : String} :
    (∃ v, (namedValues ks vs).get? name = some v) ↔ name ∈ ks.map (·.featureName) := by
  have hlen : (ks.map (·.featureName)).length ≤ vs.length := by
    rw [List.length_map]
    exact Nat.le_of_eq (tuple?_eq_some_iff.1 hvs).length_eq
  rw [namedValues, SortedMap.exists_get?_ofList_iff]
  constructor
  · rintro ⟨v, hv⟩
    exact (List.of_mem_zip hv).1
  · intro hname
    rw [← List.map_fst_zip hlen] at hname
    obtain ⟨⟨_, v⟩, hv, rfl⟩ := List.mem_map.1 hname
    exact ⟨v, hv⟩

/-! ### An entry with the names of the keys -/

theorem exists_tuple?_ownNames (ks : List ServingKey) :
    ∃ vs, tuple? ks (ownNames (ks.map (·.featureName))) = some vs := by
  refine exists_mapM_some_iff.2 fun k hk => ?_
  have hown : Entry.present? (ownNames (ks.map (·.featureName))) k.featureName =
      some (.text k.featureName) := present?_ownNames (List.mem_map_of_mem hk)
  rw [keyValue?, hown]
  cases Entry.present? (ownNames (ks.map (·.featureName))) k.required with
  | none => exact ⟨_, rfl⟩
  | some v => exact ⟨v, rfl⟩

theorem validateEntry_ownNames {ss : List PreparedStatement} {keys ks : List ServingKey}
    (hks : ∀ k ∈ ks, k ∈ keys) :
    (ofKeys ss keys).validateEntry (ownNames (ks.map (·.featureName))) = .ok () := by
  have hvalid : ∀ k ∈ ks, (ofKeys ss keys).isValid k.featureName = true := by
    intro k hk
    have hmem : k.featureName ∈ keys.flatMap fun k => [k.featureName, k.required] :=
      List.mem_flatMap.2 ⟨k, hks k hk, List.mem_cons_self⟩
    exact SortedMap.contains_setOfList_iff.2 hmem
  have hfind : (ownNames (ks.map (·.featureName))).keys.find?
      (fun name => !(ofKeys ss keys).isValid name) = none := by
    refine List.find?_eq_none.2 fun name hname => ?_
    obtain ⟨v, hv⟩ := SortedMap.mem_keys_iff.1 hname
    obtain ⟨k, hk, rfl⟩ := List.mem_map.1 (get?_ownNames_eq_some_iff.1 hv).1
    simp [hvalid k hk]
  rw [validateEntry, hfind]

theorem checkSingleShape_ownNames (names : List String) :
    checkSingleShape (ownNames names) = .ok () := by
  rw [checkSingleShape_ok_iff]
  cases hentries : (ownNames names).entries with
  | nil =>
    left
    rw [SortedMap.isEmpty, hentries]
    rfl
  | cons entry rest =>
    obtain ⟨name, v⟩ := entry
    have hmem : (name, v) ∈ (ownNames names).entries := hentries ▸ List.mem_cons_self
    obtain ⟨-, rfl⟩ := get?_ownNames_eq_some_iff.1 (SortedMap.mem_entries_iff.1 hmem)
    exact .inr ⟨.text name, List.mem_map.2 ⟨_, hmem, rfl⟩, rfl⟩

end KeyIndex

namespace Pipeline

variable {p : Pipeline} {e : Entry} {j : Position} {name : String}

/-- **What an entry leaves unbound** is what the keys of a position do not name, if the entry has all
these keys. -/
theorem unbound_iff :
    p.Unbound e j name ↔ ∃ l ks, p.registry.single.get? j = some l ∧ p.keys.keysAt? j = some ks ∧
      (∃ vs, KeyIndex.tuple? ks e = some vs) ∧ name ∈ l.parameters ∧
        name ∉ ks.map (·.featureName) := by
  constructor
  · rintro ⟨l, b, hl, hb, hname, hnone⟩
    obtain ⟨-, ks, vs, hks, hvs, rfl⟩ := KeyIndex.get?_resolve_eq_some_iff.1 hb
    refine ⟨l, ks, hl, hks, ⟨vs, hvs⟩, hname, fun hkey => ?_⟩
    obtain ⟨v, hv⟩ := (KeyIndex.exists_get?_namedValues_iff hvs).2 hkey
    exact Option.some_ne_none v (hv.symm.trans hnone)
  · rintro ⟨l, ks, hl, hks, ⟨vs, hvs⟩, hname, hkey⟩
    refine ⟨l, _, hl, KeyIndex.get?_resolve_eq_some_iff.2 ⟨⟨l, hl⟩, ks, vs, hks, hvs, rfl⟩, hname, ?_⟩
    refine Option.eq_none_iff_forall_ne_some.2 fun v hv => hkey ?_
    exact (KeyIndex.exists_get?_namedValues_iff hvs).1 ⟨v, hv⟩

section Compiled

variable {single batch others : List PreparedStatement} {skip : SortedSet GroupId}
  {keys : List ServingKey}

/-- **Keys that cover the statements** leave nothing unbound. -/
theorem bound_of_covers (hr : Registry.compile single batch skip = .ok p.registry)
    (hx : p.keys = .ofKeys others keys)
    (hcovers : ∀ s ∈ PreparedStatement.retained skip single, KeyIndex.Covers keys s) (e : Entry)
    (j : Position) (name : String) : ¬ p.Unbound e j name := by
  intro hunbound
  obtain ⟨l, ks, hl, hks, -, hname, hkey⟩ := unbound_iff.1 hunbound
  have hsingle := (Registry.compile_ok_iff.1 hr).1
  obtain ⟨s, hsj, hsl⟩ := (Registry.get?_of_compileAll hsingle).1 hl
  obtain ⟨hs, rfl⟩ := statementOf?_eq_some hsj
  rw [hx] at hks
  obtain ⟨hne, hperm⟩ := KeyIndex.keysAt?_ofKeys_eq_some hks
  rw [Lookup.parameters_of_single hsl] at hname
  obtain ⟨q, hq, rfl⟩ := List.mem_map.1 hname
  have hnamed := hcovers s hs hne q (s.sortedParameters_perm.mem_iff.1 hq)
  exact hkey ((hperm.map _).mem_iff.2 hnamed)

/-- Keys that leave out a parameter leave it unbound for an entry that passes all checks. -/
theorem exists_unbound (hr : Registry.compile single batch skip = .ok p.registry)
    (hx : p.keys = .ofKeys others keys) {s : PreparedStatement}
    (hs : s ∈ PreparedStatement.retained skip single) (h : ¬ KeyIndex.Covers keys s) :
    ∃ e fetches name, p.prepare e = .ok fetches ∧ p.Unbound e s.position name := by
  simp only [KeyIndex.Covers, Classical.not_imp, not_forall] at h
  obtain ⟨hne, q, hq, hmissing⟩ := h
  have hsingle := (Registry.compile_ok_iff.1 hr).1
  obtain ⟨hd, -, hall⟩ := Registry.exists_compileAll_ok_iff.1 ⟨_, hsingle⟩
  obtain ⟨l, hsl⟩ := hall s hs
  have hl := (Registry.get?_of_compileAll hsingle).2 ⟨s, statementOf?_of_mem hd hs, hsl⟩
  obtain ⟨ks, hks⟩ : ∃ ks, p.keys.keysAt? s.position = some ks :=
    ⟨_, by rw [hx, KeyIndex.keysAt?_ofKeys, if_neg hne]⟩
  obtain ⟨-, hperm⟩ := KeyIndex.keysAt?_ofKeys_eq_some (hx ▸ hks)
  -- The entry holds the names of the keys and nothing else, so it is valid and has all keys.
  have hgiven : ∀ k ∈ ks, k ∈ keys := fun k hk => (List.mem_filter.1 (hperm.mem_iff.1 hk)).1
  have hvalid : p.keys.validateEntry (KeyIndex.ownNames (ks.map (·.featureName))) = .ok () := by
    rw [hx]
    exact KeyIndex.validateEntry_ownNames hgiven
  have hname : q.name ∈ l.parameters := by
    rw [Lookup.parameters_of_single hsl]
    exact List.mem_map_of_mem (s.sortedParameters_perm.mem_iff.2 hq)
  refine ⟨_, _, q.name, prepare_ok_iff.2 ⟨KeyIndex.checkSingleShape_ownNames _, hvalid, rfl⟩, ?_⟩
  refine unbound_iff.2 ⟨l, ks, hl, hks, KeyIndex.exists_tuple?_ownNames ks, hname, fun hkey => ?_⟩
  exact hmissing ((hperm.map _).mem_iff.1 hkey)

/-- **A query that does not render** leaves a parameter unbound, which is its error. -/
theorem unbound_of_render (hr : Registry.compile single batch skip = .ok p.registry) {f : Fetch}
    (hf : f ∈ p.singleFetches e) {err : ServingError}
    (herr : f.lookup.render .questionMark f.binds = .error err) :
    ∃ j name, p.Unbound e j name ∧ err = .configuration (.unboundParameter j name) := by
  obtain ⟨j, l, b, hl, hb, rfl⟩ := FanOut.mem_submitted_iff.1 hf
  obtain ⟨s, hsl, -⟩ := Registry.single_of_compile hr hl
  obtain ⟨-, ks, vs, -, -, rfl⟩ := KeyIndex.get?_resolve_eq_some_iff.1 hb
  obtain ⟨name, hname, hnone, rfl⟩ := Lookup.unbound_of_render hsl herr
  exact ⟨j, name, ⟨l, _, hl, hb, hname, hnone⟩, by rw [Registry.position_of_single hr hl]⟩

theorem render_of_bound (hr : Registry.compile single batch skip = .ok p.registry)
    (hbound : ∀ j name, ¬ p.Unbound e j name) {f : Fetch} (hf : f ∈ p.singleFetches e) :
    ∃ q, f.lookup.render .questionMark f.binds = .ok q := by
  cases hrender : f.lookup.render .questionMark f.binds with
  | ok q => exact ⟨q, rfl⟩
  | error err =>
    obtain ⟨j, name, hunbound, -⟩ := unbound_of_render hr hf hrender
    exact absurd hunbound (hbound j name)

/-- No store answers all queries of an entry that leaves a parameter unbound. -/
theorem Unbound.exists_error (hr : Registry.compile single batch skip = .ok p.registry)
    (h : p.Unbound e j name) (store : Store) :
    ∃ err, FanOut.answers store (p.singleFetches e) = .error err := by
  cases hanswers : FanOut.answers store (p.singleFetches e) with
  | error err => exact ⟨err, rfl⟩
  | ok results =>
    -- A query that was answered was rendered, with a value for the name.
    obtain ⟨l, b, hl, hb, hname, hnone⟩ := h
    obtain ⟨s, hsl, -⟩ := Registry.single_of_compile hr hl
    have hall := exists_mapM_ok_iff.1 (exists_map_ok_iff.1 ⟨results, hanswers⟩)
    obtain ⟨_, hplaced⟩ := hall _ (FanOut.mem_submitted_iff.2 ⟨j, l, b, hl, hb, rfl⟩)
    obtain ⟨rows, hrows, -⟩ := map_ok_iff.1 hplaced
    obtain ⟨-, ks, vs, -, -, rfl⟩ := KeyIndex.get?_resolve_eq_some_iff.1 hb
    have hrender := Store.exists_render_of_answer hrows
    obtain ⟨v, hv⟩ := (Lookup.exists_render_named_iff hsl).1 hrender name hname
    exact absurd (hv.symm.trans hnone) (Option.some_ne_none v)

end Compiled

end Pipeline

end FeatureServing
