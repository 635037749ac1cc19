import FeatureServing.Proofs.KeyValues
import FeatureServing.Proofs.Rendering

/-!
# Binds of single lookups

The keys of an index that is made from statements, the named values that an entry has for them and
the placeholders of the compiled queries are three orders of one set of parameters:

* `KeyIndex.namedValues_derived` : every parameter of a resolved position has its value;
* `Registry.render_resolved` : every placeholder gets the value of its own parameter.
-/

namespace FeatureServing

namespace KeyIndex

theorem namedValues_derived {s : PreparedStatement} {keys : List ServingKey}
    (hperm : keys.Perm (derivedKeys s)) {e : Entry} {vs : List Value}
    (hvs : tuple? keys e = some vs) {p : Parameter} (hp : p ∈ s.parameters) :
    ∃ v, (namedValues keys vs).get? p.name = some v ∧ e.present? p.name = some v := by
  have hmem : ∀ {k}, k ∈ keys → k ∈ derivedKeys s := fun hk => hperm.mem_iff.1 hk
  have hkey : ServingKey.of p.name s.position s.keyPrefix true none ∈ keys :=
    hperm.mem_iff.2 (List.mem_map_of_mem (s.sortedParameters_perm.mem_iff.2 hp))
  obtain ⟨v, hv, hget⟩ := get?_namedValues hvs (fun k hk k' hk' hname => by
    rw [keyValue?_derived (hmem hk), keyValue?_derived (hmem hk'), hname]) hkey
  rw [keyValue?_derived (hmem hkey)] at hv
  exact ⟨v, hget, hv⟩

/-- An entry resolves a position when it has a value for every parameter of its statement, of
which there is at least one. -/
theorem exists_resolve_derived_iff {ss : List PreparedStatement}
    (hd : (ss.map (·.position)).Nodup) {e : Entry} {lookups : SortedMap Position Lookup}
    {j : Position} :
    (∃ b, ((ofKeys ss (derived ss)).resolve e lookups).get? j = some b) ↔
      (∃ l, lookups.get? j = some l) ∧ ∃ s, statementOf? ss j = some s ∧ s.parameters ≠ [] ∧
        ∀ p ∈ s.parameters, ∃ v, e.present? p.name = some v := by
  have htuple : ∀ {s : PreparedStatement} {keys : List ServingKey}, keys.Perm (derivedKeys s) →
      ((∃ vs, tuple? keys e = some vs) ↔ ∀ p ∈ s.parameters, ∃ v, e.present? p.name = some v) := by
    intro s keys hperm
    simp only [tuple?, exists_mapM_some_iff, hperm.mem_iff]
    constructor
    · intro h p hp
      have hk : ServingKey.of p.name s.position s.keyPrefix true none ∈ derivedKeys s :=
        List.mem_map_of_mem (s.sortedParameters_perm.mem_iff.2 hp)
      exact keyValue?_derived hk e ▸ h _ hk
    · intro h k hk
      rw [keyValue?_derived hk]
      obtain ⟨p, hp, rfl⟩ := List.mem_map.1 hk
      exact h p (s.sortedParameters_perm.mem_iff.1 hp)
  simp only [get?_resolve_eq_some_iff]
  constructor
  · rintro ⟨_, hl, keys, vs, hkeys, hvs, -⟩
    have hall := hkeys
    rw [keysAt?_derived hd, Option.bind_eq_some_iff] at hall
    obtain ⟨s, hs, hall⟩ := hall
    refine ⟨hl, s, hs, fun hnil => by simp [hnil] at hall, ?_⟩
    exact (htuple (perm_of_keysAt?_derived hd hs hkeys)).1 ⟨vs, hvs⟩
  · rintro ⟨hl, s, hs, hne, hall⟩
    have hkeys := keysAt?_derived hd j
    rw [hs, Option.bind_some, if_neg hne] at hkeys
    obtain ⟨vs, hvs⟩ := (htuple (perm_of_keysAt?_derived hd hs hkeys)).2 hall
    exact ⟨_, hl, _, vs, hkeys, hvs, rfl⟩

end KeyIndex

namespace Registry

/-- **Placeholders get the values of their own parameters.** A plan that compiles has an index of
keys made from its single statements. Whenever an entry resolves a position, the lookup renders
with one value per placeholder of the query: from left to right what the entry holds for the
parameters, in the order of their indices. -/
theorem render_resolved {single batch : List PreparedStatement} {skip : SortedSet GroupId}
    {r : Registry} (hr : Registry.compile single batch skip = .ok r) :
    ∃ x, KeyIndex.build single none skip = .ok x ∧
      ∀ (e : Entry) (style : PlaceholderStyle) (j : Position) (b : Binds),
        (x.resolve e r.single).get? j = some b →
        ∃ s ∈ PreparedStatement.retained skip single, s.position = j ∧
          ∃ l, Lookup.single s = .ok l ∧ r.single.get? j = some l ∧
            ∃ q, l.render style b = .ok q ∧
              q.text = String.join
                (RenderedQuery.write style 1 (Lookup.fill (Query.tokens s.query) q.values)) ∧
              q.values.length = Query.placeholders s.query ∧ s.Receives e q.values := by
  have hsingle := (compile_ok_iff.1 hr).1
  obtain ⟨hd, -, hall⟩ := exists_compileAll_ok_iff.1 ⟨_, hsingle⟩
  have hvalid : ∀ s ∈ PreparedStatement.retained skip single, s.validate = .ok () := by
    intro s hs
    obtain ⟨l, hl⟩ := hall s hs
    exact (Lookup.single_ok_iff.1 hl).1
  refine ⟨_, KeyIndex.build_ok_iff.2 ⟨hvalid, rfl⟩, fun e style j b hb => ?_⟩
  obtain ⟨⟨l, hl⟩, keys, vs, hkeys, hvs, rfl⟩ := KeyIndex.get?_resolve_eq_some_iff.1 hb
  obtain ⟨s, hs, hsl⟩ := (get?_of_compileAll hsingle).1 hl
  obtain ⟨hmem, hpos⟩ := statementOf?_eq_some hs
  have hperm := KeyIndex.perm_of_keysAt?_derived hd hs hkeys
  have hindices := (PreparedStatement.validate_ok_iff.1 (hvalid s hmem)).1
  -- what the entry has for the names is what was bound under them
  obtain ⟨ws, hws⟩ : ∃ ws, s.primaryKeyNames.mapM e.present? = some ws := by
    refine exists_mapM_some_iff.2 fun name hname => ?_
    obtain ⟨p, hp, rfl⟩ := List.mem_map.1 hname
    obtain ⟨v, -, hv⟩ := KeyIndex.namedValues_derived hperm hvs (s.sortedParameters_perm.mem_iff.1 hp)
    exact ⟨v, hv⟩
  rw [mapM_some_iff] at hws
  have hbound : List.Forall₂
      (fun name v => (KeyIndex.namedValues keys vs).get? name = some v) s.primaryKeyNames ws := by
    refine forall₂_imp_of_mem hws fun name hname w _ hw => ?_
    obtain ⟨p, hp, rfl⟩ := List.mem_map.1 hname
    obtain ⟨v, hget, hv⟩ := KeyIndex.namedValues_derived hperm hvs (s.sortedParameters_perm.mem_iff.1 hp)
    rw [hget, ← hv, hw]
  refine ⟨s, hmem, hpos, l, hsl, hl, _, Lookup.render_single hsl hbound style, rfl, ?_,
    (PreparedStatement.receives_iff hindices).2 hws⟩
  rw [← hws.length_eq, s.length_primaryKeyNames, (Lookup.exists_single_ok_iff.1 ⟨l, hsl⟩).2]

/-! ### Parameters declared the other way round -/

def orderStatement : PreparedStatement where
  group := some 7
  position := 3
  parameters := [⟨"shop", 1⟩, ⟨"customer", 0⟩]
  query := "SELECT total FROM orders WHERE customer = ? AND shop = ?"
  keyPrefix := some "left_"

def orderEntry : Entry := SortedMap.ofList [("shop", .text "a"), ("customer", .int 5)]

/-- The first placeholder gets the customer, which is declared last. -/
theorem render_resolved_orders :
    ∃ r x b l q, Registry.compile [orderStatement] [] ∅ = .ok r ∧
      KeyIndex.build [orderStatement] none ∅ = .ok x ∧
      (x.resolve orderEntry r.single).get? 3 = some b ∧ r.single.get? 3 = some l ∧
      l.render .numbered b = .ok q ∧ q.values.length = 2 ∧
      q.values[0]? = orderEntry.get? "customer" ∧ q.values[1]? = orderEntry.get? "shop" := by
  have hcount : Query.placeholders orderStatement.query = 2 := by decide +kernel
  have hvalid : orderStatement.validate = .ok () :=
    PreparedStatement.validate_ok_iff.2 ⟨by decide, by decide +kernel⟩
  have hsingle : ∃ l, Lookup.single orderStatement = .ok l :=
    Lookup.exists_single_ok_iff.2 ⟨hvalid, hcount.symm⟩
  obtain ⟨r, hr⟩ : ∃ r, Registry.compile [orderStatement] [] ∅ = .ok r :=
    exists_compile_ok_iff.2 ⟨exists_compileAll_singleton_iff.2 hsingle, _, rfl⟩
  obtain ⟨x, hx, hall⟩ := render_resolved hr
  obtain ⟨-, rfl⟩ := KeyIndex.build_ok_iff.1 hx
  obtain ⟨l, hl⟩ := hsingle
  have hget : r.single.get? 3 = some l :=
    (get?_of_compileAll (compile_ok_iff.1 hr).1).2 ⟨orderStatement, rfl, hl⟩
  have hpresent : ∀ p ∈ orderStatement.parameters, ∃ v, orderEntry.present? p.name = some v :=
    List.forall_mem_cons.2 ⟨⟨.text "a", rfl⟩, List.forall_mem_singleton.2 ⟨.int 5, rfl⟩⟩
  obtain ⟨b, hb⟩ : ∃ b, ((KeyIndex.ofKeys [orderStatement] (KeyIndex.derived [orderStatement])).resolve
      orderEntry r.single).get? 3 = some b :=
    (KeyIndex.exists_resolve_derived_iff (by decide)).2
      ⟨⟨l, hget⟩, orderStatement, rfl, by decide, hpresent⟩
  obtain ⟨s, hs, -, l', -, hl', q, hq, -, hlen, -, hvalues⟩ := hall orderEntry .numbered 3 b hb
  obtain rfl : s = orderStatement := by simpa using List.mem_of_mem_filter hs
  obtain rfl : l = l' := Option.some.inj (hget.symm.trans hl')
  rw [hcount] at hlen
  refine ⟨r, _, b, l, q, hr, hx, hb, hget, hq, hlen, ?_, ?_⟩
  · obtain ⟨p, hp, hrank, v, hv, -, hplace⟩ := hvalues 0 (by decide)
    rcases List.mem_pair.1 hp with rfl | rfl
    · exact absurd hrank (by decide)
    · exact hplace.trans hv.symm
  · obtain ⟨p, hp, hrank, v, hv, -, hplace⟩ := hvalues 1 (by decide)
    rcases List.mem_pair.1 hp with rfl | rfl
    · exact hplace.trans hv.symm
    · exact absurd hrank (by decide)

end Registry

end FeatureServing
