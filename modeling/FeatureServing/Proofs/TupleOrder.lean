import FeatureServing.Proofs.KeyValues
import FeatureServing.Proofs.Rendering
import FeatureServing.Proofs.SetUpPlan

/-!
# The order of batch tuples

The tuples of a position are made in the order of its keys, and the keys are made from the single
statement of the position. The batch statement, which the tuples are bound to, has no part in it.

* `PreparedStatement.bindOrder` : the names of a single statement in the order of the keys;
* `KeyIndex.bindOrder_of_nodup` : with distinct names that is the order of the parameters;
* `KeyIndex.FollowsOrder` : the tuples of a position are in the order of a statement;
* `SetUp.followsOrder_iff` : tuples follow the batch statement exactly when its names in their order
  are the names of the single statement in the order of the keys.
-/

namespace FeatureServing

/-! ## The order of the keys -/

/-- The names of the parameters as keys have them: by the index declared last for the name. -/
def PreparedStatement.bindOrder (s : PreparedStatement) : List String :=
  s.primaryKeyNames.mergeSort fun a b =>
    KeyIndex.indexIn s.parameters a ≤ KeyIndex.indexIn s.parameters b

namespace KeyIndex

theorem foldl_indexIn_of_not_mem {ps : List Parameter} {name : String}
    (h : name ∉ ps.map (·.name)) (found : UInt64) :
    ps.foldl (fun found p => if p.name = name then p.index else found) found = found := by
  induction ps generalizing found with
  | nil => rfl
  | cons p ps ih =>
    rw [List.map_cons, List.mem_cons, not_or] at h
    rw [List.foldl_cons, if_neg (Ne.symm h.1), ih h.2]

theorem indexIn_of_mem {ps : List Parameter} (hd : (ps.map (·.name)).Nodup) {p : Parameter}
    (hp : p ∈ ps) : indexIn ps p.name = p.index := by
  rw [indexIn]
  generalize (0 : UInt64) = found
  induction ps generalizing found with
  | nil => simp at hp
  | cons q ps ih =>
    rw [List.map_cons, List.nodup_cons] at hd
    rw [List.foldl_cons]
    rcases List.mem_cons.1 hp with rfl | hp
    · rw [if_pos rfl, foldl_indexIn_of_not_mem hd.1]
    · exact ih hd.2 hp _

theorem bindOrder_of_nodup {s : PreparedStatement} (hd : (s.parameters.map (·.name)).Nodup) :
    s.bindOrder = s.primaryKeyNames := by
  have hindex : ∀ p ∈ s.sortedParameters, indexIn s.parameters p.name = p.index := fun p hp =>
    indexIn_of_mem hd (s.sortedParameters_perm.mem_iff.1 hp)
  refine List.mergeSort_of_pairwise ?_
  rw [PreparedStatement.primaryKeyNames, List.pairwise_map]
  refine s.pairwise_le_sortedParameters.imp_of_mem fun hp hq hle => ?_
  rw [hindex _ hp, hindex _ hq]
  exact decide_eq_true hle

theorem featureNames_derivedKeys (s : PreparedStatement) :
    (derivedKeys s).map (·.featureName) = s.primaryKeyNames := by
  rw [derivedKeys, List.map_map]
  rfl

theorem featureNames_sorted_derivedKeys (s : PreparedStatement) :
    (sorted (indexIn s.parameters) (derivedKeys s)).map (·.featureName) = s.bindOrder := by
  rw [PreparedStatement.bindOrder, ← featureNames_derivedKeys]
  exact List.map_mergeSort fun _ _ _ _ => rfl

theorem keyValue?_sorted_derivedKeys (s : PreparedStatement) :
    ∀ k ∈ sorted (indexIn s.parameters) (derivedKeys s), ∀ e,
      keyValue? e k = e.present? k.featureName :=
  fun _ hk e => keyValue?_derived ((List.mergeSort_perm _ _).mem_iff.1 hk) e

/-! ## Tuples of one position -/

/-- Whether every tuple of a position has the values of a statement's parameters in the order of
the statement, entry by entry. Only entries with all keys of the position have a tuple. -/
def FollowsOrder (x : KeyIndex) (lookups : SortedMap Position Lookup) (t : PreparedStatement) :
    Prop :=
  ∀ entries tuples,
    (x.resolveBatch entries lookups).get? t.position = some (.expanding tuples) →
      List.Forall₂ t.Receives (entries.filter fun e => (x.entryKey? e t.position).isSome) tuples

theorem forall₂_filter_filterMap {α β : Type} (f : α → Option β) (l : List α) :
    List.Forall₂ (fun a b => f a = some b) (l.filter fun a => (f a).isSome) (l.filterMap f) := by
  induction l with
  | nil => exact .nil
  | cons a l ih =>
    cases hf : f a with
    | none => simpa [hf] using ih
    | some b => simpa [hf] using ih

theorem followsOrder_of_keysAt?_eq_none {x : KeyIndex} {lookups : SortedMap Position Lookup}
    {t : PreparedStatement} (hk : x.keysAt? t.position = none) : x.FollowsOrder lookups t := by
  intro entries tuples hbinds
  obtain ⟨-, keys, hk', -⟩ := get?_resolveBatch_eq_some_iff.1 hbinds
  simp [hk] at hk'

theorem followsOrder_iff_forall {x : KeyIndex} {lookups : SortedMap Position Lookup}
    {t : PreparedStatement} {l : Lookup} (hl : lookups.get? t.position = some l)
    {keys : List ServingKey} (hk : x.keysAt? t.position = some keys) :
    x.FollowsOrder lookups t ↔ ∀ e vs, tuple? keys e = some vs → t.Receives e vs := by
  have hentry : ∀ e, (x.entryKey? e t.position).isSome = (tuple? keys e).isSome := fun e => by
    simp [entryKey?, hk]
  constructor
  · intro h e vs hvs
    have hbinds : (x.resolveBatch [e] lookups).get? t.position = some (.expanding [vs]) :=
      get?_resolveBatch_eq_some_iff.2 ⟨⟨l, hl⟩, keys, hk, by simp [hvs], by simp [hvs]⟩
    have hpair := h [e] [vs] hbinds
    rw [List.filter_cons_of_pos (by rw [hentry, hvs]; rfl)] at hpair
    exact (List.forall₂_cons.1 hpair).1
  · intro h entries tuples hbinds
    obtain ⟨-, keys', hk', -, hb⟩ := get?_resolveBatch_eq_some_iff.1 hbinds
    obtain rfl : keys = keys' := Option.some.inj (hk.symm.trans hk')
    obtain rfl := Binds.expanding.inj hb
    simp only [hentry]
    exact (forall₂_filter_filterMap (tuple? keys) entries).imp fun e vs => h e vs

/-- The entry that holds its own name under every one of some names. -/
def ownNames (names : List String) : Entry :=
  SortedMap.ofList (names.map fun name => (name, .text name))

theorem get?_ownNames_eq_some_iff {names : List String} {name : String} {v : Value} :
    (ownNames names).get? name = some v ↔ name ∈ names ∧ v = .text name := by
  have hmem : ∀ {name v}, (name, v) ∈ names.map (fun name => (name, Value.text name)) ↔
      name ∈ names ∧ v = .text name := by
    intro name v
    rw [List.mem_map]
    constructor
    · rintro ⟨n, hn, heq⟩
      obtain ⟨rfl, rfl⟩ := Prod.mk.inj heq
      exact ⟨hn, rfl⟩
    · rintro ⟨hn, rfl⟩
      exact ⟨name, hn, rfl⟩
  rw [ownNames, SortedMap.get?_ofList_eq_some_iff, hmem]
  intro name v w hv hw
  rw [(hmem.1 hv).2, (hmem.1 hw).2]

theorem present?_ownNames {names : List String} {name : String} (h : name ∈ names) :
    (ownNames names).present? name = some (.text name) :=
  Entry.present?_eq_some_iff.2 ⟨get?_ownNames_eq_some_iff.2 ⟨h, rfl⟩, rfl⟩

theorem eq_text_of_present?_ownNames {names : List String} {name : String} {v : Value}
    (h : (ownNames names).present? name = some v) : v = .text name :=
  (get?_ownNames_eq_some_iff.1 (Entry.present?_eq_some_iff.1 h).1).2

/-- Keys that ask for bare names have the values under those names in their tuples. -/
theorem tuple?_eq_some_iff_present? {keys : List ServingKey}
    (hkeys : ∀ k ∈ keys, ∀ e, keyValue? e k = e.present? k.featureName) {e : Entry}
    {vs : List Value} :
    tuple? keys e = some vs ↔
      List.Forall₂ (fun name v => e.present? name = some v) (keys.map (·.featureName)) vs := by
  rw [tuple?_eq_some_iff, List.forall₂_map_left_iff, List.forall₂_iff_zip, List.forall₂_iff_zip]
  refine and_congr_right fun _ => forall_congr' fun k => forall_congr' fun v =>
    forall_congr' fun hmem => ?_
  rw [hkeys k (List.of_mem_zip hmem).1 e]

/-- An entry with its own names tells two orders apart. -/
theorem receives_all_iff {t : PreparedStatement} (ht : (t.parameters.map (·.index)).Nodup)
    {keys : List ServingKey} (hkeys : ∀ k ∈ keys, ∀ e, keyValue? e k = e.present? k.featureName) :
    (∀ e vs, tuple? keys e = some vs → t.Receives e vs) ↔
      keys.map (·.featureName) = t.primaryKeyNames := by
  simp only [PreparedStatement.receives_iff ht]
  constructor
  · intro h
    have hown := h (ownNames (keys.map (·.featureName))) ((keys.map (·.featureName)).map .text) <| by
      rw [tuple?_eq_some_iff_present? hkeys, List.forall₂_map_right_iff, List.forall₂_same]
      exact fun name hname => present?_ownNames hname
    rw [List.forall₂_map_right_iff] at hown
    rw [← List.forall₂_eq_eq_eq]
    exact hown.flip.imp fun own name htext => Value.text.inj (eq_text_of_present?_ownNames htext)
  · rintro h e vs hvs
    rw [← h]
    exact (tuple?_eq_some_iff_present? hkeys).1 hvs

theorem followsOrder_derived_iff {ss : List PreparedStatement}
    (hd : (ss.map (·.position)).Nodup) {lookups : SortedMap Position Lookup}
    {t : PreparedStatement} (ht : (t.parameters.map (·.index)).Nodup) {l : Lookup}
    (hl : lookups.get? t.position = some l) :
    (ofKeys ss (derived ss)).FollowsOrder lookups t ↔
      ∀ s ∈ ss, s.position = t.position → s.parameters ≠ [] → s.bindOrder = t.primaryKeyNames := by
  have hown : ∀ s ∈ ss, s.position = t.position → statementOf? ss t.position = some s :=
    fun s hs hpos => hpos ▸ statementOf?_of_mem hd hs
  have hkeys := keysAt?_derived hd t.position
  cases hs : statementOf? ss t.position with
  | none =>
    rw [hs, Option.bind_none] at hkeys
    refine iff_of_true (followsOrder_of_keysAt?_eq_none hkeys) fun s hmem hpos => ?_
    simp [hown s hmem hpos] at hs
  | some s =>
    obtain ⟨hmem, hpos⟩ := statementOf?_eq_some hs
    have hone : ∀ s' ∈ ss, s'.position = t.position → s' = s := fun s' hs' hpos' =>
      Option.some.inj ((hown s' hs' hpos').symm.trans hs)
    rw [hs, Option.bind_some] at hkeys
    by_cases hp : s.parameters = []
    · rw [if_pos hp] at hkeys
      refine iff_of_true (followsOrder_of_keysAt?_eq_none hkeys) fun s' hs' hpos' hne => ?_
      exact absurd (hone s' hs' hpos' ▸ hp) hne
    · rw [if_neg hp] at hkeys
      rw [followsOrder_iff_forall hl hkeys, receives_all_iff ht (keyValue?_sorted_derivedKeys s),
        featureNames_sorted_derivedKeys]
      exact ⟨fun h s' hs' hpos' _ => hone s' hs' hpos' ▸ h, fun h => h s hmem hpos hp⟩

end KeyIndex

namespace SetUp

/-- **Batch tuples follow the batch statement** of a position exactly when the names of its
parameters, in their order, are those of the single statement in the order of its keys; a single
statement without parameters, or none, gives the position no tuples. -/
theorem followsOrder_iff {source : Source} {r : Request} {store : Handle} {state : ServingState}
    (h : plan source r store = .ok state) (hkeys : r.entity.servingKeys = none) :
    ∃ single batch, source r.entity false false = .ok (some single) ∧
      source r.entity true false = .ok (some batch) ∧
      ∀ j l, state.vector.registry.batch.get? j = some l →
        ∃ t ∈ PreparedStatement.retained r.entity.skip batch, t.position = j ∧
          Lookup.batch t = .ok l ∧
          (state.vector.keys.FollowsOrder state.vector.registry.batch t ↔
            ∀ s ∈ PreparedStatement.retained r.entity.skip single, s.position = j →
              s.parameters ≠ [] → s.bindOrder = t.primaryKeyNames) := by
  obtain ⟨-, single, batch, keys, registry, helper, hs, hb, hx, hr, -, rfl⟩ := plan_ok_iff.1 h
  refine ⟨single, batch, hs, hb, fun j l hl => ?_⟩
  simp only [Plan.stateOver] at hl
  rw [hkeys, KeyIndex.build_ok_iff, Option.getD_none] at hx
  obtain ⟨-, rfl⟩ := hx
  obtain ⟨hsingle, hbatch⟩ := Registry.compile_ok_iff.1 hr
  obtain ⟨hd, -, -⟩ := Registry.exists_compileAll_ok_iff.1 ⟨_, hsingle⟩
  obtain ⟨t, ht, htl⟩ := (Registry.get?_of_compileAll hbatch).1 hl
  obtain ⟨hmem, rfl⟩ := statementOf?_eq_some ht
  have hindices := (PreparedStatement.validate_ok_iff.1 (Lookup.batch_ok_iff.1 htl).1).1
  exact ⟨t, hmem, rfl, htl, KeyIndex.followsOrder_derived_iff hd hindices hl⟩

end SetUp

/-! ### A name that is declared twice -/

/-- A statement whose first and last placeholder are both a stop. -/
def routeStatement (query : String) : PreparedStatement where
  group := none
  position := 0
  parameters := [⟨"stop", 0⟩, ⟨"line", 1⟩, ⟨"stop", 2⟩]
  query := query
  keyPrefix := none

def routeSingle : PreparedStatement :=
  routeStatement "SELECT fare FROM routes WHERE origin = ? AND line = ? AND target = ?"

def routeBatch : PreparedStatement :=
  routeStatement "SELECT fare FROM routes WHERE (origin, line, target) IN ?"

def routeSource : SetUp.Source := fun _ batch _ =>
  .ok (some [if batch then routeBatch else routeSingle])

def routeRequest : SetUp.Request where
  entity := { kind := .featureView, name := "routes", version := 1 }

def routeEntry : Entry := SortedMap.ofList [("stop", .int 7), ("line", .text "x")]

theorem routeStatement_valid {query : String} (h : Text.isBlankText query = false) :
    (routeStatement query).validate = .ok () :=
  PreparedStatement.validate_ok_iff.2 ⟨by simp [routeStatement], h⟩

theorem primaryKeyNames_routeStatement (query : String) :
    (routeStatement query).primaryKeyNames = ["stop", "line", "stop"] := by
  rw [PreparedStatement.primaryKeyNames, PreparedStatement.sortedParameters,
    List.mergeSort_of_pairwise (by simp [routeStatement])]
  rfl

theorem bindOrder_routeStatement (query : String) :
    (routeStatement query).bindOrder = ["line", "stop", "stop"] := by
  rw [PreparedStatement.bindOrder, primaryKeyNames_routeStatement]
  simp [List.mergeSort, List.MergeSort.Internal.splitInTwo, KeyIndex.indexIn, routeStatement]

namespace SetUp

theorem exists_plan_routes : ∃ state, plan routeSource routeRequest = .ok state := by
  have hsingle : routeSingle.validate = .ok () := routeStatement_valid (by decide +kernel)
  have hbatch : routeBatch.validate = .ok () := routeStatement_valid (by decide +kernel)
  have hcount : routeSingle.parameters.length = Query.placeholders routeSingle.query := by
    decide +kernel
  have hone : Query.placeholders routeBatch.query = 1 := by decide +kernel
  refine (exists_plan_ok_iff (by decide) rfl rfl rfl).2 ⟨⟨_, KeyIndex.build_ok_iff.2 ⟨?_, rfl⟩⟩,
    Registry.exists_compile_ok_iff.2 ⟨Registry.exists_compileAll_singleton_iff.2 ?_,
      Registry.exists_compileAll_singleton_iff.2 ?_⟩⟩
  · exact List.forall_mem_singleton.2 hsingle
  · exact Lookup.exists_single_ok_iff.2 ⟨hsingle, hcount⟩
  · exact ⟨_, Lookup.batch_ok_iff.2 ⟨hbatch, hone, rfl⟩⟩

theorem plan_routes_parts {state : ServingState} (h : plan routeSource routeRequest = .ok state) :
    state.vector.keys.keysAt? 0 =
        some (KeyIndex.sorted (KeyIndex.indexIn routeSingle.parameters)
          (KeyIndex.derivedKeys routeSingle)) ∧
      ∃ l, state.vector.registry.batch.get? 0 = some l := by
  obtain ⟨-, single, batch, keys, registry, helper, hs, hb, hx, hr, -, rfl⟩ := plan_ok_iff.1 h
  obtain rfl := Option.some.inj (Except.ok.inj hs)
  obtain rfl := Option.some.inj (Except.ok.inj hb)
  obtain ⟨-, rfl⟩ := KeyIndex.build_ok_iff.1 hx
  have hbatch := (Registry.compile_ok_iff.1 hr).2
  obtain ⟨l, hl⟩ := Registry.exists_compileAll_singleton_iff.1 ⟨_, hbatch⟩
  exact ⟨KeyIndex.keysAt?_derived (by decide) 0,
    l, (Registry.get?_of_compileAll hbatch).2 ⟨routeBatch, rfl, hl⟩⟩

/-- What a route is looked up with is not what its statement asks for: the tuple starts with the
line, the placeholders with a stop. -/
theorem tuple_out_of_order_routes :
    ∃ state, plan routeSource routeRequest = .ok state ∧
      (state.vector.keys.resolveBatch [routeEntry] state.vector.registry.batch).get? 0 =
        some (.expanding [[.text "x", .int 7, .int 7]]) ∧
      ¬ routeBatch.Receives routeEntry [.text "x", .int 7, .int 7] := by
  obtain ⟨state, h⟩ := exists_plan_routes
  obtain ⟨hkeys, hl⟩ := plan_routes_parts h
  have htuple : KeyIndex.tuple? (KeyIndex.sorted (KeyIndex.indexIn routeSingle.parameters)
      (KeyIndex.derivedKeys routeSingle)) routeEntry = some [.text "x", .int 7, .int 7] := by
    rw [KeyIndex.tuple?_eq_some_iff_present? (KeyIndex.keyValue?_sorted_derivedKeys _),
      KeyIndex.featureNames_sorted_derivedKeys, routeSingle, bindOrder_routeStatement]
    exact .cons rfl (.cons rfl (.cons rfl .nil))
  refine ⟨state, h, KeyIndex.get?_resolveBatch_eq_some_iff.2 ⟨hl, _, hkeys, ?_, ?_⟩, fun hr => ?_⟩
  · simp [htuple]
  · simp [htuple]
  · rw [PreparedStatement.receives_iff (by decide), routeBatch, primaryKeyNames_routeStatement] at hr
    have hfirst := (List.forall₂_cons.1 hr).1
    exact Value.noConfusion (Option.some.inj hfirst)

/-- Tuples of routes are not in the order of their statement. -/
theorem followsOrder_iff_routes :
    ∃ state, plan routeSource routeRequest = .ok state ∧
      ¬ state.vector.keys.FollowsOrder state.vector.registry.batch routeBatch := by
  obtain ⟨state, h⟩ := exists_plan_routes
  obtain ⟨-, l, hl⟩ := plan_routes_parts h
  obtain ⟨single, batch, hs, hb, hall⟩ := followsOrder_iff h rfl
  obtain rfl := Option.some.inj (Except.ok.inj hs)
  obtain rfl := Option.some.inj (Except.ok.inj hb)
  obtain ⟨t, ht, -, -, hiff⟩ := hall 0 l hl
  obtain rfl : t = routeBatch := by simpa using List.mem_of_mem_filter ht
  refine ⟨state, h, fun hfollows => ?_⟩
  have hnames := hiff.1 hfollows routeSingle (List.mem_singleton.2 rfl) rfl (by decide)
  rw [routeSingle, routeBatch, bindOrder_routeStatement, primaryKeyNames_routeStatement] at hnames
  exact absurd hnames (by decide)

end SetUp

end FeatureServing
