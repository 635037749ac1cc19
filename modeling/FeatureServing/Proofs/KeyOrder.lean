import Mathlib.Data.List.Perm.Basic
import FeatureServing.Proofs.TupleOrder

/-!
# The order of supplied keys

An index may be built from keys in any order, of any positions and with names that no statement
declares. It files every one of them:

* `KeyIndex.declaredIndex` : the index that the last statement of a position declares for a name;
* `KeyIndex.flatMap_keysOf_perm` : the keys of all positions are the keys;
* `KeyIndex.filter_sorted` : keys with the same index stay in the order they came in;
* `KeyIndex.IsIndexOf` : what an index over statements makes of its keys;
* `KeyIndex.IsIndexOf.featureNames_eq` : with one key per parameter the names of a position are
  those of its statement in order;
* `KeyIndex.isIndexOf_of_build` : every index that is built is such a one.
-/

namespace FeatureServing

/-- The index of the last parameter of a name, zero if a statement has no such parameter. -/
def PreparedStatement.declaredIndex (s : PreparedStatement) (name : String) : UInt64 :=
  (s.parameters.filter fun p => p.name = name).getLast?.elim 0 (·.index)

namespace KeyIndex

/-! ## Declared indices -/

/-- The index that the last statement of a position declares for a name, zero if there is none. -/
def declaredIndex (ss : List PreparedStatement) (j : Position) (name : String) : UInt64 :=
  (ss.filter fun s => s.position = j).getLast?.elim 0 (·.declaredIndex name)

theorem indexIn_eq_declaredIndex (s : PreparedStatement) (name : String) :
    indexIn s.parameters name = s.declaredIndex name :=
  foldl_eq_getLast? (fun p : Parameter => p.name = name) (·.index) s.parameters 0

theorem order_eq_declaredIndex (ss : List PreparedStatement) (j : Position) (name : String) :
    order ss j name = declaredIndex ss j name := by
  rw [order, statementAt?_eq_getLast?, declaredIndex]
  cases (ss.filter fun s => s.position = j).getLast? with
  | none => rfl
  | some s => exact indexIn_eq_declaredIndex s name

theorem declaredIndex_of_mem {s : PreparedStatement} (hd : (s.parameters.map (·.name)).Nodup)
    {p : Parameter} (hp : p ∈ s.parameters) : s.declaredIndex p.name = p.index := by
  rw [← indexIn_eq_declaredIndex, indexIn_of_mem hd hp]

/-! ## Keys by position -/

theorem mem_keysOf_iff {keys : List ServingKey} {j : Position} {k : ServingKey} :
    k ∈ keysOf keys j ↔ k ∈ keys ∧ k.position = j := by
  simp [keysOf]

theorem flatMap_keysOf_perm {keys : List ServingKey} {js : List Position} (hd : js.Nodup)
    (hall : ∀ k ∈ keys, k.position ∈ js) : (js.flatMap (keysOf keys)).Perm keys := by
  induction js generalizing keys with
  | nil =>
    obtain rfl := List.eq_nil_iff_forall_not_mem.2 fun k hk => List.not_mem_nil (hall k hk)
    rfl
  | cons j js ih =>
    obtain ⟨hj, hd⟩ := List.nodup_cons.1 hd
    let others := keys.filter fun k => !decide (k.position = j)
    -- the keys of the later positions are all among the others
    have hrest : js.flatMap (keysOf keys) = js.flatMap (keysOf others) := by
      refine List.flatMap_congr fun i hi => ?_
      have hne : i ≠ j := fun h => hj (h ▸ hi)
      rw [keysOf, keysOf, List.filter_filter]
      refine List.filter_congr fun k _ => ?_
      by_cases hk : k.position = i <;> simp [hk, hne]
    have hothers : ∀ k ∈ others, k.position ∈ js := fun k hk => by
      obtain ⟨hmem, hne⟩ := List.mem_filter.1 hk
      exact (List.mem_cons.1 (hall k hmem)).resolve_left (by simpa using hne)
    rw [List.flatMap_cons, hrest]
    exact ((ih hd hothers).append_left _).trans (List.filter_append_perm _ keys)

/-- One key per parameter of a statement, under the bare name of the parameter. -/
def parameterKeys (s : PreparedStatement) : List ServingKey :=
  s.parameters.map fun p => ⟨p.name, s.position, s.keyPrefix, true, p.name⟩

theorem derived_perm (ss : List PreparedStatement) :
    (derived ss).Perm (ss.flatMap parameterKeys) := by
  refine List.Perm.flatMap_left ss fun s _ => ?_
  have hkey : ∀ p : Parameter, ServingKey.of p.name s.position s.keyPrefix true none =
      ⟨p.name, s.position, s.keyPrefix, true, p.name⟩ := fun p => by
    cases hs : s.keyPrefix <;> rfl
  simp only [hkey]
  exact s.sortedParameters_perm.map _

/-! ## Sorted keys -/

section

variable (index : String → UInt64) (keys : List ServingKey)

theorem sorted_perm : (sorted index keys).Perm keys :=
  List.mergeSort_perm _ _

theorem sorted_trans (a b c : ServingKey) :
    decide (index a.featureName ≤ index b.featureName) = true →
      decide (index b.featureName ≤ index c.featureName) = true →
        decide (index a.featureName ≤ index c.featureName) = true := by
  simp only [decide_eq_true_eq]
  exact UInt64.le_trans

theorem sorted_total (a b : ServingKey) :
    (decide (index a.featureName ≤ index b.featureName) ||
      decide (index b.featureName ≤ index a.featureName)) = true := by
  simpa using UInt64.le_total (index a.featureName) (index b.featureName)

theorem pairwise_sorted :
    (sorted index keys).Pairwise fun a b => index a.featureName ≤ index b.featureName :=
  (List.pairwise_mergeSort (sorted_trans index) (sorted_total index) keys).imp of_decide_eq_true

/-- **Equal keys keep their order**: of each index the sorted keys are those of the list. -/
theorem filter_sorted (i : UInt64) :
    ((sorted index keys).filter fun k => index k.featureName = i) =
      keys.filter fun k => index k.featureName = i := by
  have hequal : ∀ k ∈ keys.filter (fun k => index k.featureName = i), index k.featureName = i :=
    fun k hk => of_decide_eq_true (List.mem_filter.1 hk).2
  have hascending : (keys.filter fun k => index k.featureName = i).Pairwise
      fun a b => decide (index a.featureName ≤ index b.featureName) = true :=
    List.pairwise_of_forall_mem_list fun a ha b hb => by
      rw [hequal a ha, hequal b hb]
      exact decide_eq_true (UInt64.le_refl i)
  have hkept : (keys.filter fun k => index k.featureName = i).Sublist (sorted index keys) :=
    List.sublist_mergeSort (sorted_trans index) (sorted_total index) hascending
      List.filter_sublist
  -- one is a sublist of the other, and they are as long
  have hsub := hkept.filter fun k => decide (index k.featureName = i)
  rw [List.filter_filter] at hsub
  simp only [Bool.and_self] at hsub
  exact (hsub.eq_of_length ((sorted_perm index keys).filter _).length_eq.symm).symm

end

/-! ## What is built -/

/-- What an index over statements makes of the keys it is given. -/
structure IsIndexOf (x : KeyIndex) (ss : List PreparedStatement) (input : List ServingKey) :
    Prop where
  /-- No key is lost and none is made up. -/
  perm : x.servingKeys.Perm input
  /-- Only positions of keys are filed. -/
  none_iff : ∀ j, x.keysAt? j = none ↔ ∀ k ∈ input, k.position ≠ j
  /-- A position has its own keys, and at least one. -/
  own : ∀ j keys, x.keysAt? j = some keys →
    keys ≠ [] ∧ (∀ k ∈ keys, k.position = j) ∧
      keys.Perm (input.filter fun k => k.position = j)
  /-- The keys of a position are in the order of their indices. -/
  ascending : ∀ j keys, x.keysAt? j = some keys →
    keys.Pairwise fun a b =>
      declaredIndex ss j a.featureName ≤ declaredIndex ss j b.featureName
  /-- Keys of a position with one index are in the order they were given. -/
  stable : ∀ j keys, x.keysAt? j = some keys → ∀ i,
    (keys.filter fun k => declaredIndex ss j k.featureName = i) =
      input.filter fun k => k.position = j ∧ declaredIndex ss j k.featureName = i
  /-- The valid names are the bare and the required ones. -/
  isValid_iff : ∀ name, x.isValid name = true ↔
    ∃ k ∈ input, name = k.featureName ∨ name = k.required
  /-- A valid name is listed. -/
  mem_validNames_iff : ∀ name, name ∈ x.validNames.toList ↔ x.isValid name = true

theorem keysAt?_ofKeys_eq_some_iff {ss : List PreparedStatement} {input keys : List ServingKey}
    {j : Position} :
    (ofKeys ss input).keysAt? j = some keys ↔
      keysOf input j ≠ [] ∧ sorted (declaredIndex ss j) (keysOf input j) = keys := by
  have horder : order ss j = declaredIndex ss j := funext (order_eq_declaredIndex ss j)
  rw [keysAt?_ofKeys, horder]
  by_cases hk : keysOf input j = [] <;> simp [hk]

theorem servingKeys_ofKeys_perm (ss : List PreparedStatement) (input : List ServingKey) :
    (ofKeys ss input).servingKeys.Perm input := by
  have hfiled : ∀ e ∈ (ofKeys ss input).keys.entries, e.2.Perm (keysOf input e.1) := by
    intro e he
    obtain ⟨-, hsorted⟩ := keysAt?_ofKeys_eq_some_iff.1 (SortedMap.mem_entries_iff.1 he)
    exact hsorted ▸ sorted_perm _ _
  have hall : ∀ k ∈ input, k.position ∈ (ofKeys ss input).keys.keys := by
    intro k hk
    have hne : keysOf input k.position ≠ [] := List.ne_nil_of_mem (mem_keysOf_iff.2 ⟨hk, rfl⟩)
    exact SortedMap.mem_keys_iff.2 ⟨_, keysAt?_ofKeys_eq_some_iff.2 ⟨hne, rfl⟩⟩
  calc (ofKeys ss input).servingKeys
      = (ofKeys ss input).keys.entries.flatMap (·.2) := rfl
    _ |>.Perm ((ofKeys ss input).keys.entries.flatMap fun e => keysOf input e.1) :=
        List.Perm.flatMap_left _ hfiled
    _ = (ofKeys ss input).keys.keys.flatMap (keysOf input) := by
        rw [SortedMap.keys, List.flatMap_map]
    _ |>.Perm input := flatMap_keysOf_perm (SortedMap.nodup_keys _) hall

theorem isIndexOf_ofKeys (ss : List PreparedStatement) (input : List ServingKey) :
    (ofKeys ss input).IsIndexOf ss input where
  perm := servingKeys_ofKeys_perm ss input
  none_iff j := by
    rw [keysAt?_ofKeys, ite_eq_left_iff]
    simp [keysOf, List.filter_eq_nil_iff]
  own j keys h := by
    obtain ⟨hne, rfl⟩ := keysAt?_ofKeys_eq_some_iff.1 h
    have hperm := sorted_perm (declaredIndex ss j) (keysOf input j)
    refine ⟨?_, ?_, hperm⟩
    · intro hnil
      exact hne (hnil ▸ hperm).nil_eq.symm
    · intro k hk
      exact (mem_keysOf_iff.1 (hperm.mem_iff.1 hk)).2
  ascending j keys h := by
    obtain ⟨-, rfl⟩ := keysAt?_ofKeys_eq_some_iff.1 h
    exact pairwise_sorted _ _
  stable j keys h i := by
    obtain ⟨-, rfl⟩ := keysAt?_ofKeys_eq_some_iff.1 h
    rw [filter_sorted, keysOf, List.filter_filter]
    refine List.filter_congr fun k _ => ?_
    rw [Bool.decide_and, Bool.and_comm]
  isValid_iff name := by
    rw [isValid, ofKeys, SortedMap.contains_setOfList_iff]
    simp
  mem_validNames_iff name := by
    rw [SortedSet.toList, SortedMap.mem_keys_iff, isValid, SortedMap.contains,
      Option.isSome_iff_exists]

/-- Names that are one per parameter of a statement stand in the order of its placeholders as soon
as their indices do not decrease. -/
theorem eq_primaryKeyNames {s : PreparedStatement} (hi : (s.parameters.map (·.index)).Nodup)
    (hn : (s.parameters.map (·.name)).Nodup) {names : List String}
    (hperm : names.Perm (s.parameters.map (·.name)))
    (hascending : names.Pairwise fun a b => s.declaredIndex a ≤ s.declaredIndex b) :
    names = s.primaryKeyNames := by
  have hown : s.primaryKeyNames.Perm (s.parameters.map (·.name)) := s.sortedParameters_perm.map _
  have hparameters : s.primaryKeyNames.Pairwise fun a b =>
      s.declaredIndex a ≤ s.declaredIndex b := by
    rw [PreparedStatement.primaryKeyNames, List.pairwise_map]
    refine s.pairwise_le_sortedParameters.imp_of_mem fun hp hq hle => ?_
    rwa [declaredIndex_of_mem hn (s.sortedParameters_perm.mem_iff.1 hp),
      declaredIndex_of_mem hn (s.sortedParameters_perm.mem_iff.1 hq)]
  refine List.Perm.eq_of_pairwise (fun a b ha hb hab hba => ?_) hascending hparameters
    (hperm.trans hown.symm)
  obtain ⟨p, hp, rfl⟩ := List.mem_map.1 (hperm.mem_iff.1 ha)
  obtain ⟨q, hq, rfl⟩ := List.mem_map.1 (hown.mem_iff.1 hb)
  rw [declaredIndex_of_mem hn hp, declaredIndex_of_mem hn hq] at hab hba
  rw [List.inj_on_of_nodup_map hi hp hq (UInt64.le_antisymm hab hba)]

/-- Where the keys of a position are one per parameter of its last statement, their names are those
of the statement in the order of its placeholders. -/
theorem IsIndexOf.featureNames_eq {x : KeyIndex} {ss : List PreparedStatement}
    {input : List ServingKey} (h : x.IsIndexOf ss input) {j : Position} {s : PreparedStatement}
    (hlast : (ss.filter fun s => s.position = j).getLast? = some s)
    (hi : (s.parameters.map (·.index)).Nodup) (hn : (s.parameters.map (·.name)).Nodup)
    (hone : ((input.filter fun k => k.position = j).map (·.featureName)).Perm
      (s.parameters.map (·.name))) :
    ((x.keysAt? j).getD []).map (·.featureName) = s.primaryKeyNames := by
  have hdeclared : ∀ name, declaredIndex ss j name = s.declaredIndex name := by
    intro name
    unfold declaredIndex
    rw [hlast, Option.elim_some]
  cases hkeys : x.keysAt? j with
  | none =>
    have hnil : (input.filter fun k => k.position = j) = [] := by
      rw [List.filter_eq_nil_iff]
      intro k hk
      simpa using (h.none_iff j).1 hkeys k hk
    rw [hnil] at hone
    exact eq_primaryKeyNames hi hn hone .nil
  | some keys =>
    obtain ⟨-, -, hperm⟩ := h.own j keys hkeys
    have hascending := h.ascending j keys hkeys
    simp only [hdeclared] at hascending
    apply eq_primaryKeyNames hi hn ((hperm.map _).trans hone)
    rw [List.pairwise_map]
    exact hascending

/-- **An index loses nothing and orders by parameter index.** It is built from the given keys or
from one per parameter of the statements that are retained. Where the last statement of a position
has distinct names and the keys are one per parameter, in whatever order they came, their names are
those of the statement in the order of its placeholders. -/
theorem isIndexOf_of_build {ss : List PreparedStatement} {supplied : Option (List ServingKey)}
    {skip : SortedSet GroupId} {x : KeyIndex} (h : build ss supplied skip = .ok x) :
    (derived (PreparedStatement.retained skip ss)).Perm
        ((PreparedStatement.retained skip ss).flatMap parameterKeys) ∧
      x.IsIndexOf (PreparedStatement.retained skip ss)
        (supplied.getD (derived (PreparedStatement.retained skip ss))) ∧
      ∀ j s, ((PreparedStatement.retained skip ss).filter fun s => s.position = j).getLast? =
          some s →
        (s.parameters.map (·.name)).Nodup →
        (((supplied.getD (derived (PreparedStatement.retained skip ss))).filter
          fun k => k.position = j).map (·.featureName)).Perm (s.parameters.map (·.name)) →
        ((x.keysAt? j).getD []).map (·.featureName) = s.primaryKeyNames := by
  obtain ⟨hvalid, rfl⟩ := build_ok_iff.1 h
  have hindex := isIndexOf_ofKeys (PreparedStatement.retained skip ss)
    (supplied.getD (derived (PreparedStatement.retained skip ss)))
  refine ⟨derived_perm _, hindex, ?_⟩
  intro j s hlast hn hone
  have hmem : s ∈ PreparedStatement.retained skip ss :=
    List.mem_of_mem_filter (List.mem_of_getLast? hlast)
  obtain ⟨hi, -⟩ := PreparedStatement.validate_ok_iff.1 (hvalid s hmem)
  exact hindex.featureNames_eq hlast hi hn hone

/-! ### Interleaved keys -/

/-- The orders of a shop on a day, and the shop. -/
def shopPlan : List PreparedStatement :=
  [{ group := none, position := 0, parameters := [⟨"day", 1⟩, ⟨"shop", 0⟩],
     query := "SELECT total FROM orders WHERE shop = ? AND day = ?", keyPrefix := none },
   { group := some 7, position := 1, parameters := [⟨"id", 0⟩],
     query := "SELECT rating FROM shops WHERE id = ?", keyPrefix := some "shop_" }]

/-- The keys of the shop stand between those of its orders, which are in the wrong order. -/
def shopKeys : List ServingKey :=
  [.of "day" 0 none false none, .of "id" 1 (some "shop_") false none,
   .of "shop" 0 none false none]

theorem exists_build_shops : ∃ x, build shopPlan (some shopKeys) ∅ = .ok x := by
  refine ⟨_, build_ok_iff.2 ⟨fun s hs => PreparedStatement.validate_ok_iff.2 ?_, rfl⟩⟩
  have hall : ∀ s ∈ shopPlan,
      (s.parameters.map (·.index)).Nodup ∧ Text.isBlankText s.query = false := by
    decide +kernel
  exact hall s (List.mem_of_mem_filter hs)

/-- The orders have the shop first, as their statement. -/
theorem isIndexOf_of_build_shops :
    ∃ x, build shopPlan (some shopKeys) ∅ = .ok x ∧ x.IsIndexOf shopPlan shopKeys ∧
      ((x.keysAt? 0).getD []).map (·.featureName) = ["shop", "day"] := by
  obtain ⟨x, hx⟩ := exists_build_shops
  obtain ⟨-, hindex, hnames⟩ := isIndexOf_of_build hx
  refine ⟨x, hx, hindex, ?_⟩
  rw [hnames 0 _ rfl (by decide) (by decide), PreparedStatement.primaryKeyNames,
    PreparedStatement.sortedParameters]
  simp [List.mergeSort, List.MergeSort.Internal.splitInTwo]

end KeyIndex

end FeatureServing
