import FeatureServing.KeyIndex
import FeatureServing.Registry
import FeatureServing.Proofs.FiniteMap
import FeatureServing.Proofs.ParameterOrder

/-!
# The compiled join plan

What a list of statements is compiled to, position by position:

* `Registry.exists_compileAll_ok_iff`, `Registry.get?_compileAll` : a list compiles when its
  positions are distinct and every statement compiles; the lookup of a position is that of its
  statement;
* `Registry.compile_ok_iff` : the same for the two lists of a registry;
* `KeyIndex.keysAt?_ofKeys` : the keys of a position are the given ones of that position, sorted;
* `KeyIndex.keysAt?_derived` : keys made from a valid plan are the parameters of its statement.
-/

namespace FeatureServing

/-- The first statement of a position. -/
def statementOf? (ss : List PreparedStatement) (j : Position) : Option PreparedStatement :=
  ss.find? fun s => s.position = j

theorem statementOf?_eq_some {ss : List PreparedStatement} {j : Position} {s : PreparedStatement}
    (h : statementOf? ss j = some s) : s ∈ ss ∧ s.position = j :=
  ⟨List.mem_of_find?_eq_some h, by simpa using List.find?_some h⟩

theorem statementOf?_of_mem {ss : List PreparedStatement} (hd : (ss.map (·.position)).Nodup)
    {s : PreparedStatement} (hs : s ∈ ss) : statementOf? ss s.position = some s := by
  induction ss with
  | nil => simp at hs
  | cons t rest ih =>
    rw [List.map_cons, List.nodup_cons] at hd
    rcases List.mem_cons.1 hs with rfl | hs
    · simp [statementOf?]
    · have hne : t.position ≠ s.position := fun h =>
        hd.1 (List.mem_map.2 ⟨s, hs, h.symm⟩)
      rw [statementOf?, List.find?_cons_of_neg (by simpa using hne)]
      exact ih hd.2 hs

namespace Registry

variable {compile : PreparedStatement → Except ServingError Lookup}

/-- The lookup that the first statement of a position is compiled to. -/
def lookupOf? (compile : PreparedStatement → Except ServingError Lookup)
    (ss : List PreparedStatement) (j : Position) : Option Lookup :=
  (statementOf? ss j).bind fun s => (compile s).toOption

theorem lookupOf?_cons (s : PreparedStatement) (ss : List PreparedStatement) (j : Position) :
    lookupOf? compile (s :: ss) j =
      if s.position = j then (compile s).toOption else lookupOf? compile ss j := by
  by_cases h : s.position = j <;> simp [lookupOf?, statementOf?, h]

theorem lookupOf?_eq_none {ss : List PreparedStatement} {j : Position}
    (h : j ∉ ss.map (·.position)) : lookupOf? compile ss j = none := by
  rw [lookupOf?, Option.bind_eq_none_iff]
  intro s hs
  obtain ⟨hmem, hpos⟩ := statementOf?_eq_some hs
  exact absurd (List.mem_map.2 ⟨s, hmem, hpos⟩) h

theorem contains_eq_false_iff {m : SortedMap Position Lookup} {j : Position} :
    m.contains j = false ↔ m.get? j = none := by
  rw [SortedMap.contains, Option.isSome_eq_false_iff, Option.isNone_iff_eq_none]

theorem compileAll_cons_ok_iff {done m : SortedMap Position Lookup} {s : PreparedStatement}
    {ss : List PreparedStatement} :
    compileAll compile done (s :: ss) = .ok m ↔
      done.get? s.position = none ∧
        ∃ l, compile s = .ok l ∧ compileAll compile (done.insert s.position l) ss = .ok m := by
  rw [compileAll, ← contains_eq_false_iff]
  cases done.contains s.position with
  | true => simp
  | false => simp [bind_ok_iff]

/-- **A list of statements compiles** when no position comes twice and every statement compiles. -/
theorem exists_compileAll_ok_iff {done : SortedMap Position Lookup} {ss : List PreparedStatement} :
    (∃ m, compileAll compile done ss = .ok m) ↔
      (ss.map (·.position)).Nodup ∧ (∀ s ∈ ss, done.get? s.position = none) ∧
        ∀ s ∈ ss, ∃ l, compile s = .ok l := by
  induction ss generalizing done with
  | nil => simp [compileAll]
  | cons s ss ih =>
    simp only [compileAll_cons_ok_iff, exists_and_left, List.map_cons, List.nodup_cons,
      List.forall_mem_cons]
    rw [exists_comm]
    simp only [exists_and_left, ih, SortedMap.get?_insert_eq]
    constructor
    · rintro ⟨hs, l, hl, hd, hdone, hall⟩
      have hfresh : ∀ t ∈ ss, t.position ≠ s.position := by
        intro t ht hts
        simpa [hts] using hdone t ht
      refine ⟨⟨fun h => ?_, hd⟩, ⟨hs, fun t ht => ?_⟩, ⟨l, hl⟩, hall⟩
      · obtain ⟨t, ht, hts⟩ := List.mem_map.1 h
        exact hfresh t ht hts
      · simpa [hfresh t ht] using hdone t ht
    · rintro ⟨⟨hfresh, hd⟩, ⟨hs, hold⟩, ⟨l, hl⟩, hall⟩
      refine ⟨hs, l, hl, hd, fun t ht => ?_, hall⟩
      have hne : t.position ≠ s.position := fun h => hfresh (List.mem_map.2 ⟨t, ht, h⟩)
      simpa [hne] using hold t ht

theorem exists_compileAll_singleton_iff {s : PreparedStatement} :
    (∃ m, compileAll compile ∅ [s] = .ok m) ↔ ∃ l, compile s = .ok l := by
  simp [exists_compileAll_ok_iff]

/-- A position has the lookup of its statement, or the one that it had before. -/
theorem get?_compileAll {done m : SortedMap Position Lookup} {ss : List PreparedStatement}
    (h : compileAll compile done ss = .ok m) (j : Position) :
    m.get? j = (lookupOf? compile ss j).or (done.get? j) := by
  induction ss generalizing done with
  | nil =>
    obtain rfl := Except.ok.inj h
    rfl
  | cons s ss ih =>
    obtain ⟨hd, -, -⟩ := exists_compileAll_ok_iff.1 ⟨m, h⟩
    obtain ⟨-, l, hl, hrest⟩ := compileAll_cons_ok_iff.1 h
    rw [ih hrest, SortedMap.get?_insert_eq, lookupOf?_cons]
    by_cases hj : s.position = j
    · subst hj
      rw [lookupOf?_eq_none (List.nodup_cons.1 hd).1, hl]
      simp [Except.toOption]
    · simp [hj, Ne.symm hj]

theorem get?_of_compileAll {m : SortedMap Position Lookup} {ss : List PreparedStatement}
    (h : compileAll compile ∅ ss = .ok m) {j : Position} {l : Lookup} :
    m.get? j = some l ↔ ∃ s, statementOf? ss j = some s ∧ compile s = .ok l := by
  rw [get?_compileAll h j, SortedMap.get?_emptyCollection, Option.or_none, lookupOf?,
    Option.bind_eq_some_iff]
  refine exists_congr fun s => and_congr_right fun _ => ?_
  cases compile s <;> simp [Except.toOption]

theorem compile_ok_iff {single batch : List PreparedStatement} {skip : SortedSet GroupId}
    {r : Registry} :
    Registry.compile single batch skip = .ok r ↔
      compileAll Lookup.single ∅ (PreparedStatement.retained skip single) = .ok r.single ∧
        compileAll Lookup.batch ∅ (PreparedStatement.retained skip batch) = .ok r.batch := by
  simp only [Registry.compile, bind_ok_iff]
  constructor
  · rintro ⟨_, hs, _, hb, h⟩
    obtain rfl := Except.ok.inj h
    exact ⟨hs, hb⟩
  · rintro ⟨hs, hb⟩
    exact ⟨r.single, hs, r.batch, hb, rfl⟩

theorem exists_compile_ok_iff {single batch : List PreparedStatement} {skip : SortedSet GroupId} :
    (∃ r, Registry.compile single batch skip = .ok r) ↔
      (∃ m, compileAll Lookup.single ∅ (PreparedStatement.retained skip single) = .ok m) ∧
        ∃ m, compileAll Lookup.batch ∅ (PreparedStatement.retained skip batch) = .ok m := by
  simp only [compile_ok_iff]
  exact ⟨fun ⟨r, hs, hb⟩ => ⟨⟨_, hs⟩, _, hb⟩, fun ⟨⟨_, hs⟩, _, hb⟩ => ⟨⟨_, _⟩, hs, hb⟩⟩

end Registry

/-! ## The keys of a position -/

namespace KeyIndex

theorem mem_servingKeys {x : KeyIndex} {j : Position} {keys : List ServingKey}
    (hkeys : x.keysAt? j = some keys) {k : ServingKey} (hk : k ∈ keys) : k ∈ x.servingKeys := by
  refine List.mem_flatten.2 ⟨keys, ?_, hk⟩
  exact List.mem_map.2 ⟨(j, keys), SortedMap.mem_entries_iff.2 hkeys, rfl⟩

/-- The keys of one position, in the order they are given. -/
def keysOf (keys : List ServingKey) (j : Position) : List ServingKey :=
  keys.filter fun k => k.position = j

theorem keysOf_cons (k : ServingKey) (keys : List ServingKey) (j : Position) :
    keysOf (k :: keys) j = if k.position = j then k :: keysOf keys j else keysOf keys j := by
  simp only [keysOf, List.filter_cons, decide_eq_true_eq]

theorem get?_foldl_file (filed : SortedMap Position (List ServingKey)) (keys : List ServingKey)
    (j : Position) :
    (keys.foldl file filed).get? j =
      if keysOf keys j = [] then filed.get? j
      else some ((filed.get? j).getD [] ++ keysOf keys j) := by
  induction keys generalizing filed with
  | nil => rfl
  | cons k keys ih =>
    rw [List.foldl_cons, ih, file, SortedMap.get?_insert_eq, keysOf_cons]
    by_cases hj : k.position = j
    · subst hj
      by_cases hk : keysOf keys k.position = [] <;> simp [hk]
    · simp [hj, Ne.symm hj]

theorem keysAt?_ofKeys (ss : List PreparedStatement) (keys : List ServingKey) (j : Position) :
    (ofKeys ss keys).keysAt? j =
      if keysOf keys j = [] then none else some (sorted (order ss j) (keysOf keys j)) := by
  have hmap : (ofKeys ss keys).keysAt? j =
      ((keys.foldl file SortedMap.empty).get? j).map (sorted (order ss j)) :=
    SortedMap.find_map (fun p => sorted (order ss p)) _ j
  rw [hmap, get?_foldl_file]
  by_cases hk : keysOf keys j = [] <;> simp [hk]

/-- The keys that are made from the parameters of one statement. -/
def derivedKeys (s : PreparedStatement) : List ServingKey :=
  s.sortedParameters.map fun p => .of p.name s.position s.keyPrefix true none

theorem keysOf_derived (ss : List PreparedStatement) (j : Position) :
    keysOf (derived ss) j = (ss.filter fun s => s.position = j).flatMap derivedKeys := by
  induction ss with
  | nil => rfl
  | cons s ss ih =>
    have hcons : keysOf (derived (s :: ss)) j =
        keysOf (derivedKeys s) j ++ keysOf (derived ss) j := by
      rw [keysOf, keysOf, keysOf, ← List.filter_append]
      rfl
    have hown : keysOf (derivedKeys s) j = if s.position = j then derivedKeys s else [] := by
      rw [keysOf, derivedKeys, List.filter_map]
      split <;> simp_all [Function.comp_def, ServingKey.of]
    rw [hcons, hown, ih, List.filter_cons]
    by_cases hj : s.position = j <;> simp [hj]

/-- A traversal that keeps the latest match ends with the last one. -/
theorem foldl_eq_getLast? {α β : Type} (p : α → Prop) [DecidablePred p] (f : α → β) (l : List α)
    (found : β) :
    l.foldl (fun found a => if p a then f a else found) found =
      (l.filter p).getLast?.elim found f := by
  induction l generalizing found with
  | nil => rfl
  | cons a l ih =>
    rw [List.foldl_cons, ih, List.filter_cons]
    by_cases ha : p a
    · simp only [ha, if_true, decide_true, List.getLast?_cons]
      cases (l.filter p).getLast? <;> rfl
    · simp [ha]

theorem statementAt?_eq_getLast? (ss : List PreparedStatement) (j : Position) :
    statementAt? ss j = (ss.filter fun s => s.position = j).getLast? := by
  rw [statementAt?, foldl_eq_getLast? (fun s : PreparedStatement => s.position = j) some]
  cases (ss.filter fun s => s.position = j).getLast? <;> rfl

theorem filter_position_eq {ss : List PreparedStatement} (hd : (ss.map (·.position)).Nodup)
    (j : Position) :
    ss.filter (fun s => s.position = j) = (statementOf? ss j).toList := by
  have hcount : (ss.filter fun s => s.position = j).length = (ss.map (·.position)).count j := by
    rw [List.count, List.countP_map, List.countP_eq_length_filter]
    rfl
  have hone : (ss.filter fun s => s.position = j).length ≤ 1 :=
    hcount ▸ List.nodup_iff_count.1 hd j
  rw [statementOf?, ← List.head?_filter]
  generalize ss.filter (fun s => s.position = j) = found at hone
  match found, hone with
  | [], _ => rfl
  | [s], _ => rfl

/-- **Keys made from statements** of distinct positions are, at each, the parameters of its
statement, sorted by the index that the statement declares last for their names. -/
theorem keysAt?_derived {ss : List PreparedStatement} (hd : (ss.map (·.position)).Nodup)
    (j : Position) :
    (ofKeys ss (derived ss)).keysAt? j = (statementOf? ss j).bind fun s =>
      if s.parameters = [] then none
      else some (sorted (indexIn s.parameters) (derivedKeys s)) := by
  have hnil : ∀ s : PreparedStatement, derivedKeys s = [] ↔ s.parameters = [] := fun s => by
    rw [derivedKeys, List.map_eq_nil_iff, ← List.length_eq_zero_iff,
      s.length_sortedParameters, List.length_eq_zero_iff]
  rw [keysAt?_ofKeys, keysOf_derived, filter_position_eq hd]
  cases hs : statementOf? ss j with
  | none => rfl
  | some s =>
    have horder : order ss j = indexIn s.parameters := by
      funext name
      rw [order, statementAt?_eq_getLast?, filter_position_eq hd, hs]
      rfl
    simp [hnil, horder]

theorem perm_of_keysAt?_derived {ss : List PreparedStatement}
    (hd : (ss.map (·.position)).Nodup) {j : Position} {s : PreparedStatement}
    (hs : statementOf? ss j = some s) {keys : List ServingKey}
    (hkeys : (ofKeys ss (derived ss)).keysAt? j = some keys) : keys.Perm (derivedKeys s) := by
  rw [keysAt?_derived hd, hs, Option.bind_some] at hkeys
  split at hkeys
  · simp at hkeys
  · obtain rfl := Option.some.inj hkeys
    exact List.mergeSort_perm _ _

theorem build_ok_iff {ss : List PreparedStatement} {supplied : Option (List ServingKey)}
    {skip : SortedSet GroupId} {x : KeyIndex} :
    build ss supplied skip = .ok x ↔
      (∀ s ∈ PreparedStatement.retained skip ss, s.validate = .ok ()) ∧
        ofKeys (PreparedStatement.retained skip ss)
          (supplied.getD (derived (PreparedStatement.retained skip ss))) = x := by
  simp only [build, bind_ok_iff, Except.ok.injEq]
  have hforM : (PreparedStatement.retained skip ss).forM
      (fun s => s.validate.mapError ServingError.ofModel) = .ok () ↔
        ∀ s ∈ PreparedStatement.retained skip ss, s.validate = .ok () := by
    simp only [forM_ok_iff, mapError_ok_iff]
  rw [← hforM]
  exact ⟨fun ⟨_, hv, hx⟩ => ⟨hv, hx⟩, fun ⟨hv, hx⟩ => ⟨(), hv, hx⟩⟩

end KeyIndex

end FeatureServing
