import Mathlib.Data.List.Forall2
import FeatureServing.Proofs.KeyValues

/-!
# Four walks over the keys of a position

Named values, named binds, batch tuples and key texts are each found by a walk of its own over the
keys of a position. They are compared with one relation:

* `IsKeyValue` : the value of a key, by the required name and then by the bare one;
* `KeyIndex.IsTuple` : one value per key of a position;
* `KeyIndex.IsLastValue` : the value of the last key of a name;
* `KeyIndex.get?_namedValues_eq_some_iff` : that is the one a name has in the end;
* `KeyIndex.tuplesAt_append` : the tuples of many entries are those of its parts;
* `KeyIndex.walks_agree` : the walks find a tuple together or not at all, and the same one.
-/

namespace FeatureServing

/-! ## Values of keys -/

/-- Whether an entry has a value under a name that is not null. -/
def Entry.Holds (e : Entry) (name : String) (v : Value) : Prop :=
  e.get? name = some v ∧ v ≠ .null

/-- The value of a key: the one under the required name, and if there is none the one under the
bare name. -/
def IsKeyValue (e : Entry) (k : ServingKey) (v : Value) : Prop :=
  e.Holds k.required v ∨ (∀ w, ¬ e.Holds k.required w) ∧ e.Holds k.featureName v

theorem Entry.present?_eq_some_iff_holds {e : Entry} {name : String} {v : Value} :
    e.present? name = some v ↔ e.Holds name v := by
  rw [Entry.present?_eq_some_iff, Entry.Holds, ← Bool.not_eq_true, Value.isNull_iff]

theorem keyValue?_eq_some_iff {e : Entry} {k : ServingKey} {v : Value} :
    keyValue? e k = some v ↔ IsKeyValue e k v := by
  rw [keyValue?, Option.or_eq_some_iff, Option.eq_none_iff_forall_ne_some]
  simp only [ne_eq, Entry.present?_eq_some_iff_holds, IsKeyValue]

namespace KeyIndex

/-- One value per key of a position, in the order of the keys. -/
def IsTuple (x : KeyIndex) (e : Entry) (j : Position) (keys : List ServingKey)
    (vs : List Value) : Prop :=
  x.keysAt? j = some keys ∧ List.Forall₂ (IsKeyValue e) keys vs

theorem isTuple_iff {x : KeyIndex} {e : Entry} {j : Position} {keys : List ServingKey}
    {vs : List Value} :
    x.IsTuple e j keys vs ↔ x.keysAt? j = some keys ∧ tuple? keys e = some vs := by
  simp only [IsTuple, tuple?_eq_some_iff, keyValue?_eq_some_iff]

/-! ## The last key of a name -/

/-- The component of a tuple at the last key with a name. -/
def IsLastValue (keys : List ServingKey) (vs : List Value) (name : String) (v : Value) : Prop :=
  ∃ before k after, keys = before ++ k :: after ∧ k.featureName = name ∧
    (∀ k' ∈ after, k'.featureName ≠ name) ∧ vs[before.length]? = some v

theorem isLastValue_cons_iff {k : ServingKey} {keys : List ServingKey} {w : Value}
    {vs : List Value} {name : String} {v : Value} :
    IsLastValue (k :: keys) (w :: vs) name v ↔
      IsLastValue keys vs name v ∨
        (∀ k' ∈ keys, k'.featureName ≠ name) ∧ k.featureName = name ∧ w = v := by
  constructor
  · rintro ⟨before, k₁, after, hkeys, hname, hafter, hv⟩
    cases before with
    | nil =>
      obtain ⟨rfl, rfl⟩ := List.cons.inj hkeys
      exact .inr ⟨hafter, hname, Option.some.inj hv⟩
    | cons k₀ before =>
      obtain ⟨rfl, rfl⟩ := List.cons.inj hkeys
      exact .inl ⟨before, k₁, after, rfl, hname, hafter, hv⟩
  · rintro (⟨before, k₁, after, rfl, hname, hafter, hv⟩ | ⟨hafter, hname, rfl⟩)
    · exact ⟨k :: before, k₁, after, rfl, hname, hafter, hv⟩
    · exact ⟨[], k, keys, rfl, hname, hafter, rfl⟩

theorem get?_namedValues_cons (k : ServingKey) (keys : List ServingKey) (w : Value)
    (vs : List Value) (name : String) :
    (namedValues (k :: keys) (w :: vs)).get? name =
      ((namedValues keys vs).get? name).or (if name = k.featureName then some w else none) := by
  rw [namedValues, namedValues, List.map_cons, List.zip_cons_cons, SortedMap.get?_ofList,
    SortedMap.get?_ofList, List.reverse_cons, SortedMap.find_append]
  simp only [SortedMap.find, Std.LawfulEqOrd.compare_eq_iff_eq]

theorem get?_namedValues_eq_none_iff {keys : List ServingKey} {vs : List Value}
    (hlen : keys.length = vs.length) {name : String} :
    (namedValues keys vs).get? name = none ↔ ∀ k ∈ keys, k.featureName ≠ name := by
  have hsome : (∃ v, (namedValues keys vs).get? name = some v) ↔
      ∃ k ∈ keys, k.featureName = name := by
    rw [namedValues, SortedMap.exists_get?_ofList_iff, ← List.mem_map]
    have hnames : (((keys.map (·.featureName)).zip vs).map Prod.fst) = keys.map (·.featureName) :=
      List.map_fst_zip (by rw [List.length_map]; exact Nat.le_of_eq hlen)
    conv_rhs => rw [← hnames]
    simp
  rw [← Option.not_isSome_iff_eq_none, Option.isSome_iff_exists, hsome]
  simp

/-- **The last key of a name counts**: a name has the component of that key. -/
theorem get?_namedValues_eq_some_iff {keys : List ServingKey} {vs : List Value}
    (hlen : keys.length = vs.length) {name : String} {v : Value} :
    (namedValues keys vs).get? name = some v ↔ IsLastValue keys vs name v := by
  induction keys generalizing vs with
  | nil => simp [namedValues, SortedMap.get?_ofList, SortedMap.find, IsLastValue]
  | cons k keys ih =>
    -- the first key counts only if no later one has the name
    obtain ⟨w, vs, rfl⟩ := List.exists_cons_of_length_eq_add_one hlen.symm
    have hlen' : keys.length = vs.length := Nat.succ.inj hlen
    rw [get?_namedValues_cons, isLastValue_cons_iff, Option.or_eq_some_iff, ih hlen',
      get?_namedValues_eq_none_iff hlen', Option.ite_none_right_eq_some, eq_comm (a := name),
      Option.some.injEq]

/-! ## Walks of one entry -/

section

variable {x : KeyIndex} {e : Entry} {j : Position} {lookups : SortedMap Position Lookup}
  {l : Lookup}

theorem collect_fst_eq_true_iff : (x.collect e j).1 = true ↔ ∃ keys vs, x.IsTuple e j keys vs := by
  simp only [isTuple_iff]
  constructor
  · intro h
    obtain ⟨keys, vs, hkeys, hvs, -⟩ := collect_eq_true_iff.1 (Prod.ext h rfl)
    exact ⟨keys, vs, hkeys, hvs⟩
  · rintro ⟨keys, vs, hkeys, hvs⟩
    rw [collect_eq_true_iff.2 ⟨keys, vs, hkeys, hvs, rfl⟩]

theorem exists_entryKey?_iff :
    (∃ key, x.entryKey? e j = some key) ↔ ∃ keys vs, x.IsTuple e j keys vs := by
  simp only [isTuple_iff, entryKey?_eq_some_iff]
  constructor
  · rintro ⟨key, keys, vs, hkeys, hvs, -⟩
    exact ⟨keys, vs, hkeys, hvs⟩
  · rintro ⟨keys, vs, hkeys, hvs⟩
    exact ⟨_, keys, vs, hkeys, hvs, rfl⟩

theorem exists_resolve_iff_isTuple (hl : lookups.get? j = some l) :
    (∃ b, (x.resolve e lookups).get? j = some b) ↔ ∃ keys vs, x.IsTuple e j keys vs := by
  rw [exists_resolve_iff, exists_entryKey?_iff]
  exact and_iff_right ⟨l, hl⟩

theorem exists_resolveBatch_singleton_iff (hl : lookups.get? j = some l) :
    (∃ b, (x.resolveBatch [e] lookups).get? j = some b) ↔ ∃ keys vs, x.IsTuple e j keys vs := by
  rw [exists_resolveBatch_iff, and_iff_right ⟨l, hl⟩, ← exists_entryKey?_iff]
  simp

/-- What every walk finds where there is a tuple. -/
theorem walks_of_isTuple (hl : lookups.get? j = some l) {keys : List ServingKey}
    {vs : List Value} (h : x.IsTuple e j keys vs) :
    x.collect e j = (true, namedValues keys vs) ∧
      (x.resolve e lookups).get? j = some (.named (namedValues keys vs)) ∧
      (x.resolveBatch [e] lookups).get? j = some (.expanding [vs]) ∧
      x.entryKey? e j = some (vs.map Value.keyText) := by
  obtain ⟨hkeys, hvs⟩ := isTuple_iff.1 h
  refine ⟨?_, ?_, ?_, ?_⟩
  · exact collect_eq_true_iff.2 ⟨keys, vs, hkeys, hvs, rfl⟩
  · exact get?_resolve_eq_some_iff.2 ⟨⟨l, hl⟩, keys, vs, hkeys, hvs, rfl⟩
  · apply get?_resolveBatch_eq_some_iff.2
    refine ⟨⟨l, hl⟩, keys, hkeys, ?_⟩
    simp [hvs]
  · exact entryKey?_eq_some_iff.2 ⟨keys, vs, hkeys, hvs, rfl⟩

end

/-! ## Tuples of many entries -/

/-- The tuples that are bound at a position, none where there is no bind. -/
def tuplesAt (x : KeyIndex) (es : List Entry) (lookups : SortedMap Position Lookup)
    (j : Position) : List (List Value) :=
  match (x.resolveBatch es lookups).get? j with
  | some (.expanding tuples) => tuples
  | _ => []

theorem exists_expanding_of_resolveBatch {x : KeyIndex} {es : List Entry}
    {lookups : SortedMap Position Lookup} {j : Position} {b : Binds}
    (h : (x.resolveBatch es lookups).get? j = some b) :
    b = .expanding (x.tuplesAt es lookups j) ∧ x.tuplesAt es lookups j ≠ [] := by
  obtain ⟨-, keys, -, hne, rfl⟩ := get?_resolveBatch_eq_some_iff.1 h
  rw [tuplesAt, h]
  exact ⟨rfl, hne⟩

theorem tuplesAt_eq (x : KeyIndex) (es : List Entry) (lookups : SortedMap Position Lookup)
    (j : Position) :
    x.tuplesAt es lookups j = (lookups.get? j).elim [] fun _ =>
      (x.keysAt? j).elim [] fun keys => es.filterMap (tuple? keys) := by
  rw [tuplesAt, resolveBatch, SortedMap.get?_filterMap]
  cases lookups.get? j with
  | none => rfl
  | some l =>
    cases x.keysAt? j with
    | none => rfl
    | some keys => cases htuples : es.filterMap (tuple? keys) <;> simp [htuples]

theorem tuplesAt_append (x : KeyIndex) (es es' : List Entry)
    (lookups : SortedMap Position Lookup) (j : Position) :
    x.tuplesAt (es ++ es') lookups j = x.tuplesAt es lookups j ++ x.tuplesAt es' lookups j := by
  simp only [tuplesAt_eq, List.filterMap_append]
  cases lookups.get? j with
  | none => rfl
  | some l => cases x.keysAt? j <;> rfl

/-- **The four walks agree** at a position with a lookup: named values are complete, there are
named binds, a batch of the entry has binds and the entry has a key, all of them or none. Then there
is one tuple behind them, with a value for every key: the batch binds it, its texts are the key, and
a name has the component of its last key. The tuples of many entries are those of the parts. -/
theorem walks_agree {x : KeyIndex} {e : Entry} {j : Position}
    {lookups : SortedMap Position Lookup} {l : Lookup} (hl : lookups.get? j = some l) :
    ((x.collect e j).1 = true ↔ ∃ b, (x.resolve e lookups).get? j = some b) ∧
      ((∃ b, (x.resolve e lookups).get? j = some b) ↔
        ∃ b, (x.resolveBatch [e] lookups).get? j = some b) ∧
      ((∃ b, (x.resolveBatch [e] lookups).get? j = some b) ↔
        ∃ key, x.entryKey? e j = some key) ∧
      ((x.collect e j).1 = true → ∃ keys vs,
        x.keysAt? j = some keys ∧ vs.length = keys.length ∧
        List.Forall₂ (IsKeyValue e) keys vs ∧
        (x.resolveBatch [e] lookups).get? j = some (.expanding [vs]) ∧
        x.entryKey? e j = some (vs.map Value.keyText) ∧
        ∃ values, x.collect e j = (true, values) ∧
          (x.resolve e lookups).get? j = some (.named values) ∧
          ∀ name v, values.get? name = some v ↔ IsLastValue keys vs name v) ∧
      (∀ es b, (x.resolveBatch es lookups).get? j = some b →
        b = .expanding (x.tuplesAt es lookups j) ∧ x.tuplesAt es lookups j ≠ []) ∧
      ∀ es es', x.tuplesAt (es ++ es') lookups j =
        x.tuplesAt es lookups j ++ x.tuplesAt es' lookups j := by
  refine ⟨?_, ?_, ?_, ?_, ?_, ?_⟩
  · rw [collect_fst_eq_true_iff, exists_resolve_iff_isTuple hl]
  · rw [exists_resolve_iff_isTuple hl, exists_resolveBatch_singleton_iff hl]
  · rw [exists_resolveBatch_singleton_iff hl, exists_entryKey?_iff]
  · intro h
    obtain ⟨keys, vs, htuple⟩ := collect_fst_eq_true_iff.1 h
    obtain ⟨hcollect, hresolve, hbatch, hkey⟩ := walks_of_isTuple hl htuple
    obtain ⟨hkeys, hvalues⟩ := htuple
    refine ⟨keys, vs, hkeys, hvalues.length_eq.symm, hvalues, hbatch, hkey, _, hcollect,
      hresolve, ?_⟩
    intro name v
    exact get?_namedValues_eq_some_iff hvalues.length_eq
  · intro es b hb
    exact exists_expanding_of_resolveBatch hb
  · intro es es'
    exact x.tuplesAt_append es es' lookups j

/-! ### Two keys with one name -/

/-- Both keys of a match are the column of a team. -/
def matchKeys : KeyIndex where
  keys := .ofList [(0, [.of "team" 0 none false (some "home"),
    .of "team" 0 none false (some "away")])]
  prefixes := .ofList [(0, none)]
  validNames := .ofList ["team", "home", "away"]

def matchLookups : SortedMap Position Lookup :=
  .ofList [(0, ⟨0, none, none, .batch,
    [.text "SELECT odds FROM matches WHERE (home, away) IN ", .expanding Binds.batchName],
    [Binds.batchName]⟩)]

/-- The guest has no value under its required name, and is found by the bare one. -/
def matchEntry : Entry :=
  .ofList [("home", .int 3), ("away", .null), ("team", .int 5)]

/-- The tuple of a match has both teams; by name only the guest is left. -/
theorem walks_agree_match :
    (matchKeys.collect matchEntry 0).1 = true ∧
      (matchKeys.resolveBatch [matchEntry] matchLookups).get? 0 =
        some (.expanding [[.int 3, .int 5]]) ∧
      ∃ values, (matchKeys.resolve matchEntry matchLookups).get? 0 = some (.named values) ∧
        values.get? "team" = some (.int 5) := by
  have hcomplete : (matchKeys.collect matchEntry 0).1 = true := rfl
  have hlookup : ∃ l, matchLookups.get? 0 = some l := ⟨_, rfl⟩
  obtain ⟨l, hl⟩ := hlookup
  obtain ⟨-, -, -, hfound, -, -⟩ := walks_agree (x := matchKeys) (e := matchEntry) hl
  obtain ⟨keys, vs, hkeys, -, hvalues, hbatch, -, values, -, hresolve, hlast⟩ := hfound hcomplete
  obtain ⟨-, hvs⟩ := isTuple_iff.1 ⟨hkeys, hvalues⟩
  obtain rfl := Option.some.inj hkeys
  obtain rfl : [.int 3, .int 5] = vs := Option.some.inj hvs
  refine ⟨hcomplete, hbatch, values, hresolve, (hlast _ _).2 ?_⟩
  exact ⟨[.of "team" 0 none false (some "home")], .of "team" 0 none false (some "away"), [], rfl,
    rfl, fun _ hk => absurd hk List.not_mem_nil, rfl⟩

end KeyIndex

end FeatureServing
