import FeatureServing.Proofs.KeyWalks
import FeatureServing.Proofs.Stitching

/-!
# Required names beside bare ones

An entry may name a key by its required name or by the bare one. Writing every value that is found
under the required name of its key changes nothing, unless that name belongs to another key as well:

* `KeyIndex.Agree` : entries with the same values for all keys;
  `collect_congr`, `resolve_congr`, `resolveBatch_congr`, `entryKey?_congr`, `assembleBatch_agree` :
  whatever is made of an entry depends on these values alone;
* `KeyIndex.Unambiguous` : no required name is a name of a key with another feature name;
* `KeyIndex.Qualifies`, `KeyIndex.qualified` : an entry with its values under required names;
* `KeyIndex.qualified_found_alike` : it is found, bound and stitched as the entry itself.
-/

namespace FeatureServing

namespace KeyIndex

/-! ## Entries with the same values -/

/-- Whether two entries have the same values for some keys. -/
def AgreeAt (keys : List ServingKey) (e e' : Entry) : Prop :=
  ∀ k ∈ keys, keyValue? e' k = keyValue? e k

/-- Whether two entries have the same values for all serving keys. -/
def Agree (x : KeyIndex) (e e' : Entry) : Prop :=
  AgreeAt x.servingKeys e e'

section

variable {x : KeyIndex} {keys : List ServingKey} {j : Position} {e e' : Entry}
  {es es' : List Entry} {lookups : SortedMap Position Lookup}

theorem Agree.refl (x : KeyIndex) (e : Entry) : x.Agree e e :=
  fun _ _ => rfl

theorem Agree.at (h : x.Agree e e') (hkeys : x.keysAt? j = some keys) : AgreeAt keys e e' := by
  intro k hk
  exact h k (mem_servingKeys hkeys hk)

theorem collectFrom_congr (h : AgreeAt keys e e') (found : SortedMap String Value) :
    collectFrom e' found keys = collectFrom e found keys := by
  induction keys generalizing found with
  | nil => rfl
  | cons k keys ih =>
    obtain ⟨hk, hkeys⟩ := List.forall_mem_cons.1 h
    unfold collectFrom
    rw [hk]
    cases keyValue? e k with
    | none => rfl
    | some v => exact ih hkeys _

theorem tuple?_congr (h : AgreeAt keys e e') : tuple? keys e' = tuple? keys e := by
  unfold tuple?
  induction keys with
  | nil => rfl
  | cons k keys ih =>
    obtain ⟨hk, hkeys⟩ := List.forall_mem_cons.1 h
    rw [List.mapM_cons, List.mapM_cons, hk, ih hkeys]

theorem collect_congr (h : x.Agree e e') (j : Position) : x.collect e' j = x.collect e j := by
  unfold collect
  cases hkeys : x.keysAt? j with
  | none => rfl
  | some keys => exact collectFrom_congr (h.at hkeys) ∅

theorem resolve_congr (h : x.Agree e e') (lookups : SortedMap Position Lookup) :
    x.resolve e' lookups = x.resolve e lookups := by
  unfold resolve
  simp only [collect_congr h]

theorem entryKey?_congr (h : x.Agree e e') (j : Position) : x.entryKey? e' j = x.entryKey? e j := by
  unfold entryKey?
  cases hkeys : x.keysAt? j with
  | none => rfl
  | some keys =>
    show (tuple? keys e').map _ = (tuple? keys e).map _
    rw [tuple?_congr (h.at hkeys)]

theorem filterMap_tuple?_congr (h : List.Forall₂ x.Agree es es') (hkeys : x.keysAt? j = some keys) :
    es'.filterMap (tuple? keys) = es.filterMap (tuple? keys) := by
  induction h with
  | nil => rfl
  | cons he _ ih =>
    have htuple := tuple?_congr (he.at hkeys)
    simp only [List.filterMap_cons, htuple, ih]

theorem resolveBatch_congr (h : List.Forall₂ x.Agree es es') (lookups : SortedMap Position Lookup) :
    x.resolveBatch es' lookups = x.resolveBatch es lookups := by
  unfold resolveBatch
  congr 1
  funext j _
  cases hkeys : x.keysAt? j with
  | none => rfl
  | some keys => simp only [filterMap_tuple?_congr h hkeys]

theorem zipWith_writeMatch_congr (h : List.Forall₂ x.Agree es es') (j : Position)
    (filed : SortedMap KeyTexts Row) (vectors : List FeatureVector) :
    List.zipWith (writeMatch x j filed) vectors es' =
      List.zipWith (writeMatch x j filed) vectors es := by
  induction h generalizing vectors with
  | nil => rfl
  | @cons e e' _ _ he _ ih =>
    cases vectors with
    | nil => rfl
    | cons v vectors =>
      have hv : writeMatch x j filed v e' = writeMatch x j filed v e := by
        unfold writeMatch
        rw [entryKey?_congr he]
      rw [List.zipWith_cons_cons, List.zipWith_cons_cons, hv, ih]

theorem stitch_congr (h : List.Forall₂ x.Agree es es') (lookups : SortedMap Position Lookup)
    (results : SortedMap Position RowSet) :
    stitch x es' lookups results = stitch x es lookups results := by
  have hturn : stitchPosition x es' results = stitchPosition x es results := by
    funext done j
    simp only [stitchPosition, zipWith_writeMatch_congr h]
  have hstart : (es'.map fun _ => (∅ : FeatureVector)) = es.map fun _ => ∅ := by
    rw [List.map_const', List.map_const', h.length_eq]
  unfold stitch
  rw [hturn, hstart]

theorem assembleBatch_agree (h : List.Forall₂ x.Agree es es') (s : Schema)
    (lookups : SortedMap Position Lookup) (results : SortedMap Position RowSet) :
    s.assembleBatch x es' lookups results = s.assembleBatch x es lookups results := by
  unfold Schema.assembleBatch
  rw [stitch_congr h]

end

/-! ## Names of other keys -/

/-- Whether the required names of keys are names of keys with the same feature name only. -/
def Unambiguous (x : KeyIndex) : Prop :=
  ∀ k ∈ x.servingKeys, ∀ k' ∈ x.servingKeys,
    k.required = k'.required ∨ k.required = k'.featureName → k.featureName = k'.featureName

instance (x : KeyIndex) : Decidable x.Unambiguous :=
  inferInstanceAs (Decidable (∀ k ∈ x.servingKeys, ∀ k' ∈ x.servingKeys,
    k.required = k'.required ∨ k.required = k'.featureName → k.featureName = k'.featureName))

/-- An entry with the value of every key under its required name, and all else as before. -/
structure Qualifies (x : KeyIndex) (e q : Entry) : Prop where
  /-- A key has its value under the required name. -/
  written : ∀ k ∈ x.servingKeys, ∀ v, IsKeyValue e k v → q.get? k.required = some v
  /-- Names that no value is written under are kept. -/
  kept : ∀ name, (∀ k ∈ x.servingKeys, k.required = name → ∀ v, ¬ IsKeyValue e k v) →
    q.get? name = e.get? name

/-- The values that an entry has for the keys, under their required names. -/
def qualifiedValues (x : KeyIndex) (e : Entry) : List (String × Value) :=
  x.servingKeys.filterMap fun k => (keyValue? e k).map fun v => (k.required, v)

/-- The entry with these values. -/
def qualified (x : KeyIndex) (e : Entry) : Entry :=
  e.insertMany (x.qualifiedValues e)

section

variable {x : KeyIndex} {e q : Entry} {k k' : ServingKey}

theorem mem_qualifiedValues_iff {name : String} {v : Value} :
    (name, v) ∈ x.qualifiedValues e ↔
      ∃ k ∈ x.servingKeys, k.required = name ∧ IsKeyValue e k v := by
  unfold qualifiedValues
  rw [List.mem_filterMap]
  simp only [Option.map_eq_some_iff, Prod.mk.injEq, keyValue?_eq_some_iff]
  constructor
  · rintro ⟨k, hk, w, hw, rfl, rfl⟩
    exact ⟨k, hk, rfl, hw⟩
  · rintro ⟨k, hk, rfl, hv⟩
    exact ⟨k, hk, v, hv, rfl, rfl⟩

theorem get?_qualified (x : KeyIndex) (e : Entry) (name : String) :
    (x.qualified e).get? name =
      ((SortedMap.ofList (x.qualifiedValues e)).get? name).or (e.get? name) := by
  unfold qualified
  rw [SortedMap.get?_insertMany, SortedMap.get?_ofList]

/-- Keys that share a required name share their value. -/
theorem Unambiguous.keyValue?_eq (h : x.Unambiguous) (hk : k ∈ x.servingKeys)
    (hk' : k' ∈ x.servingKeys) (hname : k.required = k'.required) :
    keyValue? e k = keyValue? e k' := by
  unfold keyValue?
  rw [hname, h k hk k' hk' (.inl hname)]

theorem Unambiguous.keyValue?_eq_none (h : x.Unambiguous) (hk : k ∈ x.servingKeys)
    (hnone : keyValue? e k = none) (hk' : k' ∈ x.servingKeys)
    (hname : k'.required = k.required ∨ k'.required = k.featureName) :
    keyValue? e k' = none := by
  obtain ⟨hrequired, hbare⟩ := Option.or_eq_none_iff.1 hnone
  unfold keyValue?
  rw [h k' hk' k hk hname, hbare, Option.or_none]
  rcases hname with hname | hname
  · rw [hname, hrequired]
  · rw [hname, hbare]

theorem qualifies_qualified (h : x.Unambiguous) (e : Entry) : x.Qualifies e (x.qualified e) where
  written k hk v hv := by
    have hone : ∀ w, (k.required, w) ∈ x.qualifiedValues e → w = v := by
      intro w hw
      obtain ⟨k', hk', hname, hw⟩ := mem_qualifiedValues_iff.1 hw
      rw [← keyValue?_eq_some_iff] at hv hw
      rw [h.keyValue?_eq hk' hk hname, hv] at hw
      exact (Option.some.inj hw).symm
    have hmem : (k.required, v) ∈ x.qualifiedValues e := mem_qualifiedValues_iff.2 ⟨k, hk, rfl, hv⟩
    rw [get?_qualified, SortedMap.get?_ofList_eq_some hmem hone, Option.some_or]
  kept name hnone := by
    have hfree : (SortedMap.ofList (x.qualifiedValues e)).get? name = none := by
      rw [Option.eq_none_iff_forall_ne_some]
      intro w hw
      obtain ⟨v, hv⟩ := SortedMap.exists_get?_ofList_iff.1 ⟨w, hw⟩
      obtain ⟨k, hk, hname, hv⟩ := mem_qualifiedValues_iff.1 hv
      exact hnone k hk hname v hv
    rw [get?_qualified, hfree, Option.none_or]

theorem Qualifies.unique {q q' : Entry} (hq : x.Qualifies e q) (hq' : x.Qualifies e q') :
    q = q' := by
  apply SortedMap.ext_get?
  intro name
  by_cases hname : ∃ k ∈ x.servingKeys, k.required = name ∧ ∃ v, IsKeyValue e k v
  · obtain ⟨k, hk, rfl, v, hv⟩ := hname
    rw [hq.written k hk v hv, hq'.written k hk v hv]
  · have hnone : ∀ k ∈ x.servingKeys, k.required = name → ∀ v, ¬ IsKeyValue e k v :=
      fun k hk hrequired v hv => hname ⟨k, hk, hrequired, v, hv⟩
    rw [hq.kept name hnone, hq'.kept name hnone]

theorem qualifies_iff (h : x.Unambiguous) : x.Qualifies e q ↔ q = x.qualified e := by
  constructor
  · exact fun hq => hq.unique (qualifies_qualified h e)
  · rintro rfl
    exact qualifies_qualified h e

/-- A key that was found is found under its required name; for one that was not, neither of its
names has been written. -/
theorem agree_of_qualifies (h : x.Unambiguous) (hq : x.Qualifies e q) : x.Agree e q := by
  intro k hk
  cases hv : keyValue? e k with
  | some v =>
    have hpresent : q.present? k.required = some v :=
      Entry.present?_eq_some_iff.2
        ⟨hq.written k hk v (keyValue?_eq_some_iff.1 hv), keyValue?_not_null hv⟩
    unfold keyValue?
    rw [hpresent, Option.some_or]
  | none =>
    have hsame : ∀ name, name = k.required ∨ name = k.featureName →
        q.present? name = e.present? name := by
      intro name hname
      unfold Entry.present?
      rw [hq.kept name]
      intro k' hk' hrequired v hv'
      rw [← keyValue?_eq_some_iff,
        h.keyValue?_eq_none hk hv hk' (hrequired ▸ hname)] at hv'
      cases hv'
    unfold keyValue? at hv ⊢
    rw [hsame k.required (.inl rfl), hsame k.featureName (.inr rfl), hv]

end

/-- **Required names and bare ones find the same.** Where no required name is a name of a key with
another feature name, an entry with its values under required names is determined by it, every key
has the same value in both, and so have the named values, the binds and the key texts of every
position. Of many entries any may be replaced by such an entry: the binds of the batch stay, and so
do the vectors that any rows are stitched into, or the error. -/
theorem qualified_found_alike {x : KeyIndex} (h : x.Unambiguous) :
    (∀ e q, x.Qualifies e q ↔ q = x.qualified e) ∧
      (∀ e q, x.Qualifies e q →
        (∀ k ∈ x.servingKeys, keyValue? q k = keyValue? e k) ∧
          (∀ j, x.collect q j = x.collect e j) ∧
          (∀ lookups, x.resolve q lookups = x.resolve e lookups) ∧
          ∀ j, x.entryKey? q j = x.entryKey? e j) ∧
      ∀ es qs, List.Forall₂ (fun e q => q = e ∨ x.Qualifies e q) es qs →
        (∀ lookups, x.resolveBatch qs lookups = x.resolveBatch es lookups) ∧
          ∀ (s : Schema) lookups results,
            s.assembleBatch x qs lookups results = s.assembleBatch x es lookups results := by
  refine ⟨?_, ?_, ?_⟩
  · intro e q
    exact qualifies_iff h
  · intro e q hq
    have hagree := agree_of_qualifies h hq
    exact ⟨hagree, collect_congr hagree, resolve_congr hagree, entryKey?_congr hagree⟩
  · intro es qs hall
    have hagree : List.Forall₂ x.Agree es qs := by
      apply hall.imp
      rintro e q (rfl | hq)
      · exact Agree.refl x _
      · exact agree_of_qualifies h hq
    exact ⟨resolveBatch_congr hagree, assembleBatch_agree hagree⟩

/-! ### Two teams and their league -/

/-- The teams of a match under names of their own, one team, and a season behind a prefix. -/
def leagueKeys : KeyIndex where
  keys := .ofList
    [(0, [.of "team" 0 none false (some "home"), .of "team" 0 none false (some "away")]),
     (1, [.of "team" 1 none false none, .of "season" 1 (some "l_") false none])]
  prefixes := .ofList [(0, none), (1, some "l_")]
  validNames := .ofList ["team", "home", "away", "season", "l_season"]

/-- Only the bare names have values. -/
def leagueEntry : Entry :=
  .ofList [("team", .int 5), ("home", .null), ("season", .int 3)]

/-- Both teams of the match get the one value there is, and keep it. -/
theorem qualified_found_alike_league :
    leagueKeys.Unambiguous ∧
      leagueKeys.qualified leagueEntry = .ofList [("team", .int 5), ("home", .int 5),
        ("away", .int 5), ("season", .int 3), ("l_season", .int 3)] ∧
      leagueKeys.entryKey? leagueEntry 0 = some ["5", "5"] ∧
      leagueKeys.entryKey? (leagueKeys.qualified leagueEntry) 0 = some ["5", "5"] ∧
      ∀ lookups, leagueKeys.resolveBatch [leagueKeys.qualified leagueEntry, leagueEntry] lookups =
        leagueKeys.resolveBatch [leagueEntry, leagueEntry] lookups := by
  have hnames : leagueKeys.Unambiguous := by decide
  obtain ⟨hone, hentry, hbatch⟩ := qualified_found_alike hnames
  have hq : leagueKeys.Qualifies leagueEntry (leagueKeys.qualified leagueEntry) :=
    (hone _ _).2 rfl
  obtain ⟨-, -, -, hkey⟩ := hentry _ _ hq
  have hbare : leagueKeys.entryKey? leagueEntry 0 = some ["5", "5"] := by rfl
  refine ⟨hnames, rfl, hbare, ?_, ?_⟩
  · rw [hkey, hbare]
  · exact (hbatch _ _ (.cons (.inr hq) (.cons (.inl rfl) .nil))).1

end KeyIndex

end FeatureServing
