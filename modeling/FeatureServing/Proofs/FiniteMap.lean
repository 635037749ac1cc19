import Mathlib.Data.List.Nodup
import Mathlib.Data.List.Perm.Basic
import FeatureServing.Proofs.Fallible
import FeatureServing.SortedMap

/-!
# Look-ups in finite maps

What the operations of `SortedMap` do to `get?`:

* `get?_insert_eq`, `get?_overlay` : the last write of a key stays;
* `find_map`, `get?_filterMap` : value by value;
* `mem_keys_iff` : the keys are the names with a value, `keys_eq_iff` : maps with the same ones;
* `foldl_entries` : a traversal may visit more keys than the map has;
* `exists_traverse_ok_iff`, `get?_of_traverse` : a function that may fail, value by value;
* `traverse_ok_iff_keys`, `exists_traverseEntries_of_perm` : the same with the keys, in any order;
* `exists_get?_ofList_iff` : the map of a list has its keys;
* `get?_ofList_eq_some_iff` : the map of a list without two values for a key;
* `ofList_perm`, `setOfList_congr` : what does not depend on the order of the writes;
* `ofList_entries`, `setOfList_toList` : a map is the map of its entries;
* `overlay_overlay` : a map over another one with the same keys hides it.
-/

namespace FeatureServing.SortedMap

variable {κ α β : Type}

/-! ## Entries -/

theorem traverseEntries_ok_iff {ε : Type} {f : κ → α → Except ε β} {l : List (κ × α)}
    {l' : List (κ × β)} :
    traverseEntries f l = .ok l' ↔
      List.Forall₂ (fun e e' => e.1 = e'.1 ∧ f e.1 e.2 = .ok e'.2) l l' := by
  induction l generalizing l' with
  | nil => simp [traverseEntries, eq_comm]
  | cons entry rest ih =>
    obtain ⟨k, v⟩ := entry
    rw [traverseEntries, List.forall₂_cons_left_iff]
    cases hv : f k v with
    | error e => simp
    | ok w =>
      cases hrest : traverseEntries f rest with
      | error e => simp [← ih, hrest]
      | ok ws => simp [← ih, hrest, eq_comm]

theorem exists_error_of_traverseEntries {ε : Type} {f : κ → α → Except ε β} {l : List (κ × α)}
    {e : ε} (h : traverseEntries f l = .error e) : ∃ k v, (k, v) ∈ l ∧ f k v = .error e := by
  induction l with
  | nil => cases h
  | cons entry rest ih =>
    obtain ⟨k, v⟩ := entry
    simp only [traverseEntries] at h
    split at h
    · next e' he => exact ⟨k, v, List.mem_cons_self, Except.error.inj h ▸ he⟩
    · split at h
      · next e' he =>
        obtain ⟨k', v', hmem, herror⟩ := ih (Except.error.inj h ▸ he)
        exact ⟨k', v', List.mem_cons_of_mem _ hmem, herror⟩
      · cases h

variable [Ord κ]

theorem find_append (k : κ) (l₁ l₂ : List (κ × α)) :
    find k (l₁ ++ l₂) = (find k l₁).or (find k l₂) := by
  induction l₁ with
  | nil => rfl
  | cons e rest ih =>
    simp only [List.cons_append, find]
    split
    · rfl
    · exact ih

theorem traverse_ok_iff {ε : Type} {f : κ → α → Except ε β} {m : SortedMap κ α}
    {m' : SortedMap κ β} :
    m.traverse f = .ok m' ↔ traverseEntries f m.entries = .ok m'.entries := by
  obtain ⟨l, hl⟩ := m'
  unfold traverse
  split
  · next e he => simp [he]
  · next es hes => simp [hes]

@[simp] theorem get?_emptyCollection (k : κ) : (∅ : SortedMap κ α).get? k = none := rfl

section Lawful

variable [Std.LawfulEqOrd κ]

theorem find_map (f : κ → α → β) (l : List (κ × α)) (k : κ) :
    find k (l.map fun e => (e.1, f e.1 e.2)) = (find k l).map (f k) := by
  induction l with
  | nil => rfl
  | cons e rest ih =>
    by_cases hk : compare k e.1 = .eq
    · obtain rfl := Std.LawfulEqOrd.eq_of_compare hk
      simp [find]
    · simp [find, hk, ih]

theorem exists_find_iff {k : κ} {l : List (κ × α)} :
    (∃ v, find k l = some v) ↔ ∃ v, (k, v) ∈ l := by
  induction l with
  | nil => simp [find]
  | cons e rest ih =>
    by_cases hc : compare k e.1 = .eq
    · obtain rfl := Std.LawfulEqOrd.eq_of_compare hc
      exact iff_of_true ⟨e.2, if_pos hc⟩ ⟨e.2, List.mem_cons_self⟩
    · have hne : ∀ v, (k, v) ≠ e := fun v h => hc (by rw [← h]; exact Std.ReflCmp.compare_self)
      simp only [find, if_neg hc, ih, List.mem_cons, hne, false_or]

theorem find_reverse {l : List (κ × α)} (h : l.Pairwise fun a b => compare a.1 b.1 = .lt) (k : κ) :
    find k l.reverse = find k l := by
  induction l with
  | nil => rfl
  | cons e rest ih =>
    have he := List.pairwise_cons.1 h
    rw [List.reverse_cons, find_append, ih he.2]
    by_cases hk : compare k e.1 = .eq
    · obtain rfl := Std.LawfulEqOrd.eq_of_compare hk
      rw [find_eq_none fun a ha => by simp [he.1 a ha]]
      simp [find]
    · simp [find, hk]

theorem find_eq_lookup [DecidableEq κ] (k : κ) (l : List (κ × α)) : find k l = l.lookup k := by
  induction l with
  | nil => rfl
  | cons e rest ih =>
    rw [find, List.lookup_cons, ih]
    by_cases hk : k = e.1
    · rw [if_pos (Std.LawfulEqOrd.compare_eq_iff_eq.2 hk), beq_iff_eq.2 hk]
    · rw [if_neg fun h => hk (Std.LawfulEqOrd.compare_eq_iff_eq.1 h), beq_false_of_ne hk]

/-! ## Keys and values -/

theorem mem_keys_iff {m : SortedMap κ α} {k : κ} : k ∈ m.keys ↔ ∃ v, m.get? k = some v := by
  constructor
  · intro h
    obtain ⟨⟨k', v⟩, he, rfl⟩ := List.mem_map.1 h
    exact ⟨v, mem_entries_iff.1 he⟩
  · rintro ⟨v, h⟩
    exact List.mem_map.2 ⟨(k, v), mem_entries_iff.2 h, rfl⟩

theorem get?_eq_none_iff {m : SortedMap κ α} {k : κ} : m.get? k = none ↔ k ∉ m.keys := by
  rw [mem_keys_iff, Option.eq_none_iff_forall_ne_some]
  simp

theorem nodup_keys (m : SortedMap κ α) : m.keys.Nodup := by
  refine List.pairwise_map.2 (m.sorted.imp fun {a b} h he => ?_)
  have hself : compare b.1 b.1 = .eq := Std.ReflCmp.compare_self
  rw [he, hself] at h
  cases h

theorem get?_filterMap (f : κ → α → Option β) (m : SortedMap κ α) (k : κ) :
    (m.filterMap f).get? k = (m.get? k).bind (f k) := by
  apply Option.ext
  intro b
  rw [← mem_entries_iff, Option.bind_eq_some_iff]
  simp only [filterMap, List.mem_filterMap, Option.map_eq_some_iff, Prod.mk.injEq, Prod.exists]
  constructor
  · rintro ⟨k', v, he, b', hb, rfl, rfl⟩
    exact ⟨v, mem_entries_iff.1 he, hb⟩
  · rintro ⟨v, hv, hb⟩
    exact ⟨k, v, mem_entries_iff.2 hv, b, hb, rfl, rfl⟩

theorem get?_map (f : α → β) (m : SortedMap κ α) (k : κ) : (m.map f).get? k = (m.get? k).map f :=
  find_map (fun _ => f) m.entries k

/-! ## Functions that may fail -/

theorem exists_error_of_traverse {ε : Type} {f : κ → α → Except ε β} {m : SortedMap κ α} {e : ε}
    (h : m.traverse f = .error e) : ∃ k v, m.get? k = some v ∧ f k v = .error e := by
  unfold traverse at h
  split at h
  · next e' he =>
    obtain ⟨k, v, hmem, herror⟩ := exists_error_of_traverseEntries (Except.error.inj h ▸ he)
    exact ⟨k, v, mem_entries_iff.1 hmem, herror⟩
  · cases h

theorem exists_traverse_ok_iff {ε : Type} {f : κ → α → Except ε β} {m : SortedMap κ α} :
    (∃ m', m.traverse f = .ok m') ↔ ∀ k v, m.get? k = some v → ∃ w, f k v = .ok w := by
  constructor
  · rintro ⟨m', h⟩ k v hv
    rw [traverse_ok_iff, traverseEntries_ok_iff] at h
    obtain ⟨⟨_, w⟩, _, _, hw⟩ := exists_left_of_forall₂ h.flip (mem_entries_iff.2 hv)
    exact ⟨w, hw⟩
  · intro h
    cases ht : m.traverse f with
    | ok m' => exact ⟨m', rfl⟩
    | error e =>
      obtain ⟨k, v, hv, herror⟩ := exists_error_of_traverse ht
      obtain ⟨w, hw⟩ := h k v hv
      rw [herror] at hw
      cases hw

theorem get?_of_traverse {ε : Type} {f : κ → α → Except ε β} {m : SortedMap κ α}
    {m' : SortedMap κ β} (h : m.traverse f = .ok m') {k : κ} {w : β} :
    m'.get? k = some w ↔ ∃ v, m.get? k = some v ∧ f k v = .ok w := by
  rw [traverse_ok_iff, traverseEntries_ok_iff] at h
  constructor
  · intro hw
    obtain ⟨⟨k', v⟩, hv, hk, hf⟩ := exists_left_of_forall₂ h (mem_entries_iff.2 hw)
    obtain rfl : k' = k := hk
    exact ⟨v, mem_entries_iff.1 hv, hf⟩
  · rintro ⟨v, hv, hf⟩
    obtain ⟨⟨k', w'⟩, hw, hk, hf'⟩ := exists_left_of_forall₂ h.flip (mem_entries_iff.2 hv)
    obtain rfl : k = k' := hk
    obtain rfl : w = w' := Except.ok.inj (hf.symm.trans hf')
    exact mem_entries_iff.1 hw

variable [Std.TransOrd κ]

theorem traverse_ok_iff_keys {ε : Type} {f : κ → α → Except ε β} {m : SortedMap κ α}
    {m' : SortedMap κ β} :
    m.traverse f = .ok m' ↔
      m'.keys = m.keys ∧ ∀ k v w, m.get? k = some v → m'.get? k = some w → f k v = .ok w := by
  constructor
  · intro h
    refine ⟨traverseEntries_keys (traverse_ok_iff.1 h), fun k v w hv hw => ?_⟩
    obtain ⟨v', hv', hf⟩ := (get?_of_traverse h).1 hw
    rwa [Option.some.inj (hv.symm.trans hv')]
  · rintro ⟨hkeys, hall⟩
    have hresult : ∀ k v, m.get? k = some v → ∃ w, m'.get? k = some w ∧ f k v = .ok w := by
      intro k v hv
      have hk : k ∈ m'.keys := hkeys ▸ mem_keys_iff.2 ⟨v, hv⟩
      obtain ⟨w, hw⟩ := mem_keys_iff.1 hk
      exact ⟨w, hw, hall k v w hv hw⟩
    obtain ⟨m'', h⟩ := exists_traverse_ok_iff.2 fun k v hv =>
      (hresult k v hv).imp fun _ hw => hw.2
    have hsame : m'' = m' := ext_get? fun k => Option.ext fun w => by
      rw [get?_of_traverse h]
      constructor
      · rintro ⟨v, hv, hf⟩
        obtain ⟨w', hw', hf'⟩ := hresult k v hv
        rwa [Except.ok.inj (hf.symm.trans hf')]
      · intro hw
        obtain ⟨v, hv⟩ := mem_keys_iff.1 (hkeys ▸ mem_keys_iff.2 ⟨w, hw⟩)
        exact ⟨v, hv, hall k v w hv hw⟩
    rw [h, hsame]

/-! ## Maps with the same keys -/

/-- Maps that have the same keys list them in the same order. -/
theorem keys_eq_iff {m : SortedMap κ α} {m' : SortedMap κ β} :
    m.keys = m'.keys ↔ ∀ k, k ∈ m.keys ↔ k ∈ m'.keys := by
  refine ⟨fun h k => by rw [h], fun h => ?_⟩
  have hsame : (m.map fun _ => ()) = m'.map fun _ => () := ext_get? fun k => by
    have hk := h k
    rw [mem_keys_iff, mem_keys_iff] at hk
    rw [get?_map, get?_map]
    cases hm : m.get? k <;> cases hm' : m'.get? k <;> simp_all
  have hkeys := congrArg keys hsame
  simpa only [keys, map, List.map_map, Function.comp_def] using hkeys

theorem keys_insert_congr {m : SortedMap κ α} {m' : SortedMap κ β} (h : m.keys = m'.keys) (k : κ)
    (v : α) (w : β) : (m.insert k v).keys = (m'.insert k w).keys := by
  refine keys_eq_iff.2 fun j => ?_
  have hj : (∃ v, m.get? j = some v) ↔ ∃ w, m'.get? j = some w := by
    rw [← mem_keys_iff, h, mem_keys_iff]
  simp only [mem_keys_iff, get?_insert]
  split
  · simp
  · exact hj

/-- A traversal of a map visits the keys of any larger map in their order. -/
theorem foldl_entries {γ : Type} {m : SortedMap κ α} {l : SortedMap κ β}
    (h : ∀ k, l.get? k = none → m.get? k = none) (f : γ → κ → α → γ) (c : γ) :
    m.entries.foldl (fun c e => f c e.1 e.2) c =
      l.keys.foldl (fun c k => (m.get? k).elim c (f c k)) c := by
  have hm : l.filterMap (fun k _ => m.get? k) = m := ext_get? fun k => by
    rw [get?_filterMap]
    cases hk : l.get? k with
    | none => rw [h k hk]; rfl
    | some b => rfl
  have hentries := congrArg entries hm
  rw [← hentries, filterMap, List.foldl_filterMap, keys, List.foldl_map]
  congr 1
  funext c e
  cases m.get? e.1 <;> rfl

/-! ## Many writes -/

theorem get?_insert_eq [DecidableEq κ] (m : SortedMap κ α) (k j : κ) (v : α) :
    (m.insert k v).get? j = if j = k then some v else m.get? j := by
  rw [get?_insert]
  simp only [Std.LawfulEqOrd.compare_eq_iff_eq]

theorem get?_insertMany (m : SortedMap κ α) (es : List (κ × α)) (k : κ) :
    (m.insertMany es).get? k = (find k es.reverse).or (m.get? k) := by
  induction es generalizing m with
  | nil => rfl
  | cons e rest ih =>
    rw [insertMany, List.foldl_cons, ← insertMany, ih, get?_insert, List.reverse_cons, find_append]
    by_cases h : compare k e.1 = .eq <;> simp [find, h]

theorem get?_ofList (es : List (κ × α)) (k : κ) : (ofList es).get? k = find k es.reverse := by
  rw [ofList, get?_insertMany, get?_empty, Option.or_none]

theorem exists_get?_ofList_iff {es : List (κ × α)} {k : κ} :
    (∃ v, (ofList es).get? k = some v) ↔ ∃ v, (k, v) ∈ es := by
  simp only [get?_ofList, exists_find_iff, List.mem_reverse]

theorem setOfList_eq (ks : List κ) : SortedSet.ofList ks = ofList (ks.map fun k => (k, ())) := by
  rw [ofList, insertMany, List.foldl_map]
  rfl

theorem contains_setOfList_iff {ks : List κ} {k : κ} :
    (SortedSet.ofList ks).contains k = true ↔ k ∈ ks := by
  rw [contains, Option.isSome_iff_exists, setOfList_eq, exists_get?_ofList_iff]
  simp

theorem get?_ofList_eq_some {es : List (κ × α)} {k : κ} {v : α} (hk : (k, v) ∈ es)
    (h : ∀ w, (k, w) ∈ es → w = v) : (ofList es).get? k = some v := by
  obtain ⟨w, hw⟩ := exists_get?_ofList_iff.2 ⟨v, hk⟩
  rw [hw, h w (List.mem_reverse.1 (mem_of_find (get?_ofList es k ▸ hw)))]

theorem get?_ofList_eq_some_iff {es : List (κ × α)}
    (h : ∀ k v w, (k, v) ∈ es → (k, w) ∈ es → v = w) {k : κ} {v : α} :
    (ofList es).get? k = some v ↔ (k, v) ∈ es := by
  constructor
  · intro hv
    rw [get?_ofList] at hv
    exact List.mem_reverse.1 (mem_of_find hv)
  · exact fun hv => get?_ofList_eq_some hv fun w hw => h k w v hw hv

theorem ofList_perm {es es' : List (κ × α)} (h : es.Perm es') (hd : (es.map (·.1)).Nodup) :
    ofList es' = ofList es := by
  have hone : ∀ k v w, (k, v) ∈ es → (k, w) ∈ es → v = w := fun k v w hv hw =>
    congrArg Prod.snd (List.inj_on_of_nodup_map hd hv hw rfl)
  have hone' : ∀ k v w, (k, v) ∈ es' → (k, w) ∈ es' → v = w := fun k v w hv hw =>
    hone k v w (h.mem_iff.2 hv) (h.mem_iff.2 hw)
  refine ext_get? fun k => Option.ext fun v => ?_
  rw [get?_ofList_eq_some_iff hone, get?_ofList_eq_some_iff hone', h.mem_iff]

theorem setOfList_congr {ks ks' : List κ} (h : ∀ k, k ∈ ks ↔ k ∈ ks') :
    SortedSet.ofList ks = SortedSet.ofList ks' := by
  refine ext_get? fun k => ?_
  have hmem : ∀ ks : List κ, (SortedSet.ofList ks).get? k = some () ↔ k ∈ ks := fun ks => by
    rw [← contains_setOfList_iff, contains, Option.isSome_iff_exists, Unique.exists_iff]
  refine Option.ext fun _ => ?_
  exact (hmem ks).trans ((h k).trans (hmem ks').symm)

theorem ofList_entries (m : SortedMap κ α) : ofList m.entries = m :=
  ext_get? fun k => by rw [get?_ofList, find_reverse m.sorted, ← get?]

/-- The values of a map may be visited in any order, the results make up the same map. -/
theorem exists_traverseEntries_of_perm {ε : Type} {f : κ → α → Except ε β} {m : SortedMap κ α}
    {m' : SortedMap κ β} (h : m.traverse f = .ok m') {es : List (κ × α)}
    (hes : es.Perm m.entries) : ∃ ws, traverseEntries f es = .ok ws ∧ ofList ws = m' := by
  rw [traverse_ok_iff, traverseEntries_ok_iff] at h
  obtain ⟨ws, hws, hperm⟩ := List.perm_comp_forall₂ hes h
  refine ⟨ws, traverseEntries_ok_iff.2 hws, ?_⟩
  rw [ofList_perm hperm.symm (nodup_keys m'), ofList_entries]

theorem setOfList_toList (s : SortedSet κ) : SortedSet.ofList s.toList = s := by
  rw [setOfList_eq, SortedSet.toList, keys, List.map_map]
  exact (congrArg ofList (List.map_id s.entries)).trans (ofList_entries s)

/-- What is found in the entries of the map of a list: the last one of a key. -/
theorem lookup_ofList [DecidableEq κ] (es : List (κ × α)) (k : κ) :
    (ofList es).entries.lookup k = es.reverse.lookup k := by
  rw [← find_eq_lookup, ← find_eq_lookup, ← get?_ofList, get?]

theorem get?_overlay (m u : SortedMap κ α) (k : κ) :
    (m.overlay u).get? k = (u.get? k).or (m.get? k) := by
  rw [overlay, get?_insertMany, find_reverse u.sorted, ← get?]

@[simp] theorem overlay_empty (m : SortedMap κ α) : m.overlay ∅ = m :=
  ext_get? fun k => by rw [get?_overlay, get?_emptyCollection, Option.none_or]

theorem overlay_overlay {a b : SortedMap κ α} (h : a.keys = b.keys) (m : SortedMap κ α) :
    (m.overlay a).overlay b = m.overlay b := by
  refine ext_get? fun k => ?_
  simp only [get?_overlay]
  cases hb : b.get? k with
  | some v => rfl
  | none =>
    have ha : a.get? k = none := by
      rw [get?_eq_none_iff, h, ← get?_eq_none_iff, hb]
    rw [ha, Option.none_or]

end Lawful

end FeatureServing.SortedMap
