/-!
# Finite maps with ascending keys

`SortedMap κ α` keeps its entries in strictly ascending key order, so two maps with the same
look-ups are the same map (`SortedMap.ext_get?`) and every traversal runs in key order.

* `get?`, `contains`, `keys`, `values` : the view of a map;
* `map`, `filter`, `filterMap`, `traverse` : value by value, the keys stay in order;
* `insert` (`get?_insert`), `ofList` (the last entry of a key wins), `overlay` (the right map wins);
* `SortedSet κ` : maps to `Unit`, with `SortedSet.ofList`.
-/

namespace FeatureServing

/-- A finite map, held as the list of its entries in strictly ascending key order. -/
structure SortedMap (κ α : Type) [Ord κ] where
  entries : List (κ × α)
  sorted : entries.Pairwise fun a b => compare a.1 b.1 = .lt

namespace SortedMap

variable {κ α β : Type} [Ord κ]

/-! ## Entry lists -/

/-- Writes an entry into an ascending list, replacing the one of the same key. -/
def put (k : κ) (v : α) : List (κ × α) → List (κ × α)
  | [] => [(k, v)]
  | (k', v') :: rest =>
    match compare k k' with
    | .lt => (k, v) :: (k', v') :: rest
    | .eq => (k, v) :: rest
    | .gt => (k', v') :: put k v rest

/-- The value under a key of an entry list. -/
def find (k : κ) : List (κ × α) → Option α
  | [] => none
  | (k', v) :: rest => if compare k k' = .eq then some v else find k rest

theorem mem_put {k : κ} {v : α} {e : κ × α} {l : List (κ × α)} (h : e ∈ put k v l) :
    e = (k, v) ∨ e ∈ l := by
  induction l with
  | nil => simpa [put] using h
  | cons hd tl ih =>
    obtain ⟨k', v'⟩ := hd
    simp only [put] at h
    split at h
    · simpa using h
    · rcases List.mem_cons.1 h with h | h
      · exact .inl h
      · exact .inr (List.mem_cons_of_mem _ h)
    · rcases List.mem_cons.1 h with h | h
      · exact .inr (h ▸ List.mem_cons_self)
      · exact (ih h).imp id (List.mem_cons_of_mem _)

theorem find_eq_none {k : κ} {l : List (κ × α)} (h : ∀ e ∈ l, compare k e.1 ≠ .eq) :
    find k l = none := by
  induction l with
  | nil => rfl
  | cons hd tl ih =>
    simp [find, h hd (by simp), ih fun e he => h e (List.mem_cons_of_mem _ he)]

section Lawful

variable [Std.LawfulEqOrd κ]

theorem find_put (k j : κ) (v : α) (l : List (κ × α)) :
    find j (put k v l) = if compare j k = .eq then some v else find j l := by
  induction l with
  | nil => simp [put, find]
  | cons hd tl ih =>
    obtain ⟨k', v'⟩ := hd
    simp only [put]
    split
    · simp [find]
    · next hc =>
      obtain rfl := Std.LawfulEqOrd.eq_of_compare hc
      by_cases hj : compare j k = .eq <;> simp [find, hj]
    · next hc =>
      by_cases hj : compare j k' = .eq
      · obtain rfl := Std.LawfulEqOrd.eq_of_compare hj
        have hk : compare j k ≠ .eq := by
          intro e
          obtain rfl := Std.LawfulEqOrd.eq_of_compare e
          simp at hc
        simp [find, hk]
      · simp [find, hj, ih]

theorem find_eq_some_of_mem {k : κ} {v : α} {l : List (κ × α)}
    (hl : l.Pairwise fun a b => compare a.1 b.1 = .lt) (h : (k, v) ∈ l) :
    find k l = some v := by
  induction l with
  | nil => simp at h
  | cons hd tl ih =>
    have hh := List.pairwise_cons.1 hl
    rcases List.mem_cons.1 h with rfl | h
    · simp [find]
    · have hlt := hh.1 _ h
      have hne : compare k hd.1 ≠ .eq := by
        intro e
        obtain rfl := Std.LawfulEqOrd.eq_of_compare e
        simp at hlt
      simp [find, hne, ih hh.2 h]

theorem mem_of_find {k : κ} {v : α} {l : List (κ × α)} (h : find k l = some v) : (k, v) ∈ l := by
  induction l with
  | nil => simp [find] at h
  | cons hd tl ih =>
    simp only [find] at h
    split at h
    · next hc =>
      obtain rfl := Std.LawfulEqOrd.eq_of_compare hc
      obtain ⟨k', v'⟩ := hd
      simp at h
      simp [h]
    · exact List.mem_cons_of_mem _ (ih h)

variable [Std.TransOrd κ]

theorem pairwise_put {k : κ} {v : α} {l : List (κ × α)}
    (h : l.Pairwise fun a b => compare a.1 b.1 = .lt) :
    (put k v l).Pairwise fun a b => compare a.1 b.1 = .lt := by
  induction l with
  | nil => simp [put]
  | cons hd tl ih =>
    obtain ⟨k', v'⟩ := hd
    have hh := List.pairwise_cons.1 h
    simp only [put]
    split
    · next hc =>
      refine List.pairwise_cons.2 ⟨fun e he => ?_, h⟩
      rcases List.mem_cons.1 he with rfl | he
      · exact hc
      · exact Std.TransCmp.lt_trans hc (hh.1 e he)
    · next hc =>
      obtain rfl := Std.LawfulEqOrd.eq_of_compare hc
      exact List.pairwise_cons.2 ⟨hh.1, hh.2⟩
    · next hc =>
      refine List.pairwise_cons.2 ⟨fun e he => ?_, ih hh.2⟩
      rcases mem_put he with rfl | he
      · exact Std.OrientedCmp.gt_iff_lt.1 hc
      · exact hh.1 e he

/-- Ascending lists with the same look-ups are the same list. -/
theorem eq_of_find_eq {l₁ l₂ : List (κ × α)}
    (h₁ : l₁.Pairwise fun a b => compare a.1 b.1 = .lt)
    (h₂ : l₂.Pairwise fun a b => compare a.1 b.1 = .lt)
    (h : ∀ k, find k l₁ = find k l₂) : l₁ = l₂ := by
  induction l₁ generalizing l₂ with
  | nil =>
    cases l₂ with
    | nil => rfl
    | cons b t => simpa [find] using h b.1
  | cons a s ih =>
    cases l₂ with
    | nil => simpa [find] using h a.1
    | cons b t =>
      have ha := List.pairwise_cons.1 h₁
      have hb := List.pairwise_cons.1 h₂
      have hab : compare a.1 b.1 = .eq := by
        have h1 := h a.1
        have h2 := h b.1
        cases hc : compare a.1 b.1 with
        | eq => rfl
        | lt =>
          have : find a.1 (b :: t) = none := by
            refine find_eq_none fun e he => ?_
            rcases List.mem_cons.1 he with rfl | he
            · simp [hc]
            · simp [Std.TransCmp.lt_trans hc (hb.1 e he)]
          rw [this] at h1
          simp [find] at h1
        | gt =>
          have hc' := Std.OrientedCmp.gt_iff_lt.1 hc
          have : find b.1 (a :: s) = none := by
            refine find_eq_none fun e he => ?_
            rcases List.mem_cons.1 he with rfl | he
            · simp [hc']
            · simp [Std.TransCmp.lt_trans hc' (ha.1 e he)]
          rw [this] at h2
          simp [find] at h2
      have hk := Std.LawfulEqOrd.eq_of_compare hab
      have hv := h a.1
      simp only [find, Std.ReflCmp.compare_self, if_true, hab, Option.some.injEq] at hv
      obtain ⟨ka, va⟩ := a
      obtain ⟨kb, vb⟩ := b
      simp only at hk hv hab ha hb
      subst hk hv
      congr 1
      refine ih ha.2 hb.2 fun k => ?_
      by_cases hka : compare k ka = .eq
      · obtain rfl := Std.LawfulEqOrd.eq_of_compare hka
        rw [find_eq_none fun e he => by simp [ha.1 e he],
          find_eq_none fun e he => by simp [hb.1 e he]]
      · simpa [find, hka] using h k

end Lawful

/-! ## Maps -/

/-- The value under a key. -/
def get? (m : SortedMap κ α) (k : κ) : Option α :=
  find k m.entries

def contains (m : SortedMap κ α) (k : κ) : Bool :=
  (m.get? k).isSome

/-- The keys, ascending. -/
def keys (m : SortedMap κ α) : List κ :=
  m.entries.map (·.1)

/-- The values, in key order. -/
def values (m : SortedMap κ α) : List α :=
  m.entries.map (·.2)

def size (m : SortedMap κ α) : Nat :=
  m.entries.length

def isEmpty (m : SortedMap κ α) : Bool :=
  m.entries.isEmpty

/-- The map without entries. -/
def empty : SortedMap κ α :=
  ⟨[], .nil⟩

instance : EmptyCollection (SortedMap κ α) := ⟨empty⟩

instance : Inhabited (SortedMap κ α) := ⟨empty⟩

@[simp] theorem get?_empty (k : κ) : (empty : SortedMap κ α).get? k = none := rfl

/-- Applies a function to every value. -/
def map (f : α → β) (m : SortedMap κ α) : SortedMap κ β :=
  ⟨m.entries.map fun e => (e.1, f e.2), by
    rw [List.pairwise_map]
    exact m.sorted⟩

/-- Keeps the entries that pass a test. -/
def filter (p : κ → α → Bool) (m : SortedMap κ α) : SortedMap κ α :=
  ⟨m.entries.filter fun e => p e.1 e.2, m.sorted.filter _⟩

/-- Applies a function to every entry and keeps those that it gives a value for. -/
def filterMap (f : κ → α → Option β) (m : SortedMap κ α) : SortedMap κ β :=
  ⟨m.entries.filterMap fun e => (f e.1 e.2).map fun b => (e.1, b), by
    refine m.sorted.filterMap _ fun a a' h b hb b' hb' => ?_
    obtain ⟨_, _, rfl⟩ := Option.map_eq_some_iff.1 hb
    obtain ⟨_, _, rfl⟩ := Option.map_eq_some_iff.1 hb'
    exact h⟩

/-! ## Functions that may fail -/

/-- Applies a function to every value from left to right, up to the first error. -/
def traverseEntries {ε : Type} (f : κ → α → Except ε β) :
    List (κ × α) → Except ε (List (κ × β))
  | [] => .ok []
  | (k, v) :: rest =>
    match f k v with
    | .error e => .error e
    | .ok w =>
      match traverseEntries f rest with
      | .error e => .error e
      | .ok ws => .ok ((k, w) :: ws)

omit [Ord κ] in
theorem traverseEntries_keys {ε : Type} {f : κ → α → Except ε β} {l : List (κ × α)}
    {l' : List (κ × β)} (h : traverseEntries f l = .ok l') : l'.map (·.1) = l.map (·.1) := by
  induction l generalizing l' with
  | nil =>
    obtain rfl : [] = l' := by simpa [traverseEntries] using h
    rfl
  | cons e rest ih =>
    obtain ⟨k, v⟩ := e
    simp only [traverseEntries] at h
    split at h
    · simp at h
    · split at h
      · simp at h
      · next ws hws =>
        obtain rfl := Except.ok.inj h
        simp [ih hws]

/-- Applies a function to every value in key order, up to the first error. -/
def traverse {ε : Type} (f : κ → α → Except ε β) (m : SortedMap κ α) :
    Except ε (SortedMap κ β) :=
  match h : traverseEntries f m.entries with
  | .error e => .error e
  | .ok es => .ok ⟨es, by
      have hk := traverseEntries_keys h
      have hs : (m.entries.map (·.1)).Pairwise fun a b => compare a b = .lt := by
        rw [List.pairwise_map]
        exact m.sorted
      rw [← hk, List.pairwise_map] at hs
      exact hs⟩

theorem mem_entries_iff [Std.LawfulEqOrd κ] {m : SortedMap κ α} {k : κ} {v : α} :
    (k, v) ∈ m.entries ↔ m.get? k = some v :=
  ⟨find_eq_some_of_mem m.sorted, mem_of_find⟩

variable [Std.TransOrd κ] [Std.LawfulEqOrd κ]

/-- Writes one entry, replacing the value of a key that is present. -/
def insert (m : SortedMap κ α) (k : κ) (v : α) : SortedMap κ α :=
  ⟨put k v m.entries, pairwise_put m.sorted⟩

theorem get?_insert (m : SortedMap κ α) (k j : κ) (v : α) :
    (m.insert k v).get? j = if compare j k = .eq then some v else m.get? j :=
  find_put k j v m.entries

@[simp] theorem get?_insert_self (m : SortedMap κ α) (k : κ) (v : α) :
    (m.insert k v).get? k = some v := by
  simp [get?_insert]

/-- Writes a list of entries from left to right, so the last one of a key wins. -/
def insertMany (m : SortedMap κ α) (es : List (κ × α)) : SortedMap κ α :=
  es.foldl (fun m e => m.insert e.1 e.2) m

/-- The map of a list of entries; the last one of a key wins. -/
def ofList (es : List (κ × α)) : SortedMap κ α :=
  empty.insertMany es

/-- Writes every entry of the right map over the left one. -/
def overlay (m upper : SortedMap κ α) : SortedMap κ α :=
  m.insertMany upper.entries

/-- Maps with the same look-ups are equal. -/
theorem ext_get? {m₁ m₂ : SortedMap κ α} (h : ∀ k, m₁.get? k = m₂.get? k) : m₁ = m₂ := by
  obtain ⟨l₁, h₁⟩ := m₁
  obtain ⟨l₂, h₂⟩ := m₂
  obtain rfl : l₁ = l₂ := eq_of_find_eq h₁ h₂ h
  rfl

end SortedMap

/-- A finite set, listed in ascending order. -/
abbrev SortedSet (κ : Type) [Ord κ] := SortedMap κ Unit

namespace SortedSet

variable {κ : Type} [Ord κ]

/-- The members, ascending. -/
def toList (s : SortedSet κ) : List κ :=
  s.keys

variable [Std.TransOrd κ] [Std.LawfulEqOrd κ]

def add (s : SortedSet κ) (k : κ) : SortedSet κ :=
  s.insert k ()

def ofList (ks : List κ) : SortedSet κ :=
  ks.foldl add SortedMap.empty

end SortedSet

end FeatureServing
