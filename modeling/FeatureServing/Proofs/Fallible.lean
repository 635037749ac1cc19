import Mathlib.Data.List.Forall2

/-!
# Steps that may fail

How a chain of steps and a step for every item of a list succeed:

* `bind_ok_iff`, `map_ok_iff`, `mapError_ok_iff` : the parts of a successful chain;
* `bind_of_ok`, `bind_of_some`, `bind_of_error` : a chain whose first step is known;
* `bind_error_iff`, `map_error_iff`, `mapError_error_iff` : where an error comes from;
* `forall₂_imp_of_mem`, `forall₂_set`, `exists_forall₂_iff` : items of two lists side by side;
* `mapM_ok_iff`, `mapM_some_iff` : a list of results is a result per item, in the same order;
* `exists_mapM_ok_iff`, `exists_mapM_some_iff` : a list succeeds when every item does;
* `mapM_error_iff`, `forM_error_iff` : an error of a list is that of the first item that has any.
-/

namespace FeatureServing

variable {α β γ ε ε' : Type}

theorem bind_ok_iff {x : Except ε α} {f : α → Except ε β} {b : β} :
    (x >>= f) = .ok b ↔ ∃ a, x = .ok a ∧ f a = .ok b := by
  cases x <;> simp [bind, Except.bind]

theorem bind_of_ok {x : Except ε α} {a : α} (h : x = .ok a) (f : α → Except ε β) :
    (x >>= f) = f a := by
  rw [h]
  rfl

theorem bind_of_some {o : Option α} {a : α} (h : o = some a) (f : α → Option β) :
    (o >>= f) = f a := by
  rw [h]
  rfl

theorem bind_of_error {x : Except ε α} {e : ε} (h : x = .error e) (f : α → Except ε β) :
    (x >>= f) = .error e := by
  rw [h]
  rfl

theorem bind_error_iff {x : Except ε α} {f : α → Except ε β} {e : ε} :
    (x >>= f) = .error e ↔ x = .error e ∨ ∃ a, x = .ok a ∧ f a = .error e := by
  cases x <;> simp [bind, Except.bind]

theorem map_ok_iff {x : Except ε α} {f : α → β} {b : β} :
    x.map f = .ok b ↔ ∃ a, x = .ok a ∧ f a = b := by
  cases x <;> simp [Except.map]

theorem exists_map_ok_iff {x : Except ε α} {f : α → β} :
    (∃ b, x.map f = .ok b) ↔ ∃ a, x = .ok a := by
  cases x <;> simp [Except.map]

theorem mapError_ok_iff {x : Except ε α} {f : ε → ε'} {a : α} :
    x.mapError f = .ok a ↔ x = .ok a := by
  cases x <;> simp [Except.mapError]

theorem map_error_iff {x : Except ε α} {f : α → β} {e : ε} :
    x.map f = .error e ↔ x = .error e := by
  cases x <;> simp [Except.map]

theorem mapError_error_iff {x : Except ε α} {f : ε → ε'} {e : ε'} :
    x.mapError f = .error e ↔ ∃ e', x = .error e' ∧ f e' = e := by
  cases x <;> simp [Except.mapError]

/-! ## Lists -/

theorem forall₂_imp_of_mem {R S : α → β → Prop} {as : List α} {bs : List β}
    (h : List.Forall₂ R as bs) (hS : ∀ a ∈ as, ∀ b ∈ bs, R a b → S a b) : List.Forall₂ S as bs := by
  obtain ⟨hlen, hzip⟩ := List.forall₂_iff_zip.1 h
  refine List.forall₂_iff_zip.2 ⟨hlen, fun {a b} hmem => ?_⟩
  obtain ⟨ha, hb⟩ := List.of_mem_zip hmem
  exact hS a ha b hb (hzip hmem)

theorem exists_left_of_forall₂ {R : α → β → Prop} {as : List α} {bs : List β}
    (h : List.Forall₂ R as bs) {b : β} (hb : b ∈ bs) : ∃ a ∈ as, R a b := by
  induction h with
  | nil => simp at hb
  | cons hab _ ih =>
    rcases List.mem_cons.1 hb with rfl | hb
    · exact ⟨_, List.mem_cons_self, hab⟩
    · obtain ⟨a, ha, hR⟩ := ih hb
      exact ⟨a, List.mem_cons_of_mem _ ha, hR⟩

theorem getElem?_of_forall₂ {R : α → β → Prop} {as : List α} {bs : List β}
    (h : List.Forall₂ R as bs) {k : Nat} {a : α} (ha : as[k]? = some a) :
    ∃ b, bs[k]? = some b ∧ R a b := by
  obtain ⟨hk, rfl⟩ := List.getElem?_eq_some_iff.1 ha
  have hk' := h.length_eq ▸ hk
  exact ⟨_, List.getElem?_eq_getElem hk', h.get hk hk'⟩

theorem forall₂_set {R S : α → β → Prop} {as : List α} {bs : List β} (h : List.Forall₂ R as bs)
    (hRS : ∀ a b, R a b → S a b) {n : Nat} {b b' : β} (hn : bs[n]? = some b)
    (hb : ∀ a, R a b → S a b') : List.Forall₂ S as (bs.set n b') := by
  induction h generalizing n with
  | nil => exact .nil
  | cons hab hrest ih =>
    cases n with
    | zero =>
      obtain rfl := Option.some.inj hn
      exact .cons (hb _ hab) (hrest.imp hRS)
    | succ n => exact .cons (hRS _ _ hab) (ih hn)

theorem exists_forall₂_iff {R : α → β → Prop} {as : List α} :
    (∃ bs, List.Forall₂ R as bs) ↔ ∀ a ∈ as, ∃ b, R a b := by
  induction as with
  | nil => simp
  | cons a as ih =>
    simp only [List.forall_mem_cons, ← ih, List.forall₂_cons_left_iff]
    constructor
    · rintro ⟨_, b, bs, hb, hbs, -⟩
      exact ⟨⟨b, hb⟩, bs, hbs⟩
    · rintro ⟨⟨b, hb⟩, bs, hbs⟩
      exact ⟨_, b, bs, hb, hbs, rfl⟩

theorem mapM_ok_iff {f : α → Except ε β} {xs : List α} {ys : List β} :
    xs.mapM f = .ok ys ↔ List.Forall₂ (fun x y => f x = .ok y) xs ys := by
  induction xs generalizing ys with
  | nil => simp [pure, Except.pure, eq_comm]
  | cons x xs ih =>
    simp only [List.mapM_cons, bind_ok_iff, ih, List.forall₂_cons_left_iff]
    constructor
    · rintro ⟨y, hy, zs, hzs, h⟩
      exact ⟨y, zs, hy, hzs, (Except.ok.inj h).symm⟩
    · rintro ⟨y, zs, hy, hzs, rfl⟩
      exact ⟨y, hy, zs, hzs, rfl⟩

theorem mem_mapM_ok_iff {f : α → Except ε β} {xs : List α} {ys : List β} (h : xs.mapM f = .ok ys)
    {y : β} : y ∈ ys ↔ ∃ x ∈ xs, f x = .ok y := by
  have hall := mapM_ok_iff.1 h
  constructor
  · exact exists_left_of_forall₂ hall
  · rintro ⟨x, hx, hy⟩
    obtain ⟨z, hz, hxz⟩ := exists_left_of_forall₂ hall.flip hx
    obtain rfl := Except.ok.inj (hxz.symm.trans hy)
    exact hz

theorem mapM_some_iff {f : α → Option β} {xs : List α} {ys : List β} :
    xs.mapM f = some ys ↔ List.Forall₂ (fun x y => f x = some y) xs ys := by
  induction xs generalizing ys with
  | nil => simp [eq_comm]
  | cons x xs ih =>
    simp only [List.mapM_cons, Option.bind_eq_bind, Option.bind_eq_some_iff, ih,
      List.forall₂_cons_left_iff]
    constructor
    · rintro ⟨y, hy, zs, hzs, h⟩
      exact ⟨y, zs, hy, hzs, (Option.some.inj h).symm⟩
    · rintro ⟨y, zs, hy, hzs, rfl⟩
      exact ⟨y, hy, zs, hzs, rfl⟩

theorem mapM_option_map (f : α → Option β) (g : β → γ) (xs : List α) :
    (xs.mapM fun x => (f x).map g) = (xs.mapM f).map (List.map g) := by
  induction xs with
  | nil => rfl
  | cons x xs ih =>
    rw [List.mapM_cons, List.mapM_cons, ih]
    cases f x with
    | none => rfl
    | some y => cases xs.mapM f <;> rfl

theorem forM_ok_iff {f : α → Except ε Unit} {xs : List α} :
    xs.forM f = .ok () ↔ ∀ x ∈ xs, f x = .ok () := by
  induction xs with
  | nil => simp [pure, Except.pure]
  | cons x xs ih =>
    rw [List.forM, bind_ok_iff, List.forall_mem_cons, ← ih]
    exact ⟨fun ⟨_, hx, hxs⟩ => ⟨hx, hxs⟩, fun ⟨hx, hxs⟩ => ⟨(), hx, hxs⟩⟩

theorem exists_mapM_ok_iff {f : α → Except ε β} {xs : List α} :
    (∃ ys, xs.mapM f = .ok ys) ↔ ∀ x ∈ xs, ∃ y, f x = .ok y := by
  simp only [mapM_ok_iff, exists_forall₂_iff]

/-- Items are worked on up to the first one that fails. -/
theorem mapM_error_iff {f : α → Except ε β} {xs : List α} {e : ε} :
    xs.mapM f = .error e ↔
      ∃ before x after, xs = before ++ x :: after ∧ (∀ y ∈ before, ∃ z, f y = .ok z) ∧
        f x = .error e := by
  have hrest : ∀ (y : β) (xs : List α), (xs.mapM f >>= fun ys => pure (y :: ys)) = .error e ↔
      xs.mapM f = .error e := fun y xs => by
    rw [bind_error_iff]
    exact or_iff_left nofun
  induction xs with
  | nil => simp [pure, Except.pure]
  | cons x xs ih =>
    simp only [List.mapM_cons, bind_error_iff (x := f x), hrest, ih]
    constructor
    · rintro (hx | ⟨z, hz, before, y, after, rfl, hbefore, hy⟩)
      · exact ⟨[], x, xs, rfl, nofun, hx⟩
      · exact ⟨x :: before, y, after, rfl, List.forall_mem_cons.2 ⟨⟨z, hz⟩, hbefore⟩, hy⟩
    · rintro ⟨_ | ⟨w, before⟩, y, after, hsplit, hbefore, hy⟩
      · obtain ⟨rfl, -⟩ := List.cons.inj hsplit
        exact .inl hy
      · obtain ⟨rfl, rfl⟩ := List.cons.inj hsplit
        obtain ⟨⟨z, hz⟩, hbefore⟩ := List.forall_mem_cons.1 hbefore
        exact .inr ⟨z, hz, before, y, after, rfl, hbefore, hy⟩

theorem exists_error_of_mapM {f : α → Except ε β} {xs : List α} {e : ε}
    (h : xs.mapM f = .error e) : ∃ x ∈ xs, f x = .error e := by
  obtain ⟨before, x, after, rfl, -, hx⟩ := mapM_error_iff.1 h
  exact ⟨x, List.mem_append_right _ List.mem_cons_self, hx⟩

theorem forM_error_iff {f : α → Except ε Unit} {xs : List α} {e : ε} :
    xs.forM f = .error e ↔
      ∃ before x after, xs = before ++ x :: after ∧ (∀ y ∈ before, f y = .ok ()) ∧
        f x = .error e := by
  have hmapM : xs.forM f = (xs.mapM f).map fun _ => () := by
    induction xs with
    | nil => rfl
    | cons x xs ih =>
      rw [List.forM, List.mapM_cons, ih]
      cases f x with
      | error _ => rfl
      | ok _ => cases xs.mapM f <;> rfl
  rw [hmapM, map_error_iff, mapM_error_iff]
  simp only [Unique.exists_iff]

theorem exists_mapM_some_iff {f : α → Option β} {xs : List α} :
    (∃ ys, xs.mapM f = some ys) ↔ ∀ x ∈ xs, ∃ y, f x = some y := by
  simp only [mapM_some_iff, exists_forall₂_iff]

end FeatureServing
