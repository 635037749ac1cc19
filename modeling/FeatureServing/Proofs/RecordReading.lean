import Mathlib.Data.List.Forall2
import Mathlib.Data.List.Nodup
import FeatureServing.Json.Node
import FeatureServing.Proofs.Fallible

/-!
# Fields of records

What a reader finds in a record depends on the members with known names alone, and only the room
that is left below it tells one place in a tree from another.

* `Fields.once?_eq_some_iff` : the fields of a record are the members with known names, if none of
  these is repeated;
* `Fields.Extends`, `Fields.once?_insert` : what one member more changes;
* `Json.Adds`, `Json.Differ` : trees of which one has a field more, or another value in a field;
* `Json.fields?`, `Json.Node.fields?_eq` : the fields of a tree, and those of a tree with room;
* `Json.Node.fields?_record`, `Json.exists_fields?_record` : what is found in a written record;
* `Fields.Extends.nullable_congr`, … : how fields are read in records that differ in one member.
-/

namespace FeatureServing

/-! ## Fields -/

namespace Fields

variable {τ : Type} {names : List String} {ms : List (String × τ)} {fs : Fields τ}

/-- **The fields of a record** are its members with known names, each name at most once. -/
theorem once?_eq_some_iff :
    once? names ms = some fs ↔
      ms.filter (fun m => names.contains m.1) = fs ∧ (fs.map (·.1)).Nodup := by
  induction ms generalizing fs with
  | nil =>
    rw [once?, List.filter_nil, Option.some.injEq]
    exact ⟨by rintro rfl; exact ⟨rfl, .nil⟩, And.left⟩
  | cons m rest ih =>
    have hlookup : ∀ fs : Fields τ, (fs.lookup m.1).isSome = true ↔ m.1 ∈ fs.map (·.1) := by
      intro fs
      rw [List.lookup_isSome_iff, List.mem_map]
      exact exists_congr fun f => and_congr_right fun _ => beq_iff_eq.trans eq_comm
    rw [once?, Option.bind_eq_bind, Option.bind_eq_some_iff]
    simp only [ih]
    by_cases hm : names.contains m.1 = true
    · simp only [hm, Bool.not_true, Bool.false_eq_true, if_false, List.filter_cons_of_pos]
      constructor
      · rintro ⟨fs', ⟨hfilter, hnodup⟩, h⟩
        split at h
        · cases h
        · next hnew =>
          obtain rfl := Option.some.inj h
          rw [hfilter]
          exact ⟨rfl, List.nodup_cons.2 ⟨fun hmem => hnew ((hlookup fs').2 hmem), hnodup⟩⟩
      · rintro ⟨rfl, hnodup⟩
        obtain ⟨hnew, hnodup⟩ := List.nodup_cons.1 hnodup
        exact ⟨_, ⟨rfl, hnodup⟩, if_neg fun h => hnew ((hlookup _).1 h)⟩
    · simp only [Bool.of_not_eq_true hm, Bool.not_false, if_true, List.filter_cons,
        Bool.false_eq_true, if_false, Option.some.injEq, exists_eq_right]

theorem once?_eq (names : List String) (ms : List (String × τ)) :
    once? names ms =
      if ((ms.filter fun m => names.contains m.1).map (·.1)).Nodup then
        some (ms.filter fun m => names.contains m.1)
      else none := by
  split
  · next h => exact once?_eq_some_iff.2 ⟨rfl, h⟩
  · next h =>
    rw [Option.eq_none_iff_forall_ne_some]
    intro fs hfs
    obtain ⟨rfl, hnodup⟩ := once?_eq_some_iff.1 hfs
    exact h hnodup

theorem once?_map {σ : Type} (f : τ → σ) (names : List String) (ms : List (String × τ)) :
    once? names (ms.map fun m => (m.1, f m.2)) =
      (once? names ms).map fun fs => fs.map fun m => (m.1, f m.2) := by
  have hfilter : ((ms.map fun m => (m.1, f m.2)).filter fun m => names.contains m.1) =
      (ms.filter fun m => names.contains m.1).map fun m => (m.1, f m.2) := List.filter_map
  have hnames : ((ms.filter fun m => names.contains m.1).map fun m => (m.1, f m.2)).map (·.1) =
      (ms.filter fun m => names.contains m.1).map (·.1) := List.map_map
  rw [once?_eq, once?_eq, hfilter, hnames]
  split <;> rfl

theorem lookup_map {σ : Type} (f : τ → σ) (fs : Fields τ) (name : String) :
    (fs.map fun m => (m.1, f m.2)).lookup name = (fs.lookup name).map f := by
  induction fs with
  | nil => rfl
  | cons m rest ih =>
    rw [List.map_cons, List.lookup_cons, List.lookup_cons]
    cases name == m.1 with
    | true => rfl
    | false => exact ih

theorem lookup_filter {name : String} (hname : name ∈ names) (ms : List (String × τ)) :
    (ms.filter fun m => names.contains m.1).lookup name = ms.lookup name := by
  induction ms with
  | nil => rfl
  | cons m rest ih =>
    by_cases hm : name = m.1
    · subst hm
      have hknown : names.contains m.1 = true := List.contains_iff_mem.2 hname
      rw [List.filter_cons, if_pos hknown, List.lookup_cons, List.lookup_cons, beq_self_eq_true]
    · have hother : (name == m.1) = false := beq_false_of_ne hm
      rw [List.lookup_cons, hother, List.filter_cons]
      split
      · rw [List.lookup_cons, hother]
        exact ih
      · exact ih

theorem lookup_eq_none {name : String} (h : name ∉ fs.map (·.1)) : fs.lookup name = none := by
  rw [List.lookup_eq_none_iff]
  exact fun m hm => bne_iff_ne.2 fun he => h (List.mem_map.2 ⟨m, hm, he.symm⟩)

theorem required_of_lookup {α : Type} {name : String} {t : τ} (h : fs.lookup name = some t)
    (read : τ → Option α) : fs.required name read = read t := by
  rw [required, h, Option.bind_some]

theorem defaulted_of_lookup {α : Type} {name : String} {t : τ} (h : fs.lookup name = some t)
    (default : α) (read : τ → Option α) : fs.defaulted name default read = read t := by
  rw [defaulted, h]

/-! ### One field more -/

/-- One field more: it is found, and it is not in the way of the others. -/
structure Extends (name : String) (t : τ) (fs fs' : Fields τ) : Prop where
  missing : fs.lookup name = none
  found : fs'.lookup name = some t
  others : ∀ other, other ≠ name → fs'.lookup other = fs.lookup other

theorem extends_insert {before after : Fields τ} {name : String}
    (hnew : name ∉ (before ++ after).map (·.1)) (t : τ) :
    Extends name t (before ++ after) (before ++ (name, t) :: after) where
  missing := lookup_eq_none hnew
  found := by
    have hbefore : before.lookup name = none := lookup_eq_none fun h =>
      hnew (List.map_append ▸ List.mem_append_left _ h)
    rw [List.lookup_append, hbefore, List.lookup_cons, beq_self_eq_true]
    rfl
  others := fun other hother => by
    rw [List.lookup_append, List.lookup_append, List.lookup_cons, beq_false_of_ne hother]

/-- What one member with a known name adds to the fields: they are as many as without it, and none
if the name stands there already. -/
theorem once?_insert {name : String} (hname : name ∈ names) (before after : List (String × τ))
    (t : τ) :
    Option.Rel (Extends name t)
      (if name ∈ (before ++ after).map (·.1) then none else once? names (before ++ after))
      (once? names (before ++ (name, t) :: after)) := by
  have hknown : names.contains name = true := List.contains_iff_mem.2 hname
  have hmem : name ∈ ((before ++ after).filter fun m => names.contains m.1).map (·.1) ↔
      name ∈ (before ++ after).map (·.1) := by
    simp only [List.mem_map, List.mem_filter]
    exact ⟨fun ⟨m, hm, h⟩ => ⟨m, hm.1, h⟩, fun ⟨m, hm, h⟩ => ⟨m, ⟨hm, h ▸ hknown⟩, h⟩⟩
  have hfilter : ((before ++ (name, t) :: after).filter fun m => names.contains m.1) =
      (before.filter fun m => names.contains m.1) ++
        (name, t) :: after.filter fun m => names.contains m.1 := by
    rw [List.filter_append, List.filter_cons, if_pos hknown]
  have hnodup : (((before ++ (name, t) :: after).filter fun m => names.contains m.1).map
      (·.1)).Nodup ↔ name ∉ (before ++ after).map (·.1) ∧
        (((before ++ after).filter fun m => names.contains m.1).map (·.1)).Nodup := by
    rw [hfilter, List.map_append, List.map_cons, List.nodup_middle, List.nodup_cons,
      ← List.map_append, ← List.filter_append, hmem]
  -- The known names are distinct with the member if they are without it and its name is new.
  rw [once?_eq, once?_eq]
  simp only [hnodup]
  by_cases hnew : name ∈ (before ++ after).map (·.1)
  · rw [if_pos hnew, if_neg fun h => h.1 hnew]
    exact .none
  · simp only [hnew, if_false, not_false_iff, true_and]
    split
    · rw [hfilter, List.filter_append]
      refine .some (extends_insert ?_ t)
      rwa [← List.filter_append, hmem]
    · exact .none

end Fields

/-! ## Fields of trees -/

namespace Json

/-- A member whose name is a string. -/
def named? (m : Option String × Json) : Option (String × Json) :=
  m.1.map fun name => (name, m.2)

/-- What stands in a tree under the names of a record. -/
def fields? (names : List String) : Json → Option (Fields Json)
  | list items =>
    if items.length ≤ names.length then some (Fields.positional names items) else none
  | object members => (members.mapM named?).bind (Fields.once? names)
  | _ => none

variable {names : List String} {members : List (String × Json)}

theorem fields?_record_eq (names : List String) (members : List (String × Json)) :
    (record members).fields? names = Fields.once? names members := by
  have hmembers : (members.map fun m => (some m.1, m.2)).mapM named? = some members := by
    rw [List.mapM_map, mapM_some_iff]
    exact List.forall₂_same.2 fun m _ => rfl
  rw [record, fields?, hmembers, Option.bind_some]

theorem fields?_record (hnames : members.map (·.1) = names) (hnodup : names.Nodup) :
    (record members).fields? names = some members := by
  subst hnames
  rw [fields?_record_eq, Fields.once?_eq_some_iff]
  refine ⟨List.filter_eq_self.2 fun m hm => ?_, hnodup⟩
  exact List.contains_iff_mem.2 (List.mem_map_of_mem hm)

theorem exists_fields?_record (hnodup : (members.map (·.1)).Nodup) (names : List String) :
    ∃ fs, (record members).fields? names = some fs ∧
      ∀ name ∈ names, fs.lookup name = members.lookup name := by
  refine ⟨members.filter fun m => names.contains m.1, ?_, fun name hname =>
    Fields.lookup_filter hname members⟩
  rw [fields?_record_eq, Fields.once?_eq_some_iff]
  exact ⟨rfl, (List.filter_sublist.map _).nodup hnodup⟩

/-! ### Trees that differ in one field -/

/-- The second tree has one field more than the first one. -/
inductive Adds (names : List String) (name : String) (j : Json) : Json → Json → Prop
  | member {before after : List (String × Json)} (hname : name ∈ names)
    (hnew : name ∉ (before ++ after).map (·.1)) :
    Adds names name j (record (before ++ after)) (record (before ++ (name, j) :: after))
  /-- The next item of a record that is written as a list. -/
  | item {front back : List String} {items : List Json} (hnames : names = front ++ name :: back)
    (hlength : front.length = items.length) :
    Adds names name j (list items) (list (items ++ [j]))

/-- The trees differ in the value of one field. -/
inductive Differ (names : List String) (name : String) (j j' : Json) : Json → Json → Prop
  | member {before after : List (String × Json)} (hname : name ∈ names) :
    Differ names name j j' (record (before ++ (name, j) :: after))
      (record (before ++ (name, j') :: after))
  | item {front back : List String} {before after : List Json}
    (hnames : names = front ++ name :: back) (hlength : front.length = before.length) :
    Differ names name j j' (list (before ++ j :: after)) (list (before ++ j' :: after))

variable {name : String} {j j' t t' : Json}

theorem extends_positional {front back : List String} {before after : List Json}
    (hnodup : (front ++ name :: back).Nodup) (hlength : front.length = before.length) (j : Json) :
    Fields.Extends name j (front.zip before ++ back.zip after)
      (Fields.positional (front ++ name :: back) (before ++ j :: after)) := by
  rw [Fields.positional, List.zip_append hlength, List.zip_cons_cons]
  refine Fields.extends_insert (fun hmem => ?_) j
  obtain ⟨hnew, -⟩ := List.nodup_cons.1 (List.nodup_middle.1 hnodup)
  obtain ⟨m, hm, rfl⟩ := List.mem_map.1 hmem
  refine hnew ?_
  rcases List.mem_append.1 hm with hm | hm
  · exact List.mem_append_left _ (List.of_mem_zip hm).1
  · exact List.mem_append_right _ (List.of_mem_zip hm).1

theorem Adds.rel (h : Adds names name j t t') (hnodup : names.Nodup) :
    Option.Rel (Fields.Extends name j) (t.fields? names) (t'.fields? names) := by
  cases h with
  | @member before after hname hnew =>
    rw [fields?_record_eq, fields?_record_eq]
    have hinsert := Fields.once?_insert hname before after j
    rwa [if_neg hnew] at hinsert
  | @item front back items hnames hlength =>
    subst hnames
    have hbase : Fields.positional (front ++ name :: back) items =
        front.zip items ++ back.zip [] := by
      have hitems : (front ++ name :: back).zip (items ++ []) =
          front.zip items ++ (name :: back).zip [] := List.zip_append hlength
      rw [List.append_nil, List.zip_nil_right] at hitems
      rw [Fields.positional, hitems, List.zip_nil_right]
    rw [fields?, fields?, if_pos, if_pos, hbase]
    · exact .some (extends_positional hnodup hlength j)
    · simp only [List.length_append, List.length_cons, List.length_nil]
      omega
    · rw [List.length_append]
      omega

/-- Trees that differ in one field extend the same fields without it. -/
theorem Differ.exists_base (h : Differ names name j j' t t') (hnodup : names.Nodup) :
    ∃ base, Option.Rel (Fields.Extends name j) base (t.fields? names) ∧
      Option.Rel (Fields.Extends name j') base (t'.fields? names) := by
  cases h with
  | @member before after hname =>
    rw [fields?_record_eq, fields?_record_eq]
    exact ⟨_, Fields.once?_insert hname before after j, Fields.once?_insert hname before after j'⟩
  | @item front back before after hnames hlength =>
    subst hnames
    simp only [fields?, List.length_append, List.length_cons]
    split
    · exact ⟨_, .some (extends_positional hnodup hlength j),
        .some (extends_positional hnodup hlength j')⟩
    · exact ⟨none, .none, .none⟩

variable {α : Type} {f g : Fields Json → Option α}

theorem Adds.bind_fields? (h : Adds names name j t t') (hnodup : names.Nodup)
    (hfg : ∀ base fs, Fields.Extends name j base fs → f fs = g base) :
    (t'.fields? names).bind f = (t.fields? names).bind g := by
  have hrel := h.rel hnodup
  generalize t.fields? names = x, t'.fields? names = y at hrel ⊢
  cases hrel with
  | some hext => exact hfg _ _ hext
  | none => rfl

theorem Adds.lookup_eq_none {fs : Fields Json} (h : Adds names name j t t') (hnodup : names.Nodup)
    (hfs : t.fields? names = some fs) : fs.lookup name = none := by
  have hrel := h.rel hnodup
  rw [hfs] at hrel
  generalize t'.fields? names = y at hrel
  cases hrel with
  | some hext => exact hext.missing

theorem Differ.bind_fields? (h : Differ names name j j' t t') (hnodup : names.Nodup)
    (hfg : ∀ base fs fs', Fields.Extends name j base fs → Fields.Extends name j' base fs' →
      f fs = g fs') : (t.fields? names).bind f = (t'.fields? names).bind g := by
  obtain ⟨base, hrel, hrel'⟩ := h.exists_base hnodup
  generalize t.fields? names = x at hrel ⊢
  generalize t'.fields? names = y at hrel' ⊢
  cases hrel with
  | some hext =>
    cases hrel' with
    | some hext' => exact hfg _ _ _ hext hext'
  | none =>
    cases hrel'
    rfl

theorem Differ.symm (h : Differ names name j j' t t') : Differ names name j' j t' t := by
  cases h with
  | member hname => exact .member hname
  | item hnames hlength => exact .item hnames hlength

theorem Differ.lookup_eq_some {fs : Fields Json} (h : Differ names name j j' t t')
    (hnodup : names.Nodup) (hfs : t.fields? names = some fs) : fs.lookup name = some j := by
  obtain ⟨base, hrel, -⟩ := h.exists_base hnodup
  rw [hfs] at hrel
  cases hrel with
  | some hext => exact hext.found

end Json

namespace Fields

variable {α : Type} (room : Nat) (fs : Fields Json) (name : String)

/-- Fields with so much room below each of them. -/
def below : Fields Json.Node :=
  fs.map fun m => (m.1, ⟨room, m.2⟩)

/-- A field that is missing or null is absent. -/
def nullable (read : Json → Option α) : Option (Option α) :=
  match fs.lookup name with
  | none => some none
  | some j => if j.isNull then some none else (read j).map some

theorem nullable_of_missing {fs : Fields Json} {name : String} (h : fs.lookup name = none)
    (read : Json → Option α) : fs.nullable name read = some none := by
  rw [nullable, h]

theorem lookup_below : (fs.below room).lookup name = (fs.lookup name).map fun j => ⟨room, j⟩ :=
  lookup_map _ fs name

theorem required_below (read : Json.Node → Option α) :
    (fs.below room).required name read = fs.required name fun j => read ⟨room, j⟩ := by
  rw [required, lookup_below, Option.bind_map]
  rfl

theorem defaulted_below (default : α) (read : Json.Node → Option α) :
    (fs.below room).defaulted name default read =
      fs.defaulted name default fun j => read ⟨room, j⟩ := by
  rw [defaulted, lookup_below, defaulted]
  cases fs.lookup name <;> rfl

theorem optional_below (read : Json.Node → Option α) :
    (fs.below room).optional name read = fs.nullable name fun j => read ⟨room, j⟩ := by
  rw [optional, lookup_below, nullable]
  cases fs.lookup name with
  | none => rfl
  | some j => cases j <;> rfl

end Fields

namespace Json.Node

theorem fields?_eq (names : List String) (room : Nat) (j : Json) :
    Readable.fields? names (⟨room + 1, j⟩ : Node) = (j.fields? names).map (Fields.below room) := by
  change Node.fields? names _ = _
  cases j with
  | list items =>
    have hitems : items? (⟨room + 1, .list items⟩ : Node) =
      some (items.map fun j => ⟨room, j⟩) := rfl
    simp only [fields?, hitems, Json.fields?, List.length_map]
    split
    · exact congrArg some List.zip_map_right
    · rfl
  | object members =>
    have hmembers : members? (⟨room + 1, .object members⟩ : Node) =
        (members.mapM named?).map (List.map fun m => (m.1, (⟨room, m.2⟩ : Node))) := by
      rw [← mapM_option_map]
      simp only [named?, Option.map_map]
      rfl
    change (members? (⟨room + 1, .object members⟩ : Node)).bind (Fields.once? names) = _
    rw [hmembers, Json.fields?, Option.bind_map, Option.map_bind]
    exact congrArg _ (funext fun ms => Fields.once?_map _ names ms)
  | _ => rfl

theorem fields?_record {names : List String} {members : List (String × Json)} (room : Nat)
    (hnames : members.map (·.1) = names) (hnodup : names.Nodup) :
    Readable.fields? names (⟨room + 1, .record members⟩ : Node) =
      some (Fields.below room members) := by
  rw [fields?_eq, Json.fields?_record hnames hnodup, Option.map_some]

end Json.Node

/-! ## How fields are read in records that differ -/

namespace Fields

variable {α : Type} {name : String} {j j' : Json} {base fs fs' : Fields Json}
  {read : Json → Option α}

theorem Extends.required_other (h : Extends name j base fs) {other : String}
    (hother : other ≠ name) (read : Json → Option α) :
    fs.required other read = base.required other read := by
  rw [required, h.others other hother, required]

theorem Extends.defaulted_other (h : Extends name j base fs) {other : String}
    (hother : other ≠ name) (default : α) (read : Json → Option α) :
    fs.defaulted other default read = base.defaulted other default read := by
  rw [defaulted, h.others other hother, defaulted]

theorem Extends.nullable_other (h : Extends name j base fs) {other : String}
    (hother : other ≠ name) (read : Json → Option α) :
    fs.nullable other read = base.nullable other read := by
  rw [nullable, h.others other hother, nullable]

theorem Extends.defaulted_congr (h : Extends name j base fs) (h' : Extends name j' base fs')
    (hread : read j = read j') (other : String) (default : α) :
    fs.defaulted other default read = fs'.defaulted other default read := by
  by_cases hother : other = name
  · subst hother
    rw [defaulted_of_lookup h.found, defaulted_of_lookup h'.found, hread]
  · rw [h.defaulted_other hother, h'.defaulted_other hother]

theorem Extends.nullable_congr (h : Extends name j base fs) (h' : Extends name j' base fs')
    (hnull : j.isNull = j'.isNull) (hread : read j = read j') (other : String) :
    fs.nullable other read = fs'.nullable other read := by
  by_cases hother : other = name
  · subst hother
    rw [nullable, h.found, nullable, h'.found]
    simp only [hnull, hread]
  · rw [h.nullable_other hother, h'.nullable_other hother]

/-- Null stands for an absent value. -/
theorem Extends.nullable_null (h : Extends name .null base fs) (read : Json → Option α)
    (other : String) : fs.nullable other read = base.nullable other read := by
  by_cases hother : other = name
  · subst hother
    rw [nullable, h.found, nullable_of_missing h.missing]
    rfl
  · exact h.nullable_other hother read

end Fields

end FeatureServing
