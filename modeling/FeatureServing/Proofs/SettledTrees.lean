import FeatureServing.Proofs.FiniteMap
import FeatureServing.Proofs.WrittenValues

/-!
# What is found in settled trees

* `settle?_mono` : more room does not change what a tree settles to;
* `settle?_list`, `settle?_record` : lists and records settle part by part;
* `exists_settle?_record_iff` : a record settles if all its members do;
* `exists_fields?_settled` : what is found in a settled record, the last member of a name;
* `settle?_ofString`, `settle?_ofUInt64`, `settle?_ofInt64`, `settle?_ofOption` : leaves stay;
* `exists_settle?_ofList` : a list of written items.
-/

namespace FeatureServing.Json

mutual

/-- More room does not change what a tree settles to. -/
theorem settle?_mono {room room' : Nat} (hroom : room ≤ room') {j s : Json}
    (h : j.settle? room = some s) : j.settle? room' = some s := by
  match j, room, room', hroom with
  | null, _, _, _ | bool _, _, _, _ | number _, _, _, _ | text _, _, _, _ =>
    simpa only [settle?] using h
  | list items, room + 1, room' + 1, hroom =>
    simp only [settle?, Option.map_eq_some_iff] at h ⊢
    obtain ⟨ss, hss, rfl⟩ := h
    exact ⟨ss, settleItems?_mono (Nat.le_of_succ_le_succ hroom) hss, rfl⟩
  | object members, room + 1, room' + 1, hroom =>
    simp only [settle?, Option.map_eq_some_iff] at h ⊢
    obtain ⟨ss, hss, rfl⟩ := h
    exact ⟨ss, settleMembers?_mono (Nat.le_of_succ_le_succ hroom) hss, rfl⟩

theorem settleItems?_mono {room room' : Nat} (hroom : room ≤ room') {items ss : List Json}
    (h : settleItems? room items = some ss) : settleItems? room' items = some ss := by
  match items with
  | [] => exact h
  | j :: rest =>
    simp only [settleItems?, Option.bind_eq_bind, Option.bind_eq_some_iff] at h ⊢
    obtain ⟨s, hs, ss, hss, h⟩ := h
    exact ⟨s, settle?_mono hroom hs, ss, settleItems?_mono hroom hss, h⟩

theorem settleMembers?_mono {room room' : Nat} (hroom : room ≤ room')
    {members : List (Option String × Json)} {ss : List (String × Json)}
    (h : settleMembers? room members = some ss) : settleMembers? room' members = some ss := by
  match members with
  | [] => exact h
  | (some name, j) :: rest =>
    simp only [settleMembers?, Option.bind_eq_bind, Option.bind_eq_some_iff] at h ⊢
    obtain ⟨s, hs, ss, hss, h⟩ := h
    exact ⟨s, settle?_mono hroom hs, ss, settleMembers?_mono hroom hss, h⟩

end

theorem settle?_list (room : Nat) (items : List Json) :
    (list items).settle? (room + 1) = (items.mapM (settle? room)).map list := by
  have hitems : settleItems? room items = items.mapM (settle? room) := by
    induction items with
    | nil => rfl
    | cons j rest ih =>
      rw [settleItems?, ih, List.mapM_cons]
      rfl
  rw [settle?, hitems]

/-- A member whose value settles. -/
def settled? (room : Nat) (m : String × Json) : Option (String × Json) :=
  (m.2.settle? room).map fun s => (m.1, s)

theorem settle?_record (room : Nat) (members : List (String × Json)) :
    (record members).settle? (room + 1) =
      (members.mapM (settled? room)).map fun ms => record (SortedMap.ofList ms).entries := by
  have hmembers : settleMembers? room (members.map fun m => (some m.1, m.2)) =
      members.mapM (settled? room) := by
    induction members with
    | nil => rfl
    | cons m rest ih =>
      rw [List.map_cons, settleMembers?, ih, List.mapM_cons, settled?]
      cases m.2.settle? room <;> rfl
  rw [record, settle?, hmembers]

theorem lookup_settled {room : Nat} {members ms : List (String × Json)}
    (h : List.Forall₂ (fun m s => settled? room m = some s) members ms) (name : String) :
    ms.lookup name = (members.lookup name).bind (settle? room) := by
  induction h with
  | nil => rfl
  | @cons m s members ms hm _ ih =>
    obtain ⟨j, hj, rfl⟩ := Option.map_eq_some_iff.1 hm
    rw [List.lookup_cons, List.lookup_cons]
    cases name == m.1 with
    | true => exact hj.symm
    | false => exact ih

theorem exists_settle?_record_iff {room : Nat} {members : List (String × Json)} :
    (∃ s, (record members).settle? (room + 1) = some s) ↔
      ∀ m ∈ members, ∃ s, m.2.settle? room = some s := by
  have hmember : ∀ m : String × Json,
      (∃ ms, settled? room m = some ms) ↔ ∃ s, m.2.settle? room = some s := by
    intro m
    rw [settled?]
    cases m.2.settle? room <;> simp only [Option.map_none, Option.map_some, reduceCtorEq,
      exists_false, Option.some.injEq, exists_eq']
  simp only [settle?_record, Option.map_eq_some_iff, ← hmember, ← exists_mapM_some_iff]
  exact ⟨fun ⟨_, ms, hms, _⟩ => ⟨ms, hms⟩, fun ⟨ms, hms⟩ => ⟨_, ms, hms, rfl⟩⟩

/-- What is found in a settled record: what the last member of a name settles to. -/
theorem exists_fields?_settled {room : Nat} {members : List (String × Json)} {s : Json}
    (h : (record members).settle? (room + 1) = some s) (names : List String) :
    ∃ fs, s.fields? names = some fs ∧
      ∀ name ∈ names, fs.lookup name = (members.reverse.lookup name).bind (settle? room) := by
  rw [settle?_record, Option.map_eq_some_iff] at h
  obtain ⟨ms, hms, rfl⟩ := h
  obtain ⟨fs, hfs, hlookup⟩ :=
    exists_fields?_record (SortedMap.nodup_keys (SortedMap.ofList ms)) names
  refine ⟨fs, hfs, fun name hname => ?_⟩
  rw [hlookup name hname, SortedMap.lookup_ofList]
  exact lookup_settled (List.forall₂_reverse_iff.2 (mapM_some_iff.1 hms)) name

theorem exists_settle?_ofList {α : Type} {write : α → Json} {read : Node → Option α}
    {room depth : Nat} {as : List α} (h : ∀ a ∈ as, ∃ s, (write a).settle? room = some s ∧
      ∀ below, read ⟨below + depth, s⟩ = some a) :
    ∃ s, (ofList write as).settle? (room + 1) = some s ∧ s.isList = true ∧
      ∀ below, Readable.list? read (⟨below + depth + 1, s⟩ : Node) = some as := by
  obtain ⟨ss, hss⟩ := exists_forall₂_iff.2 h
  have hsettle : as.mapM (settle? room ∘ write) = some ss :=
    mapM_some_iff.2 (hss.imp fun _ _ h => h.1)
  refine ⟨list ss, ?_, rfl, fun below => ?_⟩
  · rw [ofList, settle?_list, List.mapM_map, hsettle, Option.map_some]
  · rw [Node.list?_list, mapM_some_iff]
    exact hss.flip.imp fun _ _ h => h.2 below

/-! ### Leaves -/

theorem settle?_of_number? {room : Nat} {n : Node} {x : Numeral.Number} (h : n.number? = some x) :
    n.tree.settle? room = some n.tree := by
  obtain ⟨_, j⟩ := n
  cases j with
  | number m =>
    have hm : m.number? = some x := h
    rw [settle?, hm, Option.map_some]
  | _ => cases h

theorem settle?_of_uint64? {room : Nat} {n : Node} {w : UInt64}
    (h : Readable.uint64? n = some w) : n.tree.settle? room = some n.tree := by
  cases hx : n.number? with
  | some x => exact settle?_of_number? hx
  | none =>
    have hunsigned : Readable.unsigned? 64 n = none := by
      change Node.unsigned? 64 n = none
      rw [Node.unsigned?, hx]
    rw [Readable.uint64?, hunsigned] at h
    cases h

theorem settle?_of_signed? {room : Nat} {n : Node} {w : Int64}
    (h : Readable.signed? n = some w) : n.tree.settle? room = some n.tree := by
  cases hx : n.number? with
  | some x => exact settle?_of_number? hx
  | none =>
    change Node.signed? n = some w at h
    rw [Node.signed?, hx] at h
    cases h

@[simp] theorem settle?_ofString (room : Nat) (t : String) :
    (ofString t).settle? room = some (ofString t) := rfl

@[simp] theorem settle?_ofUInt64 (room : Nat) (w : UInt64) :
    (ofNat w.toNat).settle? room = some (ofNat w.toNat) :=
  settle?_of_uint64? (@Node.uint64?_ofNat 0 w)

@[simp] theorem settle?_ofInt64 (room : Nat) (w : Int64) :
    (ofInt w.toInt).settle? room = some (ofInt w.toInt) :=
  settle?_of_signed? (@Node.signed?_ofInt 0 w)

theorem settle?_ofOption {α : Type} {room : Nat} {write : α → Json}
    (h : ∀ a, (write a).settle? room = some (write a)) (o : Option α) :
    (ofOption write o).settle? room = some (ofOption write o) := by
  cases o with
  | none => rfl
  | some a => exact h a

end FeatureServing.Json
