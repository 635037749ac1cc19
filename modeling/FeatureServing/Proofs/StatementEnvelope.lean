import FeatureServing.Document
import FeatureServing.Proofs.SettledTrees

/-!
# Sets of statements in their forms

A set of statements is read from a tree that has settled.

* `PreparedStatement.read?_room` : a statement is read alike at every depth that leaves room for it;
* `StatementSets.readSet?_envelope` : a list in its envelope is read as the bare list;
* `StatementSets.read?_congr` : a set may be given in any form that is read alike;
* `StatementSets.read?_null`, `select_of_read?` : a helper set that is null or not given is absent;
* `StatementSets.read?_nil` : an empty helper set is not.
-/

namespace FeatureServing

/-! ## Statements at different depths -/

open Json (Node)

theorem Parameter.read?_room (room room' : Nat) (j : Json) :
    Parameter.read? (⟨room + 1, j⟩ : Node) = Parameter.read? (⟨room' + 1, j⟩ : Node) := by
  simp only [Parameter.read?, Node.fields?_eq, Option.bind_eq_bind, Option.bind_map,
    Function.comp_def, Fields.required_below]
  rfl

theorem PreparedStatement.read?_room (room room' : Nat) (j : Json) :
    PreparedStatement.read? (⟨room + 3, j⟩ : Node) =
      PreparedStatement.read? (⟨room' + 3, j⟩ : Node) := by
  have hparameters : ∀ j, Readable.list? Parameter.read? (⟨room + 2, j⟩ : Node) =
      Readable.list? Parameter.read? (⟨room' + 2, j⟩ : Node) :=
    Node.list?_room fun j => Parameter.read?_room room room' j
  simp only [PreparedStatement.read?, Node.fields?_eq, Option.bind_eq_bind, Option.bind_map,
    Function.comp_def, Fields.required_below, Fields.defaulted_below, Fields.optional_below,
    hparameters]
  rfl

/-! ## Envelopes -/

theorem PreparedStatement.readEnvelope?_of {room room' : Nat} {s c ss : Json} {fs : Fields Json}
    {n : UInt64} (hfs : s.fields? ["count", "items"] = some fs) (hc : fs.lookup "count" = some c)
    (hn : Readable.uint64? (⟨room', c⟩ : Node) = some n) (hne : n ≠ 0)
    (hitems : fs.lookup "items" = some ss) :
    readEnvelope? (⟨room + 1, s⟩ : Node) = Readable.list? read? (⟨room, ss⟩ : Node) := by
  have hnumber : Readable.uint64? (⟨room, c⟩ : Node) = some n := hn
  simp only [readEnvelope?, Node.fields?_eq, hfs, Option.map_some, Option.bind_eq_bind,
    Option.bind_some, Fields.required_below, Fields.defaulted_below, Fields.required_of_lookup hc,
    Fields.defaulted_of_lookup hitems, hnumber, hne, if_false, Option.bind_fun_some]

/-- An envelope of a list: it counts at least one item. -/
structure IsEnvelope (items : List Json) (members : List (String × Json)) : Prop where
  /-- The last count is a number other than zero; it need not be that of the items. -/
  count : ∃ c n, members.reverse.lookup "count" = some c ∧
    Readable.uint64? (⟨0, c⟩ : Node) = some n ∧ n ≠ 0
  /-- The last list of items. -/
  items : members.reverse.lookup "items" = some (.list items)

namespace StatementSets

variable {items : List Json} {members : List (String × Json)} {room : Nat}

theorem readSet?_eq (n : Node) :
    readSet? n = (n.tree.settle? n.room).bind PreparedStatement.listOfJson? := rfl

/-- **A list in its envelope** is read as the bare list. -/
theorem readSet?_envelope (h : IsEnvelope items members)
    (hsettled : ((Json.record members).settle? room).isSome = true) :
    readSet? (⟨room, .record members⟩ : Node) = readSet? (⟨room, .list items⟩ : Node) := by
  obtain ⟨s, hs⟩ := Option.isSome_iff_exists.1 hsettled
  cases room with
  | zero => cases hs
  | succ room =>
    obtain ⟨fs, hfs, hlookup⟩ := Json.exists_fields?_settled hs ["count", "items"]
    obtain ⟨c, n, hc, hn, hne⟩ := h.count
    have hcount : fs.lookup "count" = some c := by
      rw [hlookup "count" (by decide), hc, Option.bind_some, Json.settle?_of_uint64? hn]
    obtain ⟨ss, hss⟩ : ∃ ss, (Json.list items).settle? room = some ss := by
      obtain ⟨before, after, hmembers, -⟩ := List.lookup_eq_some_iff.1 h.items
      refine Json.exists_settle?_record_iff.1 ⟨s, hs⟩ ("items", .list items) ?_
      exact List.mem_reverse.1 (hmembers ▸ List.mem_append_right _ List.mem_cons_self)
    have hitems : fs.lookup "items" = some ss := by
      rw [hlookup "items" (by decide), h.items, Option.bind_some, hss]
    have hbare : (Json.list items).settle? (room + 1) = some ss :=
      Json.settle?_mono (Nat.le_succ room) hss
    have hlist : ss.isList = true := by
      cases room with
      | zero => cases hss
      | succ room =>
        rw [Json.settle?_list, Option.map_eq_some_iff] at hss
        obtain ⟨_, _, rfl⟩ := hss
        rfl
    have hrecord : s.isList = false := by
      rw [Json.settle?_record, Option.map_eq_some_iff] at hs
      obtain ⟨_, _, rfl⟩ := hs
      rfl
    have hread : PreparedStatement.readEnvelope? (Node.root s) =
        Readable.list? PreparedStatement.read? (⟨126, ss⟩ : Node) :=
      PreparedStatement.readEnvelope?_of hfs hcount hn hne hitems
    rw [readSet?_eq, readSet?_eq, hs, hbare, Option.bind_some, Option.bind_some,
      PreparedStatement.listOfJson?, PreparedStatement.listOfJson?, hrecord, hlist]
    exact hread.trans (Node.list?_room (PreparedStatement.read?_room 122 123) ss)

/-! ## Sets among others -/

/-- Reads a set at a place with so much room. -/
def setAt? (room : Nat) (j : Json) : Option (List PreparedStatement) :=
  readSet? (⟨room, j⟩ : Node)

/-- The four sets from their fields. -/
def ofFields? (room : Nat) (fs : Fields Json) : Option StatementSets := do
  let single ← fs.defaulted "single" [] (setAt? room)
  let batch ← fs.defaulted "batch" [] (setAt? room)
  let helperSingle ← fs.nullable "helper_single" (setAt? room)
  let helperBatch ← fs.nullable "helper_batch" (setAt? room)
  some ⟨single, batch, helperSingle, helperBatch⟩

theorem read?_eq (room : Nat) (j : Json) :
    StatementSets.read? (⟨room + 1, j⟩ : Node) = (j.fields? fieldNames).bind (ofFields? room) := by
  simp only [StatementSets.read?, Node.fields?_eq, Option.bind_eq_bind, Option.bind_map,
    Function.comp_def, Fields.defaulted_below, Fields.optional_below]
  rfl

theorem nodup_fieldNames : fieldNames.Nodup := by
  decide

variable {t t' : Json}

theorem read?_congr {name : String} {j j' : Json} (h : Json.Differ fieldNames name j j' t t')
    (hnull : j.isNull = j'.isNull) (hread : setAt? room j = setAt? room j') :
    StatementSets.read? (⟨room + 1, t⟩ : Node) = StatementSets.read? (⟨room + 1, t'⟩ : Node) := by
  rw [read?_eq, read?_eq]
  refine h.bind_fields? nodup_fieldNames fun base fs fs' h h' => ?_
  simp only [ofFields?, h.defaulted_congr h' hread, h.nullable_congr h' hnull hread]

/-! ## Helper sets -/

def helperName : Bool → String
  | false => "helper_single"
  | true => "helper_batch"

/-- The sets with another helper set. -/
def withHelper (s : StatementSets) (batch : Bool) (set : Option (List PreparedStatement)) :
    StatementSets :=
  if batch then { s with helperBatch := set } else { s with helperSingle := set }

section

variable {batch : Bool}

theorem read?_null (h : Json.Adds fieldNames (helperName batch) .null t t') :
    StatementSets.read? (⟨room + 1, t'⟩ : Node) = StatementSets.read? (⟨room + 1, t⟩ : Node) := by
  rw [read?_eq, read?_eq]
  refine h.bind_fields? nodup_fieldNames fun base fs h => ?_
  have hsingle : "single" ≠ helperName batch := by cases batch <;> decide
  have hbatch : "batch" ≠ helperName batch := by cases batch <;> decide
  simp only [ofFields?, h.defaulted_other hsingle, h.defaulted_other hbatch, h.nullable_null]

/-- An empty helper set is there, and the other sets are those without it. -/
theorem read?_nil (h : Json.Adds fieldNames (helperName batch) (.list []) t t') :
    StatementSets.read? (⟨room + 2, t'⟩ : Node) =
      (StatementSets.read? (⟨room + 2, t⟩ : Node)).map (·.withHelper batch (some [])) := by
  rw [read?_eq, read?_eq, Option.map_bind]
  refine h.bind_fields? nodup_fieldNames fun base fs h => ?_
  have hsingle : "single" ≠ helperName batch := by cases batch <;> decide
  have hbatch : "batch" ≠ helperName batch := by cases batch <;> decide
  have hmissing := Fields.nullable_of_missing h.missing (setAt? (room + 1))
  have hempty : fs.nullable (helperName batch) (setAt? (room + 1)) = some (some []) := by
    rw [Fields.nullable, h.found]
    rfl
  have hother : fs.nullable (helperName (!batch)) (setAt? (room + 1)) =
      base.nullable (helperName (!batch)) (setAt? (room + 1)) :=
    h.nullable_other (by cases batch <;> decide) _
  cases batch <;>
    simp only [helperName, Bool.not_false, Bool.not_true] at hmissing hempty hother <;>
    simp only [ofFields?, h.defaulted_other hsingle, h.defaulted_other hbatch, hmissing, hempty,
      hother, Function.comp_def, Option.bind_eq_bind, Option.map_bind, Option.bind_some,
      Option.map_some, withHelper, Bool.false_eq_true, if_false, if_true]

theorem select_of_read? {j : Json} {s : StatementSets}
    (hadds : Json.Adds fieldNames (helperName batch) j t t')
    (h : StatementSets.read? (⟨room + 1, t⟩ : Node) = some s) : s.select batch true = none := by
  rw [read?_eq, Option.bind_eq_some_iff] at h
  obtain ⟨fs, hfs, h⟩ := h
  have hmissing : fs.nullable (helperName batch) (setAt? room) = some none :=
    Fields.nullable_of_missing (hadds.lookup_eq_none nodup_fieldNames hfs) _
  simp only [ofFields?, Option.bind_eq_bind, Option.bind_eq_some_iff] at h
  obtain ⟨_, -, _, -, helperSingle, hsingle, helperBatch, hbatch, h⟩ := h
  obtain rfl := Option.some.inj h
  cases batch with
  | false => exact Option.some.inj (hsingle.symm.trans hmissing)
  | true => exact Option.some.inj (hbatch.symm.trans hmissing)

end

end StatementSets

end FeatureServing
