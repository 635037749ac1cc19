import Mathlib.Data.String.Basic
import FeatureServing.Proofs.FiniteMap
import FeatureServing.Request

/-!
# Key columns and their entries

`entriesOfColumns` goes through key columns in the order of their names. Here they are turned back
from the entries, and visited in any order:

* `KeyColumns.OfLength` : all columns are of one length; `KeyColumns.entriesOfColumns_ok_iff`;
* `KeyColumns.get?_rowOfColumns`, `KeyColumns.keys_rowOfColumns` : an entry, name by name;
* `KeyColumns.ofEntries` : the columns of entries; `KeyColumns.ofEntries_rows`;
* `KeyColumns.columnLabel_injective` : no two columns are shown alike, so that the sorted labels do
  not depend on the order before, `KeyColumns.shown_perm`;
* `KeyColumns.visit` : columns that are visited in some order, first for their lengths and then for
  their values; `KeyColumns.getElem?_foldl_writeColumn`, what is written to a row;
* `KeyColumns.transposes_columns` : all of it together.
-/

namespace FeatureServing.KeyColumns

variable {columns : SortedMap String (List Value)} {es es' : List (String × List Value)}
  {entries : List Entry} {name : String} {rows n i : Nat}

/-! ## Lengths -/

/-- Whether all columns are of one length. -/
def OfLength (columns : SortedMap String (List Value)) (rows : Nat) : Prop :=
  ∀ name values, columns.get? name = some values → values.length = rows

theorem ofLength_iff : OfLength columns n ↔ ∀ c ∈ columns.entries, c.2.length = n := by
  simp only [OfLength, ← SortedMap.mem_entries_iff, Prod.forall]

/-- How many rows columns have if they are of one length: as many as the first one has. -/
def rowCount (es : List (String × List Value)) : Nat :=
  (es.head?.map (·.2.length)).getD 0

theorem rowCount_eq (h : ∀ c ∈ es, c.2.length = n) (hne : es ≠ []) : rowCount es = n := by
  cases es with
  | nil => exact absurd rfl hne
  | cons c rest => exact h c List.mem_cons_self

theorem exists_length_iff :
    (∃ n, ∀ c ∈ es, c.2.length = n) ↔ ∀ c ∈ es, c.2.length = rowCount es := by
  refine ⟨?_, fun h => ⟨_, h⟩⟩
  rintro ⟨n, h⟩ c hc
  rw [h c hc, rowCount_eq h (List.ne_nil_of_mem hc)]

theorem rowCount_perm (h : es.Perm es') (hequal : ∀ c ∈ es, c.2.length = rowCount es) :
    rowCount es' = rowCount es := by
  by_cases hne : es' = []
  · rw [hne] at h ⊢
    rw [h.eq_nil]
  · exact rowCount_eq (fun c hc => hequal c (h.mem_iff.2 hc)) hne

/-! ## Entries -/

/-- How the lengths of uneven columns are shown. -/
def shown (es : List (String × List Value)) : List (String × Nat) :=
  (es.map fun c => (c.1, c.2.length)).mergeSort fun a b =>
    (compare (columnLabel a) (columnLabel b)).isLE

theorem entriesOfColumns_eq : entriesOfColumns columns =
    if columns.entries.all fun c => c.2.length = rowCount columns.entries then
      .ok ((List.range (rowCount columns.entries)).map (rowOfColumns columns))
    else .error (.serving (.validation (.unevenColumns (shown columns.entries)))) := by
  have hhead : ((columns.entries.map fun c => (c.1, c.2.length)).head?.map (·.2)).getD 0 =
      rowCount columns.entries := by
    rw [List.head?_map, Option.map_map]
    rfl
  rw [entriesOfColumns, hhead, List.all_map]
  rfl

theorem all_length_iff : (es.all fun c => c.2.length = rowCount es) = true ↔
    ∃ n, ∀ c ∈ es, c.2.length = n := by
  rw [exists_length_iff, List.all_eq_true]
  simp only [decide_eq_true_eq]

/-- **Columns of one length have entries**, as many as they are long. -/
theorem entriesOfColumns_ok_iff : entriesOfColumns columns = .ok entries ↔
    OfLength columns (rowCount columns.entries) ∧
      entries = (List.range (rowCount columns.entries)).map (rowOfColumns columns) := by
  rw [entriesOfColumns_eq, ofLength_iff, ← exists_length_iff, ← all_length_iff]
  split
  · next hall => simp only [hall, true_and, Except.ok.injEq, eq_comm]
  · next hall => simp [hall]

theorem entriesOfColumns_error_iff {e : ClientError} : entriesOfColumns columns = .error e ↔
    (¬ ∃ n, OfLength columns n) ∧
      e = .serving (.validation (.unevenColumns (shown columns.entries))) := by
  simp only [entriesOfColumns_eq, ofLength_iff, ← all_length_iff]
  split
  · next hall => simp [hall]
  · next hall =>
    rw [Except.error.injEq, eq_comm]
    exact (and_iff_right hall).symm

theorem ofLength_rowCount (h : OfLength columns n) : OfLength columns (rowCount columns.entries) :=
  ofLength_iff.2 (exists_length_iff.1 ⟨n, ofLength_iff.1 h⟩)

theorem exists_entriesOfColumns_ok_iff :
    (∃ entries, entriesOfColumns columns = .ok entries) ↔ ∃ n, OfLength columns n := by
  simp only [entriesOfColumns_ok_iff, exists_and_left, exists_eq, and_true]
  exact ⟨fun h => ⟨_, h⟩, fun ⟨_, h⟩ => ofLength_rowCount h⟩

theorem get?_rowOfColumns (columns : SortedMap String (List Value)) (i : Nat) (name : String) :
    (rowOfColumns columns i).get? name = (columns.get? name).bind (·[i]?) :=
  SortedMap.get?_filterMap ..

theorem keys_rowOfColumns (h : OfLength columns n) (hi : i < n) :
    (rowOfColumns columns i).keys = columns.keys := by
  refine SortedMap.keys_eq_iff.2 fun name => ?_
  simp only [SortedMap.mem_keys_iff, get?_rowOfColumns, Option.bind_eq_some_iff]
  constructor
  · rintro ⟨-, values, hvalues, -⟩
    exact ⟨values, hvalues⟩
  · rintro ⟨values, hvalues⟩
    have hlen : i < values.length := by rwa [h name values hvalues]
    exact ⟨values[i], values, hvalues, List.getElem?_eq_getElem hlen⟩

/-! ## Columns of entries -/

/-- The columns of entries: under each name of the first entry the values of all of them. -/
def ofEntries : List Entry → SortedMap String (List Value)
  | [] => ∅
  | e :: rest => e.filterMap fun name _ => some ((e :: rest).filterMap (·.get? name))

theorem get?_ofEntries (entries : List Entry) (name : String) :
    (ofEntries entries).get? name =
      (entries.head?.bind (·.get? name)).map fun _ => entries.filterMap (·.get? name) := by
  cases entries with
  | nil => rfl
  | cons e rest =>
    rw [ofEntries, SortedMap.get?_filterMap]
    exact Option.map_eq_bind.symm

theorem filterMap_range_getElem? {α : Type} (xs : List α) :
    (List.range xs.length).filterMap (xs[·]?) = xs := by
  have hmap : (List.range xs.length).map (xs[·]?) = xs.map some := by
    refine List.ext_getElem? fun i => ?_
    by_cases hi : i < xs.length <;> simp [hi]
  have hid := congrArg (List.filterMap id) hmap
  rw [List.filterMap_map, List.filterMap_map] at hid
  exact hid.trans List.filterMap_some

/-- **With a row at least, the columns can be read back.** -/
theorem ofEntries_rows (h : OfLength columns n) (hn : n ≠ 0) :
    ofEntries ((List.range n).map (rowOfColumns columns)) = columns := by
  refine SortedMap.ext_get? fun name => ?_
  have hhead : ((List.range n).map (rowOfColumns columns)).head? = some (rowOfColumns columns 0) := by
    rw [List.head?_map, List.head?_range, if_neg hn]
    rfl
  rw [get?_ofEntries, hhead, Option.bind_some, get?_rowOfColumns, List.filterMap_map]
  cases hvalues : columns.get? name with
  | none => rfl
  | some values =>
    obtain rfl := h name values hvalues
    have hfirst : values[0]? = some values[0] := List.getElem?_eq_getElem _
    have hcolumn : (fun i => (rowOfColumns columns i).get? name) = (values[·]?) := by
      funext i
      rw [get?_rowOfColumns, hvalues, Option.bind_some]
    rw [Option.bind_some, hfirst, Option.map_some]
    exact congrArg some ((congrArg (List.filterMap · _) hcolumn).trans
      (filterMap_range_getElem? values))

/-! ## The order of the labels -/

theorem last_unique {α : Type} {x : α} {front front' back back' : List α} (h : x ∉ back)
    (h' : x ∉ back') (heq : front ++ x :: back = front' ++ x :: back') :
    front = front' ∧ back = back' := by
  have hmid : ∀ {back back' mid : List α}, x ∉ back → x :: back = mid ++ x :: back' → mid = [] := by
    rintro back back' (_ | ⟨y, mid⟩) hback hmid
    · rfl
    · obtain ⟨-, rfl⟩ := List.cons.inj hmid
      exact absurd (List.mem_append_right _ List.mem_cons_self) hback
  rcases List.append_eq_append_iff.1 heq with ⟨mid, rfl, hback⟩ | ⟨mid, rfl, hback⟩
  · obtain rfl := hmid h hback
    exact ⟨(List.append_nil _).symm, (List.cons.inj hback).2⟩
  · obtain rfl := hmid h' hback
    exact ⟨List.append_nil _, (List.cons.inj hback).2.symm⟩

theorem toList_columnLabel (c : String × Nat) :
    (columnLabel c).toList = c.1.toList ++ '=' :: Text.decimalDigits c.2 := by
  rw [columnLabel, String.toList_append, String.toList_append, List.append_assoc]
  exact congrArg (c.1.toList ++ '=' :: ·) String.toList_ofList

/-- **No two columns are shown alike**, as no equals sign stands behind the one in front of the
length. -/
theorem columnLabel_injective : Function.Injective columnLabel := by
  rintro ⟨name, n⟩ ⟨name', n'⟩ h
  have hchars := congrArg String.toList h
  rw [toList_columnLabel, toList_columnLabel] at hchars
  have hdigits : ∀ n, '=' ∉ Text.decimalDigits n := fun n hmem =>
    absurd (Text.isDigit_of_mem_decimalDigits hmem) (by decide)
  obtain ⟨hname, hlength⟩ := last_unique (hdigits n) (hdigits n') hchars
  have hn := congrArg Text.numberOf hlength
  rw [Text.numberOf_decimalDigits, Text.numberOf_decimalDigits] at hn
  rw [Prod.mk.injEq]
  exact ⟨String.toList_injective hname, hn⟩

theorem perm_shown (es : List (String × List Value)) :
    (shown es).Perm (es.map fun c => (c.1, c.2.length)) :=
  List.mergeSort_perm _ _

theorem pairwise_shown (es : List (String × List Value)) :
    (shown es).Pairwise fun a b => columnLabel a ≤ columnLabel b := by
  refine (List.pairwise_mergeSort (fun a b c => ?_) (fun a b => ?_) _).imp fun h => ?_
  · exact Std.TransCmp.isLE_trans
  · rw [Bool.or_eq_true]
    simp only [Std.LawfulBCmp.isLE_iff_le]
    exact le_total _ _
  · exact Std.LawfulBCmp.isLE_iff_le.1 h

theorem shown_perm (h : es.Perm es') : shown es = shown es' := by
  have hperm : (shown es).Perm (shown es') :=
    ((perm_shown es).trans (h.map _)).trans (perm_shown es').symm
  exact hperm.eq_of_pairwise (fun a b _ _ hab hba => columnLabel_injective (le_antisymm hab hba))
    (pairwise_shown es) (pairwise_shown es')

/-! ## Any order of the columns -/

/-- Writes the values of one column to the rows, as far as both go. -/
def writeColumn (name : String) : List Value → List Entry → List Entry
  | v :: values, e :: entries => e.insert name v :: writeColumn name values entries
  | _, entries => entries

/-- The entries of columns that are visited in some order for their lengths and in another one for
their values. -/
def visit (es es' : List (String × List Value)) : Except ClientError (List Entry) :=
  if es.all fun c => c.2.length = rowCount es then
    .ok (es'.foldl (fun entries c => writeColumn c.1 c.2 entries) (List.replicate (rowCount es) ∅))
  else .error (.serving (.validation (.unevenColumns (shown es))))

theorem getElem?_writeColumn (name : String) (values : List Value) (entries : List Entry) (i : Nat) :
    (writeColumn name values entries)[i]? =
      entries[i]?.map fun e => (values[i]?).elim e (e.insert name) := by
  induction values generalizing entries i with
  | nil => simp [writeColumn]
  | cons v values ih =>
    cases entries with
    | nil => rfl
    | cons e entries =>
      cases i with
      | zero => rfl
      | succ i => exact ih entries i

/-- What columns have for a row. -/
def cells (es : List (String × List Value)) (i : Nat) : List (String × Value) :=
  es.filterMap fun c => (c.2[i]?).map (c.1, ·)

/-- **A row gets what each column has for it**, in the order of the visit. -/
theorem getElem?_foldl_writeColumn (es : List (String × List Value)) (entries : List Entry)
    (i : Nat) : (es.foldl (fun entries c => writeColumn c.1 c.2 entries) entries)[i]? =
      entries[i]?.map (·.insertMany (cells es i)) := by
  induction es generalizing entries with
  | nil => exact Option.map_id'.symm
  | cons c es ih =>
    rw [List.foldl_cons, ih, getElem?_writeColumn, Option.map_map]
    congr 1
    funext e
    rw [Function.comp_apply, cells, cells, List.filterMap_cons]
    cases c.2[i]? <;> rfl

theorem ofList_cells (h : es.Perm columns.entries) (i : Nat) :
    SortedMap.ofList (cells es i) = rowOfColumns columns i := by
  have hperm : (cells es i).Perm (rowOfColumns columns i).entries := h.filterMap _
  rw [SortedMap.ofList_perm hperm.symm (SortedMap.nodup_keys _), SortedMap.ofList_entries]

/-- **The order of a visit does not matter**, neither to the entries nor to the error. -/
theorem visit_eq (h : es.Perm columns.entries) (h' : es'.Perm columns.entries) :
    visit es es' = entriesOfColumns columns := by
  have hall : (es.all fun c => c.2.length = rowCount es) =
      columns.entries.all fun c => c.2.length = rowCount columns.entries := by
    rw [Bool.eq_iff_iff, all_length_iff, all_length_iff]
    simp only [h.mem_iff]
  rw [visit, entriesOfColumns_eq, shown_perm h, ← hall]
  split
  · next hequal =>
    rw [rowCount_perm h (by simpa using hequal)]
    refine congrArg Except.ok (List.ext_getElem? fun i => ?_)
    rw [getElem?_foldl_writeColumn, List.getElem?_map]
    by_cases hi : i < rowCount es
    · rw [List.getElem?_replicate_of_lt hi, List.getElem?_range hi, Option.map_some,
        Option.map_some, ← ofList_cells h' i]
      rfl
    · simp [hi]
  · rfl

/-! ## Main result -/

theorem length_of_ok (h : entriesOfColumns columns = .ok entries) :
    entries.length = rowCount columns.entries := by
  rw [(entriesOfColumns_ok_iff.1 h).2, List.length_map, List.length_range]

/-- The error of uneven columns, as a caller reads it. -/
theorem message_unevenColumns (lengths : List (String × Nat)) :
    (ClientError.serving (.validation (.unevenColumns lengths))).message =
      "Runtime error: Validation error: serving key columns have different lengths: " ++
        ", ".intercalate (lengths.map columnLabel) := by
  have hprefix : "Runtime error: " ++ ("Validation error: " ++
      "serving key columns have different lengths: ") =
      "Runtime error: Validation error: serving key columns have different lengths: " := by decide
  rw [← hprefix, String.append_assoc, String.append_assoc]
  rfl

/-- **Columns are turned into entries without loss.** Columns have entries if and only if all of them
are of one length. There are then as many entries as that; each has all names of the columns, with the
values that the columns have for it, and if there is one at all the columns can be read back from
them. Otherwise the error shows every column with its length, in the order of the texts. The columns
may be visited in any order. -/
theorem transposes_columns (columns : SortedMap String (List Value)) :
    ((∃ entries, entriesOfColumns columns = .ok entries) ↔
      ∃ rows, ∀ name values, columns.get? name = some values → values.length = rows) ∧
    (∀ entries : List Entry, entriesOfColumns columns = .ok entries →
      (columns = ∅ → entries = []) ∧
      (∀ name values, columns.get? name = some values → entries.length = values.length) ∧
      (∀ (i : Nat) (e : Entry), entries[i]? = some e →
        e.keys = columns.keys ∧ ∀ name, e.get? name = (columns.get? name).bind (·[i]?)) ∧
      (entries ≠ [] → ofEntries entries = columns)) ∧
    (∀ error : ClientError, entriesOfColumns columns = .error error →
      error.kind = .validation ∧ ∃ lengths : List (String × Nat),
      lengths.Perm (columns.entries.map fun c => (c.1, c.2.length)) ∧
      (lengths.map columnLabel).Pairwise (· ≤ ·) ∧ error.message =
        "Runtime error: Validation error: serving key columns have different lengths: " ++
          ", ".intercalate (lengths.map columnLabel)) ∧
    ∀ es es' : List (String × List Value), es.Perm columns.entries → es'.Perm columns.entries →
      visit es es' = entriesOfColumns columns := by
  refine ⟨exists_entriesOfColumns_ok_iff, fun entries h => ?_, fun error h => ?_,
    fun es es' => visit_eq⟩
  · have hlen := length_of_ok h
    obtain ⟨hequal, hentries⟩ := entriesOfColumns_ok_iff.1 h
    refine ⟨?_, fun name values hvalues => ?_, fun i e he => ?_, fun hne => ?_⟩
    · rintro rfl
      exact hentries
    · rw [hlen, hequal name values hvalues]
    · have hi : i < rowCount columns.entries := hlen ▸ (List.getElem?_eq_some_iff.1 he).1
      rw [hentries, List.getElem?_map, List.getElem?_range hi] at he
      obtain rfl := Option.some.inj he
      exact ⟨keys_rowOfColumns hequal hi, get?_rowOfColumns columns i⟩
    · rw [hentries]
      refine ofEntries_rows hequal fun hzero => hne ?_
      rw [← List.length_eq_zero_iff, hlen, hzero]
  · obtain ⟨-, rfl⟩ := entriesOfColumns_error_iff.1 h
    exact ⟨rfl, shown columns.entries, perm_shown _, List.pairwise_map.2 (pairwise_shown _),
      message_unevenColumns _⟩

/-! ### Cards and days -/

/-- A card on two days. -/
def cardColumns : SortedMap String (List Value) :=
  .ofList [("cc_num", [.int 1, .int 2]), ("day", [.text "a", .text "b"])]

/-- Columns of which one is too short. -/
def shortColumns : SortedMap String (List Value) :=
  .ofList [("day", [.text "a"]), ("cc_num", [.int 1, .int 2])]

theorem transposes_columns_card :
    (∃ entries, entriesOfColumns cardColumns = .ok entries ∧ entries.length = 2 ∧
      ofEntries entries = cardColumns ∧
      visit cardColumns.entries.reverse cardColumns.entries = .ok entries) ∧
    ∃ error : ClientError, entriesOfColumns shortColumns = .error error ∧ error.message =
      "Runtime error: Validation error: serving key columns have different lengths: " ++
        "cc_num=2, day=1" := by
  obtain ⟨hsome, hall, -, hvisit⟩ := transposes_columns cardColumns
  obtain ⟨hsome', -, herror, -⟩ := transposes_columns shortColumns
  constructor
  · obtain ⟨entries, hentries⟩ := hsome.2 ⟨2, ofLength_iff.2 (by decide)⟩
    obtain ⟨-, hlength, -, hback⟩ := hall entries hentries
    have hlen : entries.length = 2 := hlength "day" [.text "a", .text "b"] rfl
    have hne : entries ≠ [] := List.ne_nil_of_length_pos (hlen ▸ Nat.two_pos)
    exact ⟨entries, hentries, hlen, hback hne,
      (hvisit _ _ (List.reverse_perm _) (.refl _)).trans hentries⟩
  · cases hresult : entriesOfColumns shortColumns with
    | ok entries =>
      obtain ⟨n, hn⟩ := hsome'.1 ⟨entries, hresult⟩
      have hday : 1 = n := hn "day" [.text "a"] rfl
      have hcard : 2 = n := hn "cc_num" [.int 1, .int 2] rfl
      omega
    | error e =>
      obtain ⟨-, lengths, hperm, hsorted, hmessage⟩ := herror e hresult
      have hlabels : lengths.map columnLabel = ["cc_num=2", "day=1"] :=
        (hperm.map columnLabel).eq_of_pairwise (fun _ _ _ _ => le_antisymm) hsorted
          (by decide +kernel)
      refine ⟨e, rfl, hmessage.trans ?_⟩
      rw [hlabels]
      rfl

end FeatureServing.KeyColumns
