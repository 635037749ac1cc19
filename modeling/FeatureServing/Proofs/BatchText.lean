import FeatureServing.Proofs.AskedPositions
import FeatureServing.Proofs.FaithfulText

/-!
# Batch queries with their tuples

The binds of a batch are tuples, and the query of a batch has one placeholder for all of them. What
is written in its place is a list of placeholders, said here without the bind values:

* `PlaceholderStyle.tupleText`, `PlaceholderStyle.tuplesText` : the placeholders of one tuple, and
  the list of those of all tuples;
* `Lookup.written_listed` : parts with commas between them are written one after another, with as
  many numbers taken by each; `Lookup.written_tuplePieces`, `Lookup.written_groupPieces`;
* `Lookup.exists_pieces_batch` : the pieces of a batch query;
* `Lookup.render_batch_tuples` : the text and the values of a batch query;
* `KeyIndex.resolveBatch_renders` : whatever is bound to a batch query renders to such a text.
-/

namespace FeatureServing

open Query

/-! ## Lists of placeholders -/

namespace PlaceholderStyle

/-- The placeholders of a tuple from a number on; in parentheses if there are several. -/
def tupleText (style : PlaceholderStyle) (width first : Nat) : String :=
  let inner := ", ".intercalate ((List.range width).map fun i => style.text (first + i))
  if 1 < width then "(" ++ inner ++ ")" else inner

/-- The placeholders of some tuples of one width, counted from one, in a pair of parentheses. -/
def tuplesText (style : PlaceholderStyle) (width count : Nat) : String :=
  let tuples := (List.range count).map fun i => style.tupleText width (1 + i * width)
  "(" ++ ", ".intercalate tuples ++ ")"

end PlaceholderStyle

namespace RenderedQuery

/-- What comes behind is written with the numbers that are left. -/
theorem written_append (style : PlaceholderStyle) (n : Nat) (ms ms' : List (Option Char)) :
    written style n (ms ++ ms') = written style n ms ++ written style (n + ms.count none) ms' := by
  induction ms generalizing n with
  | nil => rfl
  | cons m ms ih =>
    cases m with
    | some c =>
      have hcount : (some c :: ms).count none = ms.count none := List.count_cons_of_ne (by simp)
      rw [hcount]
      exact congrArg (c :: ·) (ih n)
    | none =>
      have hnext : n + 1 + ms.count none = n + (none :: ms).count none := by
        rw [List.count_cons_self]
        omega
      show (style.text n).toList ++ written style (n + 1) (ms ++ ms') =
        (style.text n).toList ++ written style (n + 1) ms ++ written style _ ms'
      rw [ih, hnext, List.append_assoc]

end RenderedQuery

namespace Lookup

open RenderedQuery

/-! ## Parts of a list -/

theorem filterMap_valueOf?_listed (parts : List (List Piece)) :
    (listed parts).filterMap valueOf? = parts.flatMap fun p => p.filterMap valueOf? := by
  fun_induction listed parts with
  | case1 => rfl
  | case2 p => exact (List.append_nil _).symm
  | case3 p q rest ih =>
    rw [List.filterMap_append, List.flatMap_cons, ← ih]
    rfl

/-- **A list is written part by part**, if what a part is written to depends on the number of its
first placeholder only and every part takes the same count of numbers. -/
theorem written_listed {style : PlaceholderStyle} {width : Nat} {text : Nat → String}
    {parts : List (List Piece)}
    (hcount : ∀ p ∈ parts, (p.flatMap Piece.marks).count none = width)
    (htext : ∀ p ∈ parts, ∀ n, written style n (p.flatMap Piece.marks) = (text n).toList)
    (n : Nat) :
    written style n ((listed parts).flatMap Piece.marks) =
      (", ".intercalate ((List.range parts.length).map fun i => text (n + i * width))).toList := by
  induction parts using listed.induct generalizing n with
  | case1 => rfl
  | case2 p =>
    show written style n (p.flatMap Piece.marks) = _
    simp [htext p List.mem_cons_self n]
  | case3 p q rest ih =>
    obtain ⟨hp, hrest⟩ := List.forall_mem_cons.1 hcount
    obtain ⟨hptext, hresttext⟩ := List.forall_mem_cons.1 htext
    -- the parts behind the first one go on with the number that it leaves
    have hnumbers : ∀ i, n + width + i * width = n + (i + 1) * width := by
      intro i
      rw [Nat.succ_mul]
      omega
    have hcomma : written style (n + width) ((Piece.text ", ").marks ++
        (listed (q :: rest)).flatMap Piece.marks) =
          ", ".toList ++ written style (n + width) ((listed (q :: rest)).flatMap Piece.marks) :=
      written_map_some_append style (n + width) ", ".toList _
    have hranges : (List.range (p :: q :: rest).length).map (fun i => text (n + i * width)) =
        text n :: (List.range (q :: rest).length).map fun i => text (n + (i + 1) * width) := by
      rw [List.length_cons, List.range_succ_eq_map, List.map_cons, List.map_map, Nat.zero_mul]
      rfl
    have hne : (List.range (q :: rest).length).map (fun i => text (n + (i + 1) * width)) ≠ [] := by
      simp
    rw [listed, List.flatMap_append, List.flatMap_cons, written_append, hp, hcomma,
      ih hrest hresttext, hptext, hranges, String.intercalate_cons_of_ne_nil hne]
    simp only [hnumbers, String.toList_append, List.append_assoc]

/-! ## Tuples -/

theorem filterMap_valueOf?_tuplePieces (tuple : List Value) :
    (tuplePieces tuple).filterMap valueOf? = tuple := by
  have hinner : (listed (tuple.map fun v => [.value v])).filterMap valueOf? = tuple := by
    rw [filterMap_valueOf?_listed, List.flatMap_map]
    exact List.flatMap_singleton' tuple
  unfold tuplePieces
  split_ifs
  · rw [List.filterMap_append]
    show (listed _).filterMap valueOf? ++ [] = tuple
    rw [hinner, List.append_nil]
  · exact hinner

theorem count_none_tuplePieces (tuple : List Value) :
    ((tuplePieces tuple).flatMap Piece.marks).count none = tuple.length := by
  rw [← length_filterMap_valueOf?, filterMap_valueOf?_tuplePieces]

theorem written_tuplePieces (style : PlaceholderStyle) (n : Nat) (tuple : List Value) :
    written style n ((tuplePieces tuple).flatMap Piece.marks) =
      (style.tupleText tuple.length n).toList := by
  have hinner : ∀ n, written style n
      ((listed (tuple.map fun v => [.value v])).flatMap Piece.marks) =
        (", ".intercalate ((List.range tuple.length).map fun i => style.text (n + i))).toList := by
    intro n
    have hcount : ∀ p ∈ tuple.map (fun v => [Piece.value v]),
        (p.flatMap Piece.marks).count none = 1 := List.forall_mem_map.2 fun v _ => rfl
    have htext : ∀ p ∈ tuple.map (fun v => [Piece.value v]), ∀ n,
        written style n (p.flatMap Piece.marks) = (style.text n).toList :=
      List.forall_mem_map.2 fun v _ n => List.append_nil _
    rw [written_listed hcount htext, List.length_map]
    simp only [Nat.mul_one]
  unfold tuplePieces PlaceholderStyle.tupleText
  split_ifs
  · rw [List.flatMap_append, written_append]
    show '(' :: written style n ((listed _).flatMap Piece.marks) ++ [')'] = _
    rw [hinner]
    simp
  · exact hinner n

theorem filterMap_valueOf?_groupPieces (tuples : List (List Value)) :
    (groupPieces (.expanding tuples)).filterMap valueOf? = tuples.flatten := by
  unfold groupPieces
  rw [List.filterMap_append]
  show (listed _).filterMap valueOf? ++ [] = tuples.flatten
  rw [List.append_nil, filterMap_valueOf?_listed, List.flatMap_map]
  simp only [filterMap_valueOf?_tuplePieces]
  exact List.flatMap_id

theorem written_groupPieces (style : PlaceholderStyle) {width : Nat} {tuples : List (List Value)}
    (h : ∀ t ∈ tuples, t.length = width) :
    written style 1 ((groupPieces (.expanding tuples)).flatMap Piece.marks) =
      (style.tuplesText width tuples.length).toList := by
  have hcount : ∀ p ∈ tuples.map tuplePieces, (p.flatMap Piece.marks).count none = width :=
    List.forall_mem_map.2 fun t ht => (count_none_tuplePieces t).trans (h t ht)
  have htext : ∀ p ∈ tuples.map tuplePieces, ∀ n,
      written style n (p.flatMap Piece.marks) = (style.tupleText width n).toList :=
    List.forall_mem_map.2 fun t ht n => h t ht ▸ written_tuplePieces style n t
  unfold groupPieces PlaceholderStyle.tuplesText
  rw [List.flatMap_append, written_append]
  show '(' :: written style 1 ((listed _).flatMap Piece.marks) ++ [')'] = _
  rw [written_listed hcount htext, List.length_map]
  simp

/-! ## Batch queries -/

theorem mapM_segmentPieces_text (l : Lookup) (b : Binds) (texts : List String) :
    (texts.map Segment.text).mapM (l.segmentPieces b) = .ok (texts.map fun s => [.text s]) := by
  rw [mapM_ok_iff, List.forall₂_map_left_iff, List.forall₂_map_right_iff]
  exact List.forall₂_same.2 fun s _ => rfl

theorem exists_texts {tokens : List Token} (h : Token.placeholder ∉ tokens) :
    ∃ texts : List String, tokens = texts.map Token.text := by
  induction tokens with
  | nil => exact ⟨[], rfl⟩
  | cons t tokens ih =>
    obtain ⟨texts, rfl⟩ := ih fun hmem => h (List.mem_cons_of_mem _ hmem)
    cases t with
    | text s => exact ⟨s :: texts, rfl⟩
    | placeholder => exact absurd List.mem_cons_self h

/-- **The pieces of a batch query** are its texts, with all tuples in the place of the only
placeholder. -/
theorem exists_pieces_batch {s : PreparedStatement} {l : Lookup} (h : batch s = .ok l)
    {tuples : List (List Value)} (hne : tuples ≠ []) :
    ∃ before after : List String,
      tokens s.query = before.map Token.text ++ .placeholder :: after.map Token.text ∧
        l.pieces (.expanding tuples) = .ok (before.map Piece.text ++
          (groupPieces (.expanding tuples) ++ after.map Piece.text)) := by
  obtain ⟨-, hone, hl⟩ := batch_ok_iff.1 h
  have hmem : Token.placeholder ∈ tokens s.query := List.one_le_count_iff.1 (Nat.le_of_eq hone.symm)
  obtain ⟨front, back, htokens⟩ := List.append_of_mem hmem
  have hcount : front.count .placeholder = 0 ∧ back.count .placeholder = 0 := by
    unfold placeholders at hone
    rw [htokens, List.count_append, List.count_cons_self] at hone
    omega
  obtain ⟨before, rfl⟩ := exists_texts (List.count_eq_zero.1 hcount.1)
  obtain ⟨after, rfl⟩ := exists_texts (List.count_eq_zero.1 hcount.2)
  refine ⟨before, after, htokens, ?_⟩
  have hown : l.segments = before.map Segment.text ++
      (.expanding Binds.batchName :: after.map Segment.text) := by
    rw [← hl, htokens, List.map_append, List.map_cons, List.map_map, List.map_map]
    rfl
  have hgroup : l.segmentPieces (.expanding tuples) (.expanding Binds.batchName) =
      .ok (groupPieces (.expanding tuples)) := by
    cases tuples with
    | nil => exact absurd rfl hne
    | cons t ts => rfl
  have hflat : ∀ texts : List String, (texts.map fun s => [Piece.text s]).flatten =
      texts.map Piece.text := fun texts => by
    rw [← List.flatMap_def, List.map_eq_flatMap]
  unfold pieces
  rw [hown, map_ok_iff]
  refine ⟨before.map (fun s => [.text s]) ++
    groupPieces (.expanding tuples) :: after.map fun s => [.text s], ?_, ?_⟩
  · rw [mapM_ok_iff]
    apply List.rel_append
    · exact mapM_ok_iff.1 (mapM_segmentPieces_text l _ before)
    · exact .cons hgroup (mapM_ok_iff.1 (mapM_segmentPieces_text l _ after))
  · rw [List.flatten_append, List.flatten_cons, hflat, hflat]

theorem filterMap_valueOf?_text (texts : List String) :
    (texts.map Piece.text).filterMap valueOf? = [] := by
  rw [List.filterMap_map]
  exact List.filterMap_eq_nil_iff.2 fun _ _ => rfl

theorem flatMap_marks_text (texts : List String) :
    (texts.map Piece.text).flatMap Piece.marks = (String.join texts).toList.map some := by
  rw [String.toList_join, List.map_flatMap, List.flatMap_map]
  rfl

/-- **The text of a batch query** is its own, with the list of the placeholders of all tuples in the
place of the only one; the values are those of the tuples, one tuple after another. -/
theorem render_batch_tuples {s : PreparedStatement} {l : Lookup} (h : batch s = .ok l)
    {tuples : List (List Value)} (hne : tuples ≠ []) {width : Nat}
    (hwidth : ∀ t ∈ tuples, t.length = width) :
    ∃ head tail : String,
      marks .code s.query.toList = head.toList.map some ++ none :: tail.toList.map some ∧
        (∀ style, l.render style (.expanding tuples) =
          .ok ⟨head ++ style.tuplesText width tuples.length ++ tail, tuples.flatten⟩) ∧
        placeholders (head ++
          PlaceholderStyle.questionMark.tuplesText width tuples.length ++ tail) =
            tuples.length * width := by
  obtain ⟨before, after, htokens, hpieces⟩ := exists_pieces_batch h hne
  have hvalues : (before.map Piece.text ++ (groupPieces (.expanding tuples) ++
      after.map Piece.text)).filterMap valueOf? = tuples.flatten := by
    rw [List.filterMap_append, List.filterMap_append, filterMap_valueOf?_text,
      filterMap_valueOf?_text, filterMap_valueOf?_groupPieces, List.nil_append, List.append_nil]
  have htext : ∀ style, (ofPieces style (before.map Piece.text ++
      (groupPieces (.expanding tuples) ++ after.map Piece.text))).text =
        String.join before ++ style.tuplesText width tuples.length ++ String.join after := by
    intro style
    apply String.toList_injective
    unfold ofPieces
    rw [toList_join_write, List.flatMap_append, List.flatMap_append, flatMap_marks_text,
      flatMap_marks_text, written_map_some_append, written_append, written_groupPieces style hwidth,
      ← List.append_nil ((String.join after).toList.map some), written_map_some_append,
      String.toList_append, String.toList_append, List.append_assoc]
    simp [written]
  refine ⟨String.join before, String.join after, ?_, ?_, ?_⟩
  · rw [← flatMap_marks_tokens, htokens, List.flatMap_append, List.flatMap_cons]
    simp only [List.flatMap_map, String.toList_join, List.map_flatMap]
    rfl
  · intro style
    rw [render_of_pieces hpieces, ← htext style, ← hvalues]
    rfl
  · have hlength : tuples.flatten.length = tuples.length * width := by
      rw [List.length_flatten, List.map_congr_left hwidth, List.map_const', List.sum_replicate_nat]
    rw [← htext, placeholders_eq_count_marks, marks_text (.batch h) hpieces,
      ← length_filterMap_valueOf?, hvalues, hlength]

end Lookup

/-! ## Binds of a batch -/

namespace KeyIndex

/-- **Batch binds always render.** Whatever an index that was built binds to a compiled batch query
is one tuple per entry that is complete at the position, in the order of the entries, and there is
at least one. A tuple has a value for every key, of which there is at least one too, and none of
them is null. The query is rendered with the list of the placeholders of all tuples in the place of
its only one, which are as many as there are values, and has no others. -/
theorem resolveBatch_renders {ss : List PreparedStatement} {supplied : Option (List ServingKey)}
    {skip : SortedSet GroupId} {x : KeyIndex} (hx : build ss supplied skip = .ok x)
    {lookups : SortedMap Position Lookup}
    (hcompiled : ∀ j l, lookups.get? j = some l → ∃ s, Lookup.batch s = .ok l)
    {es : List Entry} {j : Position} {b : Binds}
    (hb : (x.resolveBatch es lookups).get? j = some b) :
    ∃ keys tuples, x.keysAt? j = some keys ∧ keys ≠ [] ∧ b = .expanding tuples ∧ tuples ≠ [] ∧
      (∀ t ∈ tuples, t.length = keys.length ∧ ∀ v ∈ t, v ≠ .null) ∧
      List.Forall₂ (fun e t => x.IsTuple e j keys t) (es.filter fun e => x.Complete e j) tuples ∧
      ∃ l s, ∃ head tail : String, lookups.get? j = some l ∧ Lookup.batch s = .ok l ∧
        marks .code s.query.toList = head.toList.map some ++ none :: tail.toList.map some ∧
        (∀ style : PlaceholderStyle, l.render style b =
          .ok ⟨head ++ style.tuplesText keys.length tuples.length ++ tail, tuples.flatten⟩) ∧
        placeholders (head ++
          PlaceholderStyle.questionMark.tuplesText keys.length tuples.length ++ tail) =
            tuples.length * keys.length := by
  obtain ⟨⟨l, hl⟩, keys, hkeys, hne, rfl⟩ := get?_resolveBatch_eq_some_iff.1 hb
  obtain ⟨s, hs⟩ := hcompiled j l hl
  have hown : keys ≠ [] := by
    obtain ⟨-, rfl⟩ := build_ok_iff.1 hx
    exact ((isIndexOf_ofKeys _ _).own j keys hkeys).1
  have htuple : ∀ t ∈ es.filterMap (tuple? keys), t.length = keys.length ∧ ∀ v ∈ t, v ≠ .null := by
    intro t ht
    obtain ⟨e, -, he⟩ := List.mem_filterMap.1 ht
    have hvalues := tuple?_eq_some_iff.1 he
    refine ⟨hvalues.length_eq.symm, ?_⟩
    intro v hv hnull
    obtain ⟨k, -, hk⟩ := exists_left_of_forall₂ hvalues hv
    have hnot := keyValue?_not_null hk
    rw [hnull] at hnot
    cases hnot
  obtain ⟨head, tail, hquery, hrender, hcount⟩ :=
    Lookup.render_batch_tuples hs hne fun t ht => (htuple t ht).1
  exact ⟨keys, _, hkeys, hown, rfl, hne, htuple, forall₂_isTuple hkeys es, l, s, head, tail, hl, hs,
    hquery, hrender, hcount⟩

/-! ### Two prices and an entry without a store -/

/-- A price is looked up by item and store; the last question mark stands in a comment. -/
def priceStatement : PreparedStatement where
  group := none
  position := 0
  parameters := [⟨"store", 1⟩, ⟨"item", 0⟩]
  query := "SELECT price FROM prices WHERE (item, store) IN ? -- ?"
  keyPrefix := none

def priceEntries : List Entry :=
  [.ofList [("item", .int 1), ("store", .text "a")], .ofList [("item", .int 2), ("store", .null)],
   .ofList [("item", .int 3), ("store", .text "b")]]

theorem keysAt?_prices : (ofKeys [priceStatement] (derived [priceStatement])).keysAt? 0 =
    some [.of "item" 0 none true none, .of "store" 0 none true none] := by
  rw [keysAt?_derived (by decide)]
  simp [statementOf?, priceStatement, sorted, derivedKeys, PreparedStatement.sortedParameters,
    indexIn, ServingKey.of, List.mergeSort, List.MergeSort.Internal.splitInTwo]

/-- The complete entries have a group of two numbers each. -/
theorem resolveBatch_renders_prices :
    ∃ x l b, build [priceStatement] none ∅ = .ok x ∧ Lookup.batch priceStatement = .ok l ∧
      (x.resolveBatch priceEntries (.ofList [(0, l)])).get? 0 = some b ∧
      ∃ head tail : String, l.render .numbered b =
        .ok ⟨head ++ "(($1, $2), ($3, $4))" ++ tail, [.int 1, .text "a", .int 3, .text "b"]⟩ := by
  have hvalid : priceStatement.validate = .ok () :=
    PreparedStatement.validate_ok_iff.2 ⟨by decide, by decide +kernel⟩
  have hx : build [priceStatement] none ∅ =
      .ok (ofKeys [priceStatement] (derived [priceStatement])) :=
    build_ok_iff.2 ⟨List.forall_mem_singleton.2 hvalid, rfl⟩
  obtain ⟨l, hl⟩ := Lookup.exists_batch_ok_iff.2
    (⟨hvalid, by decide +kernel⟩ : _ ∧ placeholders priceStatement.query = 1)
  have hcompiled : ∀ j l', (SortedMap.ofList [((0 : Position), l)]).get? j = some l' →
      ∃ s, Lookup.batch s = .ok l' := by
    intro j l' hj
    rw [SortedMap.get?_ofList] at hj
    cases List.mem_singleton.1 (SortedMap.mem_of_find hj)
    exact ⟨priceStatement, hl⟩
  have hb : ((ofKeys [priceStatement] (derived [priceStatement])).resolveBatch priceEntries
      (.ofList [(0, l)])).get? 0 = some (.expanding [[.int 1, .text "a"], [.int 3, .text "b"]]) :=
    get?_resolveBatch_eq_some_iff.2 ⟨⟨l, rfl⟩, _, keysAt?_prices, by decide, rfl⟩
  obtain ⟨keys, tuples, hkeys, -, htuples, -, -, -, l', s, head, tail, hget, hs, hquery, hrender,
    -⟩ := resolveBatch_renders hx hcompiled hb
  obtain rfl := Option.some.inj (keysAt?_prices.symm.trans hkeys)
  obtain rfl := Binds.expanding.inj htuples
  obtain rfl : l = l' := Option.some.inj hget
  have htext : PlaceholderStyle.numbered.tuplesText 2 2 = "(($1, $2), ($3, $4))" := by
    decide +kernel
  have hnumbered := hrender .numbered
  simp only [List.length_cons, List.length_nil, htext] at hnumbered
  exact ⟨_, l, _, hx, hl, hb, head, tail, hnumbered⟩

end KeyIndex

end FeatureServing
