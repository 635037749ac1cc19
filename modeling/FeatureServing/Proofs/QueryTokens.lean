import Mathlib.Data.String.Basic
import Mathlib.Data.List.Chain
import FeatureServing.Proofs.QueryReading

/-!
# The tokens of a query

`tokens` puts the scanned characters between two placeholders together, so tokens give the scan back
(`flatMap_marks_tokens`) and the query itself (`join_source_tokens`), and the texts are as long as
they can be (`text_ne_empty`, `isChain_tokens`). With the grammar: `tokens_of_grammar`.
-/

namespace FeatureServing.Query

section Runs
variable (ms : List (Option Char))

theorem flatMap_marks_runs : ((runs ms).map tokenOf).flatMap Token.marks = ms := by
  induction ms with
  | nil => rfl
  | cons m ms ih =>
    cases m with
    | none => rw [runs, List.map_cons, List.flatMap_cons, ih]; rfl
    | some c =>
      rw [runs]
      split
      · rename_i cs more h
        rw [h] at ih
        rw [← ih]
        simp [tokenOf, Token.marks]
      · rw [List.map_cons, List.flatMap_cons, ih]
        simp [tokenOf, Token.marks]

theorem nonempty_runs : some [] ∉ runs ms := by
  induction ms with
  | nil => simp
  | cons m ms ih =>
    cases m with
    | none => simpa using ih
    | some c =>
      rw [runs]
      split <;> rename_i h <;> simp_all

theorem isChain_runs : (runs ms).IsChain fun r s => r = none ∨ s = none := by
  induction ms with
  | nil => exact .nil
  | cons m ms ih =>
    cases m with
    | none =>
      rw [runs]
      exact ih.cons fun _ _ => .inl rfl
    | some c =>
      rw [runs]
      split
      · rename_i cs more h
        rw [h, List.isChain_cons] at ih
        exact ih.2.cons fun s hs => (ih.1 s hs).imp_left fun h => absurd h (Option.some_ne_none cs)
      · rename_i h
        refine ih.cons fun s hs => .inr ?_
        obtain ⟨more, hmore⟩ := List.head?_eq_some_iff.1 hs
        cases s with
        | none => rfl
        | some cs => exact absurd hmore (h cs more)

end Runs

theorem map_getD_marks (m : Mode) (cs : List Char) : (marks m cs).map (·.getD '?') = cs := by
  fun_induction marks m cs <;> simp_all

section Tokens
variable (query : String)

/-- Tokens are the scanned characters, put together. -/
theorem flatMap_marks_tokens : (tokens query).flatMap Token.marks = marks .code query.toList :=
  flatMap_marks_runs _

theorem source_eq_map_marks (t : Token) : t.source.toList = t.marks.map (·.getD '?') := by
  cases t with
  | placeholder => rfl
  | text s => rw [Token.source, Token.marks, List.map_map]; exact (List.map_id _).symm

/-- The tokens give the query back, with a question mark for each placeholder. -/
theorem join_source_tokens : String.join ((tokens query).map Token.source) = query := by
  refine String.toList_injective ?_
  calc (String.join ((tokens query).map Token.source)).toList
      = (tokens query).flatMap fun t => t.source.toList := by
        rw [String.toList_join, List.flatMap_map]
    _ = ((tokens query).flatMap Token.marks).map (·.getD '?') := by
        rw [List.map_flatMap, funext source_eq_map_marks]
    _ = query.toList := by rw [flatMap_marks_tokens, map_getD_marks]

theorem text_ne_empty : Token.text "" ∉ tokens query := by
  intro h
  obtain ⟨r, hr, htext⟩ := List.mem_map.1 h
  cases r with
  | none => cases htext
  | some cs =>
    have hempty : String.ofList cs = "" := Token.text.inj htext
    have hnil : cs = [] := by simpa using congrArg String.toList hempty
    exact nonempty_runs _ (hnil ▸ hr)

theorem isChain_tokens :
    (tokens query).IsChain fun t u => t = .placeholder ∨ u = .placeholder := by
  refine List.isChain_map_of_isChain tokenOf (fun r s h => ?_) (isChain_runs _)
  rcases h with rfl | rfl
  · exact .inl rfl
  · exact .inr rfl

theorem count_none_token (t : Token) : t.marks.count none = [t].count .placeholder := by
  cases t with
  | placeholder => rfl
  | text s => simp [Token.marks, List.count_eq_zero]

theorem count_none_element (e : Element) : e.marks.count none = [e].count .placeholder := by
  cases e <;> simp [Element.marks, List.count_eq_zero]

theorem placeholders_eq_count_marks :
    placeholders query = (marks .code query.toList).count none := by
  rw [← flatMap_marks_tokens, placeholders]
  induction tokens query with
  | nil => rfl
  | cons t ts ih =>
    rw [List.flatMap_cons, List.count_append, ← ih, count_none_token, ← List.count_append]
    rfl

theorem count_flatMap_marks (es : List Element) :
    (es.flatMap Element.marks).count none = es.count .placeholder := by
  induction es with
  | nil => rfl
  | cons e es ih =>
    rw [List.flatMap_cons, List.count_append, ih, count_none_element, ← List.count_append]
    rfl

end Tokens

/-- **The placeholders of a query are its question marks that are code.** A query has one reading in
the grammar; its tokens are a placeholder for each placeholder of that reading and the longest texts
between them, and they spell the query. -/
theorem tokens_of_grammar (query : String) :
    ∃ es, Reads query.toList es ∧ (∀ es', Reads query.toList es' → es' = es) ∧
      es.flatMap Element.spelling = query.toList ∧
      (tokens query).flatMap Token.marks = es.flatMap Element.marks ∧
      String.join ((tokens query).map Token.source) = query ∧
      .text "" ∉ tokens query ∧
      (tokens query).IsChain (fun t u => t = .placeholder ∨ u = .placeholder) ∧
      placeholders query = es.count .placeholder := by
  obtain ⟨es, hes⟩ := exists_reads query.toList
  have hscan : marks .code query.toList = es.flatMap Element.marks := marks_of_reads hes
  have hcount : placeholders query = es.count .placeholder := by
    rw [placeholders_eq_count_marks, hscan, count_flatMap_marks]
  exact ⟨es, hes, fun _ h => reads_unique h hes, spelling_of_reads hes,
    (flatMap_marks_tokens query).trans hscan, join_source_tokens query, text_ne_empty query,
    isChain_tokens query, hcount⟩

end FeatureServing.Query
