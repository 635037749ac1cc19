import FeatureServing.Proofs.FanOutBarrier
import FeatureServing.Proofs.Rendering
import FeatureServing.Proofs.TableRows

/-!
# The rows that a pipeline finds

* `FanOut.Bound.exists_answers_iff`, `FanOut.Bound.get?_answers` : a call is answered position by
  position;
* `Pipeline.Aligned` : single and batch statements that ask for the same keys, and tables filed
  under these;
* `Pipeline.Answers`, `Pipeline.foundVector` : whether the store answers at the positions of an
  entry, and the rows it has for it, written over each other;
* `Pipeline.exists_singleAnswers_iff`, `Pipeline.writeRows_answers` : single calls by these;
* `Pipeline.exists_batchAnswers_iff`, `Pipeline.stitchedVector_answers` : batch calls by the same.
-/

namespace FeatureServing

/-! ## Answers by position -/

namespace Store

/-- Whether the store answers queries of a position. -/
def AnswersAt (s : Store) (j : Position) : Prop :=
  s.closed = false ∧ s.failing.contains j = false

theorem answer_ok_iff {s : Store} (hnull : s.nullRows = ∅) {l : Lookup} {b : Binds}
    (hrender : ∃ q, l.render .questionMark b = .ok q) {rows : RowSet} :
    s.answer l b = .ok rows ↔ s.AnswersAt l.position ∧ s.select l b = rows := by
  obtain ⟨q, hq⟩ := hrender
  have hreadable : s.nullRows.contains l.position = false := by rw [hnull]; rfl
  rw [answer, acceptedAnswer, readableRows, hq, hreadable, AnswersAt]
  cases s.closed <;> cases s.failing.contains l.position <;> simp

theorem exists_render_of_answer {s : Store} {l : Lookup} {b : Binds} {rows : RowSet}
    (h : s.answer l b = .ok rows) : ∃ q, l.render .questionMark b = .ok q := by
  cases hq : l.render .questionMark b with
  | ok q => exact ⟨q, rfl⟩
  | error e =>
    rw [answer, hq] at h
    split at h <;> cases h

/-- A store that works fails exactly the queries that do not render. -/
theorem answer_error_iff {s : Store} {l : Lookup} {b : Binds} {e : ServingError}
    (hworks : s.AnswersAt l.position) :
    s.answer l b = .error e ↔ l.render .questionMark b = .error e := by
  rw [answer, acceptedAnswer, hworks.1, hworks.2]
  cases l.render .questionMark b <;> simp

end Store

namespace FanOut

/-- Lookups that are filed under their own positions and can take the binds of these. -/
structure Bound (lookups : SortedMap Position Lookup) (binds : SortedMap Position Binds) : Prop where
  own : ∀ j l, lookups.get? j = some l → l.position = j
  renders : ∀ j l b, lookups.get? j = some l → binds.get? j = some b →
    ∃ q, l.render .questionMark b = .ok q

variable {s : Store} {lookups : SortedMap Position Lookup} {binds : SortedMap Position Binds}

theorem Bound.answer_ok_iff (h : Bound lookups binds) (hnull : s.nullRows = ∅) {j : Position}
    {l : Lookup} {b : Binds} (hl : lookups.get? j = some l) (hb : binds.get? j = some b)
    {rows : RowSet} : s.answer l b = .ok rows ↔ s.AnswersAt j ∧ s.select l b = rows := by
  rw [Store.answer_ok_iff hnull (h.renders j l b hl hb), h.own j l hl]

/-- **A call is answered** when the store answers at every position that it asks. -/
theorem Bound.exists_answers_iff (h : Bound lookups binds) (hnull : s.nullRows = ∅) :
    (∃ results, answers s (submitted lookups binds) = .ok results) ↔
      ∀ j, (∃ l, lookups.get? j = some l) → (∃ b, binds.get? j = some b) → s.AnswersAt j := by
  simp only [answers, exists_map_ok_iff, exists_mapM_ok_iff, mem_submitted_iff]
  constructor
  · rintro hall j ⟨l, hl⟩ ⟨b, hb⟩
    obtain ⟨rows, hrows⟩ := hall _ ⟨j, l, b, hl, hb, rfl⟩
    exact ((h.answer_ok_iff hnull hl hb).1 hrows).1
  · rintro hall _ ⟨j, l, b, hl, hb, rfl⟩
    exact ⟨_, (h.answer_ok_iff hnull hl hb).2 ⟨hall j ⟨l, hl⟩ ⟨b, hb⟩, rfl⟩⟩

/-- **The rows of a position** are those that its lookup selects. -/
theorem Bound.get?_answers (h : Bound lookups binds) (hnull : s.nullRows = ∅)
    {results : SortedMap Position RowSet} (hresults : answers s (submitted lookups binds) = .ok results)
    (j : Position) :
    results.get? j = (lookups.get? j).bind fun l => (binds.get? j).map (s.select l) := by
  have hanswers := (h.exists_answers_iff hnull).1 ⟨results, hresults⟩
  have hcollects := collects_collected lookups binds (s.answerAt lookups binds)
  rw [← answers_submitted, hresults] at hcollects
  obtain ⟨-, hrows⟩ := hcollects
  apply Option.ext
  intro rows
  rw [hrows, Option.bind_eq_some_iff]
  constructor
  · rintro ⟨⟨⟨l, hl⟩, b, hb⟩, hanswer⟩
    simp only [Store.answerAt, hl, hb, h.answer_ok_iff hnull hl hb] at hanswer
    exact ⟨l, hl, by rw [hb, Option.map_some, hanswer.2]⟩
  · rintro ⟨l, hl, hselect⟩
    obtain ⟨b, hb, rfl⟩ := Option.map_eq_some_iff.1 hselect
    refine ⟨⟨⟨l, hl⟩, b, hb⟩, ?_⟩
    simp only [Store.answerAt, hl, hb, h.answer_ok_iff hnull hl hb]
    exact ⟨hanswers j ⟨l, hl⟩ ⟨b, hb⟩, trivial⟩

end FanOut

/-! ## Lookups of a compiled plan -/

namespace Registry

variable {single batch : List PreparedStatement} {skip : SortedSet GroupId} {r : Registry}
  {j : Position} {l : Lookup}

theorem single_of_compile (hr : compile single batch skip = .ok r)
    (hl : r.single.get? j = some l) : ∃ s, Lookup.single s = .ok l ∧ s.position = j := by
  obtain ⟨s, hs, hsl⟩ := (get?_of_compileAll (compile_ok_iff.1 hr).1).1 hl
  exact ⟨s, hsl, (statementOf?_eq_some hs).2⟩

theorem batch_of_compile (hr : compile single batch skip = .ok r)
    (hl : r.batch.get? j = some l) : ∃ s, Lookup.batch s = .ok l ∧ s.position = j := by
  obtain ⟨s, hs, hsl⟩ := (get?_of_compileAll (compile_ok_iff.1 hr).2).1 hl
  exact ⟨s, hsl, (statementOf?_eq_some hs).2⟩

theorem position_of_single (hr : compile single batch skip = .ok r)
    (hl : r.single.get? j = some l) : l.position = j := by
  obtain ⟨s, hsl, rfl⟩ := single_of_compile hr hl
  obtain ⟨-, _, -, rfl⟩ := Lookup.single_ok_iff.1 hsl
  rfl

theorem position_of_batch (hr : compile single batch skip = .ok r)
    (hl : r.batch.get? j = some l) : l.position = j := by
  obtain ⟨s, hsl, rfl⟩ := batch_of_compile hr hl
  obtain ⟨-, -, rfl⟩ := Lookup.batch_ok_iff.1 hsl
  rfl

theorem form_of_single (hr : compile single batch skip = .ok r)
    (hl : r.single.get? j = some l) : l.form = .single := by
  obtain ⟨s, hsl, -⟩ := single_of_compile hr hl
  obtain ⟨-, _, -, rfl⟩ := Lookup.single_ok_iff.1 hsl
  rfl

theorem form_of_batch (hr : compile single batch skip = .ok r)
    (hl : r.batch.get? j = some l) : l.form = .batch := by
  obtain ⟨s, hsl, -⟩ := batch_of_compile hr hl
  obtain ⟨-, -, rfl⟩ := Lookup.batch_ok_iff.1 hsl
  rfl

end Registry

/-! ## Pipelines whose statements and tables go together -/

namespace Pipeline

/-- Whether single and batch calls ask for the same rows: the same positions, at each the names of
the single statement for keys, no name twice, and tables that are filed under these keys. -/
structure Aligned (p : Pipeline) (tables : SortedMap Position Table) : Prop where
  positions : p.registry.single.keys = p.registry.batch.keys
  names : ∀ j l, p.registry.single.get? j = some l →
    ((p.keys.keysAt? j).getD []).map (·.featureName) = l.parameters
  distinct : ∀ j l, p.registry.single.get? j = some l → l.parameters.Nodup
  fits : ∀ j ∈ p.registry.single.keys, ∀ t, tables.get? j = some t → t.Fits p.keys j

/-- Whether the store answers at all positions that an entry has a key for. -/
def Answers (p : Pipeline) (s : Store) (e : Entry) : Prop :=
  ∀ j ∈ p.registry.single.keys, (∃ key, p.keys.entryKey? e j = some key) → s.AnswersAt j

/-- The rows that a store has for an entry, written over each other by ascending position. -/
def foundVector (p : Pipeline) (s : Store) (e : Entry) : FeatureVector :=
  p.registry.single.keys.foldl (fun v j => (s.foundRow? p.keys e j).elim v v.overlay) ∅

/-- The queries of a single call. -/
def singleFetches (p : Pipeline) (e : Entry) : List Fetch :=
  FanOut.submitted p.registry.single (p.keys.resolve e p.registry.single)

/-- The queries of a batch call. -/
def batchFetches (p : Pipeline) (es : List Entry) : List Fetch :=
  FanOut.submitted p.registry.batch (p.keys.resolveBatch es p.registry.batch)

variable {p : Pipeline} {single batch : List PreparedStatement} {skip : SortedSet GroupId}
  {s : Store} {e : Entry} {es : List Entry} {results : SortedMap Position RowSet}

theorem Aligned.names_of_keysAt? {tables : SortedMap Position Table} (ha : p.Aligned tables)
    {j : Position} {l : Lookup} (hl : p.registry.single.get? j = some l) {keys : List ServingKey}
    (hkeys : p.keys.keysAt? j = some keys) : keys.map (·.featureName) = l.parameters := by
  have hnames := ha.names j l hl
  rwa [hkeys, Option.getD_some] at hnames

/-! ## Single calls -/

theorem bound_resolve (hr : Registry.compile single batch skip = .ok p.registry)
    {tables : SortedMap Position Table} (ha : p.Aligned tables) (e : Entry) :
    FanOut.Bound p.registry.single (p.keys.resolve e p.registry.single) where
  own _ _ hl := Registry.position_of_single hr hl
  renders j l b hl hb := by
    obtain ⟨-, keys, vs, hkeys, hvs, rfl⟩ := KeyIndex.get?_resolve_eq_some_iff.1 hb
    obtain ⟨t, htl, -⟩ := Registry.single_of_compile hr hl
    have hnames := ha.names_of_keysAt? hl hkeys
    have hvalues := KeyIndex.forall₂_namedValues hvs (hnames ▸ ha.distinct j l hl)
    rw [hnames, Lookup.parameters_of_single htl] at hvalues
    exact ⟨_, Lookup.render_single htl hvalues .questionMark⟩

/-- **The queries of a single call** are answered when the store answers for its entry. -/
theorem exists_singleAnswers_iff (hr : Registry.compile single batch skip = .ok p.registry)
    (ha : p.Aligned s.tables) (hnull : s.nullRows = ∅) :
    (∃ results, FanOut.answers s (p.singleFetches e) = .ok results) ↔ p.Answers s e := by
  rw [singleFetches, (bound_resolve hr ha e).exists_answers_iff hnull]
  simp only [KeyIndex.exists_resolve_iff, Answers, SortedMap.mem_keys_iff]
  exact forall_congr' fun j => ⟨fun h hl hkey => h hl ⟨hl, hkey⟩, fun h hl hb => h hl hb.2⟩

/-- **The vector of a single call** is made of the rows that the store has for its entry. -/
theorem writeRows_answers (hr : Registry.compile single batch skip = .ok p.registry)
    (ha : p.Aligned s.tables) (hnull : s.nullRows = ∅)
    (h : FanOut.answers s (p.singleFetches e) = .ok results) (schema : Schema) :
    schema.writeRows results = p.foundVector s e := by
  have hget := (bound_resolve hr ha e).get?_answers hnull h
  have hown : ∀ j, p.registry.single.get? j = none → results.get? j = none := fun j hj => by
    rw [hget, hj, Option.bind_none]
  have hturn : ∀ (v : FeatureVector), ∀ j ∈ p.registry.single.keys,
      (results.get? j).elim v (fun rows => rows.foldl (schema.writeRow j) v) =
        (s.foundRow? p.keys e j).elim v v.overlay := by
    intro v j hj
    obtain ⟨l, hl⟩ := SortedMap.mem_keys_iff.1 hj
    rw [hget, hl, Option.bind_some]
    -- a position that is not asked is one that the entry has no key for
    cases hb : (p.keys.resolve e p.registry.single).get? j with
    | none =>
      have hkey : p.keys.entryKey? e j = none :=
        Option.eq_none_iff_forall_ne_some.2 fun key hkey => by
          obtain ⟨b, hsome⟩ := KeyIndex.exists_resolve_iff.2 ⟨⟨l, hl⟩, key, hkey⟩
          simp [hb] at hsome
      rw [Store.foundRow?, hkey]
      rfl
    | some b =>
      obtain ⟨-, keys, vs, hkeys, hvs, rfl⟩ := KeyIndex.get?_resolve_eq_some_iff.1 hb
      exact Store.foldl_writeRow_select (ha.fits j hj) (Registry.position_of_single hr hl)
        (ha.names_of_keysAt? hl hkeys) (ha.distinct j l hl) hkeys hvs schema v
  rw [Schema.writeRows, foundVector, ← List.foldl_ext _ _ _ hturn]
  exact SortedMap.foldl_entries hown (fun v j rows => rows.foldl (schema.writeRow j) v) ∅

/-! ## Batch calls -/

theorem bound_resolveBatch (hr : Registry.compile single batch skip = .ok p.registry)
    (es : List Entry) :
    FanOut.Bound p.registry.batch (p.keys.resolveBatch es p.registry.batch) where
  own _ _ hl := Registry.position_of_batch hr hl
  renders j l b hl hb := by
    obtain ⟨-, _, -, hne, rfl⟩ := KeyIndex.get?_resolveBatch_eq_some_iff.1 hb
    obtain ⟨t, htl, -⟩ := Registry.batch_of_compile hr hl
    exact Lookup.exists_render_batch htl hne .questionMark

/-- **The queries of a batch call** are answered when the store answers for all its entries. -/
theorem exists_batchAnswers_iff (hr : Registry.compile single batch skip = .ok p.registry)
    (ha : p.Aligned s.tables) (hnull : s.nullRows = ∅) :
    (∃ results, FanOut.answers s (p.batchFetches es) = .ok results) ↔ ∀ e ∈ es, p.Answers s e := by
  rw [batchFetches, (bound_resolveBatch hr es).exists_answers_iff hnull]
  simp only [KeyIndex.exists_resolveBatch_iff, Answers, ha.positions, SortedMap.mem_keys_iff]
  constructor
  · exact fun h e he j hl hkey => h j hl ⟨hl, e, he, hkey⟩
  · rintro h j hl ⟨-, e, he, hkey⟩
    exact h e he j hl hkey

/-- **The vectors of a batch call** are made of the rows that the store has for its entries. -/
theorem stitchedVector_answers (hr : Registry.compile single batch skip = .ok p.registry)
    (ha : p.Aligned s.tables) (hnull : s.nullRows = ∅)
    (h : FanOut.answers s (p.batchFetches es) = .ok results) (he : e ∈ es) :
    stitchedVector p.keys p.registry.batch results e = p.foundVector s e := by
  have hturn : ∀ (v : FeatureVector), ∀ j ∈ p.registry.batch.keys,
      writePosition p.keys results e v j = (s.foundRow? p.keys e j).elim v v.overlay := by
    intro v j hj
    obtain ⟨l, hl⟩ := SortedMap.mem_keys_iff.1 hj
    rw [writePosition]
    -- without a key of this entry nothing is written, whatever the others asked for
    cases hkey : p.keys.entryKey? e j with
    | none =>
      rw [matchingRow?, Store.foundRow?, hkey]
      exact ite_self v
    | some key =>
      obtain ⟨b, hb⟩ := KeyIndex.exists_resolveBatch_iff.2 ⟨⟨l, hl⟩, e, he, key, hkey⟩
      obtain ⟨-, keys, hkeys, -, rfl⟩ := KeyIndex.get?_resolveBatch_eq_some_iff.1 hb
      have hrows : rowsAt results j = s.select l (.expanding (es.filterMap (KeyIndex.tuple? keys))) := by
        rw [rowsAt, (bound_resolveBatch hr es).get?_answers hnull h, hl, Option.bind_some, hb]
        rfl
      rw [hrows, Store.matchingRow?_select (ha.fits j (ha.positions ▸ hj))
        (Registry.position_of_batch hr hl) hkeys
        fun vs hvs => List.mem_filterMap.2 ⟨e, he, hvs⟩, hkeys, Option.isSome_some, if_pos rfl]
  rw [stitchedVector_eq_foldl, foundVector, ha.positions]
  exact List.foldl_ext _ _ _ hturn

end Pipeline

end FeatureServing
