import FeatureServing.Proofs.LookupAnswers
import FeatureServing.Proofs.SetUpPlan

/-!
# Batches agree with single calls

A batch call and one call per entry take different ways to the rows of a store. Where the two
statement lists ask for the same keys they end at the same vectors:

* `Pipeline.Serves` : the vector that an entry is served with, from the data of a store alone;
* `Serving.reply_serve_ok_iff`, `Serving.exists_batchKeys_iff` : both kinds of calls by it;
* `Session.serveBatch_agrees` : a batch succeeds when the single calls of its entries do, with
  their vectors.
-/

namespace FeatureServing

theorem checkSingleShape_ok_iff {e : Entry} :
    checkSingleShape e = .ok () ↔ e.isEmpty ∨ ∃ v ∈ e.values, v.isList = false := by
  rw [checkSingleShape]
  cases e.isEmpty <;> simp

namespace BatchRequest

theorem validate_ok_iff {r : BatchRequest} :
    r.validate = .ok () ↔ r.passed = [] ∨ r.passed.length = r.entries.length := by
  rw [validate, ← List.isEmpty_iff]
  cases r.passed.isEmpty <;> simp

/-- The request of an entry by itself, with the passed features of its place in a batch. -/
def requestAt (r : BatchRequest) (k : Nat) (e : Entry) : VectorRequest :=
  ⟨e, (r.passed[k]?).getD ∅⟩

theorem length_applyTo (r : BatchRequest) (vs : List FeatureVector) :
    (r.applyTo vs).length = vs.length := by
  rw [applyTo, List.length_mapIdx]

theorem getElem?_applyTo (r : BatchRequest) (vs : List FeatureVector) (k : Nat) :
    (r.applyTo vs)[k]? = vs[k]?.map fun v => applyPassed v ((r.passed[k]?).getD ∅) := by
  rw [applyTo, List.getElem?_mapIdx]

end BatchRequest

namespace Pipeline

/-- Whether an entry is served with a vector: its names are valid, the store answers for it and
the rows of the store decode to the vector. -/
structure Serves (p : Pipeline) (s : Store) (e : Entry) (v : FeatureVector) : Prop where
  valid : p.keys.validateEntry e = .ok ()
  answers : p.Answers s e
  decoded : p.schema.coerce (p.foundVector s e) = .ok v

theorem Serves.eq {p : Pipeline} {s : Store} {e : Entry} {u v : FeatureVector}
    (hu : p.Serves s e u) (hv : p.Serves s e v) : u = v :=
  Except.ok.inj (hu.decoded.symm.trans hv.decoded)

theorem prepare_ok_iff {p : Pipeline} {e : Entry} {fetches : List Fetch} :
    p.prepare e = .ok fetches ↔
      checkSingleShape e = .ok () ∧ p.keys.validateEntry e = .ok () ∧
        p.singleFetches e = fetches := by
  simp only [prepare, bind_ok_iff, Except.ok.injEq]
  constructor
  · rintro ⟨_, hshape, _, hvalid, h⟩
    exact ⟨hshape, hvalid, h⟩
  · rintro ⟨hshape, hvalid, h⟩
    exact ⟨(), hshape, (), hvalid, h⟩

theorem Aligned.lacksBatch {p : Pipeline} {tables : SortedMap Position Table}
    (ha : p.Aligned tables) : p.lacksBatch = false := by
  have hempty : p.registry.single.isEmpty = p.registry.batch.isEmpty := by
    have hlen := congrArg List.isEmpty ha.positions
    rwa [SortedMap.keys, SortedMap.keys, List.isEmpty_map, List.isEmpty_map] at hlen
  rw [Pipeline.lacksBatch, hempty, Bool.and_not_self]

theorem prepareBatch_ok_iff {p : Pipeline} {es : List Entry} {fetches : List Fetch} :
    p.prepareBatch es = .ok fetches ↔
      p.lacksBatch = false ∧ (∀ e ∈ es, p.keys.validateEntry e = .ok ()) ∧
        p.batchFetches es = fetches := by
  simp only [prepareBatch, bind_ok_iff, ← forM_ok_iff]
  constructor
  · rintro ⟨_, hvalid, h⟩
    split at h
    · cases h
    · next hbatch => exact ⟨Bool.eq_false_iff.2 hbatch, hvalid, Except.ok.inj h⟩
  · rintro ⟨hbatch, hvalid, rfl⟩
    refine ⟨(), hvalid, ?_⟩
    rw [hbatch]
    rfl

end Pipeline

namespace Serving

variable {s : ServingState} {store : Store} {single batch : List PreparedStatement}
  {skip : SortedSet GroupId}

/-- **A single call** serves the vector of its entry under its passed features. -/
theorem reply_serve_ok_iff (hr : Registry.compile single batch skip = .ok s.vector.registry)
    (ha : s.vector.Aligned store.tables) (hnull : store.nullRows = ∅) {r : VectorRequest}
    {v : FeatureVector} :
    reply s store (.serve r) = .ok (.vector v) ↔
      checkSingleShape r.entry = .ok () ∧
        ∃ u, s.vector.Serves store r.entry u ∧ applyPassed u r.passed = v := by
  have hassemble : ∀ {results}, FanOut.answers store (s.vector.singleFetches r.entry) = .ok results →
      s.vector.assemble results = s.vector.schema.coerce (s.vector.foundVector store r.entry) := by
    intro results h
    rw [Pipeline.assemble, Schema.assemble, Pipeline.writeRows_answers hr ha hnull h]
  simp only [reply_ok_iff, Call.check, Call.isHelper, ServingState.pipeline, Bool.false_eq_true,
    if_false, Except.ok.injEq, exists_eq_left', true_and, Call.prepare, Call.assemble,
    Pipeline.prepare_ok_iff, map_ok_iff, Answer.vector.injEq]
  constructor
  · rintro ⟨fetches, ⟨hshape, hvalid, rfl⟩, results, hresults, u, hu, hv⟩
    rw [hassemble hresults] at hu
    have hanswers := (Pipeline.exists_singleAnswers_iff hr ha hnull).1 ⟨_, hresults⟩
    exact ⟨hshape, u, ⟨hvalid, hanswers, hu⟩, hv⟩
  · rintro ⟨hshape, u, hserves, hv⟩
    obtain ⟨results, hresults⟩ :=
      (Pipeline.exists_singleAnswers_iff hr ha hnull).2 hserves.answers
    exact ⟨_, ⟨hshape, hserves.valid, rfl⟩, results, hresults, u,
      (hassemble hresults).trans hserves.decoded, hv⟩

/-- **A batch call** serves the vectors of its entries under their passed features. -/
theorem exists_batchKeys_iff (hr : Registry.compile single batch skip = .ok s.vector.registry)
    (ha : s.vector.Aligned store.tables) (hnull : store.nullRows = ∅) {r : BatchRequest}
    {vs : List FeatureVector} :
    (∃ keys, reply s store (.serveBatch r) = .ok (.vectors ⟨vs, keys⟩)) ↔
      r.validate = .ok () ∧
        ∃ us, List.Forall₂ (s.vector.Serves store) r.entries us ∧ r.applyTo us = vs := by
  have hdecoded : ∀ {results us},
      FanOut.answers store (s.vector.batchFetches r.entries) = .ok results →
      (List.Forall₂ (fun e u => s.vector.schema.coerce
          (stitchedVector s.vector.keys s.vector.registry.batch results e) = .ok u) r.entries us ↔
        List.Forall₂ (fun e u => s.vector.schema.coerce (s.vector.foundVector store e) = .ok u)
          r.entries us) := by
    intro results us h
    constructor <;> refine fun hall => forall₂_imp_of_mem hall fun e he u _ hu => ?_
    · rwa [Pipeline.stitchedVector_answers hr ha hnull h he] at hu
    · rwa [Pipeline.stitchedVector_answers hr ha hnull h he]
  simp only [reply_ok_iff, Call.check, Call.isHelper, ServingState.pipeline, Bool.false_eq_true,
    if_false, Except.ok.injEq, exists_eq_left', Call.prepare, Call.assemble,
    Pipeline.prepareBatch_ok_iff, ha.lacksBatch, true_and, map_ok_iff, Answer.vectors.injEq]
  constructor
  · rintro ⟨keys, hcheck, fetches, ⟨hvalid, rfl⟩, results, hresults, b, hb, h⟩
    have hanswers := (Pipeline.exists_batchAnswers_iff hr ha hnull).1 ⟨_, hresults⟩
    have hus := (hdecoded hresults).1 (Schema.assembleBatch_ok_iff.1 hb).1
    refine ⟨hcheck, b.vectors, forall₂_imp_of_mem hus fun e he u _ hu => ?_, ?_⟩
    · exact ⟨hvalid e he, hanswers e he, hu⟩
    · exact congrArg BatchVectors.vectors h
  · rintro ⟨hcheck, us, hserves, rfl⟩
    have hall : ∀ e ∈ r.entries, ∃ u, s.vector.Serves store e u :=
      exists_forall₂_iff.1 ⟨us, hserves⟩
    obtain ⟨results, hresults⟩ := (Pipeline.exists_batchAnswers_iff hr ha hnull).2
      fun e he => (hall e he).elim fun _ h => h.answers
    have hus := (hdecoded hresults).2 (hserves.imp fun _ _ h => h.decoded)
    exact ⟨_, hcheck, _, ⟨fun e he => (hall e he).elim fun _ h => h.valid, rfl⟩, results, hresults,
      ⟨us, _⟩, Schema.assembleBatch_ok_iff.2 ⟨hus, rfl⟩, rfl⟩

end Serving

namespace Session

variable {w : World} {i : Installed} {source : SetUp.Source} {request : SetUp.Request}

theorem serve_ok_iff (hi : w.client.installed = some i)
    (hplan : SetUp.plan source request = .ok i.state) (hlimit : i.state.queryLimit = none)
    (hnull : w.store.nullRows = ∅) (ha : i.state.vector.Aligned w.store.tables)
    {q : VectorRequest} {v : FeatureVector} :
    (runCommand w (.serve (.serve q))).2.result = some (.ok (.vector v)) ↔
      checkSingleShape q.entry = .ok () ∧
        ∃ u, i.state.vector.Serves w.store q.entry u ∧ applyPassed u q.passed = v := by
  obtain ⟨single, batch, hr⟩ := SetUp.compile_of_plan hplan
  rw [← Serving.reply_serve_ok_iff hr ha hnull, ← runCommand_serve_ok_iff hi hplan hlimit]
  rfl

theorem serveBatch_ok_iff (hi : w.client.installed = some i)
    (hplan : SetUp.plan source request = .ok i.state) (hlimit : i.state.queryLimit = none)
    (hnull : w.store.nullRows = ∅) (ha : i.state.vector.Aligned w.store.tables)
    {r : BatchRequest} {vs : List FeatureVector} :
    (∃ keys, (runCommand w (.serve (.serveBatch r))).2.result =
        some (.ok (.vectors ⟨vs, keys⟩))) ↔
      r.validate = .ok () ∧
        ∃ us, List.Forall₂ (i.state.vector.Serves w.store) r.entries us ∧ r.applyTo us = vs := by
  obtain ⟨single, batch, hr⟩ := SetUp.compile_of_plan hplan
  rw [← Serving.exists_batchKeys_iff hr ha hnull]
  simp only [← runCommand_serve_ok_iff hi hplan hlimit]
  rfl

/-- **A batch agrees with single calls.** Let a client without a time limit serve from an in-memory
store that loses no rows, with single and batch statements that ask for the same keys of the tables.
Then a batch of well-shaped entries succeeds exactly when the single call of every entry with its own
passed features does, and it has one vector per entry, the one of the single call. The store may
be closed, fail at any positions and take any time. -/
theorem serveBatch_agrees (hi : w.client.installed = some i)
    (hplan : SetUp.plan source request = .ok i.state) (hlimit : i.state.queryLimit = none)
    (hnull : w.store.nullRows = ∅) (ha : i.state.vector.Aligned w.store.tables) (r : BatchRequest)
    (hshape : ∀ e ∈ r.entries, e.isEmpty ∨ ∃ v ∈ e.values, v.isList = false)
    (hpassed : r.passed = [] ∨ r.passed.length = r.entries.length) :
    ((∃ b, (runCommand w (.serve (.serveBatch r))).2.result = some (.ok (.vectors b))) ↔
      ∀ (k : Nat) (e : Entry), r.entries[k]? = some e → ∃ v,
        (runCommand w (.serve (.serve (r.requestAt k e)))).2.result = some (.ok (.vector v))) ∧
    ∀ b, (runCommand w (.serve (.serveBatch r))).2.result = some (.ok (.vectors b)) →
      b.vectors.length = r.entries.length ∧
      ∀ (k : Nat) (e : Entry) (v : FeatureVector), r.entries[k]? = some e →
        (runCommand w (.serve (.serve (r.requestAt k e)))).2.result = some (.ok (.vector v)) →
        b.vectors[k]? = some v := by
  have hbatch : ∀ vs, (∃ keys, (runCommand w (.serve (.serveBatch r))).2.result =
      some (.ok (.vectors ⟨vs, keys⟩))) ↔
        ∃ us, List.Forall₂ (i.state.vector.Serves w.store) r.entries us ∧ r.applyTo us = vs := by
    intro vs
    rw [serveBatch_ok_iff hi hplan hlimit hnull ha]
    exact and_iff_right (BatchRequest.validate_ok_iff.2 hpassed)
  have hsingle : ∀ {k e v}, r.entries[k]? = some e →
      ((runCommand w (.serve (.serve (r.requestAt k e)))).2.result = some (.ok (.vector v)) ↔
        ∃ u, i.state.vector.Serves w.store e u ∧
          applyPassed u ((r.passed[k]?).getD ∅) = v) := by
    intro k e v he
    rw [serve_ok_iff hi hplan hlimit hnull ha]
    exact and_iff_right (checkSingleShape_ok_iff.2 (hshape e (List.mem_of_getElem? he)))
  refine ⟨⟨?_, ?_⟩, fun b hb => ?_⟩
  · rintro ⟨b, hb⟩ k e he
    obtain ⟨us, hus, -⟩ := (hbatch b.vectors).1 ⟨b.servingKeys, hb⟩
    obtain ⟨u, hu⟩ := exists_forall₂_iff.1 ⟨us, hus⟩ e (List.mem_of_getElem? he)
    exact ⟨_, (hsingle he).2 ⟨u, hu, rfl⟩⟩
  · intro h
    obtain ⟨us, hus⟩ : ∃ us, List.Forall₂ (i.state.vector.Serves w.store) r.entries us := by
      refine exists_forall₂_iff.2 fun e he => ?_
      obtain ⟨k, hk⟩ := List.mem_iff_getElem?.1 he
      obtain ⟨v, hv⟩ := h k e hk
      obtain ⟨u, hu, -⟩ := (hsingle hk).1 hv
      exact ⟨u, hu⟩
    obtain ⟨keys, hresult⟩ := (hbatch _).2 ⟨us, hus, rfl⟩
    exact ⟨_, hresult⟩
  · obtain ⟨us, hus, hvs⟩ := (hbatch b.vectors).1 ⟨b.servingKeys, hb⟩
    refine ⟨by rw [← hvs, BatchRequest.length_applyTo, hus.length_eq], fun k e v he hv => ?_⟩
    obtain ⟨u, hu, rfl⟩ := (hsingle he).1 hv
    obtain ⟨u', hu', hserves⟩ := getElem?_of_forall₂ hus he
    rw [← hvs, BatchRequest.getElem?_applyTo, hu', Option.map_some, hserves.eq hu]

end Session

/-! ### A batch of sales -/

def saleStatement (query : String) : PreparedStatement where
  group := none
  position := 0
  parameters := [⟨"id", 0⟩]
  query := query
  keyPrefix := none

def saleSingle : PreparedStatement := saleStatement "SELECT * FROM sale WHERE id = ?"

def saleBatch : PreparedStatement := saleStatement "SELECT * FROM sale WHERE id IN ?"

def saleSource : SetUp.Source := fun _ batch _ =>
  .ok (some [if batch then saleBatch else saleSingle])

def saleRequest : SetUp.Request where
  entity := { kind := .featureView, name := "sales", version := 1 }

/-- Two sales; the store is slow and fails at a position that nobody asks for. -/
def saleStore : Store where
  tables := .ofList [(0, ⟨["id"], [saleRow 1 10, saleRow 2 20]⟩)]
  failing := .ofList [3]
  latency := some 5

def saleWorld (state : ServingState) : World where
  store := saleStore
  client := { installed := some ⟨0, state⟩, installs := 1 }

/-- Three entries, the last one a repetition; the caller passes an amount for the second. -/
def saleBatchRequest : BatchRequest where
  entries := [saleEntry 2, saleEntry 1, saleEntry 2]
  passed := [∅, .ofList [("amount", .int 7)], ∅]

theorem sortedParameters_saleStatement (query : String) :
    (saleStatement query).sortedParameters = [⟨"id", 0⟩] :=
  List.mergeSort_singleton _

theorem saleStatement_valid {query : String} (h : Text.isBlankText query = false) :
    (saleStatement query).validate = .ok () :=
  PreparedStatement.validate_ok_iff.2 ⟨by simp [saleStatement], h⟩

theorem build_sales : KeyIndex.build [saleSingle] none ∅ = .ok saleKeys := by
  have hderived : KeyIndex.derived [saleSingle] = [.of "id" 0 none true none] := by
    rw [KeyIndex.derived, List.flatMap_cons, saleSingle, sortedParameters_saleStatement]
    rfl
  have hsorted : ∀ index, KeyIndex.sorted index [.of "id" 0 none true none] =
      [.of "id" 0 none true none] := fun _ => List.mergeSort_singleton _
  refine KeyIndex.build_ok_iff.2 ⟨List.forall_mem_singleton.2 (saleStatement_valid ?_), ?_⟩
  · decide +kernel
  · change KeyIndex.ofKeys [saleSingle] (KeyIndex.derived [saleSingle]) = saleKeys
    rw [hderived, KeyIndex.ofKeys, saleKeys]
    congr 1
    refine SortedMap.ext_get? fun j => ?_
    change SortedMap.find j [((0 : Position), KeyIndex.sorted _ [.of "id" 0 none true none])] = _
    rw [hsorted]
    rfl

theorem compileAll_saleStatement {compile : PreparedStatement → Except ServingError Lookup}
    {query : String} {l : Lookup} (h : compile (saleStatement query) = .ok l) :
    Registry.compileAll compile ∅ [saleStatement query] = .ok (SortedMap.insert ∅ 0 l) :=
  Registry.compileAll_cons_ok_iff.2 ⟨rfl, l, h, rfl⟩

theorem compile_sales : Registry.compile [saleSingle] [saleBatch] ∅ =
    .ok ⟨SortedMap.insert ∅ 0 saleLookup, saleLookups⟩ := by
  have hsingle : saleSingle.validate = .ok () := saleStatement_valid (by decide +kernel)
  have hbatch : saleBatch.validate = .ok () := saleStatement_valid (by decide +kernel)
  have hnames : saleSingle.primaryKeyNames = ["id"] := by
    rw [saleSingle, PreparedStatement.primaryKeyNames, sortedParameters_saleStatement]
    rfl
  have hl : Lookup.single saleSingle = .ok saleLookup := by
    refine Lookup.single_ok_iff.2 ⟨hsingle, _, ?_, by rw [hnames]; rfl⟩
    rw [hnames]
    decide +kernel
  have hl' := Lookup.batch_ok_iff.2 ⟨hbatch, by decide +kernel, rfl⟩
  have htokens : (Query.tokens saleBatch.query).map Lookup.batchSegment =
      [.text "SELECT * FROM sale WHERE id IN ", .expanding Binds.batchName] := by decide +kernel
  rw [htokens] at hl'
  exact Registry.compile_ok_iff.2 ⟨compileAll_saleStatement hl, compileAll_saleStatement hl'⟩

/-- The pipeline of the sales, with lookups of the two statements. -/
def salePipeline (l l' : Lookup) : Pipeline where
  registry := ⟨SortedMap.insert ∅ 0 l, SortedMap.insert ∅ 0 l'⟩
  keys := saleKeys
  schema := ⟨[]⟩
  executor := ⟨.memory, none⟩

namespace SetUp

theorem plan_sales : ∃ state l l', plan saleSource saleRequest = .ok state ∧
    l.parameters = ["id"] ∧ state.queryLimit = none ∧
    state.vector = salePipeline l l' := by
  exact ⟨_, saleLookup, _, plan_ok_iff.2 ⟨rfl, [saleSingle], [saleBatch], saleKeys, _, none, rfl,
    rfl, build_sales, compile_sales, rfl, rfl⟩, rfl, rfl, rfl⟩

end SetUp

namespace Pipeline

theorem aligned_sales {l l' : Lookup} (hl : l.parameters = ["id"]) :
    (salePipeline l l').Aligned saleStore.tables := by
  have hlookup : ∀ j m, (salePipeline l l').registry.single.get? j = some m → j = 0 ∧ m = l := by
    intro j m hm
    rw [salePipeline, SortedMap.get?_insert_eq] at hm
    split at hm
    · next hj => exact ⟨hj, (Option.some.inj hm).symm⟩
    · simp at hm
  refine ⟨rfl, fun j m hm => ?_, fun j m hm => ?_, fun j hj t ht => ?_⟩
  · obtain ⟨rfl, rfl⟩ := hlookup j m hm
    rw [hl]
    rfl
  · rw [(hlookup j m hm).2, hl]
    exact List.nodup_singleton _
  · obtain rfl := List.mem_singleton.1 hj
    obtain rfl := Option.some.inj ht
    exact ⟨rfl, by decide⟩

theorem serves_sales {l l' : Lookup} :
    (salePipeline l l').Serves saleStore (saleEntry 1) (saleRow 1 10) ∧
      (salePipeline l l').Serves saleStore (saleEntry 2) (saleRow 2 20) := by
  have hanswers : ∀ e, (salePipeline l l').Answers saleStore e := by
    intro e j hj _
    obtain rfl := List.mem_singleton.1 hj
    exact ⟨rfl, rfl⟩
  exact ⟨⟨rfl, hanswers _, rfl⟩, ⟨rfl, hanswers _, rfl⟩⟩

end Pipeline

namespace Session

/-- Three sales at once, with the amount of the caller in the second vector. -/
theorem serveBatch_agrees_sales :
    ∃ state b, SetUp.plan saleSource saleRequest = .ok state ∧
      (runCommand (saleWorld state) (.serve (.serveBatch saleBatchRequest))).2.result =
        some (.ok (.vectors b)) ∧
      b.vectors = [saleRow 2 20, saleRow 1 7, saleRow 2 20] := by
  obtain ⟨state, l, l', hplan, hl, hlimit, hvector⟩ := SetUp.plan_sales
  have ha : state.vector.Aligned saleStore.tables := hvector ▸ Pipeline.aligned_sales hl
  obtain ⟨hone, htwo⟩ : state.vector.Serves saleStore (saleEntry 1) (saleRow 1 10) ∧
      state.vector.Serves saleStore (saleEntry 2) (saleRow 2 20) := hvector ▸ Pipeline.serves_sales
  have hsingle : ∀ (k : Nat) e, saleBatchRequest.entries[k]? = some e → ∃ v,
      [saleRow 2 20, saleRow 1 7, saleRow 2 20][k]? = some v ∧
        (runCommand (saleWorld state) (.serve (.serve (saleBatchRequest.requestAt k e)))).2.result =
          some (.ok (.vector v)) := by
    intro k e he
    have hserve := fun v => serve_ok_iff (w := saleWorld state) (i := ⟨0, state⟩) rfl hplan hlimit rfl
      ha (q := saleBatchRequest.requestAt k e) (v := v)
    match k, he with
    | 0, rfl | 2, rfl => exact ⟨_, rfl, (hserve _).2 ⟨rfl, _, htwo, rfl⟩⟩
    | 1, rfl => exact ⟨_, rfl, (hserve _).2 ⟨rfl, _, hone, rfl⟩⟩
  obtain ⟨hiff, hvectors⟩ := serveBatch_agrees (w := saleWorld state) (i := ⟨0, state⟩) rfl hplan
    hlimit rfl ha saleBatchRequest (by decide) (.inr rfl)
  obtain ⟨b, hb⟩ := hiff.2 fun k e he => (hsingle k e he).imp fun _ h => h.2
  obtain ⟨hlen, hall⟩ := hvectors b hb
  refine ⟨state, b, hplan, hb, List.ext_getElem? fun k => ?_⟩
  cases he : saleBatchRequest.entries[k]? with
  | none =>
    have hk : 3 ≤ k := List.getElem?_eq_none_iff.1 he
    rw [List.getElem?_eq_none (hlen ▸ hk), List.getElem?_eq_none hk]
  | some e =>
    obtain ⟨v, hv, hresult⟩ := hsingle k e he
    rw [hall k e v he hresult, hv]

end Session

end FeatureServing
