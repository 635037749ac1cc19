import Mathlib.Data.List.Flatten
import FeatureServing.Proofs.AskedPositions

/-!
# The serving keys of a batch answer

The answer of a batch lists serving keys. They are those of all positions with a batch lookup, and
not only of the positions that were asked:

* `servingKeys_stitch` : the keys that a batch lists, whatever its entries and rows;
* `Session.answered_of_serve` : a batch command that succeeds had all its queries answered;
* `Session.batch_servingKeys` : the list is that of the executed queries when some entry is complete
  at every position with keys;
* `Session.servingKeys_without_query` : a list of keys where nothing was asked.
-/

namespace FeatureServing

/-! ## Lists of positions -/

/-- Leaving positions out changes a list of their items only if these have any. -/
theorem flatMap_filter_eq_iff {α β : Type} {f : α → List β} {p : α → Bool} {l : List α} :
    (l.filter p).flatMap f = l.flatMap f ↔ ∀ a ∈ l, f a ≠ [] → p a = true := by
  induction l with
  | nil => simp
  | cons a l ih =>
    rw [List.forall_mem_cons, List.flatMap_cons, ← ih]
    by_cases ha : p a = true
    · rw [List.filter_cons_of_pos ha, List.flatMap_cons, List.append_cancel_left_eq]
      simp [ha]
    · rw [List.filter_cons_of_neg ha]
      constructor
      · intro h
        have hle := ((List.filter_sublist (p := p) (l := l)).flatMap f).length_le
        rw [h, List.length_append] at hle
        have hnil : f a = [] := List.eq_nil_of_length_eq_zero (by omega)
        refine ⟨fun hne => absurd hnil hne, ?_⟩
        rw [h, hnil, List.nil_append]
      · rintro ⟨hnone, h⟩
        have hnil : f a = [] := by
          by_contra hne
          exact ha (hnone hne)
        rw [h, hnil, List.nil_append]

/-- The keys of a position, none if it has no keys. -/
def KeyIndex.listed (x : KeyIndex) (j : Position) : List ServingKey :=
  (x.keysAt? j).getD []

theorem servingKeys_foldl_stitchPosition (x : KeyIndex) (entries : List Entry)
    (results : SortedMap Position RowSet) (ps : List Position) (done : BatchVectors) :
    (ps.foldl (stitchPosition x entries results) done).servingKeys =
      done.servingKeys ++ ps.flatMap x.listed := by
  induction ps generalizing done with
  | nil => exact (List.append_nil _).symm
  | cons p ps ih =>
    have hturn : (stitchPosition x entries results done p).servingKeys =
        done.servingKeys ++ x.listed p := by
      unfold stitchPosition KeyIndex.listed
      cases x.keysAt? p with
      | none => exact (List.append_nil _).symm
      | some keys => rfl
    rw [List.foldl_cons, ih, hturn, List.flatMap_cons, List.append_assoc]

/-- **A batch lists the keys of all positions of its lookups.** -/
theorem servingKeys_stitch (x : KeyIndex) (entries : List Entry)
    (lookups : SortedMap Position Lookup) (results : SortedMap Position RowSet) :
    (stitch x entries lookups results).servingKeys = lookups.keys.flatMap x.listed := by
  unfold stitch
  rw [servingKeys_foldl_stitchPosition, List.nil_append]

/-! ## Answered calls -/

theorem Store.accepts_of_answer {s : Store} {l : Lookup} {b : Binds} {rows : RowSet}
    (h : s.answer l b = .ok rows) : s.accepts l b = true := by
  refine accepts_iff.2 ⟨?_, exists_render_of_answer h⟩
  unfold answer at h
  split at h
  · cases h
  · next hopen => exact Bool.of_not_eq_true hopen

theorem FanOut.accepts_of_answers {s : Store} {fetches : List Fetch}
    {results : SortedMap Position RowSet} (h : answers s fetches = .ok results) :
    ∀ f ∈ fetches, s.accepts f.lookup f.binds = true := by
  intro f hf
  obtain ⟨_, hplaced⟩ := exists_mapM_ok_iff.1 (exists_map_ok_iff.1 ⟨results, h⟩) f hf
  obtain ⟨rows, hrows, -⟩ := map_ok_iff.1 hplaced
  exact Store.accepts_of_answer hrows

theorem FanOut.answers_of_answersWithin {s : Store} {limit : Option Nat} {fetches : List Fetch}
    {results : SortedMap Position RowSet} (h : answersWithin s limit fetches = .ok results) :
    answers s fetches = .ok results := by
  unfold answersWithin at h
  split at h
  · exact h
  · split at h
    · cases h
    · exact h

namespace Serving

/-- Vectors are the answer to a call for many entries; passed features do not change its keys. -/
theorem Call.assembleBatch_of_assemble {call : Call} {p : Pipeline}
    {results : SortedMap Position RowSet} {b : BatchVectors}
    (h : call.assemble p results = .ok (.vectors b)) :
    call.entry? = none ∧
      ∃ b', p.assembleBatch call.entries results = .ok b' ∧ b'.servingKeys = b.servingKeys := by
  cases call with
  | vector | serve =>
    obtain ⟨v, -, hv⟩ := map_ok_iff.1 h
    cases hv
  | vectors | serveBatch =>
    obtain ⟨b', hb', hv⟩ := map_ok_iff.1 h
    obtain rfl := Answer.vectors.inj hv
    exact ⟨rfl, b', hb', rfl⟩

end Serving

namespace Session

variable {w : World} {i : Installed} {source : SetUp.Source} {r : SetUp.Request}
  {call : Serving.Call} {b : BatchVectors}

/-- **A command that answers with vectors** had all its queries answered in time. -/
theorem answered_of_serve (hi : w.client.installed = some i)
    (hplan : SetUp.plan source r = .ok i.state)
    (h : (runCommand w (.serve call)).2.result = some (.ok (.vectors b))) :
    ∃ p fetches results, Serving.queries i.state call = .ok (p, fetches) ∧
      FanOut.answers w.store fetches = .ok results ∧
      call.assemble p results = .ok (.vectors b) := by
  rw [(runCommand_serve_in_time hi (SetUp.wired_of_plan hplan) call).1, SetUp.store_of_plan hplan,
    World.storeOf_memory] at h
  obtain ⟨a, ha, hreply⟩ := map_ok_iff.1 (mapError_ok_iff.1 (Option.some.inj h))
  obtain ⟨⟨p, fetches⟩, hq, hconclude⟩ := bind_ok_iff.1 ha
  obtain ⟨results, hwithin, hassemble⟩ := Serving.conclude_ok_iff.1 hconclude
  cases a with
  | vector v => cases hreply
  | vectors b' =>
    obtain rfl := Reply.vectors.inj hreply
    exact ⟨p, fetches, results, hq, FanOut.answers_of_answersWithin hwithin, hassemble⟩

/-- **The keys of a batch answer** are those of all positions with a batch lookup. Queries were
executed, by the list of the in-memory store, at the positions that some entry has all keys for. So
the answer tells the keys that were used exactly when some entry has all keys of every position with
a batch lookup and keys. -/
theorem batch_servingKeys (hi : w.client.installed = some i)
    (hplan : SetUp.plan source r = .ok i.state)
    (h : (runCommand w (.serve call)).2.result = some (.ok (.vectors b))) :
    ∃ p, i.state.pipeline call.isHelper = .ok p ∧
      b.servingKeys = p.registry.batch.keys.flatMap p.keys.listed ∧
      (runCommand w (.serve call)).2.executed.map (·.position) =
        (p.registry.batch.keys.filter fun j => ∃ e ∈ call.entries, p.keys.Complete e j) ∧
      ((runCommand w (.serve call)).2.executed.flatMap (fun q => p.keys.listed q.position) =
          b.servingKeys ↔
        ∀ j ∈ p.registry.batch.keys, p.keys.listed j ≠ [] →
          ∃ e ∈ call.entries, p.keys.Complete e j) := by
  obtain ⟨p, fetches, results, hq, hanswers, hassemble⟩ := answered_of_serve hi hplan h
  obtain ⟨-, hp, hprepare⟩ := Serving.queries_ok_iff.1 hq
  obtain ⟨hmany, b', hb', hkeys⟩ := Serving.Call.assembleBatch_of_assemble hassemble
  obtain rfl : p.batchFetches call.entries = fetches := by
    rcases Serving.Call.prepare_ok_iff.1 hprepare with ⟨e, he, -⟩ | ⟨-, -, -, h⟩
    · rw [hmany] at he
      cases he
    · exact h
  obtain ⟨-, single, batch, others, -, -, hr, -⟩ := SetUp.pipeline_of_plan hplan hp
  have hlisted : b.servingKeys = p.registry.batch.keys.flatMap p.keys.listed := by
    rw [← hkeys, (Schema.assembleBatch_ok_iff.1 hb').2, servingKeys_stitch]
  have hexecutes := executes_of_accepted hi hplan hq (.inr ⟨_, h⟩)
    (fun j l hl => Registry.position_of_batch hr hl) (FanOut.accepts_of_answers hanswers)
  have hpositions : (runCommand w (.serve call)).2.executed.map (·.position) =
      p.registry.batch.keys.filter fun j => ∃ e ∈ call.entries, p.keys.Complete e j :=
    hexecutes.positions.trans (Pipeline.places_batchFetches p call.entries)
  refine ⟨p, hp, hlisted, hpositions, ?_⟩
  have hused : (runCommand w (.serve call)).2.executed.flatMap (fun q => p.keys.listed q.position) =
      ((runCommand w (.serve call)).2.executed.map (·.position)).flatMap p.keys.listed := by
    rw [List.flatMap_map]
  rw [hused, hpositions, hlisted, flatMap_filter_eq_iff]
  simp only [decide_eq_true_iff]

end Session

/-! ### Sales with and without a query -/

namespace Session

/-- Three sales are asked for at the only position, and its key is listed. -/
theorem batch_servingKeys_sales :
    ∃ state b, SetUp.plan saleSource saleRequest = .ok state ∧
      (runCommand (saleWorld state) (.serve (.serveBatch saleBatchRequest))).2.result =
        some (.ok (.vectors b)) ∧
      (runCommand (saleWorld state) (.serve (.serveBatch saleBatchRequest))).2.executed.map
        (·.position) = [0] ∧
      b.servingKeys = [.of "id" 0 none true none] := by
  obtain ⟨state, l, l', hplan, hl, hlimit, hvector⟩ := SetUp.plan_sales
  obtain ⟨hone, htwo⟩ : state.vector.Serves saleStore (saleEntry 1) (saleRow 1 10) ∧
      state.vector.Serves saleStore (saleEntry 2) (saleRow 2 20) := hvector ▸ Pipeline.serves_sales
  obtain ⟨keys, hresult⟩ := (serveBatch_ok_iff (w := saleWorld state) (i := ⟨0, state⟩) rfl hplan
    hlimit rfl (hvector ▸ Pipeline.aligned_sales hl) (r := saleBatchRequest)).2
    ⟨rfl, _, .cons htwo (.cons hone (.cons htwo .nil)), rfl⟩
  obtain ⟨p, hp, hkeys, hpositions, -⟩ := batch_servingKeys (w := saleWorld state)
    (i := ⟨0, state⟩) rfl hplan hresult
  obtain rfl : salePipeline l l' = p := hvector ▸ Except.ok.inj hp
  exact ⟨state, _, hplan, hresult, hpositions, hkeys⟩

/-- **A key without a query.** An entry that lacks the only key of the sales is not looked up, yet
the answer lists the key. -/
theorem servingKeys_without_query :
    ∃ state b, SetUp.plan saleSource saleRequest = .ok state ∧
      (runCommand (saleWorld state) (.serve (.vectors false [∅]))).2.result =
        some (.ok (.vectors b)) ∧
      (runCommand (saleWorld state) (.serve (.vectors false [∅]))).2.executed = [] ∧
      b.servingKeys = [.of "id" 0 none true none] ∧
      b.servingKeys ≠ (runCommand (saleWorld state) (.serve (.vectors false [∅]))).2.executed.flatMap
        fun q => state.vector.keys.listed q.position := by
  obtain ⟨state, l, l', hplan, -, hlimit, hvector⟩ := SetUp.plan_sales
  have hprepare : (Serving.Call.vectors false [∅]).prepare state.vector = .ok [] := by
    rw [hvector]
    rfl
  have hassemble : (Serving.Call.vectors false [∅]).assemble state.vector ∅ =
      .ok (.vectors ⟨[∅], [.of "id" 0 none true none]⟩) := by
    rw [hvector]
    rfl
  have hresult := (runCommand_serve_ok_iff (w := saleWorld state) (i := ⟨0, state⟩) rfl hplan hlimit).2
    (Serving.reply_ok_iff.2 ⟨rfl, _, rfl, _, hprepare, _, rfl, hassemble⟩)
  obtain ⟨left, hpays, hleft⟩ := pays_of_plan (w := saleWorld state) (i := ⟨0, state⟩) rfl hplan
    (Serving.queries_ok_iff.2 ⟨rfl, rfl, hprepare⟩)
  obtain rfl := hleft (.inl hlimit)
  have hexecuted := executed_of_pays hpays .nil
  refine ⟨state, _, hplan, hresult, hexecuted, rfl, ?_⟩
  rw [hexecuted]
  exact List.cons_ne_nil _ _

end Session

end FeatureServing
