import FeatureServing.Proofs.ExecutedQueries
import FeatureServing.Proofs.InputChecks
import FeatureServing.Proofs.KeyOrder
import FeatureServing.Proofs.KeyWalks
import FeatureServing.Proofs.Servable

/-!
# The positions that a call asks

A call asks the positions that its entries have all keys for, each with one query, and no others:

* `KeyIndex.Complete` : whether an entry has a value for every key of a position;
* `FanOut.places_submitted`, `Pipeline.places_singleFetches`, `Pipeline.places_batchFetches` : the
  positions of the queries that are prepared;
* `Session.Executes` : what a command adds to the list of the store;
  `Session.executes_of_accepted`, one query per position if the store accepts them all;
* `Session.executes_complete_positions` : both kinds of calls of a client with keys that are made
  from statements.
-/

namespace FeatureServing

/-! ## Complete positions -/

namespace KeyIndex

/-- Whether an entry has a value for every key of a position that has keys. -/
def Complete (x : KeyIndex) (e : Entry) (j : Position) : Prop :=
  ∃ keys, x.keysAt? j = some keys ∧ ∀ k ∈ keys, ∃ v, IsKeyValue e k v

variable {x : KeyIndex} {e : Entry} {es : List Entry} {j : Position} {keys : List ServingKey}
  {lookups : SortedMap Position Lookup}

theorem complete_iff_isTuple : x.Complete e j ↔ ∃ keys vs, x.IsTuple e j keys vs := by
  simp only [Complete, IsTuple, exists_and_left, exists_forall₂_iff]

theorem complete_iff_entryKey? : x.Complete e j ↔ ∃ key, x.entryKey? e j = some key := by
  rw [complete_iff_isTuple, exists_entryKey?_iff]

instance (x : KeyIndex) (e : Entry) (j : Position) : Decidable (x.Complete e j) :=
  decidable_of_iff ((x.entryKey? e j).isSome = true)
    (by rw [complete_iff_entryKey?, Option.isSome_iff_exists])

theorem complete_iff_tuple? (hkeys : x.keysAt? j = some keys) :
    x.Complete e j ↔ (tuple? keys e).isSome = true := by
  rw [complete_iff_entryKey?, entryKey?, hkeys, Option.isSome_iff_exists]
  simp

theorem forall₂_isTuple (hkeys : x.keysAt? j = some keys) (es : List Entry) :
    List.Forall₂ (fun e vs => x.IsTuple e j keys vs) (es.filter fun e => x.Complete e j)
      (es.filterMap (tuple? keys)) := by
  have hcomplete : (es.filter fun e => x.Complete e j) =
      es.filter fun e => (tuple? keys e).isSome := by
    apply List.filter_congr
    intro e _
    rw [Bool.eq_iff_iff, decide_eq_true_iff]
    exact complete_iff_tuple? hkeys
  rw [hcomplete]
  apply (forall₂_filter_filterMap (tuple? keys) es).imp
  intro e vs hvs
  exact isTuple_iff.2 ⟨hkeys, hvs⟩

end KeyIndex

/-! ## Prepared queries -/

/-- The queries of a call are at the positions of its lookups that have binds. -/
theorem FanOut.places_submitted (lookups : SortedMap Position Lookup)
    (binds : SortedMap Position Binds) :
    (submitted lookups binds).map (·.place) = lookups.keys.filter fun j => (binds.get? j).isSome := by
  unfold submitted SortedMap.keys
  induction lookups.entries with
  | nil => rfl
  | cons entry rest ih =>
    cases hb : binds.get? entry.1 with
    | none => simpa [hb] using ih
    | some b => simpa [hb] using ih

namespace Pipeline

theorem places_singleFetches (p : Pipeline) (e : Entry) :
    (p.singleFetches e).map (·.place) =
      p.registry.single.keys.filter fun j => p.keys.Complete e j := by
  unfold singleFetches
  rw [FanOut.places_submitted]
  apply List.filter_congr
  intro j hj
  rw [Bool.eq_iff_iff, decide_eq_true_iff, Option.isSome_iff_exists, KeyIndex.exists_resolve_iff,
    KeyIndex.complete_iff_entryKey?]
  exact and_iff_right (SortedMap.mem_keys_iff.1 hj)

theorem places_batchFetches (p : Pipeline) (es : List Entry) :
    (p.batchFetches es).map (·.place) =
      p.registry.batch.keys.filter fun j => ∃ e ∈ es, p.keys.Complete e j := by
  unfold batchFetches
  rw [FanOut.places_submitted]
  apply List.filter_congr
  intro j hj
  rw [Bool.eq_iff_iff, decide_eq_true_iff, Option.isSome_iff_exists,
    KeyIndex.exists_resolveBatch_iff]
  simp only [KeyIndex.complete_iff_entryKey?]
  exact and_iff_right (SortedMap.mem_keys_iff.1 hj)

/-- Whether an executed query is the single one of its position, with the values that an entry has
for the keys, under their bare names. -/
def IsSingleQuery (p : Pipeline) (e : Entry) (q : ExecutedQuery) : Prop :=
  q.form = .single ∧ ∃ l keys values, p.registry.single.get? q.position = some l ∧
    q.Of l (.named values) ∧ p.keys.keysAt? q.position = some keys ∧
    ∀ k ∈ keys, ∃ v, IsKeyValue e k v ∧ values.get? k.featureName = some v

/-- Whether an executed query is the batch one of its position, with a tuple for each of those
entries that have all keys. -/
def IsBatchQuery (p : Pipeline) (es : List Entry) (q : ExecutedQuery) : Prop :=
  q.form = .batch ∧ ∃ l keys tuples, p.registry.batch.get? q.position = some l ∧
    q.Of l (.expanding tuples) ∧ p.keys.keysAt? q.position = some keys ∧
    List.Forall₂ (fun e vs => p.keys.IsTuple e q.position keys vs)
      (es.filter fun e => p.keys.Complete e q.position) tuples

end Pipeline

namespace Serving

variable {s : ServingState} {call : Call} {p : Pipeline}

theorem Call.mem_entries {e : Entry} (he : call.entry? = some e) : e ∈ call.entries := by
  cases call with
  | vector | serve =>
    obtain rfl := Option.some.inj he
    exact List.mem_singleton_self _
  | vectors | serveBatch => cases he

theorem passes_of_formed (hp : s.pipeline call.isHelper = .ok p) (h : ¬ Malformed s call) :
    call.check = .ok () ∧ (∀ e, call.entry? = some e → checkSingleShape e = .ok ()) ∧
      ∀ e ∈ call.entries, p.keys.validateEntry e = .ok () := by
  rw [← exists_refusedWith_iff] at h
  have hcheck : call.check = .ok () := by
    cases hcheck : call.check with
    | ok _ => rfl
    | error err =>
      obtain ⟨r, rfl, ⟨hpassed, hlen⟩, -⟩ := Call.check_error_iff.1 hcheck
      exact absurd ⟨_, .passedLength hpassed hlen⟩ h
  refine ⟨hcheck, ?_, ?_⟩
  · intro e he
    apply checkSingleShape_ok_iff_not.2
    intro hlist
    exact h ⟨_, .listShaped hp he hlist⟩
  · intro e he
    apply KeyIndex.validateEntry_ok_iff.2
    intro name hname
    exact h (exists_refusedWith hcheck hp (.inr ⟨e, he, name, hname⟩))

theorem queries_single {e : Entry} (hp : s.pipeline call.isHelper = .ok p)
    (he : call.entry? = some e) (h : ¬ Malformed s call) :
    queries s call = .ok (p, p.singleFetches e) := by
  obtain ⟨hcheck, hshape, hvalid⟩ := passes_of_formed hp h
  have hprepare : call.prepare p = .ok (p.singleFetches e) :=
    Call.prepare_ok_iff.2 (.inl ⟨e, he, hshape e he, hvalid e (Call.mem_entries he), rfl⟩)
  exact queries_ok_iff.2 ⟨hcheck, hp, hprepare⟩

theorem queries_batch (hp : s.pipeline call.isHelper = .ok p) (he : call.entry? = none)
    (h : ¬ Malformed s call) (hbatch : p.lacksBatch = false) :
    queries s call = .ok (p, p.batchFetches call.entries) := by
  obtain ⟨hcheck, -, hvalid⟩ := passes_of_formed hp h
  have hprepare : call.prepare p = .ok (p.batchFetches call.entries) :=
    Call.prepare_ok_iff.2 (.inr ⟨he, hbatch, hvalid, rfl⟩)
  exact queries_ok_iff.2 ⟨hcheck, hp, hprepare⟩

end Serving

/-! ## What a command executes -/

namespace Session

/-- What a serving command adds to the list of the store: one query at each of some positions and no
other, all of a kind. They are reported by ascending position. -/
structure Executes (w : World) (call : Serving.Call) (positions : List Position)
    (P : ExecutedQuery → Prop) : Prop where
  added : ∃ more, (runCommand w (.serve call)).1.store.executed = w.store.executed ++ more ∧
    more.Perm (runCommand w (.serve call)).2.executed
  positions : (runCommand w (.serve call)).2.executed.map (·.position) = positions
  kind : ∀ q ∈ (runCommand w (.serve call)).2.executed, P q

theorem Executes.imp {w : World} {call : Serving.Call} {positions : List Position}
    {P Q : ExecutedQuery → Prop} (h : Executes w call positions P) (hPQ : ∀ q, P q → Q q) :
    Executes w call positions Q where
  added := h.added
  positions := h.positions
  kind q hq := hPQ q (h.kind q hq)

end Session

theorem FanOut.map_position_owed {s : Store} {fetches : List Fetch}
    (hfresh : ∀ f ∈ fetches, f.phase = .fresh)
    (hown : ∀ f ∈ fetches, f.lookup.position = f.place)
    (haccepts : ∀ f ∈ fetches, s.accepts f.lookup f.binds = true) :
    (owed s fetches).map (·.position) = fetches.map (·.place) := by
  rw [owed_of_fresh hfresh, List.map_flatMap, List.map_eq_flatMap]
  apply List.flatMap_congr
  intro f hf
  rw [Store.map_position_logged (haccepts f hf), hown f hf]

namespace Session

/-- **One query per position** is executed where the store accepts what a call has prepared and no
time limit cuts it short, whether the queries fail or not. -/
theorem executes_of_accepted {w : World} {i : Installed} (hi : w.client.installed = some i)
    {source : SetUp.Source} {r : SetUp.Request} (hplan : SetUp.plan source r = .ok i.state)
    {call : Serving.Call} {p : Pipeline} {lookups : SortedMap Position Lookup}
    {binds : SortedMap Position Binds}
    (hq : Serving.queries i.state call = .ok (p, FanOut.submitted lookups binds))
    (hover : i.state.queryLimit = none ∨
      ∃ a, (runCommand w (.serve call)).2.result = some (.ok a))
    (hown : ∀ j l, lookups.get? j = some l → l.position = j)
    (haccepts : ∀ f ∈ FanOut.submitted lookups binds,
      w.store.accepts f.lookup f.binds = true) :
    Executes w call ((FanOut.submitted lookups binds).map (·.place)) fun q =>
      ∃ l b, lookups.get? q.position = some l ∧ binds.get? q.position = some b ∧ q.Of l b := by
  obtain ⟨left, hpays, hleft⟩ := pays_of_plan hi hplan hq
  obtain rfl := hleft hover
  have hfresh : ∀ f ∈ FanOut.submitted lookups binds, f.phase = .fresh :=
    fun f hf => FanOut.fresh_of_mem_submitted hf
  have hplace : ∀ f ∈ FanOut.submitted lookups binds, f.lookup.position = f.place := by
    intro f hf
    obtain ⟨j, l, b, hl, -, rfl⟩ := FanOut.mem_submitted_iff.1 hf
    exact hown j l hl
  have hpositions := FanOut.map_position_owed hfresh hplace haccepts
  have hascending : (FanOut.owed w.store (FanOut.submitted lookups binds)).Pairwise
      fun a b => a.position < b.position := by
    rw [← List.pairwise_map, hpositions]
    exact FanOut.ascending_submitted lookups binds
  have hexecuted := executed_of_pays hpays hascending
  refine ⟨?_, ?_, ?_⟩
  · obtain ⟨more, hmore, hperm⟩ := hpays
    rw [List.append_nil] at hperm
    exact ⟨more, hmore, hexecuted ▸ hperm⟩
  · rw [hexecuted, hpositions]
  · intro q hmem
    rw [hexecuted, FanOut.owed_of_fresh hfresh] at hmem
    obtain ⟨f, hf, hlogged⟩ := List.mem_flatMap.1 hmem
    obtain ⟨j, l, b, hl, hb, rfl⟩ := FanOut.mem_submitted_iff.1 hf
    obtain ⟨-, r, hr, rfl⟩ := Store.mem_logged_iff.1 hlogged
    obtain rfl := hown j l hl
    exact ⟨l, b, hl, hb, r, hr, rfl⟩

end Session

/-! ## Keys that are made from statements -/

/-- The value of a key that is made from a parameter is the one under its name. -/
theorem KeyIndex.keyValue?_of_derived {others ss : List PreparedStatement} {k : ServingKey}
    (hk : k ∈ (ofKeys others (derived ss)).servingKeys) (e : Entry) :
    keyValue? e k = e.present? k.featureName := by
  have hmem : k ∈ derived ss := (servingKeys_ofKeys_perm others (derived ss)).mem_iff.1 hk
  obtain ⟨s, -, hs⟩ := List.mem_flatMap.1 hmem
  exact keyValue?_derived hs e

namespace SetUp

variable {source : Source} {r : Request} {store : Handle} {state : ServingState}

theorem derived_of_plan (h : plan source r store = .ok state) (hkeys : r.entity.servingKeys = none) :
    ∃ single batch others,
      Registry.compile single batch r.entity.skip = .ok state.vector.registry ∧
      state.vector.keys =
        .ofKeys others (KeyIndex.derived (PreparedStatement.retained r.entity.skip single)) := by
  have hp : state.pipeline false = .ok state.vector := rfl
  obtain ⟨vector, single, batch, others, hs, hs', hr, hx⟩ := pipeline_of_plan h hp
  obtain rfl := Option.some.inj (Except.ok.inj (hs.symm.trans hs'))
  rw [servedKeys, hkeys, Option.getD_none] at hx
  exact ⟨_, batch, others, hr, hx⟩

end SetUp

namespace Session

variable {w : World} {i : Installed} {source : SetUp.Source} {r : SetUp.Request}
  {call : Serving.Call} {p : Pipeline} {single batch others : List PreparedStatement}
  {skip : SortedSet GroupId}

/-- A call for one entry, with keys that are made from the statements of its lookups. -/
theorem executes_single (hi : w.client.installed = some i)
    (hplan : SetUp.plan source r = .ok i.state) (hp : i.state.pipeline call.isHelper = .ok p)
    (hr : Registry.compile single batch skip = .ok p.registry)
    (hx : p.keys = .ofKeys others (KeyIndex.derived (PreparedStatement.retained skip single)))
    (hopen : w.store.closed = false) (hlimit : i.state.queryLimit = none) {e : Entry}
    (he : call.entry? = some e) (hformed : ¬ Serving.Malformed i.state call) :
    Executes w call (p.registry.single.keys.filter fun j => p.keys.Complete e j)
      (p.IsSingleQuery e) := by
  have hbound := Pipeline.bound_of_covers hr hx (fun s hs => KeyIndex.covers_derived hs) e
  have haccepts : ∀ f ∈ p.singleFetches e, w.store.accepts f.lookup f.binds = true := by
    intro f hf
    exact Store.accepts_iff.2 ⟨hopen, Pipeline.render_of_bound hr hbound hf⟩
  have hexecutes := executes_of_accepted hi hplan (Serving.queries_single hp he hformed) (.inl hlimit)
    (fun j l hl => Registry.position_of_single hr hl) haccepts
  rw [← Pipeline.places_singleFetches]
  apply hexecutes.imp
  rintro q ⟨l, b, hl, hb, hof⟩
  obtain ⟨-, keys, vs, hks, hvs, rfl⟩ := KeyIndex.get?_resolve_eq_some_iff.1 hb
  have hvalue : ∀ k ∈ keys, keyValue? e k = e.present? k.featureName := by
    intro k hk
    have hmem := KeyIndex.mem_servingKeys hks hk
    rw [hx] at hmem
    exact KeyIndex.keyValue?_of_derived hmem e
  refine ⟨?_, l, keys, _, hl, hof, hks, ?_⟩
  · obtain ⟨q', -, rfl⟩ := hof
    exact Registry.form_of_single hr hl
  · intro k hk
    have hsame : ∀ k ∈ keys, ∀ k' ∈ keys, k.featureName = k'.featureName →
        keyValue? e k = keyValue? e k' := by
      intro k hk k' hk' hname
      rw [hvalue k hk, hname, hvalue k' hk']
    obtain ⟨v, hv, hget⟩ := KeyIndex.get?_namedValues hvs hsame hk
    exact ⟨v, keyValue?_eq_some_iff.1 hv, hget⟩

/-- A call for many entries, with any keys. -/
theorem executes_batch (hi : w.client.installed = some i)
    (hplan : SetUp.plan source r = .ok i.state) (hp : i.state.pipeline call.isHelper = .ok p)
    (hr : Registry.compile single batch skip = .ok p.registry) (hopen : w.store.closed = false)
    (hlimit : i.state.queryLimit = none) (he : call.entry? = none)
    (hformed : ¬ Serving.Malformed i.state call) (hbatch : p.lacksBatch = false) :
    Executes w call
      (p.registry.batch.keys.filter fun j => ∃ e ∈ call.entries, p.keys.Complete e j)
      (p.IsBatchQuery call.entries) := by
  have hbound := Pipeline.bound_resolveBatch hr call.entries
  have haccepts : ∀ f ∈ p.batchFetches call.entries,
      w.store.accepts f.lookup f.binds = true := by
    intro f hf
    obtain ⟨j, l, b, hl, hb, rfl⟩ := FanOut.mem_submitted_iff.1 hf
    exact Store.accepts_iff.2 ⟨hopen, hbound.renders j l b hl hb⟩
  have hexecutes := executes_of_accepted hi hplan (Serving.queries_batch hp he hformed hbatch)
    (.inl hlimit) hbound.own haccepts
  rw [← Pipeline.places_batchFetches]
  apply hexecutes.imp
  rintro q ⟨l, b, hl, hb, hof⟩
  obtain ⟨-, keys, hks, -, rfl⟩ := KeyIndex.get?_resolveBatch_eq_some_iff.1 hb
  refine ⟨?_, l, keys, _, hl, hof, hks, KeyIndex.forall₂_isTuple hks call.entries⟩
  obtain ⟨q', -, rfl⟩ := hof
  exact Registry.form_of_batch hr hl

/-- **Exactly the complete positions are asked**, once each. Let a client be set up with keys that
are made from its statements, over the in-memory store while that is open, with any latency and any
positions that fail or lose their rows, and without a time limit. A call for one entry executes one
single query at each position that the entry has all keys for, by their bare names and without nulls;
a call for many entries one batch query at each position that some entry has all keys for, with one
tuple for each of these entries, in their order. Nothing else is executed, and no query has to succeed
for that. -/
theorem executes_complete_positions {source : SetUp.Source} {r : SetUp.Request}
    (hi : w.client.installed = some i) (hplan : SetUp.plan source r = .ok i.state)
    (hkeys : r.entity.servingKeys = none) (hopen : w.store.closed = false)
    (hlimit : i.state.queryLimit = none) :
    (∀ k ∈ i.state.vector.keys.servingKeys, ∀ e v,
        IsKeyValue e k v ↔ e.Holds k.featureName v) ∧
      (∀ call e, call.isHelper = false → call.entry? = some e → ¬ Serving.Malformed i.state call →
        Executes w call
          (i.state.vector.registry.single.keys.filter fun j => i.state.vector.keys.Complete e j)
          (i.state.vector.IsSingleQuery e)) ∧
      ∀ call, call.isHelper = false → call.entry? = none → ¬ Serving.Malformed i.state call →
        i.state.vector.lacksBatch = false → Executes w call
          (i.state.vector.registry.batch.keys.filter fun j =>
            ∃ e ∈ call.entries, i.state.vector.keys.Complete e j)
          (i.state.vector.IsBatchQuery call.entries) := by
  obtain ⟨single, batch, others, hr, hx⟩ := SetUp.derived_of_plan hplan hkeys
  have hp : ∀ helper, helper = false → i.state.pipeline helper = .ok i.state.vector := by
    rintro _ rfl
    rfl
  refine ⟨?_, ?_, ?_⟩
  · intro k hk e v
    rw [hx] at hk
    rw [← keyValue?_eq_some_iff, KeyIndex.keyValue?_of_derived hk,
      Entry.present?_eq_some_iff_holds]
  · intro call e hhelper he hformed
    exact executes_single hi hplan (hp _ hhelper) hr hx hopen hlimit he hformed
  · intro call hhelper he hformed hbatch
    exact executes_batch hi hplan (hp _ hhelper) hr hopen hlimit he hformed hbatch

end Session

/-! ### Sales that cannot be read -/

/-- The sales over a store that fails all their queries. -/
def failingWorld (state : ServingState) : World :=
  { saleWorld state with store := saleStore.failOn 0 }

namespace Session

/-- Two of three entries name a sale, and are asked for together; a single call asks for one. -/
theorem executes_complete_positions_sales :
    ∃ state, SetUp.plan saleSource saleRequest = .ok state ∧
      Executes (failingWorld state) (.vector false (saleEntry 1)) [0]
        (state.vector.IsSingleQuery (saleEntry 1)) ∧
      Executes (failingWorld state) (.vectors false [saleEntry 2, ∅, saleEntry 1]) [0]
        (state.vector.IsBatchQuery [saleEntry 2, ∅, saleEntry 1]) ∧
      Executes (failingWorld state) (.vectors false [∅]) []
        (state.vector.IsBatchQuery [∅]) := by
  obtain ⟨state, l, l', hplan, -, hlimit, hvector⟩ := SetUp.plan_sales
  obtain ⟨-, hsingle, hbatch⟩ := executes_complete_positions (w := failingWorld state)
    (i := ⟨0, state⟩) rfl hplan rfl rfl hlimit
  have hvalid : ∀ e ∈ [saleEntry 1, saleEntry 2, ∅], ∀ name,
      ¬ state.vector.keys.Unknown e name := by
    rw [hvector]
    simp only [List.forall_mem_cons]
    exact ⟨KeyIndex.validateEntry_ok_iff.1 rfl, KeyIndex.validateEntry_ok_iff.1 rfl,
      KeyIndex.validateEntry_ok_iff.1 rfl, nofun⟩
  have hone : ¬ Serving.Malformed state (.vector false (saleEntry 1)) := by
    rintro ⟨p, hp, hlist | ⟨name, hname⟩⟩
    · exact checkSingleShape_ok_iff_not.1 rfl hlist
    · obtain rfl := Except.ok.inj hp
      exact hvalid _ (by simp) name hname
  have hmany : ∀ es, (∀ e ∈ es, e ∈ [saleEntry 1, saleEntry 2, ∅]) →
      ¬ Serving.Malformed state (.vectors false es) := by
    rintro es hes ⟨p, hp, e, he, name, hname⟩
    obtain rfl := Except.ok.inj hp
    exact hvalid e (hes e he) name hname
  have hlacks : state.vector.lacksBatch = false := by
    rw [hvector]
    rfl
  refine ⟨state, hplan, ?_, ?_, ?_⟩
  · have hpositions : (state.vector.registry.single.keys.filter
        fun j => state.vector.keys.Complete (saleEntry 1) j) = [0] := by
      rw [hvector]
      rfl
    exact hpositions ▸ hsingle (.vector false (saleEntry 1)) _ rfl rfl hone
  · have hpositions : (state.vector.registry.batch.keys.filter fun j =>
        ∃ e ∈ [saleEntry 2, ∅, saleEntry 1], state.vector.keys.Complete e j) = [0] := by
      rw [hvector]
      rfl
    exact hpositions ▸ hbatch (.vectors false _) rfl rfl (hmany _ (by simp)) hlacks
  · have hpositions : (state.vector.registry.batch.keys.filter fun j =>
        ∃ e ∈ [(∅ : Entry)], state.vector.keys.Complete e j) = [] := by
      rw [hvector]
      rfl
    exact hpositions ▸ hbatch (.vectors false _) rfl rfl (hmany _ (by simp)) hlacks

end Session

end FeatureServing
