import Mathlib.Tactic.TFAE
import FeatureServing.Proofs.InterleavedCalls
import FeatureServing.Proofs.KeyCoverage
import FeatureServing.Proofs.SetUpRun

/-!
# Configuration errors of single calls

A set-up compiles statements and indexes serving keys, but does not compare them. A position whose
keys leave out a parameter of its statement is accepted, and fails the calls that resolve it:

* `Configured` : a result that is no configuration error; chains of steps keep it;
* `Serving.configured_of_made` : where nothing is unbound no call fails by its configuration;
* `Serving.reply_of_unbound` : an unbound parameter fails the call;
* `SetUp.servable_tfae` : what a set-up would have to check for its client to be servable.
-/

namespace FeatureServing

/-! ## Results that are no configuration errors -/

/-- Whether something does not fail by its configuration. -/
def Configured {α : Type} (x : Except ServingError α) : Prop :=
  ∀ cause, x ≠ .error (.configuration cause)

namespace Configured

variable {α β : Type} {x : Except ServingError α}

theorem ok (a : α) : Configured (.ok a) := nofun

theorem bind {f : α → Except ServingError β} (hx : Configured x)
    (hf : ∀ a, x = .ok a → Configured (f a)) : Configured (x >>= f) := by
  cases x with
  | error e => exact fun cause h => hx cause (congrArg _ (Except.error.inj h))
  | ok a => exact hf a rfl

theorem map {f : α → β} (hx : Configured x) : Configured (x.map f) :=
  fun cause h => hx cause (map_error_iff.1 h)

end Configured

theorem configured_checkSingleShape (e : Entry) : Configured (checkSingleShape e) := by
  intro cause h
  unfold checkSingleShape at h
  split at h <;> cases h

theorem KeyIndex.configured_validateEntry (x : KeyIndex) (e : Entry) :
    Configured (x.validateEntry e) := by
  intro cause h
  unfold KeyIndex.validateEntry at h
  split at h <;> cases h

theorem Pipeline.configured_prepare (p : Pipeline) (e : Entry) : Configured (p.prepare e) :=
  (configured_checkSingleShape e).bind fun _ _ =>
    (p.keys.configured_validateEntry e).bind fun _ _ => .ok _

theorem Schema.configured_coerce (s : Schema) (v : FeatureVector) : Configured (s.coerce v) := by
  intro cause h
  obtain ⟨c, hc⟩ := data_of_coerce h
  cases hc

theorem Store.configured_answer {s : Store} {l : Lookup} {b : Binds}
    (h : ∃ q, l.render .questionMark b = .ok q) : Configured (s.answer l b) := by
  obtain ⟨q, hq⟩ := h
  intro cause
  rw [answer, acceptedAnswer, hq]
  cases s.closed <;> cases s.failing.contains l.position <;> simp

/-- Queries that render never fail by the configuration, whatever the stores answer to them. -/
theorem FanOut.configured_gathered {seen : List Store} {fetches : List Fetch}
    (hrender : ∀ f ∈ fetches, ∃ q, f.lookup.render .questionMark f.binds = .ok q)
    {answers : List (Except ServingError RowSet)} (h : Answers seen fetches answers) :
    Configured (gathered fetches answers) := by
  intro cause herror
  obtain ⟨f, hf, t, hanswer⟩ := exists_error_of_gathered h herror
  exact Store.configured_answer (hrender f hf) cause hanswer

/-! ## Calls of one entry -/

namespace Serving

variable {state : ServingState} {helper : Bool} {e : Entry} {p : Pipeline}
  {single batch others : List PreparedStatement} {skip : SortedSet GroupId}
  {keys : List ServingKey}

/-- Whether a call failed by the configuration of its client. -/
def Misconfigured (result : Except ClientError Answer) : Prop :=
  ∃ cause, result = .error (.serving (.configuration cause))

theorem not_misconfigured_iff {x : Except ServingError Answer} :
    ¬ Misconfigured (x.mapError .serving) ↔ Configured x := by
  simp only [Misconfigured, mapError_error_iff, ClientError.serving.injEq, exists_eq_right,
    not_exists]
  rfl

theorem queries_vector (hp : state.pipeline helper = .ok p) (e : Entry) :
    queries state (.vector helper e) = ((p.prepare e).map fun fetches => (p, fetches)).mapError
      .serving := by
  have hcheck : (Call.vector helper e).check = .ok () := rfl
  have hpipeline : state.pipeline (Call.vector helper e).isHelper = .ok p := hp
  rw [queries, bind_of_ok hcheck, bind_of_ok hpipeline, Call.prepare]
  cases p.prepare e <;> rfl

/-- **Where nothing is unbound** no single call fails by its configuration, whatever happens to the
store and however long the call takes. -/
theorem configured_of_made (hp : state.pipeline helper = .ok p)
    (hr : Registry.compile single batch skip = .ok p.registry)
    (hbound : ∀ j name, ¬ p.Unbound e j name) {seen : List Store}
    {result : Except ClientError Answer} (h : Made state (.vector helper e) seen result) : ¬ Misconfigured result := by
  rw [Made, queries_vector hp] at h
  -- The entry is refused, or its queries are answered, or the time limit passes.
  rcases h with ⟨err, herr, rfl⟩ | ⟨p', fetches, hq, h⟩
  · obtain ⟨e', he', rfl⟩ := mapError_error_iff.1 herr
    rintro ⟨cause, hcause⟩
    cases hcause
    exact (p.configured_prepare e).map cause he'
  · obtain ⟨fetches, hprepare, hpair⟩ := map_ok_iff.1 (mapError_ok_iff.1 hq)
    obtain ⟨rfl, rfl⟩ := Prod.mk.inj hpair
    obtain ⟨-, -, rfl⟩ := Pipeline.prepare_ok_iff.1 hprepare
    rcases h with ⟨answers, hanswers, rfl⟩ | ⟨limit, -, rfl⟩
    · have hgathered : Configured (FanOut.gathered (p.singleFetches e) answers) :=
        FanOut.configured_gathered (fun f hf => p.render_of_bound hr hbound hf) hanswers
      exact not_misconfigured_iff.2 (hgathered.bind fun results _ =>
        (Schema.configured_coerce p.schema _).map)
    · rintro ⟨cause, hcause⟩
      cases hcause

/-- **An unbound parameter fails the call** of its entry, if the store works. -/
theorem reply_of_unbound (hp : state.pipeline helper = .ok p)
    (hr : Registry.compile single batch skip = .ok p.registry) {fetches : List Fetch}
    (hprepare : p.prepare e = .ok fetches) {store : Store} (hworks : ∀ j, store.AnswersAt j)
    {j : Position} {name : String} (h : p.Unbound e j name) :
    ∃ j' name', p.Unbound e j' name' ∧ reply state store (.vector helper e) =
      .error (.serving (.configuration (.unboundParameter j' name'))) := by
  have hq : queries state (.vector helper e) = .ok (p, fetches) := by
    rw [queries_vector hp, hprepare]
    rfl
  have hreply : reply state store (.vector helper e) =
      conclude (.vector helper e) p (FanOut.answers store fetches) := by
    rw [reply, hq]
    rfl
  obtain ⟨-, -, rfl⟩ := Pipeline.prepare_ok_iff.1 hprepare
  obtain ⟨err, hanswers⟩ := h.exists_error hr store
  obtain ⟨f, hf, herr⟩ := exists_error_of_mapM (map_error_iff.1 hanswers)
  have hrender := (Store.answer_error_iff (hworks _)).1 (map_error_iff.1 herr)
  obtain ⟨j', name', hunbound, rfl⟩ := Pipeline.unbound_of_render hr hf hrender
  exact ⟨j', name', hunbound, by rw [hreply, hanswers]; rfl⟩

/-- A state that never fails a call by its configuration has keys that cover its statements. -/
theorem covers_of_configured (hp : state.pipeline helper = .ok p)
    (hr : Registry.compile single batch skip = .ok p.registry) (hx : p.keys = .ofKeys others keys)
    (h : ∀ store e, ¬ Misconfigured (reply state store (.vector helper e))) :
    ∀ s ∈ PreparedStatement.retained skip single, KeyIndex.Covers keys s := by
  intro s hs
  by_contra hcovers
  obtain ⟨e, fetches, name, hprepare, hunbound⟩ := Pipeline.exists_unbound hr hx hs hcovers
  have hworks : ∀ j, Store.AnswersAt {} j := fun _ => ⟨rfl, rfl⟩
  obtain ⟨j, name, -, hreply⟩ := reply_of_unbound hp hr hprepare hworks hunbound
  exact h {} e ⟨_, hreply⟩

end Serving

/-! ## Accepted set-ups -/

namespace SetUp

/-- The keys that a request is served with: its own, or one per parameter of the statements of the
vector. -/
def servedKeys (r : Request) (single : List PreparedStatement) : List ServingKey :=
  r.entity.servingKeys.getD (KeyIndex.derived (PreparedStatement.retained r.entity.skip single))

section Accepted

variable {source : Source} {r : Request} {store : Handle} {state : ServingState} {w w' : World}
  {n : Nat}

theorem pipeline_of_plan (h : plan source r store = .ok state) {helper : Bool} {p : Pipeline}
    (hp : state.pipeline helper = .ok p) :
    ∃ vector single batch others, source r.entity false false = .ok (some vector) ∧
      source r.entity false helper = .ok (some single) ∧
      Registry.compile single batch r.entity.skip = .ok p.registry ∧
      p.keys = .ofKeys others (servedKeys r vector) := by
  obtain ⟨-, vector, batch, keys, registry, found, hs, hb, hx, hr, hh, rfl⟩ := plan_ok_iff.1 h
  obtain ⟨-, rfl⟩ := KeyIndex.build_ok_iff.1 hx
  cases helper with
  | false =>
    obtain rfl := Except.ok.inj hp
    exact ⟨vector, vector, batch, _, hs, hs, hr, rfl⟩
  | true =>
    cases found with
    | none => cases hp
    | some registry' =>
      obtain rfl := Except.ok.inj hp
      obtain ⟨-, single, batch', hs', -, hr'⟩ := helperRegistry_some_iff.1 hh
      exact ⟨vector, single, batch', _, hs, hs', hr', rfl⟩

theorem exists_pipeline_of_plan (h : plan source r store = .ok state) {helper : Bool}
    (hhelper : helper = true → r.helpers = true) : ∃ p, state.pipeline helper = .ok p := by
  obtain ⟨-, _, _, _, _, found, -, -, -, -, hh, rfl⟩ := plan_ok_iff.1 h
  cases helper with
  | false => exact ⟨_, rfl⟩
  | true =>
    simp only [helperRegistry, hhelper rfl, if_true, bind_ok_iff, Except.ok.injEq] at hh
    obtain ⟨_, -, _, -, _, -, rfl⟩ := hh
    exact ⟨_, rfl⟩

theorem plan_of_runs (hruns : Runs source w (.fresh r) n w' (.finished (.ok ()))) {i : Installed}
    (hi : w'.client.installed = some i) : plan source r w.target = .ok i.state := by
  obtain ⟨state, hplan, -, hclient, -⟩ := installed_of_runs hruns
  rw [hclient] at hi
  obtain rfl := Option.some.inj hi
  exact hplan

/-- **When an accepted client is servable.** After a set-up that succeeded these say the same of the
vector, or of the helper columns if they were set up:

* the keys of every position name all parameters of its single statement;
* the binds of every entry have a value for every parameter;
* no call fails by its configuration, whatever happens while it is under way;
* no reply of the state is a configuration error.

With keys that are made from the statements they hold of the vector; no set-up checks them. -/
theorem servable_tfae (hruns : Runs source w (.fresh r) n w' (.finished (.ok ()))) {i : Installed}
    (hi : w'.client.installed = some i) {helper : Bool} {p : Pipeline}
    (hp : i.state.pipeline helper = .ok p) :
    ∃ vector single, source r.entity false false = .ok (some vector) ∧
      source r.entity false helper = .ok (some single) ∧
      List.TFAE [
        ∀ s ∈ PreparedStatement.retained r.entity.skip single,
          KeyIndex.Covers (servedKeys r vector) s,
        ∀ e j name, ¬ p.Unbound e j name,
        ∀ e seen result, Serving.Made i.state (.vector helper e) seen result →
          ¬ Serving.Misconfigured result,
        ∀ store e, ¬ Serving.Misconfigured (Serving.reply i.state store (.vector helper e))] ∧
      (r.entity.servingKeys = none → helper = false →
        ∀ s ∈ PreparedStatement.retained r.entity.skip single,
          KeyIndex.Covers (servedKeys r vector) s) := by
  obtain ⟨vector, single, batch, others, hs, hs', hr, hx⟩ :=
    pipeline_of_plan (plan_of_runs hruns hi) hp
  refine ⟨vector, single, hs, hs', ?_, ?_⟩
  · tfae_have 1 → 2 := fun hcovers => Pipeline.bound_of_covers hr hx hcovers
    tfae_have 2 → 3 := fun hbound e _ _ => Serving.configured_of_made hp hr (hbound e)
    tfae_have 3 → 4 := fun hmade store e => hmade e _ _ (Serving.made_reply i.state store _)
    tfae_have 4 → 1 := fun hreply => Serving.covers_of_configured hp hr hx hreply
    tfae_finish
  · rintro hkeys rfl s hmem
    obtain rfl := Option.some.inj (Except.ok.inj (hs.symm.trans hs'))
    rw [servedKeys, hkeys, Option.getD_none]
    exact KeyIndex.covers_derived hmem

end Accepted

end SetUp

/-! ### Orders by customer and shop -/

/-- A statement of the first position. -/
def orderQuery (parameters : List Parameter) (query : String) : PreparedStatement where
  group := none
  position := 0
  parameters := parameters
  query := query
  keyPrefix := none

def shopQuery : PreparedStatement :=
  orderQuery [⟨"customer", 0⟩, ⟨"shop", 1⟩] "SELECT total FROM orders WHERE customer = ? AND shop = ?"

def shopHelperQuery : PreparedStatement :=
  orderQuery [⟨"shop", 0⟩] "SELECT city FROM shops WHERE shop = ?"

/-- The vector is looked up by customer and shop, the helper columns by shop. -/
def shopSource : SetUp.Source := fun _ batch helper =>
  .ok (some [match batch, helper with
    | false, false => shopQuery
    | true, false =>
      orderQuery shopQuery.parameters "SELECT total FROM orders WHERE (customer, shop) IN ?"
    | false, true => shopHelperQuery
    | true, true => orderQuery shopHelperQuery.parameters "SELECT city FROM shops WHERE shop IN ?"])

def customerKey : ServingKey := .of "customer" 0 none false none

/-- The customer is the only key that the metadata name. -/
def shopRequest (helpers : Bool) : SetUp.Request where
  entity :=
    { kind := .featureView, name := "orders", version := 1
      servingKeys := some [customerKey] }
  helpers := helpers

def shopEntry : Entry := SortedMap.ofList [("customer", .int 5)]

namespace SetUp

theorem exists_plan_shops (helpers : Bool) :
    ∃ state, plan shopSource (shopRequest helpers) = .ok state := by
  refine accepts_iff_plan.1 (accepts_iff.2 ⟨by decide +revert, fun _ => rfl, ?_, fun _ => ?_⟩)
  · exact ⟨_, _, rfl, rfl, by decide +kernel +revert, by decide +kernel +revert⟩
  · exact ⟨_, _, rfl, rfl, by decide +kernel +revert, by decide +kernel +revert⟩

theorem primaryKeyNames_shopQuery : shopQuery.primaryKeyNames = ["customer", "shop"] := by
  rw [PreparedStatement.primaryKeyNames, PreparedStatement.sortedParameters,
    List.mergeSort_of_pairwise (by simp [shopQuery, orderQuery])]
  rfl

theorem plan_shops_parts {state : ServingState}
    (h : plan shopSource (shopRequest false) = .ok state) :
    (∃ others, state.vector.keys = .ofKeys others [customerKey]) ∧
      (∃ batch, Registry.compile [shopQuery] batch ∅ = .ok state.vector.registry) ∧
      ∀ j l, state.vector.registry.single.get? j = some l ↔
        j = 0 ∧ Lookup.single shopQuery = .ok l := by
  have hp : state.pipeline false = .ok state.vector := rfl
  obtain ⟨vector, single, batch, others, -, hs, hr, hx⟩ := pipeline_of_plan h hp
  obtain rfl : single = [shopQuery] := Option.some.inj (Except.ok.inj hs).symm
  refine ⟨⟨others, hx⟩, ⟨batch, hr⟩, fun j l => ?_⟩
  rw [Registry.get?_of_compileAll (Registry.compile_ok_iff.1 hr).1]
  have hstatement : ∀ s, statementOf? (PreparedStatement.retained ∅ [shopQuery]) j = some s ↔
      j = 0 ∧ s = shopQuery := by
    intro s
    by_cases hj : j = 0
    · subst hj
      exact ⟨fun hs => ⟨rfl, (Option.some.inj hs).symm⟩, by rintro ⟨-, rfl⟩; rfl⟩
    · refine iff_of_false (fun hs => hj ?_) fun hs => hj hs.1
      obtain ⟨hmem, rfl⟩ := statementOf?_eq_some hs
      rw [List.mem_singleton.1 (List.mem_of_mem_filter hmem)]
      rfl
  constructor
  · rintro ⟨s, hs, hsl⟩
    obtain ⟨rfl, rfl⟩ := (hstatement s).1 hs
    exact ⟨rfl, hsl⟩
  · rintro ⟨hj, hsl⟩
    exact ⟨_, (hstatement _).2 ⟨hj, rfl⟩, hsl⟩

theorem unbound_shops_iff {state : ServingState}
    (h : plan shopSource (shopRequest false) = .ok state) {j : Position} {name : String} :
    state.vector.Unbound shopEntry j name ↔ j = 0 ∧ name = "shop" := by
  obtain ⟨⟨others, hx⟩, ⟨batch, hr⟩, hlookup⟩ := plan_shops_parts h
  have hkeys : state.vector.keys.keysAt? 0 = some [customerKey] := by
    have hown : KeyIndex.keysOf [customerKey] 0 = [customerKey] := rfl
    rw [hx, KeyIndex.keysAt?_ofKeys, hown, if_neg (List.cons_ne_nil _ _), KeyIndex.sorted,
      List.mergeSort_singleton]
  rw [Pipeline.unbound_iff]
  constructor
  · rintro ⟨l, ks, hl, hks, -, hname, hkey⟩
    obtain ⟨rfl, hsl⟩ := (hlookup j l).1 hl
    obtain rfl : [customerKey] = ks := Option.some.inj (hkeys.symm.trans hks)
    rw [Lookup.parameters_of_single hsl, primaryKeyNames_shopQuery] at hname
    refine ⟨rfl, (List.mem_pair.1 hname).resolve_left fun hcustomer => hkey ?_⟩
    exact List.mem_singleton.2 hcustomer
  · rintro ⟨rfl, rfl⟩
    have hsingle := (Registry.compile_ok_iff.1 hr).1
    obtain ⟨-, -, hall⟩ := Registry.exists_compileAll_ok_iff.1 ⟨_, hsingle⟩
    obtain ⟨l, hsl⟩ := hall shopQuery (List.mem_singleton.2 rfl)
    have hname : "shop" ∈ l.parameters := by
      rw [Lookup.parameters_of_single hsl, primaryKeyNames_shopQuery]
      simp
    exact ⟨l, [customerKey], (hlookup 0 l).2 ⟨rfl, hsl⟩, hkeys, ⟨[.int 5], rfl⟩, hname, by decide⟩

/-- An accepted client whose calls fail by its configuration: there is no key for the shop. -/
theorem unbound_parameter_shops :
    ∃ n w i, Runs shopSource {} (.fresh (shopRequest false)) n w (.finished (.ok ())) ∧
      w.client.installed = some i ∧ ∀ store : Store, (∀ j, store.AnswersAt j) →
        Serving.reply i.state store (.vector false shopEntry) =
          .error (.serving (.configuration (.unboundParameter 0 "shop"))) := by
  obtain ⟨state, hplan⟩ := exists_plan_shops false
  obtain ⟨n, w, hruns, hclient⟩ := exists_runs_of_plan (w := {}) hplan rfl
  refine ⟨n, w, ⟨_, state⟩, hruns, by rw [hclient]; rfl, fun store hworks => ?_⟩
  obtain ⟨⟨others, hx⟩, ⟨batch, hr⟩, -⟩ := plan_shops_parts hplan
  have hvalid : state.vector.keys.validateEntry shopEntry = .ok () := by
    rw [hx]
    rfl
  have hp : state.pipeline false = .ok state.vector := rfl
  obtain ⟨j, name, hunbound, hreply⟩ := Serving.reply_of_unbound hp hr
    (Pipeline.prepare_ok_iff.2 ⟨rfl, hvalid, rfl⟩) hworks ((unbound_shops_iff hplan).2 ⟨rfl, rfl⟩)
  obtain ⟨rfl, rfl⟩ := (unbound_shops_iff hplan).1 hunbound
  exact hreply

/-- The helper columns of the orders are looked up by shop, and have the customer for a key. -/
theorem servable_tfae_shops :
    ∃ n w i p, Runs shopSource {} (.fresh (shopRequest true)) n w (.finished (.ok ())) ∧
      w.client.installed = some i ∧ i.state.pipeline true = .ok p ∧
      ∃ store e, Serving.Misconfigured (Serving.reply i.state store (.vector true e)) := by
  obtain ⟨state, hplan⟩ := exists_plan_shops true
  obtain ⟨n, w, hruns, hclient⟩ := exists_runs_of_plan (w := {}) hplan rfl
  obtain ⟨p, hp⟩ := exists_pipeline_of_plan hplan fun _ => rfl
  have hi : w.client.installed = some ⟨0, state⟩ := by rw [hclient]; rfl
  refine ⟨n, w, _, p, hruns, hi, hp, ?_⟩
  obtain ⟨vector, single, -, hs, htfae, -⟩ := servable_tfae hruns hi hp
  obtain rfl : single = [shopHelperQuery] := Option.some.inj (Except.ok.inj hs).symm
  by_contra hnone
  have hcovers : ∀ s ∈ [shopHelperQuery], KeyIndex.Covers [customerKey] s :=
    (htfae.out 3 0).1 fun store e h => hnone ⟨store, e, h⟩
  exact absurd (hcovers _ (List.mem_singleton.2 rfl)) (by decide)

end SetUp

end FeatureServing
