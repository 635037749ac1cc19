import FeatureServing.Proofs.ExecutedQueries
import FeatureServing.Proofs.Servable

/-!
# Skipped groups

To skip groups is to serve an entity without them. All that a client is set up with is the same as
from lists that never had the statements and features of these groups:

* `withoutGroups` : a list without the items of some groups;
* `SetUp.plan_skipped` : a plan is that of the request without the groups, from sources without them;
* `SetUp.finished_ok_iff` : a set-up succeeds when there is a plan and the connection is not refused;
* `SetUp.Source.Kept` : the lookups that are left, `SetUp.kept_of_prepared` : all that is queried;
* `SetUp.skip_eq_delete` : all of this, for every set of groups.
-/

namespace FeatureServing

/-- The items of a list whose group is not in a set. -/
def withoutGroups {α : Type} (group : α → Option GroupId) (groups : SortedSet GroupId)
    (items : List α) : List α :=
  items.filter fun x => !(group x).any groups.contains

section Lists

variable {groups : SortedSet GroupId}

theorem mem_withoutGroups {α : Type} {group : α → Option GroupId} {items : List α} {x : α} :
    x ∈ withoutGroups group groups items ↔
      x ∈ items ∧ ∀ g, group x = some g → groups.contains g = false := by
  unfold withoutGroups
  rw [List.mem_filter]
  cases group x <;> simp

theorem PreparedStatement.isRetained_eq (s : PreparedStatement) :
    isRetained groups s = !s.group.any groups.contains := by
  unfold isRetained
  cases s.group <;> rfl

theorem Feature.isRetained_eq (f : Feature) :
    isRetained groups f = !f.group.any groups.contains := by
  unfold isRetained
  cases f.group <;> rfl

theorem any_contains_empty (group : Option GroupId) :
    group.any (∅ : SortedSet GroupId).contains = false := by
  cases group <;> rfl

theorem retained_eq_withoutGroups (ss : List PreparedStatement) :
    PreparedStatement.retained groups ss = withoutGroups (·.group) groups ss :=
  List.filter_congr fun s _ => s.isRetained_eq

@[simp] theorem retained_empty (ss : List PreparedStatement) :
    PreparedStatement.retained ∅ ss = ss :=
  List.filter_eq_self.2 fun s _ => by rw [s.isRetained_eq, any_contains_empty, Bool.not_false]

/-- Features that pass a test are left out by their groups, before the test or after it. -/
theorem filter_retained (test : Feature → Bool) (fs : List Feature) :
    (fs.filter test).filter (Feature.isRetained groups) =
      ((withoutGroups (·.group) groups fs).filter test).filter (Feature.isRetained ∅) := by
  have hall : ((withoutGroups (·.group) groups fs).filter test).filter (Feature.isRetained ∅) =
      (withoutGroups (·.group) groups fs).filter test :=
    List.filter_eq_self.2 fun f _ => by rw [f.isRetained_eq, any_contains_empty, Bool.not_false]
  rw [hall, withoutGroups, List.filter_filter, List.filter_filter]
  refine List.filter_congr fun f _ => ?_
  rw [f.isRetained_eq, Bool.and_comm]

end Lists

namespace Registry

theorem compile_skipped (single batch : List PreparedStatement) (skip : SortedSet GroupId) :
    compile single batch skip =
      compile (withoutGroups (·.group) skip single) (withoutGroups (·.group) skip batch) ∅ := by
  unfold compile
  rw [retained_eq_withoutGroups, retained_eq_withoutGroups, retained_empty, retained_empty]

end Registry

namespace KeyIndex

theorem build_skipped (ss : List PreparedStatement) (supplied : Option (List ServingKey))
    (skip : SortedSet GroupId) :
    build ss supplied skip = build (withoutGroups (·.group) skip ss) supplied ∅ := by
  unfold build
  rw [retained_eq_withoutGroups, retained_empty]

end KeyIndex

namespace Schema

theorem ofServed_skipped (fs : List Feature) (skip : SortedSet GroupId) :
    ofServed fs skip = ofServed (withoutGroups (·.group) skip fs) ∅ :=
  congrArg Schema.mk (filter_retained Feature.isServed fs)

theorem ofHelpers_skipped (fs : List Feature) (skip : SortedSet GroupId) :
    ofHelpers fs skip = ofHelpers (withoutGroups (·.group) skip fs) ∅ :=
  congrArg Schema.mk (filter_retained Feature.inferenceHelper fs)

end Schema

namespace SetUp

/-! ## Plans -/

/-- The request without the groups that it skips. -/
def Request.withoutSkipped (r : Request) : Request :=
  { r with entity := { r.entity with
      features := withoutGroups (·.group) r.entity.skip r.entity.features
      skip := ∅ } }

/-- The statements of a request, without those of the groups that it skips. -/
def Source.withoutSkipped (source : Source) (r : Request) : Source :=
  fun _ batch helper =>
    (source r.entity batch helper).map (Option.map (withoutGroups (·.group) r.entity.skip))

section Plans

variable (source : Source) (r : Request)

theorem statements_withoutSkipped (batch helper : Bool) :
    statements (source.withoutSkipped r) r.withoutSkipped.entity batch helper =
      (statements source r.entity batch helper).map
        (withoutGroups (·.group) r.entity.skip) := by
  unfold statements Source.withoutSkipped
  cases source r.entity batch helper with
  | error e => rfl
  | ok found => cases found <;> rfl

theorem compile_withoutSkipped {ss ss' : List PreparedStatement} :
    Registry.compile (withoutGroups (·.group) r.entity.skip ss)
        (withoutGroups (·.group) r.entity.skip ss') r.withoutSkipped.entity.skip =
      Registry.compile ss ss' r.entity.skip :=
  (Registry.compile_skipped ss ss' r.entity.skip).symm

theorem helperRegistry_withoutSkipped :
    helperRegistry (source.withoutSkipped r) r.withoutSkipped = helperRegistry source r := by
  have hhelpers : r.withoutSkipped.helpers = r.helpers := rfl
  unfold helperRegistry
  rw [hhelpers, statements_withoutSkipped, statements_withoutSkipped]
  cases r.helpers with
  | false => rfl
  | true =>
    cases statements source r.entity false true with
    | error e => rfl
    | ok single =>
      cases statements source r.entity true true with
      | error e => rfl
      | ok batch =>
        simp only [if_true, Except.map, bind, Except.bind, compile_withoutSkipped]

/-- **What is outlined** without the skipped groups is the same but for the request. -/
theorem outline_skipped :
    outline source r = (outline (source.withoutSkipped r) r.withoutSkipped).map
      fun p => { p with request := r } := by
  have hkind : checkKind r.withoutSkipped = checkKind r := rfl
  have hkeys : r.withoutSkipped.entity.servingKeys = r.entity.servingKeys := rfl
  unfold outline
  rw [hkind, statements_withoutSkipped, statements_withoutSkipped, helperRegistry_withoutSkipped,
    hkeys]
  cases checkKind r with
  | error e => rfl
  | ok _ =>
  cases statements source r.entity false false with
  | error e => rfl
  | ok single =>
  cases statements source r.entity true false with
  | error e => rfl
  | ok batch =>
  have hbuild : KeyIndex.build (withoutGroups (·.group) r.entity.skip single) r.entity.servingKeys
      r.withoutSkipped.entity.skip =
        KeyIndex.build single r.entity.servingKeys r.entity.skip :=
    (KeyIndex.build_skipped single r.entity.servingKeys r.entity.skip).symm
  simp only [Except.map, bind, Except.bind, compile_withoutSkipped, hbuild]
  cases KeyIndex.build single r.entity.servingKeys r.entity.skip with
  | error e => rfl
  | ok keys =>
  cases Registry.compile single batch r.entity.skip with
  | error e => rfl
  | ok registry =>
  cases helperRegistry source r with
  | error e => rfl
  | ok helper => rfl

theorem stateOver_withoutSkipped (keys : KeyIndex) (registry : Registry) (helper : Option Registry)
    (store : Handle) :
    Plan.stateOver ⟨r, keys, registry, helper⟩ store =
      { Plan.stateOver ⟨r.withoutSkipped, keys, registry, helper⟩ store with entity := r.entity } := by
  dsimp only [Plan.stateOver]
  rw [Schema.ofServed_skipped, Schema.ofHelpers_skipped]
  rfl

/-- **A plan that skips groups** is the plan without them. It fails with the same error. -/
theorem plan_skipped (store : Handle) :
    plan source r store = (plan (source.withoutSkipped r) r.withoutSkipped store).map
      fun s => { s with entity := r.entity } := by
  rw [plan, plan, outline_skipped]
  cases hp : outline (source.withoutSkipped r) r.withoutSkipped with
  | error e => rfl
  | ok p =>
    obtain ⟨-, _, _, keys, registry, helper, -, -, -, -, -, rfl⟩ := outline_ok_iff.1 hp
    exact congrArg Except.ok (stateOver_withoutSkipped r keys registry helper store)

/-- Statements of skipped groups decide nothing, whatever is wrong with them. -/
theorem plan_congr {source source' : Source} {r : Request}
    (h : source.withoutSkipped r = source'.withoutSkipped r) (store : Handle) :
    plan source r store = plan source' r store := by
  rw [plan_skipped source, plan_skipped source', h]

end Plans

theorem finished_ok_iff {source : Source} {r : Request} {n : Nat} {w w' : World}
    {result : Except ClientError Unit}
    (hruns : Runs source w (.fresh r) n w' (.finished result)) :
    result = .ok () ↔ (∃ s, plan source r w.target = .ok s) ∧ w.connector.refuses = false := by
  cases result with
  | ok u =>
    obtain ⟨s, hplan, -, -, hrefuses⟩ := installed_of_runs hruns
    exact iff_of_true rfl ⟨⟨s, hplan⟩, hrefuses⟩
  | error e =>
    refine iff_of_false (by simp) fun ⟨hplan, hrefuses⟩ => ?_
    obtain ⟨p, houtline⟩ := exists_map_ok_iff.1 hplan
    obtain ⟨-, ⟨-, herror⟩ | ⟨-, -, h, -⟩⟩ := stage_of_fresh hruns
    · cases houtline.symm.trans herror
    · cases hrefuses.symm.trans h

/-! ## Queries -/

/-- The lookup that a statement is compiled to, for single entries or for batches. -/
def lookupOf (batch : Bool) (s : PreparedStatement) : Except ServingError Lookup :=
  if batch then Lookup.batch s else Lookup.single s

/-- Whether a lookup is that of a statement of a request which belongs to none of the groups that
the request skips. -/
def Source.Kept (source : Source) (r : Request) (helper : Bool) (l : Lookup) : Prop :=
  ∃ batch ss s, source r.entity batch helper = .ok (some ss) ∧ s ∈ ss ∧
    (∀ g, s.group = some g → r.entity.skip.contains g = false) ∧ lookupOf batch s = .ok l

variable {source : Source} {r : Request} {store : Handle} {state : ServingState}

theorem kept_of_plan (h : plan source r store = .ok state) {helper : Bool} {p : Pipeline}
    (hp : state.pipeline helper = .ok p) {j : Position} {l : Lookup}
    (hl : p.registry.single.get? j = some l ∨ p.registry.batch.get? j = some l) :
    source.Kept r helper l := by
  have hlists : ∃ single batch, source r.entity false helper = .ok (some single) ∧
      source r.entity true helper = .ok (some batch) ∧
      Registry.compile single batch r.entity.skip = .ok p.registry := by
    obtain ⟨-, single, batch, _, _, found, hs, hb, -, hr, hh, rfl⟩ := plan_ok_iff.1 h
    cases helper with
    | false =>
      obtain rfl := Except.ok.inj hp
      exact ⟨single, batch, hs, hb, hr⟩
    | true =>
      cases found with
      | none => cases hp
      | some registry =>
        obtain rfl := Except.ok.inj hp
        exact (helperRegistry_some_iff.1 hh).2
  obtain ⟨single, batch, hs, hb, hr⟩ := hlists
  obtain ⟨hsingle, hbatch⟩ := Registry.compile_ok_iff.1 hr
  rw [retained_eq_withoutGroups] at hsingle hbatch
  rcases hl with hl | hl
  · obtain ⟨s, hstatement, hcompile⟩ := (Registry.get?_of_compileAll hsingle).1 hl
    obtain ⟨hmem, hgroup⟩ := mem_withoutGroups.1 (statementOf?_eq_some hstatement).1
    exact ⟨false, single, s, hs, hmem, hgroup, hcompile⟩
  · obtain ⟨s, hstatement, hcompile⟩ := (Registry.get?_of_compileAll hbatch).1 hl
    obtain ⟨hmem, hgroup⟩ := mem_withoutGroups.1 (statementOf?_eq_some hstatement).1
    exact ⟨true, batch, s, hb, hmem, hgroup, hcompile⟩

/-- **All that a call is prepared with** are lookups of statements that are left. -/
theorem kept_of_queries (h : plan source r store = .ok state) {call : Serving.Call} {p : Pipeline}
    {fetches : List Fetch} (hq : Serving.queries state call = .ok (p, fetches)) {f : Fetch}
    (hf : f ∈ fetches) : source.Kept r call.isHelper f.lookup := by
  obtain ⟨-, hp, hprepare⟩ := Serving.queries_ok_iff.1 hq
  obtain ⟨lookups, binds, hlookups, rfl⟩ := Serving.submitted_of_prepare hprepare
  obtain ⟨j, l, b, hl, -, rfl⟩ := FanOut.mem_submitted_iff.1 hf
  refine kept_of_plan h hp (j := j) ?_
  rcases hlookups with rfl | rfl
  · exact .inl hl
  · exact .inr hl

/-- **To skip groups is to delete them.** With a set of groups skipped, the registry, the index of
the keys, the columns of the vector and those of the helpers are what they are without the
statements and features of the groups, and fail with the same error; so is the whole plan. Two
sources that differ in statements of skipped groups only have the same plan, so such a statement
fails no set-up. A client that was set up prepares no query for a statement of a skipped group, nor
does the store ever execute one for it. -/
theorem skip_eq_delete (skip : SortedSet GroupId) :
    (∀ single batch, Registry.compile single batch skip =
      Registry.compile (withoutGroups (·.group) skip single) (withoutGroups (·.group) skip batch) ∅) ∧
    (∀ ss supplied, KeyIndex.build ss supplied skip =
      KeyIndex.build (withoutGroups (·.group) skip ss) supplied ∅) ∧
    (∀ fs, Schema.ofServed fs skip = Schema.ofServed (withoutGroups (·.group) skip fs) ∅) ∧
    (∀ fs, Schema.ofHelpers fs skip = Schema.ofHelpers (withoutGroups (·.group) skip fs) ∅) ∧
    ∀ r : Request, r.entity.skip = skip → ∀ source : Source,
      (∀ store, plan source r store = (plan (source.withoutSkipped r) r.withoutSkipped store).map
        fun s => { s with entity := r.entity }) ∧
      (∀ source' : Source, source.withoutSkipped r = source'.withoutSkipped r →
        ∀ store, plan source r store = plan source' r store) ∧
      ∀ n w w' result, Runs source w (.fresh r) n w' (.finished result) →
        (result = .ok () ↔ Accepts (source.withoutSkipped r) r.withoutSkipped ∧
          w.connector.refuses = false) ∧
        (result = .ok () → ∃ state, w'.client = w.client.install state ∧
          ∀ v : World, (∃ i, v.client.installed = some i ∧ i.state = state) → ∀ call,
            (∀ p fetches, Serving.queries state call = .ok (p, fetches) →
              ∀ f ∈ fetches, source.Kept r call.isHelper f.lookup) ∧
            ∀ q ∈ (Session.runCommand v (.serve call)).2.executed, ∃ l b,
              source.Kept r call.isHelper l ∧ ExecutedQuery.Of q l b) := by
  refine ⟨fun single batch => Registry.compile_skipped single batch skip,
    fun ss supplied => KeyIndex.build_skipped ss supplied skip,
    fun fs => Schema.ofServed_skipped fs skip, fun fs => Schema.ofHelpers_skipped fs skip, ?_⟩
  rintro r rfl source
  refine ⟨plan_skipped source r, fun _ => plan_congr, fun n w w' result hruns => ⟨?_, ?_⟩⟩
  · rw [finished_ok_iff hruns, accepts_iff_outline, plan_skipped, exists_map_ok_iff, plan,
      exists_map_ok_iff]
  · rintro rfl
    obtain ⟨state, hplan, -, hclient, -⟩ := installed_of_runs hruns
    refine ⟨state, hclient, ?_⟩
    rintro v ⟨i, hi, rfl⟩ call
    refine ⟨fun p fetches hq f hf => kept_of_queries hplan hq hf, fun q hq => ?_⟩
    obtain ⟨p, fetches, hqueries, f, hf, hof⟩ := 
      Session.executed_of_serve hi (wired_of_plan hplan) call hq
    exact ⟨f.lookup, f.binds, kept_of_queries hplan hqueries hf, hof⟩

/-! ### A broken statement of a skipped group -/

/-- The position of another statement, an index that comes twice and a blank query. -/
def brokenStatement : PreparedStatement where
  group := some 7
  position := 0
  parameters := [⟨"customer", 0⟩, ⟨"shop", 0⟩]
  query := " "
  keyPrefix := none

/-- The sets of the orders, each with the broken statement ahead. -/
def brokenSource : Source := fun e batch helper =>
  (shopSource e batch helper).map (Option.map (brokenStatement :: ·))

/-- The request for the orders, with some groups skipped. -/
def skippingRequest (skip : SortedSet GroupId) : Request :=
  { shopRequest true with entity := { (shopRequest true).entity with skip } }

/-- The orders are set up and served as if the broken statement were not there; unless its group is
skipped it fails the set-up. -/
theorem skip_eq_delete_broken :
    ¬ Accepts brokenSource (skippingRequest ∅) ∧
      ∃ n w state, Runs brokenSource {} (.fresh (skippingRequest (.ofList [7]))) n w
          (.finished (.ok ())) ∧ w.client.installed = some ⟨0, state⟩ ∧
        plan shopSource (skippingRequest (.ofList [7])) = .ok state ∧
        ∀ call, ∀ q ∈ (Session.runCommand w (.serve call)).2.executed, ∃ l b,
          brokenSource.Kept (skippingRequest (.ofList [7])) call.isHelper l ∧
            ExecutedQuery.Of q l b := by
  constructor
  · rw [accepts_iff]
    rintro ⟨-, -, ⟨single, batch, hs, -, hcompilable, -⟩, -⟩
    obtain rfl := Option.some.inj (Except.ok.inj hs)
    exact absurd hcompilable.1 (by decide +kernel)
  have hsame : brokenSource.withoutSkipped (skippingRequest (.ofList [7])) =
      shopSource.withoutSkipped (skippingRequest (.ofList [7])) := by
    funext e batch helper
    cases batch <;> cases helper <;> rfl
  obtain ⟨-, -, -, -, hall⟩ := skip_eq_delete (.ofList [7])
  obtain ⟨-, hcongr, hruns⟩ := hall (skippingRequest (.ofList [7])) rfl brokenSource
  have haccepts : Accepts shopSource (skippingRequest (.ofList [7])) := by
    refine accepts_iff.2 ⟨by decide, fun _ => rfl, ?_, fun _ => ?_⟩
    · exact ⟨_, _, rfl, rfl, by decide +kernel, by decide +kernel⟩
    · exact ⟨_, _, rfl, rfl, by decide +kernel, by decide +kernel⟩
  obtain ⟨state, hplan⟩ := accepts_iff_plan.1 haccepts
  obtain ⟨n, w, hrun, hclient⟩ :=
    exists_runs_of_plan (w := {}) ((hcongr shopSource hsame _).trans hplan) rfl
  have hi : w.client.installed = some ⟨0, state⟩ := by
    rw [hclient]
    rfl
  obtain ⟨state', hclient', hserves⟩ := (hruns n {} w _ hrun).2 rfl
  rw [hclient'] at hi
  obtain rfl : state' = state := congrArg Installed.state (Option.some.inj hi)
  rw [← hclient'] at hi
  exact ⟨n, w, state', hrun, hi, hplan, fun call => (hserves w ⟨_, hi, rfl⟩ call).2⟩

end SetUp

end FeatureServing
