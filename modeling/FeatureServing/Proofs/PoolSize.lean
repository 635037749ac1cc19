import Mathlib.Algebra.Group.Nat.Defs
import FeatureServing.Proofs.InterleavedClient

/-!
# A pool for all queries of one call

A client is connected with a pool that is sized for the lookups of one call. The sizes of a pool are
numbers of 32 bits, and so is the number of lookups that it is compared with, counted without its
higher bits: beyond 32 bits a pool is too small for a call, and can be empty.

* `PoolOptions.sizedFor_eq`, `PoolOptions.toNat_connections` : the size of a pool;
* `PoolOptions.le_connections_iff`, `PoolOptions.connections_eq_zero_iff` : when it is large enough
  for a number of lookups, and when there is none;
* `SetUp.pool_of_plan`, `Serving.length_queries_le` : the pool of a planned state, and the queries
  of one call;
* `System.planned_of_fetching` : the state of a call under way was planned;
* `System.pool_covers_calls` : pools and calls, for every size and every run of a client.
-/

namespace FeatureServing

namespace PoolOptions

/-! ## Sizes -/

/-- The size of a pool for a number of lookups: what is asked for, and what the lookups need. -/
def connections (o : PoolOptions) (concurrency : Nat) : UInt32 :=
  max (o.maxConnections.getD 0) (needed concurrency)

variable (o : PoolOptions) (concurrency : Nat)

theorem sizedFor_eq :
    o.sizedFor concurrency =
      { o with
        maxConnections := some (o.connections concurrency)
        minConnections := min o.minConnections (o.connections concurrency) } := by
  obtain ⟨requested, smallest, acquire, query⟩ := o
  cases requested with
  | some requested => rfl
  | none =>
    have hnone : connections ⟨none, smallest, acquire, query⟩ concurrency = needed concurrency := by
      apply UInt32.toNat_inj.1
      rw [connections, UInt32.toNat_max]
      exact Nat.zero_max _
    rw [hnone]
    rfl

/-- The lookups are counted modulo the numbers of 32 bits. -/
theorem toNat_connections :
    (o.connections concurrency).toNat =
      max (o.maxConnections.getD 0).toNat (max concurrency 1 % 2 ^ 32) := by
  rw [connections, UInt32.toNat_max, needed, UInt32.toNat_ofNat']

/-- **A pool is large enough** for a number of lookups exactly when the number has 32 bits. -/
theorem le_connections_iff :
    concurrency ≤ (o.connections concurrency).toNat ↔ concurrency < 2 ^ 32 := by
  have hsize := toNat_connections o concurrency
  have hlt := (o.connections concurrency).toNat_lt
  omega

/-- **A pool is empty** exactly when no connection is asked for and only higher bits of the number
of lookups are set. -/
theorem connections_eq_zero_iff :
    (o.connections concurrency).toNat = 0 ↔
      o.maxConnections.getD 0 = 0 ∧ concurrency ≠ 0 ∧ 2 ^ 32 ∣ concurrency := by
  have hsize := toNat_connections o concurrency
  have hzero : o.maxConnections.getD 0 = 0 ↔ (o.maxConnections.getD 0).toNat = 0 :=
    UInt32.toNat_inj.symm
  rw [hzero]
  omega

theorem requested_le_connections {requested : UInt32} (h : o.maxConnections = some requested) :
    requested ≤ o.connections concurrency := by
  rw [UInt32.le_iff_toNat_le, toNat_connections, h]
  exact Nat.le_max_left _ _

theorem sizedFor_again :
    (o.sizedFor concurrency).sizedFor concurrency = o.sizedFor concurrency := by
  have hsize : (o.sizedFor concurrency).connections concurrency = o.connections concurrency := by
    apply UInt32.toNat_inj.1
    rw [toNat_connections, sizedFor_eq, Option.getD_some, toNat_connections]
    omega
  have hmin : min (min o.minConnections (o.connections concurrency)) (o.connections concurrency) =
      min o.minConnections (o.connections concurrency) := by
    apply UInt32.toNat_inj.1
    simp only [UInt32.toNat_min]
    omega
  rw [sizedFor_eq (o.sizedFor concurrency), hsize, sizedFor_eq]
  simp only [hmin]

end PoolOptions

/-! ## The queries of one call -/

/-- The lookups that one call of a state makes at once, at most. -/
def ServingState.concurrency (s : ServingState) : Nat :=
  SetUp.concurrency s.vector.registry (s.helper.map (·.registry))

theorem SetUp.pool_of_plan {source : Source} {r : Request} {handle : Handle} {s : ServingState}
    (h : plan source r handle = .ok s) : s.pool = r.pool.sizedFor s.concurrency := by
  obtain ⟨-, _, _, _, registry, helper, -, -, -, -, -, rfl⟩ := plan_ok_iff.1 h
  cases helper <;> rfl

theorem SetUp.helper_of_plan {source : Source} {r : Request} {handle : Handle} {s : ServingState}
    (h : plan source r handle = .ok s) (hhelpers : r.helpers = false) : s.helper = none := by
  obtain ⟨-, _, _, _, _, helper, -, -, -, -, hhelper, rfl⟩ := plan_ok_iff.1 h
  rw [helperRegistry, hhelpers, if_neg Bool.false_ne_true] at hhelper
  obtain rfl := Except.ok.inj hhelper
  rfl

theorem FanOut.length_submitted_le (lookups : SortedMap Position Lookup)
    (binds : SortedMap Position Binds) : (submitted lookups binds).length ≤ lookups.size :=
  List.length_filterMap_le _ _

theorem Registry.length_submitted_le {r : Registry} {lookups : SortedMap Position Lookup}
    (h : lookups = r.single ∨ lookups = r.batch) (binds : SortedMap Position Binds) :
    (FanOut.submitted lookups binds).length ≤ r.concurrency := by
  have hlength := FanOut.length_submitted_le lookups binds
  unfold concurrency
  rcases h with rfl | rfl <;> omega

theorem ServingState.concurrency_le {s : ServingState} {helper : Bool} {p : Pipeline}
    (h : s.pipeline helper = .ok p) : p.registry.concurrency ≤ s.concurrency := by
  unfold concurrency SetUp.concurrency
  cases helper with
  | false =>
    obtain rfl := Except.ok.inj h
    exact Nat.le_max_left _ _
  | true =>
    unfold pipeline at h
    cases hhelper : s.helper with
    | none => simp [hhelper] at h
    | some p' =>
      obtain rfl : p' = p := by simpa [hhelper] using h
      exact Nat.le_max_right _ _

/-- **A call has no more queries** than its state counts on. -/
theorem Serving.length_queries_le {s : ServingState} {call : Call} {p : Pipeline}
    {fetches : List Fetch} (h : queries s call = .ok (p, fetches)) :
    fetches.length ≤ s.concurrency := by
  obtain ⟨-, hp, hprepare⟩ := queries_ok_iff.1 h
  obtain ⟨lookups, binds, hlookups, rfl⟩ := submitted_of_prepare hprepare
  exact Nat.le_trans (Registry.length_submitted_le hlookups binds) (ServingState.concurrency_le hp)

/-! ## Calls under way -/

theorem Log.mem_of_lastInstalled {log : Log} {state : ServingState}
    (h : log.lastInstalled = some state) : ∃ k, (k, Act.installs state) ∈ log := by
  obtain ⟨⟨k, act⟩, hmem, hact⟩ := List.mem_filterMap.1 (List.mem_of_getLast? h)
  cases act with
  | installs state' =>
    obtain rfl := Option.some.inj hact
    exact ⟨k, hmem⟩
  | _ => cases hact

theorem Client.Changes.installed_eq {acts : List Act} {seen : Option Installed} {c c' : Client}
    (h : c.Changes acts (some (.snapshots seen)) c') : c.installed = seen := by
  cases h
  rfl

namespace System

variable {log : Log} {s : System}

/-- A state that an operation took has the service of one that a set-up installed before. -/
theorem installed_of_snapshot (h : Runs log s) {k : Nat} {i : Installed}
    (hlog : (k, Act.snapshots (some i)) ∈ log) :
    ∃ j state, (j, Act.installs state) ∈ log ∧ i.state.SameService state := by
  induction h with
  | start => cases hlog
  | @step log more s s' hruns hstep ih =>
    rcases List.mem_append.1 hlog with hold | hnew
    · obtain ⟨j, state, hj, hservice⟩ := ih hold
      exact ⟨j, state, List.mem_append_left _ hj, hservice⟩
    · have hinv := invariant_of_runs hruns
      obtain ⟨-, k', act, rfl, hchanges⟩ := invariant_step hinv hstep
      obtain ⟨_, hact, heq⟩ := List.mem_map.1 hnew
      obtain ⟨-, rfl⟩ := Prod.mk.inj heq
      obtain rfl := Option.mem_toList.1 hact
      have hholds := hinv.holds
      rw [hchanges.installed_eq] at hholds
      generalize hlast : log.lastInstalled = last at hholds
      cases hholds with
      | ready hservice =>
        obtain ⟨j, hj⟩ := Log.mem_of_lastInstalled hlast
        exact ⟨j, _, List.mem_append_left _ hj, hservice⟩

/-- **The state of a call under way was planned**, over the connection that it has, and gave the call
its queries. -/
theorem planned_of_fetching (h : Runs log s) {k : Nat} {call c : Serving.Call} {p : Pipeline}
    {state : ServingState} {fan : FanOut}
    (hk : s.operations[k]? = some (.serving call (.fetching c state p fan))) :
    (∃ answers r, SetUp.planOf answers r state.store = .ok state) ∧
      ∃ fetches, Serving.queries state call = .ok (p, fetches) ∧
        fan.fetches.length = fetches.length := by
  have hinv := invariant_of_runs h
  have hfollows : Serving.Follows call (log.own k) _ := hinv.follows k _ hk
  generalize hacts : log.own k = acts at hfollows
  cases hfollows with
  | works i seen hwired hworks =>
    obtain ⟨-, rfl, fetches, hqueries, hfetches, -⟩ := hworks
    have htook : (k, Act.snapshots (some i)) ∈ log := by
      rw [← Log.mem_own_iff, hacts]
      exact List.mem_cons_self
    obtain ⟨j, planned, hj, hservice⟩ := installed_of_snapshot h htook
    obtain ⟨r, store, -, -, -, hplan⟩ := hinv.installs_iff hj
    have hover := SetUp.plan_reconnected hplan i.state.store
    rw [← hservice.eq_reconnected hwired] at hover
    exact ⟨⟨_, r, hover⟩, fetches, hqueries, hfetches.length_eq.symm⟩

/-- A client is set up, and a call of its state has its queries under way. -/
theorem exists_runs_fetching {source : SetUp.Source} {r : SetUp.Request} {state : ServingState}
    (hplan : SetUp.plan source r = .ok state) (store : Store) {call : Serving.Call} {p : Pipeline}
    {fetches : List Fetch} (hqueries : Serving.queries state call = .ok (p, fetches)) :
    ∃ log s fan, Runs log s ∧
      s.operations[1]? = some (.serving call (.fetching call state p fan)) := by
  obtain ⟨n, w, hsetUp, hclient⟩ := SetUp.exists_runs_of_plan (w := { store }) hplan rfl
  have hbegun : RunsOn [] ⟨{ store }, [.settingUp r (.fresh r)]⟩ :=
    ((Runs.start rfl).step (.begins (.settingUp r))).on
  have hcalled := (hbegun.setUp (k := 0) rfl hsetUp).step (.begins (.serving call))
  have hi : w.client.installed = some ⟨0, state⟩ := by rw [hclient]; rfl
  obtain ⟨log, hruns⟩ := hcalled.asks (k := 1) rfl hi hqueries
  exact ⟨_, _, _, hruns, rfl⟩

/-- **The pool is large enough for the queries of one call**, as long as their number has 32 bits.
Sized for any number of lookups, a pool has at least what was asked for, keeps no more connections
open than it has, has all other options as they were, and is not sized any further for that number;
it is large enough, and not empty, exactly when the number has 32 bits. A call of a client has no
more queries under way than the pool of its state was sized for, however its operations
interleave. -/
theorem pool_covers_calls (o : PoolOptions) (concurrency : Nat) :
    (∃ m, (o.sizedFor concurrency).maxConnections = some m ∧
      (1 ≤ m.toNat ∧ concurrency ≤ m.toNat ↔ concurrency < 2 ^ 32) ∧
      (m.toNat = 0 ↔ o.maxConnections.getD 0 = 0 ∧ concurrency ≠ 0 ∧ 2 ^ 32 ∣ concurrency) ∧
      (∀ requested, o.maxConnections = some requested → requested ≤ m) ∧
      (o.sizedFor concurrency).minConnections ≤ m ∧
      { o.sizedFor concurrency with
        maxConnections := o.maxConnections
        minConnections := o.minConnections } = o ∧
      (o.sizedFor concurrency).sizedFor concurrency = o.sizedFor concurrency) ∧
    ∀ log s, Runs log s → ∀ (k : Nat) (call c : Serving.Call) (state : ServingState) (p : Pipeline)
      (fan : FanOut), s.operations[k]? = some (.serving call (.fetching c state p fan)) →
      ∃ (asked : PoolOptions) (m : UInt32), state.pool = asked.sizedFor state.concurrency ∧
        state.pool.maxConnections = some m ∧ fan.fetches.length ≤ state.concurrency ∧
        (state.concurrency < 2 ^ 32 → fan.fetches.length ≤ m.toNat) := by
  refine ⟨?_, fun log s h k call c state p fan hk => ?_⟩
  · have hcovers := o.le_connections_iff concurrency
    have hempty := o.connections_eq_zero_iff concurrency
    refine ⟨o.connections concurrency, by rw [PoolOptions.sizedFor_eq], ?_, hempty,
      fun requested hr => o.requested_le_connections concurrency hr, ?_, ?_,
      o.sizedFor_again concurrency⟩
    · have hsize := o.toNat_connections concurrency
      omega
    · rw [PoolOptions.sizedFor_eq, UInt32.le_iff_toNat_le, UInt32.toNat_min]
      exact Nat.min_le_right _ _
    · rw [PoolOptions.sizedFor_eq]
  · obtain ⟨⟨answers, r, hplan⟩, fetches, hqueries, hlength⟩ := planned_of_fetching h hk
    have hpool := SetUp.pool_of_plan hplan
    have hfetches : fan.fetches.length ≤ state.concurrency := by
      rw [hlength]
      exact Serving.length_queries_le hqueries
    refine ⟨r.pool, _, hpool, by rw [hpool, PoolOptions.sizedFor_eq], hfetches, fun hlt => ?_⟩
    exact Nat.le_trans hfetches ((r.pool.le_connections_iff _).2 hlt)

/-- A client that is asked for one sale has a pool of one connection. -/
theorem pool_covers_calls_sales :
    ∃ log s state p fan, SetUp.plan saleSource saleRequest = .ok state ∧ Runs log s ∧
      s.operations[1]? = some (.serving (.vector false (saleEntry 1))
        (.fetching (.vector false (saleEntry 1)) state p fan)) ∧
      state.pool.maxConnections = some 1 ∧ fan.fetches.length ≤ 1 := by
  obtain ⟨state, l, l', hplan, -, -, hvector⟩ := SetUp.plan_sales
  have hprepare := Pipeline.prepare_ok_iff.2
    ⟨rfl, (by rw [hvector]; rfl : state.vector.keys.validateEntry (saleEntry 1) = .ok ()), rfl⟩
  have hqueries := Serving.queries_ok_iff.2
    ⟨(rfl : (Serving.Call.vector false (saleEntry 1)).check = .ok ()),
      (rfl : state.pipeline false = .ok state.vector), hprepare⟩
  obtain ⟨log, s, fan, hruns, hk⟩ := exists_runs_fetching hplan saleStore hqueries
  have hconcurrency : state.concurrency = 1 := by
    rw [ServingState.concurrency, hvector, SetUp.helper_of_plan hplan rfl]
    rfl
  have hpool : state.pool.maxConnections = some 1 := by
    rw [SetUp.pool_of_plan hplan, hconcurrency]
    rfl
  obtain ⟨o, m, -, -, hle, -⟩ := (pool_covers_calls {} 1).2 log s hruns 1 _ _ _ _ _ hk
  rw [hconcurrency] at hle
  exact ⟨log, s, state, _, fan, hplan, hruns, hk, hpool, hle⟩

/-- **An empty pool.** A call with 2 ^ 32 lookups, one more than the numbers of 32 bits reach, gets
a pool without connections. -/
theorem pool_of_many_lookups :
    ¬ ∀ (o : PoolOptions) (concurrency : Nat), ∃ m,
      (o.sizedFor concurrency).maxConnections = some m ∧ 1 ≤ m.toNat ∧ concurrency ≤ m.toNat := by
  intro h
  obtain ⟨m, hm, hone, -⟩ := h {} (2 ^ 32)
  obtain rfl : (0 : UInt32) = m := Option.some.inj hm
  exact absurd hone (by decide)

end System

end FeatureServing
