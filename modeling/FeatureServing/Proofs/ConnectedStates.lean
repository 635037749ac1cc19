import FeatureServing.Proofs.SetUpPlan

/-!
# States and their connections

A state is put together from the parts of a plan, or from those of another state, over a connection.

* `ServingState.SameService` : states with everything in common but the connection and the executors;
* `ServingState.Wired` : a state whose executors all have its connection and its time limit;
* `ServingState.sameService_reconnected`, `ServingState.wired_reconnected` : a state over another
  connection is the same service, wired to it;
* `ServingState.SameService.eq_reconnected` : a state is known by its service and its connection;
* `SetUp.wired_of_plan`, `SetUp.plan_reconnected` : the states of plans.
-/

namespace FeatureServing

namespace Pipeline

/-- Whether two pipelines have everything in common but the executor. -/
structure SameService (p q : Pipeline) : Prop where
  registry : p.registry = q.registry
  keys : p.keys = q.keys
  schema : p.schema = q.schema

variable {p q o : Pipeline}

theorem SameService.trans (h : p.SameService q) (h' : q.SameService o) : p.SameService o :=
  ⟨h.registry.trans h'.registry, h.keys.trans h'.keys, h.schema.trans h'.schema⟩

theorem sameService_withExecutor (p : Pipeline) (x : Executor) :
    (p.withExecutor x).SameService p :=
  ⟨rfl, rfl, rfl⟩

theorem SameService.eq_withExecutor (h : p.SameService q) : p = q.withExecutor p.executor := by
  obtain ⟨_, _, _, x⟩ := p
  obtain ⟨rfl, rfl, rfl⟩ := h
  rfl

end Pipeline

namespace ServingState

/-- Whether two states have everything in common but the connection and the executors. -/
structure SameService (s t : ServingState) : Prop where
  entity : s.entity = t.entity
  external : s.external = t.external
  pool : s.pool = t.pool
  vector : s.vector.SameService t.vector
  helper : Option.Rel Pipeline.SameService s.helper t.helper

/-- Whether the executors of all pipelines have the connection of a state, and the time limit of its
pool options. -/
structure Wired (s : ServingState) : Prop where
  vector : s.vector.executor = ⟨s.store, s.queryLimit⟩
  helper : ∀ p, s.helper = some p → p.executor = ⟨s.store, s.queryLimit⟩

variable {s t u : ServingState}

theorem SameService.refl (s : ServingState) : s.SameService s := by
  refine ⟨rfl, rfl, rfl, ⟨rfl, rfl, rfl⟩, ?_⟩
  cases s.helper with
  | none => exact .none
  | some p => exact .some ⟨rfl, rfl, rfl⟩

theorem SameService.trans (h : s.SameService t) (h' : t.SameService u) : s.SameService u := by
  refine ⟨h.entity.trans h'.entity, h.external.trans h'.external, h.pool.trans h'.pool,
    h.vector.trans h'.vector, ?_⟩
  have hst := h.helper
  have htu := h'.helper
  generalize s.helper = a at hst
  generalize t.helper = b at hst htu
  generalize u.helper = c at htu
  cases hst with
  | none => exact htu
  | some hab =>
    cases htu with
    | some hbc => exact .some (hab.trans hbc)

/-- **Reconnecting a state** changes nothing but the connection and the executors. -/
theorem sameService_reconnected (s : ServingState) (h : Handle) :
    (s.reconnected h).SameService s := by
  refine ⟨rfl, rfl, rfl, s.vector.sameService_withExecutor _, ?_⟩
  change Option.Rel _ (s.helper.map _) s.helper
  cases s.helper with
  | none => exact .none
  | some p => exact .some (p.sameService_withExecutor _)

theorem wired_reconnected (s : ServingState) (h : Handle) : (s.reconnected h).Wired := by
  refine ⟨rfl, fun p hp => ?_⟩
  obtain ⟨q, -, rfl⟩ := Option.map_eq_some_iff.1 hp
  rfl

@[simp] theorem store_reconnected (s : ServingState) (h : Handle) : (s.reconnected h).store = h :=
  rfl

/-- A wired state is what its service and its connection make of any state with that service. -/
theorem SameService.eq_reconnected (h : s.SameService t) (hs : s.Wired) :
    s = t.reconnected s.store := by
  have hlimit : s.queryLimit = t.pool.queryLimit := congrArg PoolOptions.queryLimit h.pool
  have hvector := h.vector.eq_withExecutor
  have hhelper : s.helper = t.helper.map fun p => p.withExecutor ⟨s.store, s.queryLimit⟩ := by
    have hrel := h.helper
    generalize ht : t.helper = found at hrel
    cases hp : s.helper with
    | none =>
      rw [hp] at hrel
      cases hrel
      rfl
    | some p =>
      rw [hp] at hrel
      cases hrel with
      | some hpq => rw [Option.map_some, ← hs.helper p hp, ← hpq.eq_withExecutor]
  rw [hs.vector, hlimit] at hvector
  rw [hlimit] at hhelper
  exact ServingState.ext h.entity h.external h.pool rfl hvector hhelper

theorem Wired.reconnected_store (hs : s.Wired) : s.reconnected s.store = s :=
  ((SameService.refl s).eq_reconnected hs).symm

theorem Wired.executor_of_pipeline (hs : s.Wired) {helper : Bool} {p : Pipeline}
    (hp : s.pipeline helper = .ok p) : p.executor = ⟨s.store, s.queryLimit⟩ := by
  cases helper with
  | false =>
    obtain rfl := Except.ok.inj hp
    exact hs.vector
  | true =>
    cases hhelper : s.helper with
    | none => simp [pipeline, hhelper] at hp
    | some q =>
      obtain rfl : q = p := by simpa [pipeline, hhelper] using hp
      exact hs.helper q hhelper

end ServingState

/-! ## States of plans -/

namespace SetUp

theorem Plan.wired_stateOver (p : Plan) (h : Handle) : (p.stateOver h).Wired := by
  refine ⟨rfl, fun q hq => ?_⟩
  obtain ⟨registry, -, rfl⟩ := Option.map_eq_some_iff.1 hq
  rfl

theorem Plan.reconnected_stateOver (p : Plan) (h h' : Handle) :
    (p.stateOver h).reconnected h' = p.stateOver h' := by
  rw [ServingState.reconnected, stateOver, stateOver]
  simp only [Option.map_map]
  rfl

variable {source : Source} {r : Request} {h : Handle} {s : ServingState}

theorem wired_of_plan (hplan : plan source r h = .ok s) : s.Wired := by
  obtain ⟨p, -, rfl⟩ := map_ok_iff.1 hplan
  exact p.wired_stateOver h

theorem store_of_plan (hplan : plan source r h = .ok s) : s.store = h := by
  obtain ⟨p, -, rfl⟩ := map_ok_iff.1 hplan
  rfl

/-- The state of a plan over another connection is planned over that connection. -/
theorem plan_reconnected (hplan : plan source r h = .ok s) (h' : Handle) :
    plan source r h' = .ok (s.reconnected h') := by
  obtain ⟨p, houtline, rfl⟩ := map_ok_iff.1 hplan
  exact map_ok_iff.2 ⟨p, houtline, (p.reconnected_stateOver h h').symm⟩

end SetUp

end FeatureServing
