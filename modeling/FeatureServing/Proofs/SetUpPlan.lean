import FeatureServing.Client.SetUp
import FeatureServing.Proofs.JoinPlan

/-!
# What a client is set up with

* `SetUp.outline_ok_iff`, `SetUp.plan_ok_iff`, `SetUp.helperRegistry_some_iff` : a successful plan,
  part by part;
* `SetUp.exists_plan_ok_iff` : what a plan without helper columns depends on.
-/

namespace FeatureServing.SetUp

theorem statements_ok_iff {source : Source} {e : Entity} {batch helper : Bool}
    {ss : List PreparedStatement} :
    statements source e batch helper = .ok ss ↔ source e batch helper = .ok (some ss) := by
  simp only [statements, bind_ok_iff]
  constructor
  · rintro ⟨found, hs, h⟩
    cases found with
    | none => simp at h
    | some ss' => rw [hs, Except.ok.inj h]
  · intro hs
    exact ⟨_, hs, rfl⟩

/-- A plan is made from the two lists of the vector, its keys from the single one. -/
theorem outline_ok_iff {source : Source} {r : Request} {p : Plan} :
    outline source r = .ok p ↔
      checkKind r = .ok () ∧ ∃ single batch keys registry helper,
        source r.entity false false = .ok (some single) ∧
        source r.entity true false = .ok (some batch) ∧
        KeyIndex.build single r.entity.servingKeys r.entity.skip = .ok keys ∧
        Registry.compile single batch r.entity.skip = .ok registry ∧
        helperRegistry source r = .ok helper ∧ ⟨r, keys, registry, helper⟩ = p := by
  simp only [outline, bind_ok_iff, statements_ok_iff, mapError_ok_iff, Except.ok.injEq]
  constructor
  · rintro ⟨_, hk, single, hs, batch, hb, keys, hx, registry, hr, helper, hh, h⟩
    exact ⟨hk, single, batch, keys, registry, helper, hs, hb, hx, hr, hh, h⟩
  · rintro ⟨hk, single, batch, keys, registry, helper, hs, hb, hx, hr, hh, h⟩
    exact ⟨(), hk, single, hs, batch, hb, keys, hx, registry, hr, helper, hh, h⟩

theorem plan_ok_iff {source : Source} {r : Request} {store : Handle} {s : ServingState} :
    plan source r store = .ok s ↔
      checkKind r = .ok () ∧ ∃ single batch keys registry helper,
        source r.entity false false = .ok (some single) ∧
        source r.entity true false = .ok (some batch) ∧
        KeyIndex.build single r.entity.servingKeys r.entity.skip = .ok keys ∧
        Registry.compile single batch r.entity.skip = .ok registry ∧
        helperRegistry source r = .ok helper ∧
        (⟨r, keys, registry, helper⟩ : Plan).stateOver store = s := by
  simp only [plan, map_ok_iff, outline_ok_iff]
  constructor
  · rintro ⟨_, ⟨hk, single, batch, keys, registry, helper, hs, hb, hx, hr, hh, rfl⟩, h⟩
    exact ⟨hk, single, batch, keys, registry, helper, hs, hb, hx, hr, hh, h⟩
  · rintro ⟨hk, single, batch, keys, registry, helper, hs, hb, hx, hr, hh, h⟩
    exact ⟨_, ⟨hk, single, batch, keys, registry, helper, hs, hb, hx, hr, hh, rfl⟩, h⟩

theorem helperRegistry_some_iff {source : Source} {r : Request} {registry : Registry} :
    helperRegistry source r = .ok (some registry) ↔
      r.helpers = true ∧ ∃ single batch, source r.entity false true = .ok (some single) ∧
        source r.entity true true = .ok (some batch) ∧
        Registry.compile single batch r.entity.skip = .ok registry := by
  cases hhelpers : r.helpers with
  | false => simp [helperRegistry, hhelpers]
  | true =>
    simp only [helperRegistry, hhelpers, if_true, bind_ok_iff, statements_ok_iff, mapError_ok_iff,
      Except.ok.injEq, Option.some.injEq, true_and]
    constructor
    · rintro ⟨single, hs, batch, hb, _, hr, rfl⟩
      exact ⟨single, batch, hs, hb, hr⟩
    · rintro ⟨single, batch, hs, hb, hr⟩
      exact ⟨single, hs, batch, hb, registry, hr, rfl⟩

theorem compile_of_plan {source : Source} {r : Request} {store : Handle} {s : ServingState}
    (h : plan source r store = .ok s) :
    ∃ single batch, Registry.compile single batch r.entity.skip = .ok s.vector.registry := by
  obtain ⟨-, single, batch, _, _, _, -, -, -, hr, -, rfl⟩ := plan_ok_iff.1 h
  exact ⟨single, batch, hr⟩

/-- Without helper columns the lists of the vector decide whether an entity can be served. -/
theorem exists_plan_ok_iff {source : Source} {r : Request} {single batch : List PreparedStatement}
    (hkind : r.entity.kind ≠ .unsupported) (hhelpers : r.helpers = false)
    (hs : source r.entity false false = .ok (some single))
    (hb : source r.entity true false = .ok (some batch)) :
    (∃ s, plan source r = .ok s) ↔
      (∃ keys, KeyIndex.build single r.entity.servingKeys r.entity.skip = .ok keys) ∧
        ∃ registry, Registry.compile single batch r.entity.skip = .ok registry := by
  have hcheck : checkKind r = .ok () := by simp [checkKind, hkind, hhelpers]
  have hhelper : helperRegistry source r = .ok none := by simp [helperRegistry, hhelpers]
  simp only [plan_ok_iff]
  constructor
  · rintro ⟨_, -, single', batch', keys, registry, _, hs', hb', hx, hr, -⟩
    obtain rfl := Option.some.inj (Except.ok.inj (hs.symm.trans hs'))
    obtain rfl := Option.some.inj (Except.ok.inj (hb.symm.trans hb'))
    exact ⟨⟨keys, hx⟩, registry, hr⟩
  · rintro ⟨⟨keys, hx⟩, registry, hr⟩
    exact ⟨_, hcheck, single, batch, keys, registry, none, hs, hb, hx, hr, hhelper, rfl⟩

end FeatureServing.SetUp
