import FeatureServing.FanOut
import FeatureServing.Proofs.Fallible
import FeatureServing.Proofs.QueryRun

/-!
# Fan-outs end

The queries of a fan-out go on side by side. The fan-out waits at most once, for the latency of the
store or for its time limit, and what it ends with does not depend on when its queries run:

* `FanOut.answers`, `FanOut.answersWithin` : what the queries give together, without a time limit and
  with one;
* `FanOut.run_cases` : how a run of a fan-out can end;
* `FanOut.Begun`, `FanOut.begun_run` : what new queries are after their first run;
* `FanOut.run_late`, `FanOut.run_expired` : the end of a wait, for the latency or for the limit;
* `FanOut.run_fresh` : a new fan-out ends, or waits and ends when the wait is over.
-/

namespace FeatureServing

namespace FanOut

/-! ## The queries of one call -/

/-- The rows of every query of a call, or the error of the first one that fails. -/
def answers (s : Store) (fetches : List Fetch) :
    Except ServingError (SortedMap Position RowSet) :=
  (fetches.mapM fun f => (s.answer f.lookup f.binds).map fun rows => (f.place, rows)).map
    SortedMap.ofList

/-- Queries that run one after the other keep the data of the store, so each runs as if alone. -/
theorem runAll_forall₂ {s : Store} {now : Nat} {Q P : Fetch → Fetch → Prop}
    {first fetches : List Fetch} (h : List.Forall₂ Q first fetches)
    (hP : ∀ f₀ f, Q f₀ f → ∀ t, Store.SameData s t → P f₀ (f.run now t).2) {t : Store}
    (ht : Store.SameData s t) :
    Store.SameData s (runAll now t fetches).1 ∧
      List.Forall₂ P first (runAll now t fetches).2 := by
  induction h generalizing t with
  | nil => exact ⟨ht, .nil⟩
  | @cons f₀ f _ _ hf _ ih =>
    have hdata := ht.trans (Fetch.runFor_leads now 7 t f).data
    obtain ⟨hrest, hforall⟩ := ih hdata
    exact ⟨hrest, .cons (hP f₀ f hf t ht) hforall⟩

/-- Whether a query is a later form of another and over, with the answer of that one. -/
def Answered (s : Store) (f f' : Fetch) : Prop :=
  f'.place = f.place ∧ f'.phase = .finished (s.answer f.lookup f.binds)

theorem outcome?_of_answered {s : Store} {fetches fetches' : List Fetch}
    (h : List.Forall₂ (Answered s) fetches fetches') :
    outcome? fetches' = some (answers s fetches) := by
  have hresults : fetches'.mapM positioned? = some (fetches.map fun f =>
      (s.answer f.lookup f.binds).map fun rows => (f.place, rows)) := by
    rw [mapM_some_iff, List.forall₂_map_right_iff]
    refine h.flip.imp fun f' f ⟨hplace, hphase⟩ => ?_
    rw [positioned?, Fetch.result?, hphase, hplace]
    rfl
  rw [outcome?, hresults, Option.map_some, List.mapM_map, answers]
  rfl

theorem outcome?_eq_none {fetches : List Fetch} {f : Fetch} (hf : f ∈ fetches)
    (h : f.result? = none) : outcome? fetches = none := by
  rw [outcome?, Option.map_eq_none_iff]
  cases hm : fetches.mapM positioned? with
  | none => rfl
  | some results =>
    obtain ⟨r, hr⟩ := exists_mapM_some_iff.1 ⟨results, hm⟩ f hf
    simp [positioned?, h] at hr

theorem length_dropAll (s : Store) (fetches : List Fetch) :
    (dropAll s fetches).2.length = fetches.length := by
  induction fetches generalizing s with
  | nil => rfl
  | cons f fetches ih => exact congrArg (· + 1) (ih _)

/-- **A run of a fan-out** ends with the outcome of its queries, drops them because the time limit
has passed, or waits. -/
theorem run_cases {now : Nat} {s s' : Store} {f : FanOut} {fetches : List Fetch}
    (hall : runAll now s f.fetches = (s', fetches)) :
    (∃ r, outcome? fetches = some r ∧ f.run now s = (s', { f with fetches }, some r)) ∨
      (∃ d, f.deadline = some d ∧ d.passes ≤ now ∧ f.run now s =
        ((dropAll s' fetches).1, { f with fetches := (dropAll s' fetches).2 },
          some (.error (.backend (.timedOut fetches.length d.millis))))) ∨
      f.run now s = (s', { f with fetches }, none) := by
  rw [run, hall]
  cases hover : outcome? fetches with
  | some r => exact .inl ⟨r, rfl, by simp only [hover]⟩
  | none =>
    cases hd : f.deadline with
    | none => exact .inr (.inr (by simp only [hover]))
    | some d =>
      by_cases hpassed : d.passes ≤ now
      · exact .inr (.inl ⟨d, rfl, hpassed, by simp only [hover, if_pos hpassed, length_dropAll]⟩)
      · exact .inr (.inr (by simp only [hover, if_neg hpassed]))

/-! ## Waiting -/

theorem sooner_none (t : Option Nat) : sooner t none = t := by
  cases t <;> rfl

theorem sooner_sooner (t : Option Nat) (wake : Nat) :
    sooner (sooner t (some wake)) (some wake) = sooner t (some wake) := by
  cases t <;> simp [sooner]

/-- What waits for one time or for none, waits for that time together. -/
theorem foldl_sooner {wake : Nat} {ts : List (Option Nat)}
    (h : ∀ t ∈ ts, t = none ∨ t = some wake) (t : Option Nat) :
    ts.foldl sooner t = if some wake ∈ ts then sooner t (some wake) else t := by
  induction ts generalizing t with
  | nil => simp
  | cons u ts ih =>
    obtain ⟨hu, hts⟩ := List.forall_mem_cons.1 h
    rw [List.foldl_cons, ih hts]
    rcases hu with rfl | rfl
    · simp [sooner_none]
    · simp [sooner_sooner]

/-- Whether a query is a later form of another that ends with the answer of that one, as soon as it
runs again at a time. -/
def Waiting (s : Store) (wake : Nat) (f f' : Fetch) : Prop :=
  f'.place = f.place ∧ f'.due? s = some (s.answer f.lookup f.binds) ∧ f'.Late wake

/-- Whether a new query has a latency to sleep through. -/
def Sleeps (s : Store) (now : Nat) (f : Fetch) : Prop :=
  s.accepts f.lookup f.binds = true ∧ now < Fetch.sleepEnd s now

/-- What a new query is after its first run. -/
def Begun (s : Store) (now : Nat) (f f' : Fetch) : Prop :=
  Waiting s (Fetch.sleepEnd s now) f f' ∧
    (f'.phase = .finished (s.answer f.lookup f.binds) ∧ ¬ Sleeps s now f ∨
      (∃ q, f'.phase = .sleeping q (Fetch.sleepEnd s now)) ∧ Sleeps s now f)

theorem begun_run {s : Store} {f : Fetch} (hf : f.phase = .fresh) (now : Nat) {t : Store}
    (ht : Store.SameData s t) : Begun s now f (f.run now t).2 := by
  obtain ⟨hdue, hphase⟩ := Fetch.run_fresh ht hf now
  have hplace := (Fetch.runFor_leads now 7 t f).place
  rcases hphase with h | ⟨q, h, hlt⟩
  · refine ⟨⟨hplace, hdue, by simp [h], by simp [h], by simp [h]⟩, .inl ⟨h, fun hsleeps => ?_⟩⟩
    obtain ⟨q, hq⟩ := Fetch.run_accepted ht hf hsleeps.1 hsleeps.2
    cases h.symm.trans hq
  · refine ⟨⟨hplace, hdue, by simp [h], by simp [h], fun q' w hw => ?_⟩, .inr ⟨⟨q, h⟩, ?_, hlt⟩⟩
    · obtain ⟨-, rfl⟩ := Fetch.Phase.sleeping.inj (h.symm.trans hw)
      exact Nat.le_refl _
    · by_contra hrefused
      cases h.symm.trans (Fetch.run_refused ht hf (Bool.of_not_eq_true hrefused) now)

/-- If a new query sleeps there is no outcome yet, and the fan-out waits for the end of the latency
or of the time limit. -/
theorem wake?_of_begun {s : Store} {now : Nat} {fetches fetches' : List Fetch}
    (h : List.Forall₂ (Begun s now) fetches fetches') {f : Fetch} (hf : f ∈ fetches)
    (hsleeps : Sleeps s now f) (d : Option Deadline) :
    outcome? fetches' = none ∧
      wake? ⟨fetches', d⟩ = sooner (d.map (·.passes)) (some (Fetch.sleepEnd s now)) := by
  have hone : ∀ t ∈ fetches'.map Fetch.wake?, t = none ∨ t = some (Fetch.sleepEnd s now) := by
    rw [List.forall_mem_map]
    intro g' hg'
    obtain ⟨g, -, -, ⟨hphase, -⟩ | ⟨⟨q, hphase⟩, -⟩⟩ := exists_left_of_forall₂ h hg'
    · exact .inl (by rw [Fetch.wake?, hphase])
    · exact .inr (by rw [Fetch.wake?, hphase])
  obtain ⟨f', hf', -, hphase⟩ := exists_left_of_forall₂ h.flip hf
  obtain ⟨⟨q, hphase⟩, -⟩ := hphase.resolve_left fun hover => hover.2 hsleeps
  have hwake : f'.wake? = some (Fetch.sleepEnd s now) := by rw [Fetch.wake?, hphase]
  have hmem : some (Fetch.sleepEnd s now) ∈ fetches'.map Fetch.wake? :=
    hwake ▸ List.mem_map_of_mem hf'
  refine ⟨outcome?_eq_none hf' (by rw [Fetch.result?, hphase]), ?_⟩
  rw [wake?, foldl_sooner hone, if_pos hmem]

/-! ## Time limits -/

/-- Whether a time limit passes before a store answers the queries of a call. -/
def Expires (s : Store) (limit : Nat) (fetches : List Fetch) : Prop :=
  limit < s.latency.getD 0 ∧ ∃ f ∈ fetches, s.accepts f.lookup f.binds = true

instance (s : Store) (limit : Nat) (fetches : List Fetch) : Decidable (Expires s limit fetches) :=
  inferInstanceAs (Decidable (_ ∧ _))

/-- What the queries of a call give together within a time limit. -/
def answersWithin (s : Store) (limit : Option Nat) (fetches : List Fetch) :
    Except ServingError (SortedMap Position RowSet) :=
  match limit with
  | none => answers s fetches
  | some ms =>
    if Expires s ms fetches then .error (.backend (.timedOut fetches.length ms))
    else answers s fetches

theorem answersWithin_of_not_expires {s : Store} {limit : Option Nat} {fetches : List Fetch}
    (h : ∀ ms, limit = some ms → ¬ Expires s ms fetches) :
    answersWithin s limit fetches = answers s fetches := by
  unfold answersWithin
  split
  · rfl
  · next ms => rw [if_neg (h ms rfl)]

theorem expires_congr {s t : Store} (h : Store.SameData s t) (limit : Nat) (fetches : List Fetch) :
    Expires t limit fetches ↔ Expires s limit fetches := by
  simp only [Expires, h.latency, Store.accepts_congr h]

/-- Whether a fan-out ends with a result when it runs at a time, over a store with the same data. -/
def EndsAt (s : Store) (wake : Nat) (f : FanOut)
    (r : Except ServingError (SortedMap Position RowSet)) : Prop :=
  ∀ t, Store.SameData s t →
    ∃ s' f', f.run wake t = (s', f', some r) ∧ Store.SameData s s'

/-- **A fan-out whose wait is over** ends with the answers of its queries. -/
theorem run_late {s : Store} {now : Nat} {fetches : List Fetch} {f : FanOut}
    (hf : List.Forall₂ (Waiting s now) fetches f.fetches) :
    EndsAt s now f (answers s fetches) := by
  intro t ht
  obtain ⟨hdata, hanswered⟩ := runAll_forall₂ (P := Answered s) hf
    (fun f₀ g ⟨hplace, hdue, hlate⟩ u hu =>
      ⟨(Fetch.runFor_leads now 7 u g).place.trans hplace, Fetch.run_late hu hlate hdue⟩) ht
  generalize hall : runAll now t f.fetches = all at hdata hanswered
  obtain ⟨s', fetches'⟩ := all
  refine ⟨s', { f with fetches := fetches' }, ?_, hdata⟩
  simp only [run, hall, outcome?_of_answered hanswered]

theorem sameData_drop (s : Store) (f : Fetch) : Store.SameData s (f.drop s).1 := by
  unfold Fetch.drop
  split
  · exact .refl s
  · exact .refl s
  · dsimp only
    split
    · exact s.sameData_release
    · exact .refl s

theorem sameData_dropAll (s : Store) (fetches : List Fetch) :
    Store.SameData s (dropAll s fetches).1 := by
  induction fetches generalizing s with
  | nil => exact .refl s
  | cons f fetches ih => exact (sameData_drop s f).trans (ih (f.drop s).1)

theorem runAll_of_step_eq_none {now : Nat} {s : Store} {fetches : List Fetch}
    (h : ∀ f ∈ fetches, f.step now s = none) : runAll now s fetches = (s, fetches) := by
  induction fetches with
  | nil => rfl
  | cons f fetches ih =>
    obtain ⟨hf, hrest⟩ := List.forall_mem_cons.1 h
    rw [runAll, Fetch.run_of_step_eq_none hf]
    simp only [ih hrest]

/-- **A fan-out whose time limit passes** while a query sleeps ends with that. -/
theorem run_expired {s : Store} {now : Nat} {fetches fetches' : List Fetch}
    (h : List.Forall₂ (Begun s now) fetches fetches') {f : Fetch} (hf : f ∈ fetches)
    (hsleeps : Sleeps s now f) {ms : Nat} (hlt : now + ms < Fetch.sleepEnd s now) :
    EndsAt s (now + ms) ⟨fetches', some ⟨ms, now + ms⟩⟩
      (.error (.backend (.timedOut fetches.length ms))) := by
  intro t ht
  have hstep : ∀ f' ∈ fetches', f'.step (now + ms) t = none := by
    intro f' hf'
    obtain ⟨g, -, -, ⟨hphase, -⟩ | ⟨⟨q, hphase⟩, -⟩⟩ := exists_left_of_forall₂ h hf'
    · exact Fetch.step_eq_none_iff.2 (.inl ⟨_, hphase⟩)
    · exact Fetch.step_eq_none_iff.2 (.inr (.inr ⟨q, _, hphase, hlt⟩))
  obtain ⟨hnone, -⟩ := wake?_of_begun h hf hsleeps none
  refine ⟨_, ⟨(dropAll t fetches').2, some ⟨ms, now + ms⟩⟩, ?_,
    ht.trans (sameData_dropAll t fetches')⟩
  simp only [run, runAll_of_step_eq_none hstep, hnone, if_pos (Nat.le_refl _), length_dropAll,
    h.length_eq]

theorem answersWithin_of_sleeps {s : Store} {now : Nat} {fetches : List Fetch} {f : Fetch}
    (hf : f ∈ fetches) (hsleeps : Sleeps s now f) (ms : Nat) :
    answersWithin s (some ms) fetches =
      if now + ms < Fetch.sleepEnd s now then .error (.backend (.timedOut fetches.length ms))
      else answers s fetches := by
  have hexpires : Expires s ms fetches ↔ now + ms < Fetch.sleepEnd s now := by
    unfold Expires Fetch.sleepEnd
    constructor
    · rintro ⟨hlt, -⟩
      omega
    · intro hlt
      exact ⟨by omega, f, hf, hsleeps.1⟩
  simp only [answersWithin, hexpires]

/-- A fan-out with a time limit ends when its queries wake, or when the limit passes. -/
theorem endsAt_of_begun {s : Store} {now : Nat} {fetches fetches' : List Fetch}
    (h : List.Forall₂ (Begun s now) fetches fetches') {f : Fetch} (hf : f ∈ fetches)
    (hsleeps : Sleeps s now f) (ms : Nat) :
    EndsAt s (min (now + ms) (Fetch.sleepEnd s now)) ⟨fetches', some ⟨ms, now + ms⟩⟩
      (answersWithin s (some ms) fetches) := by
  rw [answersWithin_of_sleeps hf hsleeps]
  by_cases hlt : now + ms < Fetch.sleepEnd s now
  · rw [Nat.min_eq_left (Nat.le_of_lt hlt), if_pos hlt]
    exact run_expired h hf hsleeps hlt
  · rw [Nat.min_eq_right (Nat.le_of_not_lt hlt), if_neg hlt]
    exact run_late (h.imp fun _ _ h => h.1)

theorem begun_runAll (s : Store) (now : Nat) {fetches : List Fetch}
    (hfresh : ∀ f ∈ fetches, f.phase = .fresh) :
    ∃ s' fetches', runAll now s fetches = (s', fetches') ∧ Store.SameData s s' ∧
      List.Forall₂ (Begun s now) fetches fetches' := by
  have hsame : List.Forall₂ (fun f₀ f => f₀ = f ∧ f.phase = .fresh) fetches fetches :=
    List.forall₂_same.2 fun f hf => ⟨rfl, hfresh f hf⟩
  obtain ⟨hdata, hbegun⟩ := runAll_forall₂ (P := Begun s now) hsame
    (by rintro f _ ⟨rfl, hf⟩ t ht; exact begun_run hf now ht) (.refl s)
  exact ⟨_, _, rfl, hdata, hbegun⟩

theorem answered_of_begun {s : Store} {now : Nat} {fetches fetches' : List Fetch}
    (h : List.Forall₂ (Begun s now) fetches fetches') (hover : ∀ f ∈ fetches, ¬ Sleeps s now f)
    (limit : Option Nat) :
    List.Forall₂ (Answered s) fetches fetches' ∧
      answersWithin s limit fetches = answers s fetches := by
  constructor
  · exact forall₂_imp_of_mem h fun f hf f' _ ⟨hwaiting, hphase⟩ =>
      ⟨hwaiting.1, (hphase.resolve_right fun h => hover f hf h.2).1⟩
  · refine answersWithin_of_not_expires fun ms _ ⟨hlt, f, hf, haccepts⟩ => ?_
    have hlater : now < Fetch.sleepEnd s now := by
      unfold Fetch.sleepEnd
      omega
    exact hover f hf ⟨haccepts, hlater⟩

/-- **A new fan-out** ends with the answers of its queries, or because its time limit is zero, or
waits for the end of the latency or of the limit and ends then. -/
theorem run_fresh (s : Store) (now : Nat) {fetches : List Fetch}
    (hfresh : ∀ f ∈ fetches, f.phase = .fresh) (limit : Option Nat) :
    ∃ s' f' o, (FanOut.of now limit fetches).run now s = (s', f', o) ∧ Store.SameData s s' ∧
      (o = some (answersWithin s limit fetches) ∨
        o = none ∧ ∃ wake, f'.wake? = some wake ∧ now < wake ∧
          EndsAt s wake f' (answersWithin s limit fetches)) := by
  obtain ⟨s', fetches', hall, hdata, hbegun⟩ := begun_runAll s now hfresh
  by_cases hover : ∀ f ∈ fetches, ¬ Sleeps s now f
  · obtain ⟨hanswered, hwithin⟩ := answered_of_begun hbegun hover limit
    refine ⟨s', { of now limit fetches with fetches := fetches' }, _, ?_, hdata, .inl rfl⟩
    simp only [run, of, hall, outcome?_of_answered hanswered, hwithin]
  · obtain ⟨f, hf, hsleeps⟩ : ∃ f ∈ fetches, Sleeps s now f := by
      simpa using hover
    have hlt := hsleeps.2
    cases limit with
    | none =>
      obtain ⟨hnone, hwake⟩ := wake?_of_begun hbegun hf hsleeps none
      refine ⟨s', ⟨fetches', none⟩, none, ?_, hdata,
        .inr ⟨rfl, Fetch.sleepEnd s now, hwake, hlt, run_late (hbegun.imp fun _ _ h => h.1)⟩⟩
      simp only [run, of, hall, hnone, Option.map_none]
    | some ms =>
      obtain ⟨hnone, hwake⟩ := wake?_of_begun hbegun hf hsleeps (some ⟨ms, now + ms⟩)
      by_cases hpassed : now + ms ≤ now
      · have hwithin : answersWithin s (some ms) fetches =
            .error (.backend (.timedOut fetches.length ms)) := by
          rw [answersWithin_of_sleeps hf hsleeps, if_pos (by omega)]
        refine ⟨_, ⟨(dropAll s' fetches').2, some ⟨ms, now + ms⟩⟩, _, ?_,
          hdata.trans (sameData_dropAll s' fetches'), .inl rfl⟩
        simp only [run, of, hall, hnone, Option.map_some, if_pos hpassed, hwithin, length_dropAll,
          hbegun.length_eq]
      · refine ⟨s', ⟨fetches', some ⟨ms, now + ms⟩⟩, none, ?_, hdata,
          .inr ⟨rfl, _, hwake, Nat.lt_min.2 ⟨Nat.lt_of_not_le hpassed, hlt⟩,
            endsAt_of_begun hbegun hf hsleeps ms⟩⟩
        simp only [run, of, hall, hnone, Option.map_some, if_neg hpassed]

theorem fresh_of_mem_submitted {lookups : SortedMap Position Lookup}
    {binds : SortedMap Position Binds} {f : Fetch} (hf : f ∈ submitted lookups binds) :
    f.phase = .fresh := by
  obtain ⟨e, -, he⟩ := List.mem_filterMap.1 hf
  obtain ⟨b, -, rfl⟩ := Option.map_eq_some_iff.1 he
  rfl

end FanOut

end FeatureServing
