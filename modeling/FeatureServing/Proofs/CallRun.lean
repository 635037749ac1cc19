import FeatureServing.Session
import FeatureServing.Proofs.ConnectedStates
import FeatureServing.Proofs.FanOutRun

/-!
# A serving call ends with its reply

A call that waits for its queries goes on when the wait of its fan-out is over, and then it ends:

* `Serving.reply`, `Serving.replyInTime` : the answer of a call, from the data of the store alone,
  without a time limit and within one;
* `Session.runCommand_of_refused` : a call that is refused does nothing;
* `Session.settle_keeps` : what a call keeps that goes on, it keeps until its command ends;
* `Session.runCommand_serve_touches` : a serving command moves the clock and acts on one store;
* `Session.runCommand_serve_in_time`, `Session.runCommand_serve` : a serving command ends with its
  reply, from the store that the installed state is connected to, and changes no data.
-/

namespace FeatureServing

namespace Serving

/-! ## One call -/

/-- The pipeline of a call and its queries. -/
def queries (s : ServingState) (call : Call) : Except ClientError (Pipeline × List Fetch) := do
  call.check
  let p ← s.pipeline call.isHelper
  let fetches ← (call.prepare p).mapError .serving
  .ok (p, fetches)

/-- What a call makes of the answers of its queries. -/
def conclude (call : Call) (p : Pipeline) (r : Except ServingError (SortedMap Position RowSet)) :
    Except ClientError Answer :=
  (r.bind fun results => call.assemble p results).mapError .serving

/-- The reply of a state to a call, from the data of a store. -/
def reply (s : ServingState) (store : Store) (call : Call) : Except ClientError Answer :=
  (queries s call).bind fun q => conclude call q.1 (FanOut.answers store q.2)

/-- The reply of a state to a call within the state's time limit. -/
def replyInTime (s : ServingState) (store : Store) (call : Call) : Except ClientError Answer :=
  (queries s call).bind fun q => conclude call q.1 (FanOut.answersWithin store s.queryLimit q.2)

theorem replyInTime_of_no_limit {s : ServingState} (h : s.queryLimit = none) (store : Store)
    (call : Call) : replyInTime s store call = reply s store call := by
  rw [replyInTime, h]
  rfl

theorem replyInTime_congr {store store' : Store} (h : Store.SameData store store')
    (s : ServingState) (call : Call) : replyInTime s store' call = replyInTime s store call := by
  have hanswers : ∀ fetches, FanOut.answers store' fetches = FanOut.answers store fetches := by
    intro fetches
    simp only [FanOut.answers, Store.answer_congr h]
  simp only [replyInTime, FanOut.answersWithin, FanOut.expires_congr h, hanswers]

theorem queries_ok_iff {s : ServingState} {call : Call} {p : Pipeline} {fetches : List Fetch} :
    queries s call = .ok (p, fetches) ↔
      call.check = .ok () ∧ s.pipeline call.isHelper = .ok p ∧ call.prepare p = .ok fetches := by
  simp only [queries, bind_ok_iff, mapError_ok_iff, Except.ok.injEq, Prod.mk.injEq]
  constructor
  · rintro ⟨_, hcheck, _, hp, _, hfetches, rfl, rfl⟩
    exact ⟨hcheck, hp, hfetches⟩
  · rintro ⟨hcheck, hp, hfetches⟩
    exact ⟨(), hcheck, p, hp, fetches, hfetches, rfl, rfl⟩

theorem conclude_ok_iff {call : Call} {p : Pipeline}
    {r : Except ServingError (SortedMap Position RowSet)} {a : Answer} :
    conclude call p r = .ok a ↔ ∃ results, r = .ok results ∧ call.assemble p results = .ok a := by
  rw [conclude, mapError_ok_iff]
  exact bind_ok_iff

/-- **A call succeeds** when it passes its checks, all its queries are answered and the answer can
be made of the rows. -/
theorem reply_ok_iff {s : ServingState} {store : Store} {call : Call} {a : Answer} :
    reply s store call = .ok a ↔
      call.check = .ok () ∧ ∃ p, s.pipeline call.isHelper = .ok p ∧
        ∃ fetches, call.prepare p = .ok fetches ∧
          ∃ results, FanOut.answers store fetches = .ok results ∧
            call.assemble p results = .ok a := by
  have hreply : reply s store call = .ok a ↔ ∃ q, queries s call = .ok q ∧
      ∃ results, FanOut.answers store q.2 = .ok results ∧ call.assemble q.1 results = .ok a := by
    simp only [← conclude_ok_iff]
    exact bind_ok_iff
  simp only [hreply, Prod.exists, queries_ok_iff]
  constructor
  · rintro ⟨p, fetches, ⟨hcheck, hp, hfetches⟩, h⟩
    exact ⟨hcheck, p, hp, fetches, hfetches, h⟩
  · rintro ⟨hcheck, p, hp, fetches, hfetches, h⟩
    exact ⟨p, fetches, ⟨hcheck, hp, hfetches⟩, h⟩

/-- The queries of a call are those of the single lookups, or of the batch lookups, that have
binds. -/
theorem submitted_of_prepare {call : Call} {p : Pipeline} {fetches : List Fetch}
    (h : call.prepare p = .ok fetches) :
    ∃ lookups binds, (lookups = p.registry.single ∨ lookups = p.registry.batch) ∧
      fetches = FanOut.submitted lookups binds := by
  have hsingle : ∀ {e}, p.prepare e = .ok fetches → ∃ lookups binds,
      (lookups = p.registry.single ∨ lookups = p.registry.batch) ∧
        fetches = FanOut.submitted lookups binds := by
    intro e h
    simp only [Pipeline.prepare, bind_ok_iff] at h
    obtain ⟨-, -, -, -, h⟩ := h
    exact ⟨_, _, .inl rfl, (Except.ok.inj h).symm⟩
  have hbatch : ∀ {es}, p.prepareBatch es = .ok fetches → ∃ lookups binds,
      (lookups = p.registry.single ∨ lookups = p.registry.batch) ∧
        fetches = FanOut.submitted lookups binds := by
    intro es h
    simp only [Pipeline.prepareBatch, bind_ok_iff] at h
    obtain ⟨-, -, h⟩ := h
    split at h
    · simp at h
    · exact ⟨_, _, .inr rfl, (Except.ok.inj h).symm⟩
  cases call with
  | vector _ e => exact hsingle h
  | serve r => exact hsingle h
  | vectors _ es => exact hbatch h
  | serveBatch r => exact hbatch h

theorem fresh_of_prepare {call : Call} {p : Pipeline} {fetches : List Fetch}
    (h : call.prepare p = .ok fetches) : ∀ f ∈ fetches, f.phase = .fresh := by
  obtain ⟨lookups, binds, -, rfl⟩ := submitted_of_prepare h
  exact fun f hf => FanOut.fresh_of_mem_submitted hf

theorem start_of_installed {w : World} {i : Installed} (hi : w.client.installed = some i)
    (call : Call) :
    start w call = (queries i.state call).map fun q =>
      .fetching call i.state q.1 (q.1.executor.submit w.now q.2) := by
  have hsnapshot : w.client.snapshot = .ok i := by rw [Client.snapshot, hi]
  rw [start, queries, hsnapshot]
  cases call.check with
  | error e => rfl
  | ok _ =>
    simp only [bind, Except.bind]
    cases i.state.pipeline call.isHelper with
    | error e => rfl
    | ok p => cases hf : call.prepare p <;> simp [hf, Except.map, Except.mapError]

theorem run_of_refused {w : World} {i : Installed} (hi : w.client.installed = some i) {call : Call}
    {e : ClientError} (h : queries i.state call = .error e) :
    run w (.fresh call) = (w, .finished (.error e)) := by
  rw [run, start_of_installed hi, h]
  rfl

theorem run_of_queries {w : World} {i : Installed} (hi : w.client.installed = some i) {call : Call}
    {p : Pipeline} {fetches : List Fetch} (h : queries i.state call = .ok (p, fetches)) :
    run w (.fresh call) =
      advance w (.fetching call i.state p (p.executor.submit w.now fetches)) := by
  rw [run, start_of_installed hi, h]
  rfl

theorem run_fetching (w : World) (call : Call) (s : ServingState) (p : Pipeline) (f : FanOut) :
    run w (.fetching call s p f) = advance w (.fetching call s p f) := rfl

theorem advance_of_run {w : World} {call : Call} {s : ServingState} {p : Pipeline} {f f' : FanOut}
    {store : Store} {r : Except ServingError (SortedMap Position RowSet)}
    (h : f.run w.now (w.storeOf p.executor.store) = (store, f', some r)) :
    advance w (.fetching call s p f) =
      (w.setStore p.executor.store store, .finished (conclude call p r)) := by
  rw [advance, h]
  cases r <;> rfl

/-- Whether the queries of a call go through a connection. -/
def Phase.Through (h : Handle) : Phase → Prop
  | .fetching _ _ p _ => p.executor.store = h
  | _ => True

theorem advance_touches {h : Handle} (w : World) {p : Phase} (hp : p.Through h) :
    (advance w p).2.Through h ∧ ∃ store, (advance w p).1 = w.setStore h store := by
  cases p with
  | fetching call s pipeline f =>
    obtain rfl : pipeline.executor.store = h := hp
    rw [advance]
    split
    · exact ⟨rfl, _, rfl⟩
    · exact ⟨trivial, _, rfl⟩
    · exact ⟨trivial, _, rfl⟩
  | fresh | finished => exact ⟨trivial, _, (w.setStore_storeOf h).symm⟩

theorem run_touches {w : World} {i : Installed} (hi : w.client.installed = some i)
    (hwired : i.state.Wired) (call : Call) :
    (run w (.fresh call)).2.Through i.state.store ∧
      ∃ store, (run w (.fresh call)).1 = w.setStore i.state.store store := by
  cases hq : queries i.state call with
  | error e =>
    rw [run_of_refused hi hq]
    exact ⟨trivial, _, (w.setStore_storeOf _).symm⟩
  | ok q =>
    obtain ⟨p, fetches⟩ := q
    have hstore : p.executor.store = i.state.store := by
      rw [hwired.executor_of_pipeline (queries_ok_iff.1 hq).2.1]
    rw [run_of_queries hi hq]
    exact advance_touches w hstore

end Serving

namespace Session

theorem settle_finished (fuel : Nat) (w : World) (r : Except Failure Reply) :
    Task.settle fuel w (.finished r) = (w, .finished r) := by
  cases fuel <;> rfl

theorem runCommand_of_start {w : World} {c : Command} {r : Except Failure Reply}
    (h : c.start w = (w, .finished r)) : runCommand w c = (w, ⟨some r, [], w.store⟩) := by
  rw [runCommand, h]
  simp only [settle_finished, List.drop_length, List.mergeSort_nil]
  rfl

theorem runCommand_of_refused {w : World} {i : Installed} (hi : w.client.installed = some i)
    {call : Serving.Call} {e : ClientError} (h : Serving.queries i.state call = .error e) :
    runCommand w (.serve call) = (w, ⟨some (.error (.client e)), [], w.store⟩) := by
  apply runCommand_of_start
  rw [Command.start, Task.runServing, Serving.run_of_refused hi h]
  rfl

/-- What a call keeps that goes on at any time, it keeps until its command ends. -/
theorem settle_keeps {R : World → Serving.Phase → Prop}
    (hR : ∀ w now p, R w p →
      R (Serving.advance { w with now } p).1 (Serving.advance { w with now } p).2)
    (fuel : Nat) {w : World} {p : Serving.Phase} (h : R w p) :
    ∃ w' p', Task.settle fuel w (Task.ofServing p) = (w', Task.ofServing p') ∧ R w' p' := by
  induction fuel generalizing w p with
  | zero => exact ⟨w, p, rfl, h⟩
  | succ fuel ih =>
    cases p with
    | finished r => exact ⟨w, _, settle_finished _ w _, h⟩
    | fresh c => exact ⟨w, _, rfl, h⟩
    | fetching c s pipeline fan =>
      cases hwake : fan.wake? with
      | none =>
        have hwaits : (Task.ofServing (.fetching c s pipeline fan)).wake? = none := hwake
        exact ⟨w, _, by rw [Task.settle, hwaits], h⟩
      | some wake =>
        have hwakes : (Task.ofServing (.fetching c s pipeline fan)).wake? = some wake := hwake
        rw [Task.settle, hwakes]
        exact ih (hR w _ _ h)

/-- **A serving command** moves the clock and acts on the store that the installed state is connected
to; it leaves all else alone. -/
theorem runCommand_serve_touches {w : World} {i : Installed} (hi : w.client.installed = some i)
    (hwired : i.state.Wired) (call : Serving.Call) :
    ∃ now store, (runCommand w (.serve call)).1 =
      ({ w with now } : World).setStore i.state.store store := by
  obtain ⟨hthrough, store, hstore⟩ := Serving.run_touches hi hwired call
  obtain ⟨w', p, hsettle, -, now, store', hworld⟩ := settle_keeps
    (R := fun w' p => p.Through i.state.store ∧
      ∃ now store, w' = ({ w with now } : World).setStore i.state.store store)
    (fun w' now p ⟨hp, _, s, hw'⟩ => by
      obtain ⟨hp', s', hadvance⟩ := Serving.advance_touches { w' with now } hp
      exact ⟨hp', now, s', by rw [hadvance, hw', World.setStore_now, World.setStore_setStore]⟩)
    2 ⟨hthrough, w.now, store, hstore⟩
  have hrun : (runCommand w (.serve call)).1 =
      (Task.settle 2 (Serving.run w (.fresh call)).1
        (Task.ofServing (Serving.run w (.fresh call)).2)).1 := rfl
  exact ⟨now, store', by rw [hrun, hsettle, hworld]⟩

/-- The end of a call with a certain reply, over the store of a connection. -/
def Ends (h : Handle) (w : World) (reply : Except ClientError Serving.Answer)
    (last : World × Task) : Prop :=
  last.2 = .finished ((reply.map Reply.ofAnswer).mapError .client) ∧
    Store.SameData (w.storeOf h) (last.1.storeOf h) ∧ last.1.client = w.client

/-- A call that waits ends when the clock has moved to the end of its wait. -/
theorem settle_waiting {h : Handle} {w : World} {store : Store} (call : Serving.Call)
    (s : ServingState) {p : Pipeline} (hstore : p.executor.store = h) {f : FanOut} {wake : Nat}
    {r : Except ServingError (SortedMap Position RowSet)}
    (hdata : Store.SameData store (w.storeOf h)) (hwake : f.wake? = some wake)
    (hlt : w.now < wake) (hends : f.EndsAt store wake r) (fuel : Nat) :
    Ends h w (Serving.conclude call p r)
      (Task.settle (fuel + 1) w (.serving (.fetching call s p f))) := by
  subst hstore
  have hnow : max w.now wake = wake := Nat.max_eq_right (Nat.le_of_lt hlt)
  obtain ⟨store', f', hrun, hdata'⟩ := hends _ hdata
  have hrun' : f.run ({ w with now := wake } : World).now
      (({ w with now := wake } : World).storeOf p.executor.store) = (store', f', some r) := hrun
  have hend : Task.run { w with now := max w.now wake } (.serving (.fetching call s p f)) =
      (({ w with now := wake } : World).setStore p.executor.store store',
        .finished (((Serving.conclude call p r).map Reply.ofAnswer).mapError .client)) := by
    rw [hnow, Task.run, Task.runServing, Serving.run_fetching, Serving.advance_of_run hrun']
    rfl
  have hwake' : Task.wake? (.serving (.fetching call s p f)) = some wake := hwake
  rw [Task.settle, hwake']
  simp only [hend, settle_finished]
  refine ⟨rfl, ?_, World.client_setStore _ _ _⟩
  rw [World.storeOf_setStore]
  exact hdata.symm.trans hdata'

theorem settle_serving {w : World} {i : Installed} (hi : w.client.installed = some i)
    (hwired : i.state.Wired) (call : Serving.Call) :
    Ends i.state.store w (Serving.replyInTime i.state (w.storeOf i.state.store) call)
      (Task.settle 2 (Task.runServing w (.fresh call)).1 (Task.runServing w (.fresh call)).2) := by
  rw [Serving.replyInTime]
  cases hq : Serving.queries i.state call with
  | error e =>
    have hrun : Task.runServing w (.fresh call) = (w, .finished (.error (.client e))) := by
      rw [Task.runServing, Serving.run_of_refused hi hq]
      rfl
    rw [hrun, settle_finished]
    exact ⟨rfl, .refl _, rfl⟩
  | ok q =>
    obtain ⟨p, fetches⟩ := q
    obtain ⟨-, hp, hprepare⟩ := Serving.queries_ok_iff.1 hq
    have hexecutor := hwired.executor_of_pipeline hp
    have hstore : p.executor.store = i.state.store := by rw [hexecutor]
    obtain ⟨store, f, o, hrun, hdata, ho⟩ := FanOut.run_fresh (w.storeOf i.state.store) w.now
      (Serving.fresh_of_prepare hprepare) i.state.queryLimit
    have hadvance := Serving.run_of_queries hi hq
    have hrun' : (p.executor.submit w.now fetches).run w.now (w.storeOf p.executor.store) =
        (store, f, o) := by
      rw [hexecutor]
      exact hrun
    have hseen : (w.setStore i.state.store store).storeOf i.state.store = store :=
      w.storeOf_setStore _ _
    rcases ho with rfl | ⟨rfl, wake, hwake, hlt, hends⟩
    · have hend : Task.runServing w (.fresh call) = (w.setStore i.state.store store, .finished
          (((Serving.conclude call p (FanOut.answersWithin (w.storeOf i.state.store)
            i.state.queryLimit fetches)).map Reply.ofAnswer).mapError .client)) := by
        rw [Task.runServing, hadvance, Serving.advance_of_run hrun', hstore]
        rfl
      rw [hend, settle_finished]
      exact ⟨rfl, hseen.symm ▸ hdata, w.client_setStore _ _⟩
    · have hwait : Task.runServing w (.fresh call) =
          (w.setStore i.state.store store, .serving (.fetching call i.state p f)) := by
        rw [Task.runServing, hadvance, Serving.advance, hrun', hstore]
        rfl
      have hnow : (w.setStore i.state.store store).now < wake := by rwa [World.now_setStore]
      obtain ⟨hreply, hdata', hclient⟩ := settle_waiting call i.state hstore
        (hseen.symm ▸ hdata) hwake hnow hends 1
      rw [hseen] at hdata'
      rw [hwait]
      exact ⟨hreply, hdata.trans hdata', hclient.trans (w.client_setStore _ _)⟩

/-- **A serving command** ends with the reply of the installed state to the call, from the store that
the state is connected to and within its time limit; the client and the data of the store stay as
they were. -/
theorem runCommand_serve_in_time {w : World} {i : Installed} (hi : w.client.installed = some i)
    (hwired : i.state.Wired) (call : Serving.Call) :
    (runCommand w (.serve call)).2.result = some
        (((Serving.replyInTime i.state (w.storeOf i.state.store) call).map
          Reply.ofAnswer).mapError .client) ∧
      Store.SameData (w.storeOf i.state.store)
        ((runCommand w (.serve call)).1.storeOf i.state.store) ∧
      (runCommand w (.serve call)).1.client = w.client := by
  obtain ⟨hend, hdata, hclient⟩ := settle_serving hi hwired call
  refine ⟨?_, hdata, hclient⟩
  have hresult : (runCommand w (.serve call)).2.result = Task.result?
      (Task.settle 2 (Task.runServing w (.fresh call)).1 (Task.runServing w (.fresh call)).2).2 := rfl
  rw [hresult, hend]
  rfl

theorem runCommand_serve {w : World} {i : Installed} (hi : w.client.installed = some i)
    (hwired : i.state.Wired) (hlimit : i.state.queryLimit = none) (call : Serving.Call) :
    (runCommand w (.serve call)).2.result = some
        (((Serving.reply i.state (w.storeOf i.state.store) call).map
          Reply.ofAnswer).mapError .client) ∧
      Store.SameData (w.storeOf i.state.store)
        ((runCommand w (.serve call)).1.storeOf i.state.store) ∧
      (runCommand w (.serve call)).1.client = w.client := by
  rw [← Serving.replyInTime_of_no_limit hlimit]
  exact runCommand_serve_in_time hi hwired call

/-- A state that is planned over the in-memory store replies from that store. -/
theorem runCommand_serve_ok_iff {w : World} {i : Installed} (hi : w.client.installed = some i)
    {source : SetUp.Source} {r : SetUp.Request} (hplan : SetUp.plan source r = .ok i.state)
    (hlimit : i.state.queryLimit = none) {call : Serving.Call} {a : Serving.Answer} :
    (runCommand w (.serve call)).2.result = some (.ok (Reply.ofAnswer a)) ↔
      Serving.reply i.state w.store call = .ok a := by
  rw [(runCommand_serve hi (SetUp.wired_of_plan hplan) hlimit call).1, SetUp.store_of_plan hplan,
    World.storeOf_memory]
  cases Serving.reply i.state w.store call with
  | error e => simp [Except.map, Except.mapError]
  | ok a' => cases a <;> cases a' <;> simp [Except.map, Except.mapError, Reply.ofAnswer]

end Session

end FeatureServing
