import FeatureServing.Proofs.InterleavedClient

/-!
# Reconnecting

A refresh looks whether the store still works and connects again if it does not. Nobody who calls the
client can tell that from a store that worked all the time:

* `Client.Reached` : a client that its own operations have brought where it is;
* `Session.Twin` : a client, and the same client over a store that was never closed;
* `Session.twin_runCommand`, `Session.twin_close`, `Session.twin_after` : commands keep two clients
  twins, and closings need only happen to the first;
* `Session.runCommand_serve_twin` : while both stores are open, twins answer the same;
* `Session.reconnecting` : all of this for every sequence of commands that sets nothing up.
-/

namespace FeatureServing

/-! ## Clients -/

/-- Whether a new client can come to be this one, by any operations. -/
def Client.Reached (c : Client) : Prop :=
  ∃ log s, System.Runs log s ∧ s.world.client = c

theorem Client.Reached.wired {c : Client} (h : c.Reached) {i : Installed}
    (hi : c.installed = some i) : i.state.Wired := by
  obtain ⟨log, s, hruns, rfl⟩ := h
  have hholds := (System.invariant_of_runs hruns).holds
  rw [hi] at hholds
  exact hholds.wired

theorem Client.reached_of_plan {source : SetUp.Source} {r : SetUp.Request} {state : ServingState}
    (hplan : SetUp.plan source r = .ok state) : (({} : Client).install state).Reached := by
  obtain ⟨n, w, hsetUp, hclient⟩ := SetUp.exists_runs_of_plan (w := {}) hplan rfl
  have hbegun : System.RunsOn [] ⟨{}, [.settingUp r (.fresh r)]⟩ :=
    ((System.Runs.start rfl).step (.begins (.settingUp r))).on
  obtain ⟨log, hruns⟩ := hbegun.setUp (k := 0) rfl hsetUp
  exact ⟨_, _, hruns, hclient⟩

namespace Session

/-! ## Twins -/

/-- Commands around a client that is not set up again: it serves and is refreshed, and the store is
closed or set otherwise. -/
inductive Later : Command → Prop
  | close : Later .close
  | refresh : Later .refresh
  | serve (call : Serving.Call) : Later (.serve call)
  | insertTable (p : Position) (t : Table) : Later (.insertTable p t)
  | setLatency (millis : Nat) : Later (.setLatency millis)
  | failOn (p : Position) : Later (.failOn p)
  | nullRowFor (p : Position) : Later (.nullRowFor p)

def isClose : Command → Bool
  | .close => true
  | _ => false

/-- The world after some commands. -/
def after (w : World) (cs : List Command) : World :=
  cs.foldl (fun w c => (runCommand w c).1) w

/-- Whether two clients have a state that is connected to the in-memory store, the second over an open
store and the first over a store with the same data, open or not; the first one's connector refuses
nothing and leads to that store. The clocks and what was counted may differ. -/
structure Twin (s : ServingState) (w v : World) : Prop where
  installed : ∃ i, w.client.installed = some i ∧ i.state = s
  installed' : ∃ i, v.client.installed = some i ∧ i.state = s
  wired : s.Wired
  connected : s.store = .memory
  data : Store.SameData { w.store with closed := false } v.store
  connector : w.connector.refuses = false
  target : w.target = .memory

section Twins

variable {s : ServingState} {w v : World}

theorem Twin.open (h : Twin s w v) : v.store.closed = false :=
  h.data.closed

theorem Twin.storeOf (h : Twin s w v) (u : World) : u.storeOf s.store = u.store := by
  rw [h.connected, World.storeOf_memory]

/-- A change of the data keeps twins what they are if it happens to both stores. -/
theorem Twin.setStores (h : Twin s w v) {t u : Store}
    (hdata : Store.SameData { t with closed := false } u) :
    Twin s { w with store := t } { v with store := u } :=
  ⟨h.installed, h.installed', h.wired, h.connected, hdata, h.connector, h.target⟩

theorem twin_close (h : Twin s w v) : Twin s (runCommand w .close).1 v :=
  ⟨h.installed, h.installed', h.wired, h.connected, ⟨h.data.tables, h.data.failing,
    h.data.nullRows, h.data.latency, h.data.closed⟩, h.connector, h.target⟩

/-- A serving command acts on the store and on the clock alone. -/
theorem twin_serve (h : Twin s w v) (call : Serving.Call) :
    Twin s (runCommand w (.serve call)).1 (runCommand v (.serve call)).1 := by
  obtain ⟨i, hi, rfl⟩ := h.installed
  obtain ⟨j, hj, hstate⟩ := h.installed'
  obtain ⟨-, hdata, hclient⟩ := runCommand_serve_in_time hi h.wired call
  obtain ⟨-, hdata', hclient'⟩ := runCommand_serve_in_time hj (hstate ▸ h.wired) call
  obtain ⟨now, store, hworld⟩ := runCommand_serve_touches hi h.wired call
  rw [hstate, h.storeOf, h.storeOf] at hdata'
  rw [h.storeOf, h.storeOf] at hdata
  refine ⟨⟨i, by rw [hclient, hi], rfl⟩, ⟨j, by rw [hclient', hj], hstate⟩, h.wired, h.connected,
    ?_, ?_, ?_⟩
  · have hopen : Store.SameData { (runCommand w (.serve call)).1.store with closed := false }
        { w.store with closed := false } :=
      ⟨hdata.tables.symm, hdata.failing.symm, hdata.nullRows.symm, hdata.latency.symm, rfl⟩
    exact hopen.trans (h.data.trans hdata')
  · rw [hworld, World.connector_setStore]
    exact h.connector
  · rw [hworld, World.target_setStore]
    exact h.target

/-- A refresh of the closed store puts a state in place that is put together anew, and it is the same
state. -/
theorem connectedWorld_of_twin (h : Twin s w v) {i : Installed} (hi : w.client.installed = some i)
    (hstate : i.state = s) (now : Nat) :
    Refresh.connectedWorld { w with now } i =
      { w with now, store := w.store.connect, client := w.client.install s } := by
  have hsame : s.reconnected .memory = s := h.connected ▸ h.wired.reconnected_store
  have hinstall : w.client.installOver i s = w.client.install s := by
    simp [Client.installOver, hi]
  rw [Refresh.connectedWorld, hstate]
  simp only [h.target, hsame, hinstall, World.setStore_memory, World.storeOf_memory]

theorem twin_refresh (h : Twin s w v) :
    Twin s (runCommand w .refresh).1 (runCommand v .refresh).1 := by
  obtain ⟨i, hi, hstate⟩ := h.installed
  obtain ⟨j, hj, hstate'⟩ := h.installed'
  rw [runCommand_refresh_open hj (by rw [hstate', h.storeOf]; exact h.open)]
  cases hclosed : w.store.closed with
  | false =>
    rw [runCommand_refresh_open hi (by rw [hstate, h.storeOf]; exact hclosed)]
    exact h
  | true =>
    rw [(runCommand_refresh_closed hi (by rw [hstate, h.storeOf]; exact hclosed) h.connector).1,
      connectedWorld_of_twin h hi hstate]
    exact ⟨⟨_, rfl, rfl⟩, ⟨j, hj, hstate'⟩, h.wired, h.connected, ⟨h.data.tables, h.data.failing,
      h.data.nullRows, h.data.latency, h.data.closed⟩, h.connector, h.target⟩

/-- **A command keeps twins** what they are. -/
theorem twin_runCommand (h : Twin s w v) {c : Command} (hc : Later c) :
    Twin s (runCommand w c).1 (if isClose c then v else (runCommand v c).1) := by
  cases hc with
  | close => exact twin_close h
  | refresh => exact twin_refresh h
  | serve call => exact twin_serve h call
  | insertTable p t =>
    have htables : v.store.tables.insert p t = w.store.tables.insert p t := by rw [h.data.tables]
    exact h.setStores ⟨htables, h.data.failing, h.data.nullRows, h.data.latency, h.data.closed⟩
  | setLatency ms =>
    exact h.setStores ⟨h.data.tables, h.data.failing, h.data.nullRows, rfl, h.data.closed⟩
  | failOn p =>
    have hfailing : v.store.failing.add p = w.store.failing.add p := by rw [h.data.failing]
    exact h.setStores ⟨h.data.tables, hfailing, h.data.nullRows, h.data.latency, h.data.closed⟩
  | nullRowFor p =>
    have hnull : v.store.nullRows.add p = w.store.nullRows.add p := by rw [h.data.nullRows]
    exact h.setStores ⟨h.data.tables, h.data.failing, hnull, h.data.latency, h.data.closed⟩

/-- Twins stay twins if the second is spared the closings. -/
theorem twin_after (h : Twin s w v) {cs : List Command} (hcs : ∀ c ∈ cs, Later c) :
    Twin s (after w cs) (after v (cs.filter fun c => !isClose c)) := by
  induction cs generalizing w v with
  | nil => exact h
  | cons c cs ih =>
    obtain ⟨hc, hrest⟩ := List.forall_mem_cons.1 hcs
    have hnext := ih (twin_runCommand h hc) hrest
    cases hclose : isClose c with
    | true => simpa [after, List.filter_cons, hclose] using hnext
    | false => simpa [after, List.filter_cons, hclose] using hnext

/-- **While both stores are open, twins answer the same**, also where a time limit passes. -/
theorem runCommand_serve_twin (h : Twin s w v) (hopen : w.store.closed = false)
    (call : Serving.Call) :
    ∃ r, (runCommand w (.serve call)).2.result = some r ∧
      (runCommand v (.serve call)).2.result = some r := by
  obtain ⟨i, hi, rfl⟩ := h.installed
  obtain ⟨j, hj, hstate⟩ := h.installed'
  have hdata : Store.SameData w.store v.store :=
    ⟨h.data.tables, h.data.failing, h.data.nullRows, h.data.latency, h.data.closed.trans hopen.symm⟩
  refine ⟨_, (runCommand_serve_in_time hi h.wired call).1, ?_⟩
  rw [(runCommand_serve_in_time hj (hstate ▸ h.wired) call).1, hstate, h.storeOf, h.storeOf,
    Serving.replyInTime_congr hdata]

end Twins

theorem after_refresh (w : World) (cs : List Command) :
    after w (cs ++ [.refresh]) = (runCommand (after w cs) .refresh).1 := by
  rw [after, List.foldl_append]
  rfl

/-- **Reconnecting cannot be noticed.** Let operations of any kind have brought a client to a state
that is connected to the in-memory store, and let its connector lead to that store and refuse nothing;
let the client then be refreshed and called, and its store be closed and set otherwise, in any order
and any number of times. The client has the state that it had, whole and unchanged. A refresh of the
open store changes nothing at all; a refresh of the closed one succeeds, opens the store and counts
one connection more, and the client still has its state; were the connector to lead elsewhere, that
state would have all its parts, both pipelines included, with executors for the other store and the
same time limit. While the store is open every call has a result, and it is the one that the same
client gives after the same commands over a store that was never closed, whatever the latency and the
time limit. -/
theorem reconnecting {w : World} {i : Installed} (hreached : w.client.Reached)
    (hi : w.client.installed = some i) (hstore : i.state.store = .memory)
    (htarget : w.target = .memory) (hrefuses : w.connector.refuses = false)
    {cs : List Command} (hcs : ∀ c ∈ cs, Later c) :
    (∃ j, (after w cs).client.installed = some j ∧ j.state = i.state) ∧
    ((after w cs).store.closed = false →
      runCommand (after w cs) .refresh =
        (after w cs, ⟨some (.ok .done), [], (after w cs).store⟩)) ∧
    ((after w cs).store.closed = true →
      (runCommand (after w cs) .refresh).2.result = some (.ok .done) ∧
      (after w (cs ++ [.refresh])).store = { (after w cs).store with
        closed := false
        connects := (after w cs).store.connects + 1 } ∧
      (∃ j, (after w (cs ++ [.refresh])).client.installed = some j ∧ j.state = i.state) ∧
      ∀ target, ∃ j, (runCommand { after w cs with target } .refresh).1.client.installed = some j ∧
        j.state.SameService i.state ∧ j.state.Wired ∧ j.state.store = target) ∧
    ((after w cs).store.closed = false → ∀ call, ∃ r,
      (runCommand (after w cs) (.serve call)).2.result = some r ∧
      (runCommand (after { w with store := { w.store with closed := false } }
        (cs.filter fun c => !isClose c)) (.serve call)).2.result = some r) := by
  have hstart : Twin i.state w { w with store := { w.store with closed := false } } :=
    ⟨⟨i, hi, rfl⟩, ⟨i, hi, rfl⟩, hreached.wired hi, hstore, .refl _, hrefuses, htarget⟩
  have htwin := twin_after hstart hcs
  obtain ⟨j, hj, hstate⟩ := htwin.installed
  have hseen : ∀ u : World, u.storeOf j.state.store = u.store := hstate ▸ htwin.storeOf
  refine ⟨htwin.installed, fun hopen => ?_, fun hclosed => ?_, runCommand_serve_twin htwin⟩
  · exact runCommand_refresh_open hj (by rw [hseen]; exact hopen)
  · have hclosed' : ((after w cs).storeOf j.state.store).closed = true := by rwa [hseen]
    obtain ⟨hworld, hresult⟩ := runCommand_refresh_closed hj hclosed' htwin.connector
    rw [connectedWorld_of_twin htwin hj hstate] at hworld
    rw [after_refresh, hworld]
    refine ⟨hresult, rfl, ⟨_, rfl, rfl⟩, fun target => ?_⟩
    obtain ⟨hled, -⟩ := runCommand_refresh_closed (w := { after w cs with target }) hj
      (by rw [hseen]; exact hclosed) htwin.connector
    rw [hled, ← hstate]
    exact ⟨_, Refresh.installed_connectedWorld hj, j.state.sameService_reconnected target,
      j.state.wired_reconnected target, j.state.store_reconnected target⟩

/-! ### A call that is too slow -/

/-- The latency of the store is beyond the time limit. -/
def limitedRequest : SetUp.Request :=
  { saleRequest with pool := { queryMillis := some 3 } }

def limitedState : ServingState :=
  (⟨limitedRequest, saleKeys, ⟨SortedMap.insert ∅ 0 saleLookup, saleLookups⟩, none⟩ :
    SetUp.Plan).stateOver .memory

theorem plan_limited : SetUp.plan saleSource limitedRequest = .ok limitedState :=
  SetUp.plan_ok_iff.2 ⟨rfl, [saleSingle], [saleBatch], saleKeys, _, none, rfl, rfl, build_sales,
    compile_sales, rfl, rfl⟩

def limitedWorld : World :=
  { saleWorld limitedState with connector := { delay := 2 } }

def saleCall : Serving.Call := .vectors false [saleEntry 2]

/-- The store is closed and reached again twice, before and after a call. -/
def closings : List Command :=
  [.close, .refresh, .serve saleCall, .close, .close, .refresh]

/-- The call runs out of time as it does when the store is never closed; once the store is as fast as
the limit asks, it is answered. -/
theorem reconnecting_limited :
    SetUp.plan saleSource limitedRequest = .ok limitedState ∧
      (after limitedWorld closings).store.connects = 2 ∧
      (∃ j, (after limitedWorld closings).client.installed = some j ∧ j.state = limitedState) ∧
      (runCommand (after limitedWorld closings) (.serve saleCall)).2.result =
        some (.error (.client (.serving (.backend (.timedOut 1 3))))) ∧
      ∃ b, (runCommand (after limitedWorld (closings ++ [.setLatency 3]))
        (.serve saleCall)).2.result = some (.ok (.vectors b)) ∧ b.vectors = [saleRow 2 20] := by
  have hcs : ∀ c ∈ closings, Later c := by
    simp only [closings, List.forall_mem_cons]
    exact ⟨.close, .refresh, .serve _, .close, .close, .refresh, by simp⟩
  have hreached : limitedWorld.client.Reached := Client.reached_of_plan plan_limited
  obtain ⟨hstate, -, -, -⟩ :=
    reconnecting (i := ⟨0, limitedState⟩) hreached rfl rfl rfl rfl hcs
  have hmore : ∀ c ∈ closings ++ [.setLatency 3], Later c := by
    intro c hc
    rcases List.mem_append.1 hc with hc | hc
    · exact hcs c hc
    · rw [List.mem_singleton.1 hc]
      exact .setLatency 3
  obtain ⟨-, -, -, hserves⟩ :=
    reconnecting (i := ⟨0, limitedState⟩) hreached rfl rfl rfl rfl hmore
  obtain ⟨r, hr, hr'⟩ := hserves rfl saleCall
  refine ⟨plan_limited, rfl, hstate, rfl, ⟨[saleRow 2 20], [.of "id" 0 none true none]⟩, ?_, rfl⟩
  rw [hr, ← hr']
  rfl

end Session

end FeatureServing
