import FeatureServing.Proofs.CallRun
import FeatureServing.Proofs.SetUpRun
import Mathlib.Logic.Relation

/-!
# Operations of one client side by side

A `System` is a world and the operations that were begun in it: set-ups, refreshes and serving calls
of its client, each of them somewhere between its start and its end. `System.Step` is one action of
one operation, or of anything else that leaves the client alone; operations are cut wherever another
one can act in between.

* An operation acts by the steps of its own machine: `SetUp.step`, with any source of metadata,
  `Refresh.step`, and `Serving.Acts` for one action of one query of a call.
* What an operation has to do with the client, with connections or with the store of a connection is
  an `Act`; a `Log` lists the acts of a run.
* `System.Runs` : all systems that a new client can come to, with their logs.
* `System.RunsOn` : those that a run with a log goes on to. Machines that run for a while are such
  runs: `RunsOn.setUp`, `RunsOn.refresh`, `RunsOn.serve`; for a call, `Serving.Goes` are the actions
  that it takes by itself.
-/

namespace FeatureServing

/-- What an operation learns or does that has to do with the client or its stores. -/
inductive Act
  /-- A set-up is told a set of statements. -/
  | hears (batch helper : Bool) (answer : Except ClientError (Option (List PreparedStatement)))
  /-- A set-up or a refresh is given a connection. -/
  | connects (store : Handle)
  | installs (state : ServingState)
  /-- A refresh or a call takes the installed state, if there is one. -/
  | snapshots (seen : Option Installed)
  /-- A refresh that has connected compares the installed state with the one it took. -/
  | compares (known : Installed)
  /-- A query of a call acts on the store of a connection, which is as it is seen then. -/
  | reaches (store : Handle) (seen : Store)

/-- An operation under way or over. -/
inductive Operation
  | settingUp (request : SetUp.Request) (phase : SetUp.Phase)
  | refreshing (phase : Refresh.Phase)
  | serving (call : Serving.Call) (phase : Serving.Phase)

/-! ## What single actions do -/

/-- The act of a set-up's next step. -/
def SetUp.act? (source : Source) (p : Phase) : Option Act :=
  match p with
  | .connecting _ (.connected store) => some (.connects store)
  | .installing plan store => some (.installs (plan.stateOver store))
  | p => p.asks?.map fun (r, batch, helper) => .hears batch helper (source r.entity batch helper)

/-- The act of a refresh's next step. -/
def Refresh.act? (w : World) : Phase → Option Act
  | .fresh => some (.snapshots w.client.installed)
  | .connecting _ (.connected store) => some (.connects store)
  | .installing known _ => some (.compares known)
  | _ => none

namespace Serving

/-- The act that a call begins with; a call that is refused on its own takes no state. -/
def openingAct? (w : World) (call : Call) : Option Act :=
  match call.check with
  | .ok _ => some (.snapshots w.client.installed)
  | .error _ => none

/-- Where a call begins. -/
def opening (w : World) (call : Call) : Phase :=
  match start w call with
  | .ok p => p
  | .error e => .finished (.error e)

/-- One action of a call, with its act if it has one: it begins, a query of it takes a step through the
executor of its pipeline, its rows are put together, or its time limit passes. -/
inductive Acts (w : World) : Phase → Option Act → World → Phase → Prop
  | begins (call : Call) : Acts w (.fresh call) (openingAct? w call) w (opening w call)
  | queries {call : Call} {s : ServingState} {p : Pipeline} {fan : FanOut} {n : Nat} {f f' : Fetch}
    {store : Store} (hn : fan.fetches[n]? = some f)
    (hstep : f.step w.now (w.storeOf p.executor.store) = some (store, f')) :
    Acts w (.fetching call s p fan)
      (some (.reaches p.executor.store (w.storeOf p.executor.store)))
      (w.setStore p.executor.store store)
      (.fetching call s p { fan with fetches := fan.fetches.set n f' })
  | concludes {call : Call} {s : ServingState} {p : Pipeline} {fan : FanOut}
    {results : Except ServingError (SortedMap Position RowSet)}
    (hover : FanOut.outcome? fan.fetches = some results) :
    Acts w (.fetching call s p fan) none w (.finished (conclude call p results))
  | expires {call : Call} {s : ServingState} {p : Pipeline} {fan : FanOut} {d : Deadline}
    (hd : fan.deadline = some d) (hpassed : d.passes ≤ w.now) :
    Acts w (.fetching call s p fan) none
      (w.setStore p.executor.store
        (FanOut.dropAll (w.storeOf p.executor.store) fan.fetches).1)
      (.finished (.error (.serving (.backend (.timedOut fan.fetches.length d.millis)))))

/-- Whether actions of a call come from a world and a phase to others. -/
def Goes : World × Phase → World × Phase → Prop :=
  Relation.ReflTransGen fun a b => ∃ act, Acts a.1 a.2 act b.1 b.2

section Goes

variable (call : Call) (s : ServingState) (p : Pipeline) (deadline : Option Deadline)

theorem goes_query (front back : List Fetch) (fuel : Nat) (w : World) (f : Fetch) :
    Goes (w, .fetching call s p ⟨front ++ f :: back, deadline⟩)
      (w.setStore p.executor.store (f.runFor w.now fuel (w.storeOf p.executor.store)).1,
        .fetching call s p
          ⟨front ++ (f.runFor w.now fuel (w.storeOf p.executor.store)).2 :: back, deadline⟩) := by
  induction fuel generalizing w f with
  | zero =>
    rw [Fetch.runFor, World.setStore_storeOf]
    exact .refl
  | succ fuel ih =>
    rw [Fetch.runFor]
    cases hstep : f.step w.now (w.storeOf p.executor.store) with
    | none =>
      simp only [World.setStore_storeOf]
      exact .refl
    | some next =>
      obtain ⟨store, f'⟩ := next
      have hn : (front ++ f :: back)[front.length]? = some f := by simp
      have hset : (front ++ f :: back).set front.length f' = front ++ f' :: back := by simp
      have hrest := ih (w.setStore p.executor.store store) f'
      rw [World.now_setStore, World.storeOf_setStore, World.setStore_setStore] at hrest
      have hacts : Acts w (.fetching call s p ⟨front ++ f :: back, deadline⟩) _ _ _ :=
        .queries hn hstep
      simp only [hset] at hacts
      exact .head ⟨_, hacts⟩ hrest

theorem goes_queries (front fetches : List Fetch) (w : World) :
    Goes (w, .fetching call s p ⟨front ++ fetches, deadline⟩)
      (w.setStore p.executor.store
          (FanOut.runAll w.now (w.storeOf p.executor.store) fetches).1,
        .fetching call s p ⟨front ++
          (FanOut.runAll w.now (w.storeOf p.executor.store) fetches).2, deadline⟩) := by
  induction fetches generalizing w front with
  | nil =>
    rw [FanOut.runAll, World.setStore_storeOf]
    exact .refl
  | cons f fetches ih =>
    have hfirst := goes_query call s p deadline front fetches 7 w f
    have hrest := ih (front ++ [(f.run w.now (w.storeOf p.executor.store)).2])
      (w.setStore p.executor.store (f.run w.now (w.storeOf p.executor.store)).1)
    rw [World.now_setStore, World.storeOf_setStore, World.setStore_setStore, List.append_assoc,
      List.append_assoc] at hrest
    exact hfirst.trans hrest

/-- **A call that goes on** takes actions of its own. -/
theorem goes_advance (w : World) (p : Phase) : Goes (w, p) (advance w p) := by
  cases p with
  | fresh | finished => exact .refl
  | fetching call s p fan =>
    obtain ⟨fetches, deadline⟩ := fan
    have hqueries := goes_queries call s p deadline [] fetches w
    generalize hall : FanOut.runAll w.now (w.storeOf p.executor.store) fetches = all at hqueries
    obtain ⟨store, fetches'⟩ := all
    rcases FanOut.run_cases (f := ⟨fetches, deadline⟩) hall with
      ⟨results, hover, hrun⟩ | ⟨d, rfl, hpassed, hrun⟩ | hrun
    · rw [advance_of_run hrun]
      exact hqueries.tail ⟨_, .concludes hover⟩
    · have hpassed' : d.passes ≤ (w.setStore p.executor.store store).now := by
        rwa [World.now_setStore]
      have hexpires : Acts _ (.fetching call s p ⟨fetches', some d⟩) _ _ _ := .expires rfl hpassed'
      rw [World.setStore_setStore, World.storeOf_setStore] at hexpires
      rw [advance_of_run hrun]
      exact hqueries.tail ⟨_, hexpires⟩
    · rw [advance, hrun]
      exact hqueries

theorem goes_run (w : World) (call : Call) : Goes (w, opening w call) (run w (.fresh call)) := by
  rw [run, opening]
  cases start w call with
  | error e => exact .refl
  | ok p => exact goes_advance w p

end Goes

end Serving

namespace Operation

/-- Whether an operation has just begun. -/
inductive Begun : Operation → Prop
  | settingUp (r : SetUp.Request) : Begun (.settingUp r (.fresh r))
  | refreshing : Begun (.refreshing .fresh)
  | serving (call : Serving.Call) : Begun (.serving call (.fresh call))

/-- One action of an operation, with its act if it has one. -/
inductive Acts (w : World) : Operation → Option Act → World → Operation → Prop
  | setUp {r : SetUp.Request} {p p' : SetUp.Phase} {w' : World} (source : SetUp.Source)
    (h : SetUp.step source w p = some (w', p')) :
    Acts w (.settingUp r p) (SetUp.act? source p) w' (.settingUp r p')
  | refresh {p p' : Refresh.Phase} {w' : World} (h : Refresh.step w p = some (w', p')) :
    Acts w (.refreshing p) (Refresh.act? w p) w' (.refreshing p')
  | serve {call : Serving.Call} {p p' : Serving.Phase} {act : Option Act} {w' : World}
    (h : Serving.Acts w p act w' p') : Acts w (.serving call p) act w' (.serving call p')

end Operation

/-! ## Systems -/

/-- The acts of a run, each with the number of its operation. -/
abbrev Log := List (Nat × Act)

namespace Log

/-- The acts of one operation. -/
def own (log : Log) (k : Nat) : List Act :=
  log.filterMap fun e => if e.1 = k then some e.2 else none

/-- The state that a set-up installed last. -/
def lastInstalled (log : Log) : Option ServingState :=
  (log.filterMap fun e => match e.2 with
    | .installs s => some s
    | _ => none).getLast?

end Log

/-- A world and the operations that were begun in it, in the order of their starts. -/
structure System where
  world : World
  operations : List Operation

namespace System

/-- One step: something around the client happens, an operation begins, or one acts. -/
inductive Step : System → Log → System → Prop
  | around {w w' : World} {ops : List Operation} (hclient : w'.client = w.client) :
    Step ⟨w, ops⟩ [] ⟨w', ops⟩
  | begins {w : World} {ops : List Operation} {op : Operation} (hop : op.Begun) :
    Step ⟨w, ops⟩ [] ⟨w, ops ++ [op]⟩
  | acts {w w' : World} {ops : List Operation} {k : Nat} {op op' : Operation} {act : Option Act}
    (hk : ops[k]? = some op) (hact : op.Acts w act w' op') :
    Step ⟨w, ops⟩ (act.toList.map (k, ·)) ⟨w', ops.set k op'⟩

/-- The systems that a new client can come to, with the acts on the way. -/
inductive Runs : Log → System → Prop
  | start {w : World} (hnew : w.client = {}) : Runs [] ⟨w, []⟩
  | step {log more : Log} {s s' : System} (hruns : Runs log s) (hstep : Step s more s') :
    Runs (log ++ more) s'

/-- Whether a run with a log can go on to a system. -/
def RunsOn (log : Log) (s : System) : Prop :=
  ∃ more, Runs (log ++ more) s

theorem Runs.on {log : Log} {s : System} (h : Runs log s) : RunsOn log s :=
  ⟨[], by rwa [List.append_nil]⟩

theorem RunsOn.step {log more : Log} {s s' : System} (h : RunsOn log s) (hstep : Step s more s') :
    RunsOn log s' := by
  obtain ⟨before, hruns⟩ := h
  exact ⟨before ++ more, by simpa only [List.append_assoc] using hruns.step hstep⟩

/-! ## Machines that run for a while -/

section Machines

variable {log : Log} {w : World} {ops : List Operation} {k : Nat}

theorem RunsOn.acts {op op' : Operation} {act : Option Act} {w' : World} (h : RunsOn log ⟨w, ops⟩)
    (hk : ops[k]? = some op) (hact : op.Acts w act w' op') :
    RunsOn log ⟨w', ops.set k op'⟩ :=
  h.step (.acts hk hact)

theorem getElem?_set_of_some {op : Operation} (op' : Operation) (hk : ops[k]? = some op) :
    (ops.set k op')[k]? = some op' :=
  List.getElem?_set_self (List.getElem?_eq_some_iff.1 hk).1

theorem set_of_getElem? {op : Operation} (hk : ops[k]? = some op) : ops.set k op = ops := by
  obtain ⟨hlt, rfl⟩ := List.getElem?_eq_some_iff.1 hk
  exact List.set_getElem_self hlt

theorem RunsOn.setUp {source : SetUp.Source} {r : SetUp.Request} {p p' : SetUp.Phase} {n : Nat}
    {w' : World} (h : RunsOn log ⟨w, ops⟩) (hk : ops[k]? = some (.settingUp r p))
    (hruns : SetUp.Runs source w p n w' p') :
    RunsOn log ⟨w', ops.set k (.settingUp r p')⟩ := by
  induction hruns generalizing ops with
  | refl =>
    rw [set_of_getElem? hk]
    exact h
  | step hstep _ ih =>
    have hnext := ih (h.acts hk (.setUp source hstep)) (getElem?_set_of_some _ hk)
    rwa [List.set_set] at hnext
  | around hclient _ _ _ ih => exact ih (h.step (.around hclient)) hk

theorem RunsOn.refresh {p : Refresh.Phase} (h : RunsOn log ⟨w, ops⟩)
    (hk : ops[k]? = some (.refreshing p)) (fuel : Nat) :
    RunsOn log ⟨(Refresh.runFor fuel w p).1,
      ops.set k (.refreshing (Refresh.runFor fuel w p).2)⟩ := by
  induction fuel generalizing w ops p with
  | zero =>
    rw [Refresh.runFor, set_of_getElem? hk]
    exact h
  | succ fuel ih =>
    rw [Refresh.runFor]
    cases hstep : Refresh.step w p with
    | none =>
      rw [set_of_getElem? hk]
      exact h
    | some next =>
      have hnext := ih (h.acts hk (.refresh hstep)) (getElem?_set_of_some _ hk)
      rwa [List.set_set] at hnext

/-- A call that takes actions of its own is a run of its system. -/
theorem RunsOn.serve {call : Serving.Call} {p : Serving.Phase} {last : World × Serving.Phase}
    (h : RunsOn log ⟨w, ops⟩) (hk : ops[k]? = some (.serving call p))
    (hgoes : Serving.Goes (w, p) last) :
    RunsOn log ⟨last.1, ops.set k (.serving call last.2)⟩ := by
  induction hgoes with
  | refl =>
    rw [set_of_getElem? hk]
    exact h
  | tail _ hacts ih =>
    obtain ⟨act, hact⟩ := hacts
    have hnext := ih.acts (getElem?_set_of_some _ hk) (.serve hact)
    rwa [List.set_set] at hnext

theorem RunsOn.asks {call : Serving.Call} {i : Installed} {p : Pipeline} {fetches : List Fetch}
    (h : RunsOn log ⟨w, ops⟩) (hk : ops[k]? = some (.serving call (.fresh call)))
    (hi : w.client.installed = some i) (hq : Serving.queries i.state call = .ok (p, fetches)) :
    RunsOn log ⟨w, ops.set k (.serving call
      (.fetching call i.state p (p.executor.submit w.now fetches)))⟩ := by
  have hopening : Serving.opening w call =
      .fetching call i.state p (p.executor.submit w.now fetches) := by
    rw [Serving.opening, Serving.start_of_installed hi, hq]
    rfl
  exact hopening ▸ h.acts hk (.serve (.begins call))

/-- A call whose queries are submitted, and which nothing disturbs, is answered from the store of its
pipeline. -/
theorem RunsOn.answered {call : Serving.Call} {s : ServingState} {p : Pipeline}
    {fetches : List Fetch} (h : RunsOn log ⟨w, ops⟩)
    (hk : ops[k]? = some (.serving call (.fetching call s p (p.executor.submit w.now fetches))))
    (hfresh : ∀ f ∈ fetches, f.phase = .fresh) :
    ∃ w', w'.client = w.client ∧ RunsOn log ⟨w', ops.set k (.serving call (.finished
      (Serving.conclude call p (FanOut.answersWithin (w.storeOf p.executor.store)
        p.executor.limit fetches))))⟩ := by
  obtain ⟨store, f, o, hrun, hdata, ho⟩ :=
    FanOut.run_fresh (w.storeOf p.executor.store) w.now hfresh p.executor.limit
  have hsubmitted : (p.executor.submit w.now fetches).run w.now (w.storeOf p.executor.store) =
      (store, f, o) := hrun
  have hnext := h.serve hk (Serving.goes_advance w _)
  rcases ho with rfl | ⟨rfl, wake, -, -, hends⟩
  · rw [Serving.advance_of_run hsubmitted] at hnext
    exact ⟨_, w.client_setStore _ _, hnext⟩
  · -- The queries sleep: the clock moves to the end of that, and the call goes on.
    rw [Serving.advance, hsubmitted] at hnext
    have hlater : RunsOn log ⟨({ w with now := wake } : World).setStore p.executor.store store, _⟩ :=
      hnext.step (.around ((World.client_setStore _ _ _).trans (w.client_setStore _ _).symm))
    have hdata' : Store.SameData (w.storeOf p.executor.store)
        ((({ w with now := wake } : World).setStore p.executor.store store).storeOf
          p.executor.store) := by
      rwa [World.storeOf_setStore]
    obtain ⟨store', f', hend, -⟩ := hends _ hdata'
    have hlast := hlater.serve (getElem?_set_of_some _ hk) (Serving.goes_advance _ _)
    rw [Serving.advance_of_run (by rw [World.now_setStore]; exact hend), List.set_set] at hlast
    refine ⟨_, ?_, hlast⟩
    rw [World.client_setStore, World.client_setStore]

end Machines

end System

end FeatureServing
