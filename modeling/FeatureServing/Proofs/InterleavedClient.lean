import FeatureServing.Proofs.BatchAgreement
import FeatureServing.Proofs.InterleavedCalls
import FeatureServing.Proofs.RefreshRun

/-!
# The client under concurrent operations

Whatever operations run side by side, no update of the client is lost and none is stale.

* `Client.Changes` : all that an action can do to the client, by its act;
* `Client.Recalls` : a client knows a state that was installed once by its stamp;
* `SetUp.follows_step`, `Refresh.follows_step`, `Serving.follows_step` : how far each operation is,
  given its acts, and what its next action does;
* `System.Invariant` : what these facts say of a whole system, kept by every step;
* `System.client_of_runs` : the client of every system that a new client can come to.
-/

namespace FeatureServing

/-! ## Acts -/

/-- What a set-up was told last about every set. -/
def heard (acts : List Act) : SetUp.Answers :=
  acts.foldl (fun answers a => match a with
    | .hears batch helper answer => answers.tell batch helper answer
    | _ => answers) fun _ _ => .ok none

/-- The states that an operation installed by setting up. -/
def installs (acts : List Act) : List ServingState :=
  acts.filterMap fun a => match a with
    | .installs s => some s
    | _ => none

/-- The connections that an operation was given. -/
def connections (acts : List Act) : List Handle :=
  acts.filterMap fun a => match a with
    | .connects store => some store
    | _ => none

theorem installs_append (acts acts' : List Act) :
    installs (acts ++ acts') = installs acts ++ installs acts' :=
  List.filterMap_append

theorem connections_append (acts acts' : List Act) :
    connections (acts ++ acts') = connections acts ++ connections acts' :=
  List.filterMap_append

theorem mem_connections_iff {acts : List Act} {store : Handle} :
    store ∈ connections acts ↔ .connects store ∈ acts := by
  refine List.mem_filterMap.trans ⟨?_, fun h => ⟨_, h, rfl⟩⟩
  rintro ⟨a, ha, hstore⟩
  cases a with
  | connects store' => exact Option.some.inj hstore ▸ ha
  | _ => cases hstore

theorem heard_append_act? (acts : List Act) (source : SetUp.Source) (p : SetUp.Phase) :
    heard (acts ++ (SetUp.act? source p).toList) = (heard acts).after source p := by
  rw [heard, List.foldl_append]
  cases p with
  | connecting plan c => cases c <;> rfl
  | _ => rfl

namespace Client

/-! ## Stamps -/

/-- Whether the installed state of a client is the one that was installed last. -/
def Sound (c : Client) : Prop :=
  match c.installed with
  | none => c.installs = 0
  | some i => c.installs = i.stamp + 1

/-- Whether a state was installed once, and is the installed one if its stamp is. -/
structure Recalls (c : Client) (known : Installed) : Prop where
  past : known.stamp < c.installs
  same : ∀ i, c.installed = some i → i.stamp = known.stamp → i = known

variable {c : Client} {known : Installed}

theorem sound_install (c : Client) (s : ServingState) : (c.install s).Sound := rfl

theorem recalls_install (h : c.Recalls known) (s : ServingState) : (c.install s).Recalls known := by
  refine ⟨Nat.lt_succ_of_lt h.past, fun i hi hstamp => ?_⟩
  obtain rfl : ⟨c.installs, s⟩ = i := Option.some.inj hi
  exact absurd hstamp (Nat.ne_of_gt h.past)

theorem recalls_installed (hsound : c.Sound) (hi : c.installed = some known) :
    c.Recalls known := by
  rw [Sound, hi] at hsound
  refine ⟨hsound ▸ Nat.lt_succ_self _, fun i hi' _ => ?_⟩
  exact Option.some.inj (hi'.symm.trans hi)

/-- The comparison of stamps is one of states. -/
theorem installOver_eq (hsound : c.Sound) (h : c.Recalls known) (s : ServingState) :
    c.installed = some known ∧ c.installOver known s = c.install s ∨
      c.installed ≠ some known ∧ c.installOver known s = c := by
  have hpast := h.past
  cases hi : c.installed with
  | none =>
    rw [Sound, hi] at hsound
    omega
  | some i =>
    rw [installOver, hi]
    by_cases hstamp : i.stamp = known.stamp
    · obtain rfl := h.same i hi hstamp
      exact .inl ⟨rfl, if_pos rfl⟩
    · refine .inr ⟨fun hsome => hstamp ?_, if_neg hstamp⟩
      rw [Option.some.inj hsome]

/-- What an action can do to the client, by its act and the acts of its operation before. A set-up
installs a state that is wired to the connection that it was given. A refresh that finds the state
that it took still installed puts the same service in its place, wired to the connection that the
refresh was given; if another state is installed it leaves that one. -/
inductive Changes (acts : List Act) (c : Client) : Option Act → Client → Prop
  | quiet : Changes acts c none c
  | hears (batch helper : Bool) (answer : Except ClientError (Option (List PreparedStatement))) :
    Changes acts c (some (.hears batch helper answer)) c
  | connects (store : Handle) : Changes acts c (some (.connects store)) c
  | snapshots : Changes acts c (some (.snapshots c.installed)) c
  | reaches (store : Handle) (seen : Store) : Changes acts c (some (.reaches store seen)) c
  | installs (s : ServingState) (hconnects : .connects s.store ∈ acts) (hwired : s.Wired) :
    Changes acts c (some (.installs s)) (c.install s)
  | renews (known : Installed) (s : ServingState) (htook : .snapshots (some known) ∈ acts)
    (hconnects : .connects s.store ∈ acts) (hservice : s.SameService known.state)
    (hwired : s.Wired) (hsame : c.installed = some known) :
    Changes acts c (some (.compares known)) (c.install s)
  | yields (known : Installed) (htook : .snapshots (some known) ∈ acts)
    (hother : c.installed ≠ some known) : Changes acts c (some (.compares known)) c

theorem Changes.eq_or_install {acts : List Act} {act : Option Act} {c' : Client}
    (h : c.Changes acts act c') : c' = c ∨ ∃ s, c' = c.install s := by
  cases h with
  | installs s | renews _ s => exact .inr ⟨s, rfl⟩
  | _ => exact .inl rfl

end Client

/-! ## Set-ups -/

namespace SetUp

/-- Whether a set-up was not given a connection yet, or has failed. -/
def Phase.isUnlinked : Phase → Bool
  | .installing _ _ | .finished (.ok _) => false
  | _ => true

/-- How far a set-up can be when it has had these acts. It installs at the very end, and what it
installs is planned from what it was told, over the only connection that it was given. -/
structure Follows (r : Request) (acts : List Act) (p : Phase) : Prop where
  reads : Reads (heard acts) r p
  unlinked : p.isUnlinked = true → installs acts = [] ∧ connections acts = []
  linked : ∀ plan store, p = .installing plan store → installs acts = [] ∧ connections acts = [store]
  done : p = .finished (.ok ()) → ∃ s store, installs acts = [s] ∧ connections acts = [store] ∧
    planOf (heard acts) r store = .ok s

theorem act?_of_unlinked {p : Phase} (source : Source) (hp : p.isUnlinked = true)
    (hconnected : ∀ plan store, p ≠ .connecting plan (.connected store)) :
    act? source p = none ∨
      ∃ batch helper answer, act? source p = some (.hears batch helper answer) := by
  cases p with
  | connecting plan c =>
    cases c with
    | connected store => exact absurd rfl (hconnected plan store)
    | _ => exact .inl rfl
  | installing => cases hp
  | fresh | finished => exact .inl rfl
  | readingSingle | readingBatch | readingHelperSingle | readingHelperBatch =>
    exact .inr ⟨_, _, _, rfl⟩

section Steps

variable {source : Source} {r : Request} {acts : List Act} {p p' : Phase}

/-- All steps but the last two: the set-up has no connection before and none after. -/
theorem follows_of_unlinked (c : Client) (hp : Follows r acts p)
    (hreads : Reads (heard (acts ++ (act? source p).toList)) r p') (hunlinked : p.isUnlinked = true)
    (hconnected : ∀ plan store, p ≠ .connecting plan (.connected store))
    (hunlinked' : p'.isUnlinked = true) :
    c.Changes acts (act? source p) c ∧ Follows r (acts ++ (act? source p).toList) p' := by
  have hlinked : ∀ plan store, p' ≠ .installing plan store := by
    rintro plan store rfl
    cases hunlinked'
  have hdone : p' ≠ .finished (.ok ()) := by
    rintro rfl
    cases hunlinked'
  obtain ⟨hinstalls, hconnections⟩ := hp.unlinked hunlinked
  rcases act?_of_unlinked source hunlinked hconnected with hact | ⟨batch, helper, answer, hact⟩
  · rw [hact] at hreads ⊢
    refine ⟨.quiet, hreads, fun _ => ?_, fun _ _ h => absurd h (hlinked _ _),
      fun h => absurd h hdone⟩
    rw [Option.toList_none, List.append_nil]
    exact ⟨hinstalls, hconnections⟩
  · rw [hact] at hreads ⊢
    refine ⟨.hears batch helper answer, hreads, fun _ => ?_, fun _ _ h => absurd h (hlinked _ _),
      fun h => absurd h hdone⟩
    rw [installs_append, connections_append, hinstalls, hconnections]
    exact ⟨rfl, rfl⟩

theorem follows_step {w w' : World} (hp : Follows r acts p) (h : step source w p = some (w', p')) :
    w.client.Changes acts (act? source p) w'.client ∧
      Follows r (acts ++ (act? source p).toList) p' := by
  have hreads := reads_step hp.reads h
  rw [← heard_append_act?] at hreads
  cases moves_of_step h with
  | plans hplanning hp' =>
    refine follows_of_unlinked w.client hp hreads ?_ ?_ ?_
    · cases p <;> first | rfl | cases hplanning
    · rintro plan store rfl
      cases hplanning
    · rcases hp' with hp' | ⟨plan, rfl⟩
      · cases p' <;> first | rfl | cases hp'
      · rfl
  | fails e hplanning =>
    refine follows_of_unlinked w.client hp hreads ?_ ?_ rfl
    · cases p <;> first | rfl | cases hplanning
    · rintro plan store rfl
      cases hplanning
  | connects plan =>
    rw [World.client_setStore]
    exact follows_of_unlinked w.client hp hreads rfl (by simp) rfl
  | takes plan store =>
    obtain ⟨hinstalls, hconnections⟩ := hp.unlinked rfl
    have hacts : installs (acts ++ [.connects store]) = [] ∧
        connections (acts ++ [.connects store]) = [store] := by
      rw [installs_append, connections_append, hinstalls, hconnections]
      exact ⟨rfl, rfl⟩
    refine ⟨.connects store, hreads, fun h => absurd h Bool.false_ne_true, fun _ _ h => ?_,
      fun h => Phase.noConfusion h⟩
    obtain ⟨-, rfl⟩ := Phase.installing.inj h
    exact hacts
  | installs plan store =>
    obtain ⟨hinstalls, hconnections⟩ := hp.linked plan store rfl
    have hheard : heard (acts ++ [.installs (plan.stateOver store)]) = heard acts :=
      heard_append_act? acts source (.installing plan store)
    have hplan : planOf (heard acts) r store = .ok (plan.stateOver store) :=
      map_ok_iff.2 ⟨plan, hp.reads, rfl⟩
    have hacts : installs (acts ++ [.installs (plan.stateOver store)]) = [plan.stateOver store] ∧
        connections (acts ++ [.installs (plan.stateOver store)]) = [store] := by
      rw [installs_append, connections_append, hinstalls, hconnections]
      exact ⟨rfl, rfl⟩
    have hconnects : .connects store ∈ acts :=
      mem_connections_iff.1 (hconnections ▸ List.mem_singleton_self store)
    exact ⟨.installs _ hconnects (plan.wired_stateOver store), hreads,
      fun h => absurd h Bool.false_ne_true, fun _ _ h => Phase.noConfusion h,
      fun _ => ⟨_, store, hacts.1, hacts.2, hheard ▸ hplan⟩⟩
  | _ => exact follows_of_unlinked w.client hp hreads rfl (by simp) rfl

end Steps

end SetUp

/-! ## Refreshes -/

theorem Connecting.client_of_step {w w' : World} {c c' : Connecting}
    (h : c.step w = some (w', c')) : w'.client = w.client := by
  cases c with
  | fresh =>
    cases h
    rfl
  | waiting wake refuses =>
    rw [step] at h
    split at h
    · cases refuses <;> cases h
      · exact w.client_setStore _ _
      · rfl
    · cases h
  | connected | refused => cases h

namespace Refresh

/-- How far a refresh can be when it has had these acts. -/
def Follows (c : Client) (acts : List Act) : Phase → Prop
  | .fresh => acts = []
  | .pinging known | .connecting known _ => acts = [.snapshots (some known)] ∧ c.Recalls known
  | .installing known store =>
    acts = [.snapshots (some known), .connects store] ∧ c.Recalls known
  | .finished _ =>
    acts = [.snapshots none] ∨ ∃ known, acts = [.snapshots (some known)] ∨
      ∃ store, acts = [.snapshots (some known), .connects store, .compares known]

theorem follows_step {w w' : World} {acts : List Act} {p p' : Phase} (hsound : w.client.Sound)
    (hp : Follows w.client acts p) (h : step w p = some (w', p')) :
    w.client.Changes acts (act? w p) w'.client ∧
      Follows w'.client (acts ++ (act? w p).toList) p' := by
  cases p with
  | fresh =>
    obtain rfl : acts = [] := hp
    cases hi : w.client.installed with
    | none =>
      have hstep : step w .fresh = some (w, .finished (.error .notReady)) := by
        rw [step, Client.snapshot, hi]
      obtain ⟨rfl, rfl⟩ : w = w' ∧ _ = p' := by simpa [hstep] using h
      rw [act?]
      exact ⟨.snapshots, .inl (by rw [hi]; rfl)⟩
    | some known =>
      obtain ⟨rfl, rfl⟩ : w = w' ∧ _ = p' := by simpa [step_fresh hi] using h
      rw [act?]
      exact ⟨.snapshots, by rw [hi]; rfl, Client.recalls_installed hsound hi⟩
  | pinging known =>
    obtain ⟨rfl, hrecalls⟩ := hp
    rw [step] at h
    split at h <;> cases h
    · exact ⟨.quiet, .inr ⟨known, .inl rfl⟩⟩
    · exact ⟨.quiet, rfl, hrecalls⟩
  | connecting known c =>
    obtain ⟨rfl, hrecalls⟩ := hp
    cases c with
    | connected store =>
      obtain ⟨rfl, rfl⟩ : w = w' ∧ _ = p' := by simpa [step] using h
      exact ⟨.connects store, rfl, hrecalls⟩
    | refused =>
      obtain ⟨rfl, rfl⟩ : w = w' ∧ _ = p' := by simpa [step] using h
      exact ⟨.quiet, .inr ⟨known, .inl rfl⟩⟩
    | fresh =>
      obtain ⟨rfl, rfl⟩ : w = w' ∧ _ = p' := by simpa [step, Connecting.step] using h
      exact ⟨.quiet, rfl, hrecalls⟩
    | waiting =>
      obtain ⟨⟨w₁, c'⟩, hc, hp'⟩ := Option.map_eq_some_iff.1 h
      cases hp'
      rw [Connecting.client_of_step hc]
      exact ⟨.quiet, rfl, hrecalls⟩
  | installing known store =>
    obtain ⟨rfl, hrecalls⟩ := hp
    obtain ⟨rfl, rfl⟩ : _ = w' ∧ _ = p' := by simpa [step] using h
    refine ⟨?_, .inr ⟨known, .inr ⟨store, rfl⟩⟩⟩
    change w.client.Changes _ _ (w.client.installOver known (known.state.reconnected store))
    rcases Client.installOver_eq hsound hrecalls (known.state.reconnected store) with
      ⟨hsame, heq⟩ | ⟨hother, heq⟩
    · rw [heq]
      exact .renews known _ (by simp) (by simp) (known.state.sameService_reconnected store)
        (known.state.wired_reconnected store) hsame
    · rw [heq]
      exact .yields known (by simp) hother
  | finished => cases h

theorem installs_of_follows {c : Client} {acts : List Act} {p : Phase}
    (h : Follows c acts p) : installs acts = [] := by
  cases p with
  | fresh =>
    obtain rfl : acts = [] := h
    rfl
  | finished => rcases h with rfl | ⟨known, rfl | ⟨store, rfl⟩⟩ <;> rfl
  | pinging known | connecting known c | installing known =>
    obtain ⟨rfl, -⟩ := h
    rfl

end Refresh

/-! ## Calls -/

namespace Serving

/-- How far a call can be when it has had these acts. It is refused on its own, or finds no state; or
it takes a state and works on with nothing else, and all that it sees from then on is the store that
this state is connected to. -/
inductive Follows (call : Call) : List Act → Phase → Prop
  | fresh : Follows call [] (.fresh call)
  | refused (e : ClientError) (hcheck : call.check = .error e) :
    Follows call [] (.finished (.error e))
  | notReady : Follows call [.snapshots none] (.finished (.error .notReady))
  | works (i : Installed) (seen : List Store) {p : Phase} (hwired : i.state.Wired)
    (hworks : WorksOn i.state call seen p) :
    Follows call (.snapshots (some i) :: seen.map (.reaches i.state.store)) p

theorem follows_opening {w : World} (hwired : ∀ i, w.client.installed = some i → i.state.Wired)
    (call : Call) : Follows call (openingAct? w call).toList (opening w call) := by
  cases hcheck : call.check with
  | error e =>
    have hstart : start w call = .error e := by rw [start, bind_of_error hcheck]
    rw [openingAct?, hcheck, opening, hstart]
    exact .refused e hcheck
  | ok _ =>
    rw [openingAct?, hcheck]
    cases hi : w.client.installed with
    | none =>
      have hsnapshot : w.client.snapshot = .error .notReady := by rw [Client.snapshot, hi]
      have hstart : start w call = .error .notReady := by
        rw [start, bind_of_ok hcheck, bind_of_error hsnapshot]
      rw [opening, hstart]
      exact .notReady
    | some i => exact .works i [] (hwired i hi) (worksOn_opening hi call)

/-- **Every action of a call** follows its acts and leaves the client alone. -/
theorem follows_step {w w' : World} (hwired : ∀ i, w.client.installed = some i → i.state.Wired)
    {call : Call} {acts : List Act} {p p' : Phase} {act : Option Act} (hp : Follows call acts p)
    (h : Acts w p act w' p') :
    w.client.Changes acts act w'.client ∧ Follows call (acts ++ act.toList) p' := by
  have hchanges : w.client.Changes acts act w'.client := by
    cases h with
    | begins c =>
      rw [openingAct?]
      split
      · exact .snapshots
      · exact .quiet
    | queries => exact (w.client_setStore _ _).symm ▸ .reaches _ _
    | concludes => exact .quiet
    | expires => exact (w.client_setStore _ _).symm ▸ .quiet
  refine ⟨hchanges, ?_⟩
  cases hp with
  | fresh =>
    cases h
    exact follows_opening hwired call
  | refused | notReady => cases h
  | works i seen hi hworks =>
    rcases worksOn_step hworks h with ⟨rfl, hnext⟩ | ⟨pipeline, fetches, hq, rfl, hnext⟩
    · rw [Option.toList_none, List.append_nil]
      exact .works i seen hi hnext
    · have hstore : pipeline.executor.store = i.state.store := by
        rw [hi.executor_of_pipeline (queries_ok_iff.1 hq).2.1]
      rw [hstore] at hnext ⊢
      have hacts := Follows.works i _ hi hnext
      rwa [List.map_append] at hacts

theorem installs_of_follows {call : Call} {acts : List Act} {p : Phase}
    (h : Follows call acts p) : installs acts = [] := by
  cases h with
  | works i seen =>
    rw [installs, List.filterMap_cons, List.filterMap_map]
    exact List.filterMap_eq_nil_iff.2 fun _ _ => rfl
  | _ => rfl

end Serving

/-! ## Operations -/

namespace Operation

/-- How far an operation can be when it has had these acts. -/
def Follows (c : Client) (acts : List Act) : Operation → Prop
  | .settingUp r p => SetUp.Follows r acts p
  | .refreshing p => Refresh.Follows c acts p
  | .serving call p => Serving.Follows call acts p

theorem follows_begun {op : Operation} (h : op.Begun) (c : Client) : op.Follows c [] := by
  cases h with
  | settingUp r =>
    exact ⟨rfl, fun _ => ⟨rfl, rfl⟩, fun _ _ h => SetUp.Phase.noConfusion h,
      fun h => SetUp.Phase.noConfusion h⟩
  | refreshing => rfl
  | serving call => exact .fresh

/-- **An action of an operation** changes the client as its act says. -/
theorem follows_acts {w w' : World} {acts : List Act} {op op' : Operation} {act : Option Act}
    (hsound : w.client.Sound) (hwired : ∀ i, w.client.installed = some i → i.state.Wired)
    (hop : op.Follows w.client acts) (h : op.Acts w act w' op') :
    w.client.Changes acts act w'.client ∧ op'.Follows w'.client (acts ++ act.toList) := by
  cases h with
  | setUp source hstep => exact SetUp.follows_step hop hstep
  | refresh hstep => exact Refresh.follows_step hsound hop hstep
  | serve hacts => exact Serving.follows_step hwired hop hacts

/-- What others do to the client leaves an operation where it is. -/
theorem follows_of_change {c c' : Client} {acts : List Act} {op : Operation}
    (hop : op.Follows c acts) (hc : c' = c ∨ ∃ s, c' = c.install s) : op.Follows c' acts := by
  rcases hc with rfl | ⟨s, rfl⟩
  · exact hop
  · cases op with
    | settingUp r p => exact hop
    | serving call p => exact hop
    | refreshing p =>
      cases p with
      | pinging known | connecting known c | installing known =>
        exact ⟨hop.1, Client.recalls_install hop.2 s⟩
      | _ => exact hop

end Operation

/-! ## Logs -/

namespace Log

theorem own_append (log more : Log) (k : Nat) : (log ++ more).own k = log.own k ++ own more k :=
  List.filterMap_append

theorem own_acts (act : Option Act) (k j : Nat) :
    own (act.toList.map (k, ·)) j = if k = j then act.toList else [] := by
  cases act <;> by_cases h : k = j <;> simp [own, h]

theorem lastInstalled_append (log : Log) (k : Nat) (act : Option Act) :
    (log ++ act.toList.map (k, ·)).lastInstalled =
      match act with
      | some (.installs s) => some s
      | _ => log.lastInstalled := by
  cases act with
  | none => rw [Option.toList_none, List.map_nil, List.append_nil]
  | some a =>
    rw [lastInstalled, List.filterMap_append]
    cases a with
    | installs s => exact List.getLast?_concat
    | _ => exact congrArg List.getLast? (List.append_nil _)

theorem mem_own_iff {log : Log} {k : Nat} {a : Act} : a ∈ log.own k ↔ (k, a) ∈ log := by
  simp [own]

end Log

/-! ## Systems -/

namespace System

/-- Whether a client has the service of the state that a set-up installed last, wired to a connection
that an operation was given. -/
inductive Holds (log : Log) : Option Installed → Option ServingState → Prop
  | notReady : Holds log none none
  | ready {k : Nat} {i : Installed} {last : ServingState} (hservice : i.state.SameService last)
    (hwired : i.state.Wired) (hconnects : (k, .connects i.state.store) ∈ log) :
    Holds log (some i) (some last)

/-- What holds of a system that a new client has come to with a log. -/
structure Invariant (log : Log) (s : System) : Prop where
  sound : s.world.client.Sound
  holds : Holds log s.world.client.installed log.lastInstalled
  unborn : ∀ k, s.operations.length ≤ k → log.own k = []
  follows : ∀ k (op : Operation), s.operations[k]? = some op → op.Follows s.world.client (log.own k)

theorem invariant_start {w : World} (hnew : w.client = {}) : Invariant [] ⟨w, []⟩ where
  sound := by
    rw [hnew]
    rfl
  holds := by
    rw [hnew]
    exact .notReady
  unborn _ _ := rfl
  follows k op hk := by simp at hk

theorem Holds.mono {log more : Log} {installed : Option Installed} {last : Option ServingState}
    (h : Holds log installed last) : Holds (log ++ more) installed last := by
  cases h with
  | notReady => exact .notReady
  | ready hservice hwired hconnects =>
    exact .ready hservice hwired (List.mem_append_left _ hconnects)

theorem Holds.wired {log : Log} {i : Installed} {last : Option ServingState}
    (h : Holds log (some i) last) : i.state.Wired := by
  cases h with
  | ready _ hwired => exact hwired

/-- A refresh that installs a state leaves the service as it is. -/
theorem holds_append {log : Log} {k : Nat} {act : Option Act} {c c' : Client}
    (hlast : Holds log c.installed log.lastInstalled) (h : c.Changes (log.own k) act c') :
    Holds (log ++ act.toList.map (k, ·)) c'.installed
      (log ++ act.toList.map (k, ·)).lastInstalled := by
  rw [Log.lastInstalled_append]
  cases h with
  | installs s hconnects hwired =>
    exact .ready (.refl s) hwired (List.mem_append_left _ (Log.mem_own_iff.1 hconnects))
  | renews known s htook hconnects hservice hwired hsame =>
    rw [hsame] at hlast
    generalize log.lastInstalled = last at hlast
    cases hlast with
    | ready hknown =>
      exact .ready (hservice.trans hknown) hwired
        (List.mem_append_left _ (Log.mem_own_iff.1 hconnects))
  | _ => exact hlast.mono

theorem invariant_acts {log : Log} {w w' : World} {ops : List Operation} {k : Nat}
    {op op' : Operation} {act : Option Act} (h : Invariant log ⟨w, ops⟩) (hk : ops[k]? = some op)
    (hact : op.Acts w act w' op') :
    Invariant (log ++ act.toList.map (k, ·)) ⟨w', ops.set k op'⟩ ∧
      w.client.Changes (log.own k) act w'.client := by
  have hwired : ∀ i, w.client.installed = some i → i.state.Wired := by
    intro i hi
    have hholds := h.holds
    rw [hi] at hholds
    exact hholds.wired
  obtain ⟨hchanges, hfollows⟩ := Operation.follows_acts h.sound hwired (h.follows k op hk) hact
  have hchange := hchanges.eq_or_install
  have hlt : k < ops.length := (List.getElem?_eq_some_iff.1 hk).1
  refine ⟨⟨?_, holds_append h.holds hchanges, fun j hj => ?_, fun j opj hj => ?_⟩, hchanges⟩
  · rcases hchange with heq | ⟨s, heq⟩
    · exact heq ▸ h.sound
    · exact heq ▸ Client.sound_install _ _
  · have hlen : ops.length ≤ j := by simpa using hj
    rw [Log.own_append, Log.own_acts, h.unborn j hlen, if_neg (by omega)]
    rfl
  · rw [Log.own_append, Log.own_acts]
    by_cases hkj : k = j
    · subst hkj
      obtain rfl : op' = opj := by simpa [hlt] using hj
      rw [if_pos rfl]
      exact hfollows
    · rw [if_neg hkj, List.append_nil]
      exact Operation.follows_of_change (h.follows j opj (by simpa [hkj] using hj)) hchange

/-- **Every step keeps the invariant**, and changes the client as its act says. -/
theorem invariant_step {log more : Log} {s s' : System} (h : Invariant log s)
    (hstep : Step s more s') :
    Invariant (log ++ more) s' ∧ ∃ k act, more = act.toList.map (k, ·) ∧
      s.world.client.Changes (log.own k) act s'.world.client := by
  cases hstep with
  | @around w w' ops hclient =>
    refine ⟨?_, 0, none, rfl, hclient ▸ .quiet⟩
    rw [List.append_nil]
    exact ⟨hclient ▸ h.sound, hclient ▸ h.holds, h.unborn,
      fun k op hk => hclient ▸ h.follows k op hk⟩
  | @begins w ops op hop =>
    refine ⟨?_, 0, none, rfl, .quiet⟩
    rw [List.append_nil]
    refine ⟨h.sound, h.holds, fun k hk => h.unborn k ?_, fun k opk hk => ?_⟩
    · have hlen : ops.length + 1 ≤ k := by simpa using hk
      exact Nat.le_of_succ_le hlen
    · rcases Nat.lt_or_ge k ops.length with hlt | hge
      · exact h.follows k opk (by rwa [List.getElem?_append_left hlt] at hk)
      · have hmem : opk ∈ [op] :=
          List.mem_of_getElem? ((List.getElem?_append_right hge).symm.trans hk)
        obtain rfl := List.mem_singleton.1 hmem
        rw [h.unborn k hge]
        exact Operation.follows_begun hop _
  | @acts w w' ops k op op' act hk hact =>
    obtain ⟨hinv, hchanges⟩ := invariant_acts h hk hact
    exact ⟨hinv, k, act, rfl, hchanges⟩

theorem invariant_of_runs {log : Log} {s : System} (h : Runs log s) : Invariant log s := by
  induction h with
  | start hnew => exact invariant_start hnew
  | step _ hstep ih => exact (invariant_step ih hstep).1

theorem isReady_of_changes {acts : List Act} {act : Option Act} {c c' : Client}
    (h : c.Changes acts act c') (hready : c.isReady = true) : c'.isReady = true := by
  rcases h.eq_or_install with rfl | ⟨s, rfl⟩
  · exact hready
  · rfl

/-- Only a set-up that is over has installed a state by setting up. -/
theorem Invariant.installs_iff {log : Log} {s : System} (h : Invariant log s) {k : Nat}
    {state : ServingState} (hlog : (k, Act.installs state) ∈ log) :
    ∃ r store, s.operations[k]? = some (.settingUp r (.finished (.ok ()))) ∧
      installs (log.own k) = [state] ∧ connections (log.own k) = [store] ∧
      SetUp.planOf (heard (log.own k)) r store = .ok state := by
  have hown : Act.installs state ∈ log.own k := Log.mem_own_iff.2 hlog
  have hmem : state ∈ installs (log.own k) := List.mem_filterMap.2 ⟨_, hown, rfl⟩
  cases hop : s.operations[k]? with
  | none =>
    rw [h.unborn k (List.getElem?_eq_none_iff.1 hop)] at hown
    cases hown
  | some op =>
  have hfollows := h.follows k op hop
  cases op with
  | settingUp r p =>
    have hunlinked : p.isUnlinked = false := by
      by_contra hp
      rw [(hfollows.unlinked (Bool.of_not_eq_false hp)).1] at hmem
      cases hmem
    cases p with
    | installing plan store =>
      rw [(hfollows.linked plan store rfl).1] at hmem
      cases hmem
    | finished result =>
      cases result with
      | error e => cases hunlinked
      | ok u =>
        obtain ⟨state', store, hone, hconnects, hplan⟩ := hfollows.done rfl
        rw [hone] at hmem
        obtain rfl := List.mem_singleton.1 hmem
        exact ⟨r, store, rfl, hone, hconnects, hplan⟩
    | _ => cases hunlinked
  | refreshing p =>
    rw [Refresh.installs_of_follows hfollows] at hmem
    cases hmem
  | serving call p =>
    rw [Serving.installs_of_follows hfollows] at hmem
    cases hmem

/-- **No update of the client is lost or stale.** However the operations of a client interleave, and
whatever happens to the stores and to the connector in between:

* the installed state has the service of the set-up that installed last, and its executors go through
  a connection that an operation was given;
* a set-up that installed a state is over, installed nothing else, and planned that state from what
  it was told, over the only connection that it was given;
* no step takes a ready client back, and a step changes the client only as its act says: a set-up
  installs, or a refresh finds the state that it took still installed and puts the same service in its
  place, over the connection that it was given;
* a call answers out of the one state that was installed when it took it, and out of what its
  queries saw of the store that this state is connected to. -/
theorem client_of_runs {log : Log} {s : System} (h : Runs log s) :
    Holds log s.world.client.installed log.lastInstalled ∧
      (∀ k state, (k, Act.installs state) ∈ log →
        ∃ r store, s.operations[k]? = some (.settingUp r (.finished (.ok ()))) ∧
          installs (log.own k) = [state] ∧ connections (log.own k) = [store] ∧
          SetUp.planOf (heard (log.own k)) r store = .ok state) ∧
      (∀ more s', Step s more s' →
        (s.world.client.isReady = true → s'.world.client.isReady = true) ∧
          ∃ k act, more = act.toList.map (k, ·) ∧
            s.world.client.Changes (log.own k) act s'.world.client) ∧
      ∀ k call p, s.operations[k]? = some (.serving call p) →
        Serving.Follows call (log.own k) p := by
  have hinv := invariant_of_runs h
  refine ⟨hinv.holds, fun k state hlog => hinv.installs_iff hlog, fun more s' hstep => ?_,
    fun k call p hk => hinv.follows k _ hk⟩
  obtain ⟨-, k, act, hmore, hchanges⟩ := invariant_step hinv hstep
  exact ⟨isReady_of_changes hchanges, k, act, hmore, hchanges⟩

/-! ### Two refreshes and a call -/

/-- A set-up that is over, beside a call and two refreshes. -/
def besideSetUp (r : SetUp.Request) (call : Serving.Call) (p : Serving.Phase)
    (first second : Refresh.Phase) : List Operation :=
  [.settingUp r (.finished (.ok ())), .serving call p, .refreshing first, .refreshing second]

/-- A client is set up; a call and two refreshes take its state, and the in-memory store is closed. The
first refresh is led elsewhere and puts the state in place that is connected there. The second one is
led back to the in-memory store, which it opens, and leaves that state. The call goes on with the
state that it took, and so with the in-memory store. -/
theorem exists_runs_race {source : SetUp.Source} {r : SetUp.Request} {state : ServingState}
    (hplan : SetUp.plan source r = .ok state) (store : Store) {call : Serving.Call} {p : Pipeline}
    {fetches : List Fetch} (hq : Serving.queries state call = .ok (p, fetches)) :
    ∃ fan log more s s', Runs log s ∧
      s.operations = besideSetUp r call (.fetching call state p fan) (.pinging ⟨0, state⟩)
        (.pinging ⟨0, state⟩) ∧
      Runs (log ++ more) s' ∧
      s'.operations = besideSetUp r call
        (.finished (Serving.replyInTime state store.close.connect call)) (.finished (.ok ()))
        (.finished (.ok ())) ∧
      s'.world.client.installed = some ⟨1, state.reconnected (.other 0)⟩ := by
  obtain ⟨n, w, hsetUp, hclient⟩ := SetUp.exists_runs_of_plan (w := {}) hplan rfl
  obtain ⟨-, hp, hprepare⟩ := Serving.queries_ok_iff.1 hq
  have hexecutor := (SetUp.wired_of_plan hplan).executor_of_pipeline hp
  rw [SetUp.store_of_plan hplan] at hexecutor
  obtain ⟨plan, -, rfl⟩ := map_ok_iff.1 hplan
  -- The call and both refreshes take the state.
  have hbegun : RunsOn [] ⟨{}, [.settingUp r (.fresh r)]⟩ :=
    ((Runs.start rfl).step (.begins (.settingUp r))).on
  have hset : RunsOn [] ⟨{ client := ({} : Client).install (plan.stateOver .memory) },
      [.settingUp r (.finished (.ok ()))]⟩ :=
    (hbegun.setUp (k := 0) rfl hsetUp).step (.around hclient.symm)
  have hready : RunsOn [] ⟨{ client := ({} : Client).install (plan.stateOver .memory) },
      besideSetUp r call (.fresh call) .fresh .fresh⟩ :=
    ((hset.step (.begins (.serving call))).step (.begins .refreshing)).step (.begins .refreshing)
  have hasked := hready.asks (k := 1) (i := ⟨0, plan.stateOver .memory⟩) rfl rfl hq
  have hfirst := hasked.acts (k := 2) rfl (.refresh (Refresh.step_fresh rfl))
  obtain ⟨log, hall⟩ := hfirst.acts (k := 3) rfl (.refresh (Refresh.step_fresh rfl))
  -- The refreshes are connected one after the other, to different stores.
  have hled : RunsOn _ ⟨{
      store := store.close
      target := .other 0
      client := ({} : Client).install (plan.stateOver .memory) },
    besideSetUp r call (.fetching call (plan.stateOver .memory) p (p.executor.submit 0 fetches))
      (.pinging ⟨0, plan.stateOver .memory⟩) (.pinging ⟨0, plan.stateOver .memory⟩)⟩ :=
    hall.on.step (.around rfl)
  have hrenewed : RunsOn _ ⟨{
      store := store.close
      client := ⟨some ⟨1, (plan.stateOver .memory).reconnected (.other 0)⟩, 2⟩ },
    besideSetUp r call (.fetching call (plan.stateOver .memory) p (p.executor.submit 0 fetches))
      (.finished (.ok ())) (.pinging ⟨0, plan.stateOver .memory⟩)⟩ :=
    (hled.refresh (k := 2) rfl 5).step (.around rfl)
  have hyielded : RunsOn _ ⟨{
      store := store.close.connect
      client := ⟨some ⟨1, (plan.stateOver .memory).reconnected (.other 0)⟩, 2⟩ },
    besideSetUp r call (.fetching call (plan.stateOver .memory) p (p.executor.submit 0 fetches))
      (.finished (.ok ())) (.finished (.ok ()))⟩ := hrenewed.refresh (k := 3) rfl 5
  obtain ⟨w', hclient', more, hruns⟩ :=
    hyielded.answered (k := 1) rfl (Serving.fresh_of_prepare hprepare)
  refine ⟨_, log, more, _, _, hall, rfl, hruns, ?_, by rw [hclient']⟩
  rw [hexecutor, Serving.replyInTime, hq]
  rfl

/-- The call asks for a sale and gets it, from the store of its state. -/
theorem client_of_runs_sales :
    ∃ state p fan log more s s', SetUp.plan saleSource saleRequest = .ok state ∧ Runs log s ∧
      s.operations = besideSetUp saleRequest (.serve ⟨saleEntry 2, ∅⟩)
        (.fetching (.serve ⟨saleEntry 2, ∅⟩) state p fan) (.pinging ⟨0, state⟩)
        (.pinging ⟨0, state⟩) ∧
      Runs (log ++ more) s' ∧
      s'.operations = besideSetUp saleRequest (.serve ⟨saleEntry 2, ∅⟩)
        (.finished (.ok (.vector (saleRow 2 20)))) (.finished (.ok ())) (.finished (.ok ())) ∧
      s'.world.client.installed = some ⟨1, state.reconnected (.other 0)⟩ ∧
      Holds (log ++ more) s'.world.client.installed (log ++ more).lastInstalled ∧
      ∃ i seen, i.state = state ∧
        (log ++ more).own 1 = .snapshots (some i) :: seen.map (.reaches .memory) ∧
        Serving.Made state (.serve ⟨saleEntry 2, ∅⟩) seen (.ok (.vector (saleRow 2 20))) := by
  obtain ⟨state, l, l', hplan, hl, hlimit, hvector⟩ := SetUp.plan_sales
  obtain ⟨single, batch, hr⟩ := SetUp.compile_of_plan hplan
  have hreply : Serving.reply state saleStore (.serve ⟨saleEntry 2, ∅⟩) =
      .ok (.vector (saleRow 2 20)) :=
    (Serving.reply_serve_ok_iff hr (hvector ▸ Pipeline.aligned_sales hl) rfl).2
      ⟨rfl, _, hvector ▸ Pipeline.serves_sales.2, rfl⟩
  obtain ⟨hcheck, p, hp, fetches, hprepare, -⟩ := Serving.reply_ok_iff.1 hreply
  have hdata : Store.SameData saleStore saleStore.close.connect := ⟨rfl, rfl, rfl, rfl, rfl⟩
  rw [← Serving.replyInTime_of_no_limit hlimit, ← Serving.replyInTime_congr hdata] at hreply
  obtain ⟨fan, log, more, s, s', hruns, hops, hruns', hops', hinstalled⟩ :=
    exists_runs_race hplan saleStore (Serving.queries_ok_iff.2 ⟨hcheck, hp, hprepare⟩)
  rw [hreply] at hops'
  -- What the call took is what it has while it waits.
  obtain ⟨-, -, -, hcalls⟩ := client_of_runs hruns
  obtain ⟨hholds, -, -, hcalls'⟩ := client_of_runs hruns'
  have hwaits := hcalls 1 _ _ (by rw [hops]; rfl)
  have hover := hcalls' 1 _ _ (by rw [hops']; rfl)
  refine ⟨state, p, fan, log, more, s, s', hplan, hruns, hops, hruns', hops', hinstalled, hholds, ?_⟩
  generalize hacts : log.own 1 = acts at hwaits
  generalize hacts' : (log ++ more).own 1 = acts' at hover
  cases hwaits with
  | works i seen hwired hworks =>
    obtain ⟨-, hstate, -⟩ := hworks
    cases hover with
    | works i' seen' hwired' hmade =>
      have hsame := hacts'.symm.trans (Log.own_append log more 1)
      rw [hacts, List.cons_append] at hsame
      obtain rfl : i' = i := by simpa using (List.cons.inj hsame).1
      subst hstate
      exact ⟨i', seen', rfl, by rw [SetUp.store_of_plan hplan], hmade⟩

end System

end FeatureServing
