import FeatureServing.Proofs.FanOutBarrier

/-!
# The queries that the store executed

The store lists the queries that it executed. What a call adds to the list are queries of the
lookups that it was prepared with, and no others; each that the store accepts is executed once,
whether it fails or not, unless the caller gives up before. What is still to be executed is followed
through the actions of all queries of a call:

* `ExecutedQuery.Of` : the query of a lookup with binds;
* `Store.logged` : what the store lists of a lookup with binds;
* `Fetch.owed` : what it has to list for a query under way;
* `Store.Pays` : the list grew by what was owed before and is not any more;
* `Fetch.pays_step`, `Fetch.pays_runFor`, `FanOut.pays_runAll` : one action, one query, all queries of
  a call;
* `Session.pays_of_serve` : a serving command pays for its queries, for all of them if they are
  answered in time;
* `Session.executed_of_serve`, `Session.executed_of_pays` : what a serving command reports.
-/

namespace FeatureServing

/-! ## What is owed -/

/-- Whether an executed query is that of a lookup with binds. -/
def ExecutedQuery.Of (q : ExecutedQuery) (l : Lookup) (b : Binds) : Prop :=
  ∃ r, l.render .questionMark b = .ok r ∧ q = ⟨l.position, l.form, r.text, b⟩

/-- What a store lists of a lookup with binds: the query, if it accepts it. -/
def Store.logged (s : Store) (l : Lookup) (b : Binds) : List ExecutedQuery :=
  if s.closed then []
  else
    match l.render .questionMark b with
    | .ok q => [⟨l.position, l.form, q.text, b⟩]
    | .error _ => []

/-- What a store has to list for a query that is under way. -/
def Fetch.owed (s : Store) (f : Fetch) : List ExecutedQuery :=
  match f.phase with
  | .fresh => s.logged f.lookup f.binds
  | .accepted q | .sleeping q _ | .recording q => [q]
  | _ => []

/-- What a store has to list for the queries of a call. -/
def FanOut.owed (s : Store) (fetches : List Fetch) : List ExecutedQuery :=
  fetches.flatMap (Fetch.owed s)

theorem Store.logged_congr {s t : Store} (h : SameData s t) (l : Lookup) (b : Binds) :
    t.logged l b = s.logged l b := by
  unfold logged
  rw [h.closed]

theorem Store.mem_logged_iff {s : Store} {l : Lookup} {b : Binds} {q : ExecutedQuery} :
    q ∈ s.logged l b ↔ s.closed = false ∧ q.Of l b := by
  unfold logged ExecutedQuery.Of
  cases s.closed with
  | true => simp
  | false => cases l.render .questionMark b <;> simp

theorem Store.map_position_logged {s : Store} {l : Lookup} {b : Binds}
    (h : s.accepts l b = true) : (s.logged l b).map (·.position) = [l.position] := by
  obtain ⟨hopen, q, hq⟩ := accepts_iff.1 h
  unfold logged
  rw [hopen, hq]
  rfl

theorem Fetch.owed_congr {s t : Store} (h : Store.SameData s t) (f : Fetch) :
    f.owed t = f.owed s := by
  unfold owed
  rw [Store.logged_congr h]

theorem FanOut.owed_congr {s t : Store} (h : Store.SameData s t) (fetches : List Fetch) :
    owed t fetches = owed s fetches := by
  unfold owed
  congr 1
  funext f
  exact f.owed_congr h

/-! ## Paying -/

namespace Store

/-- Whether the list of a store grew, up to the order, by what was owed before and is not owed
afterwards. -/
def Pays (s : Store) (owed : List ExecutedQuery) (s' : Store) (owed' : List ExecutedQuery) : Prop :=
  ∃ more, s'.executed = s.executed ++ more ∧ (more ++ owed').Perm owed

variable {s s' s'' : Store} {owed owed' owed'' : List ExecutedQuery}

theorem Pays.of_eq (h : s'.executed = s.executed) (howed : owed' = owed) : Pays s owed s' owed' :=
  ⟨[], by rw [h, List.append_nil], by rw [howed, List.nil_append]⟩

theorem Pays.trans (h : Pays s owed s' owed') (h' : Pays s' owed' s'' owed'') :
    Pays s owed s'' owed'' := by
  obtain ⟨more, hmore, hperm⟩ := h
  obtain ⟨more', hmore', hperm'⟩ := h'
  refine ⟨more ++ more', ?_, ?_⟩
  · rw [hmore', hmore, List.append_assoc]
  · rw [List.append_assoc]
    exact (hperm'.append_left more).trans hperm

theorem Pays.append_right (h : Pays s owed s' owed') (others : List ExecutedQuery) :
    Pays s (owed ++ others) s' (owed' ++ others) := by
  obtain ⟨more, hmore, hperm⟩ := h
  refine ⟨more, hmore, ?_⟩
  rw [← List.append_assoc]
  exact hperm.append_right others

theorem Pays.append_left (h : Pays s owed s' owed') (others : List ExecutedQuery) :
    Pays s (others ++ owed) s' (others ++ owed') := by
  obtain ⟨more, hmore, hperm⟩ := h
  refine ⟨more, hmore, ?_⟩
  have hswap : (more ++ (others ++ owed')).Perm (others ++ (more ++ owed')) :=
    List.perm_append_comm_assoc more others owed'
  exact hswap.trans (hperm.append_left others)

end Store

namespace Fetch

variable {now : Nat} {s s' : Store} {f f' : Fetch}

/-- **One action** of a query lists it, or leaves it owed. -/
theorem pays_step (h : f.step now s = some (s', f')) :
    Store.Pays s (f.owed s) s' (f'.owed s') := by
  obtain ⟨l, b, phase, place⟩ := f
  obtain ⟨phase', rfl, hacts⟩ := acts_of_step h
  cases hacts with
  | refuseClosed hclosed =>
    apply Store.Pays.of_eq rfl
    simp [owed, Store.logged, hclosed]
  | refuseBinds e hopen hrender =>
    apply Store.Pays.of_eq rfl
    simp [owed, Store.logged, hopen, hrender]
  | accept q hopen hrender =>
    apply Store.Pays.of_eq rfl
    simp [owed, Store.logged, hopen, hrender]
  | record q => exact ⟨[q], rfl, .refl _⟩
  | _ => exact .of_eq rfl rfl

theorem pays_runFor (now fuel : Nat) (s : Store) (f : Fetch) :
    Store.Pays s (f.owed s) (f.runFor now fuel s).1
      ((f.runFor now fuel s).2.owed (f.runFor now fuel s).1) := by
  induction fuel generalizing s f with
  | zero => exact .of_eq rfl rfl
  | succ fuel ih =>
    unfold runFor
    cases hstep : f.step now s with
    | none => exact .of_eq rfl rfl
    | some next => exact (pays_step hstep).trans (ih next.1 next.2)

theorem executed_drop (s : Store) (f : Fetch) : (f.drop s).1.executed = s.executed := by
  unfold drop
  split
  · rfl
  · rfl
  · dsimp only
    split
    · rfl
    · rfl

theorem owed_of_finished {r : Except ServingError RowSet} (h : f.phase = .finished r) :
    f.owed s = [] := by
  unfold owed
  rw [h]

end Fetch

namespace FanOut

variable {s : Store} {fetches : List Fetch}

theorem sameData_runAll (now : Nat) (s : Store) (fetches : List Fetch) :
    Store.SameData s (runAll now s fetches).1 := by
  induction fetches generalizing s with
  | nil => exact .refl s
  | cons f fetches ih => exact (Fetch.runFor_leads now 7 s f).data.trans (ih (f.run now s).1)

/-- **Queries that run one after the other** list what they owe, each its own. -/
theorem pays_runAll (now : Nat) (s : Store) (fetches : List Fetch) :
    Store.Pays s (owed s fetches) (runAll now s fetches).1
      (owed (runAll now s fetches).1 (runAll now s fetches).2) := by
  induction fetches generalizing s with
  | nil => exact .of_eq rfl rfl
  | cons f fetches ih =>
    have hdata : Store.SameData s (f.run now s).1 := (Fetch.runFor_leads now 7 s f).data
    have hfirst : Store.Pays s (f.owed s ++ owed s fetches) (f.run now s).1
        ((f.run now s).2.owed (f.run now s).1 ++ owed (f.run now s).1 fetches) := by
      rw [owed_congr hdata]
      exact (Fetch.pays_runFor now 7 s f).append_right _
    have hrest : Store.Pays (f.run now s).1
        ((f.run now s).2.owed (f.run now s).1 ++ owed (f.run now s).1 fetches)
        (runAll now s (f :: fetches)).1
        ((f.run now s).2.owed (runAll now s (f :: fetches)).1 ++
          owed (runAll now s (f :: fetches)).1 (runAll now (f.run now s).1 fetches).2) := by
      have hlater := sameData_runAll now (f.run now s).1 fetches
      rw [show (runAll now s (f :: fetches)).1 = (runAll now (f.run now s).1 fetches).1 from rfl,
        Fetch.owed_congr hlater]
      exact (ih (f.run now s).1).append_left _
    exact hfirst.trans hrest

theorem executed_dropAll (s : Store) (fetches : List Fetch) :
    (dropAll s fetches).1.executed = s.executed := by
  induction fetches generalizing s with
  | nil => rfl
  | cons f fetches ih => exact (ih (f.drop s).1).trans (f.executed_drop s)

theorem owed_of_outcome? {r : Except ServingError (SortedMap Position RowSet)}
    (h : outcome? fetches = some r) (s : Store) : owed s fetches = [] := by
  unfold owed
  rw [List.flatMap_eq_nil_iff]
  intro f hf
  obtain ⟨a, ha⟩ := exists_outcome?_iff.1 ⟨r, h⟩ f hf
  exact Fetch.owed_of_finished ha

/-- New queries owe what the store lists of them. -/
theorem owed_of_fresh (h : ∀ f ∈ fetches, f.phase = .fresh) (s : Store) :
    owed s fetches = fetches.flatMap fun f => s.logged f.lookup f.binds := by
  unfold owed
  apply List.flatMap_congr
  intro f hf
  unfold Fetch.owed
  rw [h f hf]

end FanOut

/-! ## Calls -/

namespace Serving

/-- Whether the list of the store of a connection has what was owed when a call began, but for what
is left. While the call goes on its queries are left, and nothing when they have been answered; those
that a time limit has dropped stay unlisted. -/
def Tracks (h : Handle) (s : Store) (owed : List ExecutedQuery) (d : Option Deadline) (w : World) :
    Phase → Prop
  | .fresh _ => False
  | .fetching _ _ p f => p.executor.store = h ∧ f.deadline = d ∧
    Store.Pays s owed (w.storeOf h) (FanOut.owed (w.storeOf h) f.fetches)
  | .finished r => ∃ left, Store.Pays s owed (w.storeOf h) left ∧
    (d = none ∨ (∃ a, r = .ok a) → left = [])

variable {h : Handle} {s : Store} {owed : List ExecutedQuery} {d : Option Deadline}

theorem tracks_advance {w : World} {p : Phase} (hp : Tracks h s owed d w p) :
    Tracks h s owed d (advance w p).1 (advance w p).2 := by
  cases p with
  | fresh call => exact hp
  | finished r => exact hp
  | fetching call state pipeline f =>
    obtain ⟨rfl, hd, hpays⟩ := hp
    have hall := hpays.trans (FanOut.pays_runAll w.now (w.storeOf pipeline.executor.store) f.fetches)
    generalize hrunAll :
      FanOut.runAll w.now (w.storeOf pipeline.executor.store) f.fetches = all at hall
    obtain ⟨store, fetches⟩ := all
    rcases FanOut.run_cases hrunAll with ⟨r, hover, hrun⟩ | ⟨d', hd', -, hrun⟩ | hrun
    · rw [FanOut.owed_of_outcome? hover] at hall
      rw [advance_of_run hrun]
      exact ⟨[], by rwa [World.storeOf_setStore], fun _ => rfl⟩
    · rw [advance_of_run hrun]
      have hdropped := hall.trans (.of_eq (FanOut.executed_dropAll store fetches) rfl)
      refine ⟨_, by rwa [World.storeOf_setStore], ?_⟩
      rintro (hnone | ⟨a, ha⟩)
      · rw [← hd, hd'] at hnone
        cases hnone
      · cases ha
    · rw [advance, hrun]
      exact ⟨rfl, hd, by rwa [World.storeOf_setStore]⟩

/-- Whether an executed query is one of those that a state prepares for a call. -/
def Prepared (state : ServingState) (call : Call) (q : ExecutedQuery) : Prop :=
  ∃ p fetches, queries state call = .ok (p, fetches) ∧
    ∃ f ∈ fetches, ExecutedQuery.Of q f.lookup f.binds

end Serving

namespace Session

variable {w : World} {i : Installed} {call : Serving.Call} {p : Pipeline} {fetches : List Fetch}

/-- **A serving command** has the store that the installed state is connected to list what its queries
owe: all of it without a time limit, and with one if the call succeeds. -/
theorem pays_of_serve (hi : w.client.installed = some i) (hwired : i.state.Wired)
    (hq : Serving.queries i.state call = .ok (p, fetches)) :
    ∃ left, Store.Pays (w.storeOf i.state.store) (FanOut.owed (w.storeOf i.state.store) fetches)
        ((runCommand w (.serve call)).1.storeOf i.state.store) left ∧
      (i.state.queryLimit = none ∨ (∃ a, (runCommand w (.serve call)).2.result = some (.ok a)) →
        left = []) := by
  have hexecutor := hwired.executor_of_pipeline (Serving.queries_ok_iff.1 hq).2.1
  have hfirst : Serving.Tracks i.state.store (w.storeOf i.state.store)
      (FanOut.owed (w.storeOf i.state.store) fetches)
      (FanOut.of w.now i.state.queryLimit fetches).deadline (Serving.run w (.fresh call)).1
      (Serving.run w (.fresh call)).2 := by
    rw [Serving.run_of_queries hi hq]
    exact Serving.tracks_advance ⟨by rw [hexecutor], by rw [hexecutor]; rfl, .of_eq rfl rfl⟩
  obtain ⟨w', p', hsettle, htracks⟩ := settle_keeps
    (R := Serving.Tracks i.state.store (w.storeOf i.state.store)
      (FanOut.owed (w.storeOf i.state.store) fetches)
      (FanOut.of w.now i.state.queryLimit fetches).deadline)
    (fun w' now p' h => Serving.tracks_advance (w := { w' with now }) h) 2 hfirst
  have hstore : (runCommand w (.serve call)).1 = (Task.settle 2 (Serving.run w (.fresh call)).1
      (Task.ofServing (Serving.run w (.fresh call)).2)).1 := rfl
  have hresult : (runCommand w (.serve call)).2.result =
      (Task.settle 2 (Serving.run w (.fresh call)).1
        (Task.ofServing (Serving.run w (.fresh call)).2)).2.result? := rfl
  have hreply := (runCommand_serve_in_time hi hwired call).1
  rw [hsettle] at hstore hresult
  rw [hstore]
  cases p' with
  | fresh call => exact htracks.elim
  | fetching => cases hresult.symm.trans hreply
  | finished r =>
    obtain ⟨left, hpays, hleft⟩ := htracks
    refine ⟨left, hpays, fun hover => hleft ?_⟩
    rcases hover with hlimit | ⟨a, ha⟩
    · left
      rw [FanOut.of, hlimit]
      rfl
    · right
      obtain ⟨a', ha', -⟩ := map_ok_iff.1 (mapError_ok_iff.1 (Option.some.inj (hresult.symm.trans ha)))
      exact ⟨a', ha'⟩

/-- A state that is planned over the in-memory store has that store list them. -/
theorem pays_of_plan (hi : w.client.installed = some i) {source : SetUp.Source} {r : SetUp.Request}
    (hplan : SetUp.plan source r = .ok i.state)
    (hq : Serving.queries i.state call = .ok (p, fetches)) :
    ∃ left, Store.Pays w.store (FanOut.owed w.store fetches) (runCommand w (.serve call)).1.store
        left ∧
      (i.state.queryLimit = none ∨ (∃ a, (runCommand w (.serve call)).2.result = some (.ok a)) →
        left = []) := by
  have hpays := pays_of_serve hi (SetUp.wired_of_plan hplan) hq
  rwa [SetUp.store_of_plan hplan, World.storeOf_memory, World.storeOf_memory] at hpays

theorem executed_runCommand (w : World) (c : Command) :
    (runCommand w c).2.executed =
      ((runCommand w c).1.store.executed.drop w.store.executed.length).mergeSort
        fun a b => a.position ≤ b.position := rfl

theorem store_of_serve (hi : w.client.installed = some i) (hwired : i.state.Wired)
    (hstore : i.state.store ≠ .memory) (call : Serving.Call) :
    (runCommand w (.serve call)).1.store = w.store := by
  obtain ⟨now, store, hworld⟩ := runCommand_serve_touches hi hwired call
  rw [hworld]
  exact World.storeOf_setStore_of_ne _ _ (Ne.symm hstore)

/-- **What a serving command reports as executed** are queries that the installed state prepared for
the call. -/
theorem executed_of_serve (hi : w.client.installed = some i) (hwired : i.state.Wired)
    (call : Serving.Call) {q : ExecutedQuery}
    (hq : q ∈ (runCommand w (.serve call)).2.executed) : Serving.Prepared i.state call q := by
  cases hqueries : Serving.queries i.state call with
  | error e =>
    rw [runCommand_of_refused hi hqueries] at hq
    cases hq
  | ok prepared =>
    obtain ⟨p, fetches⟩ := prepared
    by_cases hstore : i.state.store = .memory
    swap
    · rw [executed_runCommand, List.mem_mergeSort, store_of_serve hi hwired hstore,
        List.drop_length] at hq
      cases hq
    have hpays := pays_of_serve hi hwired hqueries
    simp only [hstore, World.storeOf_memory] at hpays
    obtain ⟨left, ⟨more, hmore, hperm⟩, -⟩ := hpays
    rw [executed_runCommand, List.mem_mergeSort, hmore, List.drop_left] at hq
    have howed : q ∈ FanOut.owed w.store fetches := hperm.mem_iff.1 (List.mem_append_left left hq)
    rw [FanOut.owed_of_fresh (Serving.fresh_of_prepare (Serving.queries_ok_iff.1 hqueries).2.2)]
      at howed
    obtain ⟨f, hf, hlogged⟩ := List.mem_flatMap.1 howed
    exact ⟨p, fetches, hqueries, f, hf, (Store.mem_logged_iff.1 hlogged).2⟩

/-- Where the queries of a command are listed by ascending position, that is what it reports. -/
theorem executed_of_pays {owed : List ExecutedQuery}
    (h : Store.Pays w.store owed (runCommand w (.serve call)).1.store [])
    (hascending : owed.Pairwise fun a b => a.position < b.position) :
    (runCommand w (.serve call)).2.executed = owed := by
  obtain ⟨more, hmore, hperm⟩ := h
  rw [List.append_nil] at hperm
  rw [executed_runCommand, hmore, List.drop_left]
  have hsorted : (more.mergeSort fun a b => a.position ≤ b.position).Pairwise
      fun a b => a.position ≤ b.position := by
    apply (List.pairwise_mergeSort ?_ ?_ more).imp of_decide_eq_true
    · intro a b c hab hbc
      exact decide_eq_true (UInt64.le_trans (of_decide_eq_true hab) (of_decide_eq_true hbc))
    · intro a b
      simpa using UInt64.le_total a.position b.position
  have hpermuted := (List.mergeSort_perm more fun a b => a.position ≤ b.position).trans hperm
  have hdistinct : (owed.map (·.position)).Nodup :=
    List.pairwise_map.2 (hascending.imp UInt64.ne_of_lt)
  refine List.Perm.eq_of_pairwise ?_ hsorted (hascending.imp UInt64.le_of_lt) hpermuted
  intro a b ha hb hab hba
  exact List.inj_on_of_nodup_map hdistinct (hpermuted.mem_iff.1 ha) hb (UInt64.le_antisymm hab hba)

end Session

end FeatureServing
