import FeatureServing.Proofs.Interleaving

/-!
# A call among other operations

While a call waits, anything can happen to the stores and to the client. What the call answers is
still made from the state that it took, and from what its queries saw of the store that this state is
connected to, each at moments of its own.

* `Store.PiecedFrom` : a store that has nothing but parts of others;
* `Fetch.sound_step` : a query that ends has the answer of what it saw;
* `FanOut.gathered_of_outcome?` : rows are put together from such answers;
* `Serving.Made` : what a state can make of a call with what it saw, its reply for one;
* `Serving.WorksOn` : how far a call can be, given its state and what it saw; `Serving.worksOn_step`;
* `Session.made_of_runCommand` : a command is answered with what the installed state makes of it,
  whatever its time limit.
-/

namespace FeatureServing

namespace Store

/-- Whether all that a query looks at is in a store as it is in one of some others: whether it is
closed, the positions that fail, those that lose their rows, and the rows. -/
structure PiecedFrom (t : Store) (seen : List Store) : Prop where
  closed : ∃ u ∈ seen, t.closed = u.closed
  failing : ∃ u ∈ seen, t.failing = u.failing
  nullRows : ∃ u ∈ seen, t.nullRows = u.nullRows
  tables : ∃ u ∈ seen, t.tables = u.tables

variable {s t : Store} {seen seen' : List Store}

theorem piecedFrom_of_mem (h : s ∈ seen) : s.PiecedFrom seen :=
  ⟨⟨s, h, rfl⟩, ⟨s, h, rfl⟩, ⟨s, h, rfl⟩, ⟨s, h, rfl⟩⟩

theorem PiecedFrom.mono (h : t.PiecedFrom seen) (hseen : seen ⊆ seen') : t.PiecedFrom seen' where
  closed := h.closed.imp fun _ hu => ⟨hseen hu.1, hu.2⟩
  failing := h.failing.imp fun _ hu => ⟨hseen hu.1, hu.2⟩
  nullRows := h.nullRows.imp fun _ hu => ⟨hseen hu.1, hu.2⟩
  tables := h.tables.imp fun _ hu => ⟨hseen hu.1, hu.2⟩

end Store

namespace Fetch

/-! ## Queries -/

/-- Whether a query can have been accepted by a store that was seen. -/
def Admitted (seen : List Store) (l : Lookup) (b : Binds) : Prop :=
  (∃ q, l.render .questionMark b = .ok q) ∧ ∃ u ∈ seen, u.closed = false

/-- Whether a query of a lookup with binds can be in a phase when it has seen some stores: each check
that is behind it was passed by one of them, and one that is over has their answer. -/
def Phase.Sound (seen : List Store) (l : Lookup) (b : Binds) : Phase → Prop
  | .fresh | .dropped => True
  | .accepted _ | .sleeping _ _ | .recording _ | .failing => Admitted seen l b
  | .losing => Admitted seen l b ∧ ∃ u ∈ seen, u.failing.contains l.position = false
  | .reading => Admitted seen l b ∧ (∃ u ∈ seen, u.failing.contains l.position = false) ∧
    ∃ u ∈ seen, u.nullRows.contains l.position = false
  | .finished r => ∃ t : Store, t.PiecedFrom seen ∧ t.answer l b = r

section Sound

variable {seen seen' : List Store} {l : Lookup} {b : Binds} {p p' : Phase}

theorem Admitted.mono (h : Admitted seen l b) (hseen : seen ⊆ seen') : Admitted seen' l b :=
  ⟨h.1, h.2.imp fun _ hu => ⟨hseen hu.1, hu.2⟩⟩

theorem Phase.Sound.mono (h : p.Sound seen l b) (hseen : seen ⊆ seen') : p.Sound seen' l b := by
  cases p with
  | fresh | dropped => trivial
  | accepted | sleeping | recording | failing => exact Admitted.mono h hseen
  | losing => exact ⟨h.1.mono hseen, h.2.imp fun _ hu => ⟨hseen hu.1, hu.2⟩⟩
  | reading =>
    exact ⟨h.1.mono hseen, h.2.1.imp fun _ hu => ⟨hseen hu.1, hu.2⟩,
      h.2.2.imp fun _ hu => ⟨hseen hu.1, hu.2⟩⟩
  | finished r => exact h.imp fun _ ht => ⟨ht.1.mono hseen, ht.2⟩

theorem sound_step {now : Nat} {s s' : Store} (hp : p.Sound seen l b) (h : Acts now s l b p s' p') :
    p'.Sound (seen ++ [s]) l b := by
  have hs : s ∈ seen ++ [s] := List.mem_append_right _ (List.mem_singleton_self s)
  have hp' := hp.mono (List.subset_append_left seen [s])
  cases h with
  | refuseClosed hclosed =>
    exact ⟨s, Store.piecedFrom_of_mem hs, by rw [Store.answer, if_pos hclosed]⟩
  | refuseBinds e hopen hrender =>
    exact ⟨s, Store.piecedFrom_of_mem hs, by simp [Store.answer, hopen, hrender]⟩
  | accept q hopen hrender => exact ⟨⟨q, hrender⟩, s, hs, hopen⟩
  | pass hworks => exact ⟨hp', s, hs, hworks⟩
  | keep hkept => exact ⟨hp'.1, hp'.2, s, hs, hkept⟩
  -- What a query does not look at any more may have changed: it is taken as it was looked at.
  | fail hfails =>
    obtain ⟨⟨q, hq⟩, u, hu, hopen⟩ := hp'
    refine ⟨{ s with closed := u.closed }, ⟨⟨u, hu, rfl⟩, ⟨s, hs, rfl⟩, ⟨s, hs, rfl⟩, ⟨s, hs, rfl⟩⟩, ?_⟩
    have hfails' : ({ s with closed := u.closed } : Store).failing.contains l.position = true :=
      hfails
    simp [Store.answer, hopen, hq, Store.acceptedAnswer, hfails']
  | lose hlost =>
    obtain ⟨⟨⟨q, hq⟩, u, hu, hopen⟩, v, hv, hworks⟩ := hp'
    refine ⟨{ s with closed := u.closed, failing := v.failing },
      ⟨⟨u, hu, rfl⟩, ⟨v, hv, rfl⟩, ⟨s, hs, rfl⟩, ⟨s, hs, rfl⟩⟩, ?_⟩
    have hlost' : ({ s with closed := u.closed, failing := v.failing } : Store).nullRows.contains
      l.position = true := hlost
    simp [Store.answer, hopen, hq, Store.acceptedAnswer, hworks, Store.readableRows, hlost']
  | read =>
    obtain ⟨⟨⟨q, hq⟩, u, hu, hopen⟩, ⟨v, hv, hworks⟩, n, hn, hkept⟩ := hp'
    refine ⟨{ s with closed := u.closed, failing := v.failing, nullRows := n.nullRows },
      ⟨⟨u, hu, rfl⟩, ⟨v, hv, rfl⟩, ⟨n, hn, rfl⟩, ⟨s, hs, rfl⟩⟩, ?_⟩
    simp [Store.answer, hopen, hq, Store.acceptedAnswer, hworks, Store.readableRows, hkept,
      Store.select]
  | _ => exact hp'

end Sound

/-- Whether a query is a later form of another, when it has seen some stores. -/
def ComesFrom (seen : List Store) (f f' : Fetch) : Prop :=
  f'.place = f.place ∧ f'.lookup = f.lookup ∧ f'.binds = f.binds ∧
    f'.phase.Sound seen f.lookup f.binds

theorem ComesFrom.mono {seen seen' : List Store} {f f' : Fetch} (h : f.ComesFrom seen f')
    (hseen : seen ⊆ seen') : f.ComesFrom seen' f' :=
  ⟨h.1, h.2.1, h.2.2.1, h.2.2.2.mono hseen⟩

theorem comesFrom_step {now : Nat} {s s' : Store} {seen : List Store} {f₀ f f' : Fetch}
    (hf : f₀.ComesFrom seen f) (h : f.step now s = some (s', f')) :
    f₀.ComesFrom (seen ++ [s]) f' := by
  obtain ⟨hplace, hlookup, hbinds, hsound⟩ := hf
  obtain ⟨p, rfl, hacts⟩ := acts_of_step h
  rw [hlookup, hbinds] at hacts
  exact ⟨hplace, hlookup, hbinds, sound_step hsound hacts⟩

end Fetch

namespace FanOut

/-! ## Rows -/

/-- The answer to a query, with its position. -/
def placed (f : Fetch) (a : Except ServingError RowSet) : Except ServingError (Position × RowSet) :=
  a.map fun rows => (f.place, rows)

/-- What answers to the queries of a call give together. -/
def gathered (fetches : List Fetch) (answers : List (Except ServingError RowSet)) :
    Except ServingError (SortedMap Position RowSet) :=
  ((List.zipWith placed fetches answers).mapM id).map SortedMap.ofList

/-- Whether these are answers to queries that have seen some stores, each of parts of its own. -/
def Answers (seen : List Store) (fetches : List Fetch)
    (answers : List (Except ServingError RowSet)) : Prop :=
  List.Forall₂ (fun f a => ∃ t : Store, t.PiecedFrom seen ∧ t.answer f.lookup f.binds = a)
    fetches answers

section Gathered

variable {seen : List Store} {fetches fetches' : List Fetch}
  {answers : List (Except ServingError RowSet)}

theorem exists_answers_of_positioned (h : List.Forall₂ (Fetch.ComesFrom seen) fetches fetches')
    {items : List (Except ServingError (Position × RowSet))}
    (hitems : List.Forall₂ (fun f' item => positioned? f' = some item) fetches' items) :
    ∃ answers, Answers seen fetches answers ∧ items = List.zipWith placed fetches answers := by
  induction h generalizing items with
  | nil =>
    cases hitems
    exact ⟨[], .nil, rfl⟩
  | @cons f f' fs fs' hf _ ih =>
    obtain ⟨item, rest, hitem, hrest, rfl⟩ := List.forall₂_cons_left_iff.1 hitems
    obtain ⟨answers, hanswers, rfl⟩ := ih hrest
    obtain ⟨a, ha, rfl⟩ := Option.map_eq_some_iff.1 hitem
    obtain ⟨hplace, -, -, hsound⟩ := hf
    have hphase : f'.phase = .finished a := by
      unfold Fetch.result? at ha
      split at ha <;> simp_all
    rw [hphase] at hsound
    exact ⟨a :: answers, .cons hsound hanswers, by rw [List.zipWith_cons_cons, placed, hplace]⟩

/-- **Rows are put together from answers** to the queries that a call began with. -/
theorem gathered_of_outcome? (h : List.Forall₂ (Fetch.ComesFrom seen) fetches fetches')
    {results : Except ServingError (SortedMap Position RowSet)}
    (hover : outcome? fetches' = some results) :
    ∃ answers, Answers seen fetches answers ∧ gathered fetches answers = results := by
  obtain ⟨items, hitems, rfl⟩ := Option.map_eq_some_iff.1 hover
  obtain ⟨answers, hanswers, rfl⟩ := exists_answers_of_positioned h (mapM_some_iff.1 hitems)
  exact ⟨answers, hanswers, rfl⟩

theorem exists_error_of_gathered (h : Answers seen fetches answers) {e : ServingError}
    (herror : gathered fetches answers = .error e) :
    ∃ f ∈ fetches, ∃ t : Store, t.answer f.lookup f.binds = .error e := by
  obtain ⟨item, hitem, hfails⟩ := exists_error_of_mapM (map_error_iff.1 herror)
  rw [← List.map_uncurry_zip_eq_zipWith] at hitem
  obtain ⟨⟨f, a⟩, hpair, rfl⟩ := List.mem_map.1 hitem
  obtain ⟨t, -, rfl⟩ := (List.forall₂_iff_zip.1 h).2 hpair
  exact ⟨f, (List.of_mem_zip hpair).1, t, map_error_iff.1 hfails⟩

theorem comesFrom_refl (h : ∀ f ∈ fetches, f.phase = .fresh) :
    List.Forall₂ (Fetch.ComesFrom seen) fetches fetches :=
  List.forall₂_same.2 fun f hf => ⟨rfl, rfl, rfl, by rw [h f hf]; trivial⟩

theorem comesFrom_set (h : List.Forall₂ (Fetch.ComesFrom seen) fetches fetches') {n now : Nat}
    {f f' : Fetch} {s s' : Store} (hn : fetches'[n]? = some f)
    (hstep : f.step now s = some (s', f')) :
    List.Forall₂ (Fetch.ComesFrom (seen ++ [s])) fetches (fetches'.set n f') := by
  have hmore : ∀ f₀ g : Fetch, f₀.ComesFrom seen g → f₀.ComesFrom (seen ++ [s]) g :=
    fun _ _ hf => hf.mono (List.subset_append_left seen [s])
  exact forall₂_set h hmore hn fun _ hf => Fetch.comesFrom_step hf hstep

end Gathered

end FanOut

namespace Serving

/-! ## Calls -/

/-- Whether a result is what a state makes of a call: the refusal of its entries, what the call
makes of answers to the queries of the state, or the passing of the time limit. The answers are those
of stores that were seen. -/
def Made (s : ServingState) (call : Call) (seen : List Store) (r : Except ClientError Answer) :
    Prop :=
  (∃ e, queries s call = .error e ∧ r = .error e) ∨
    ∃ p fetches, queries s call = .ok (p, fetches) ∧
      ((∃ answers, FanOut.Answers seen fetches answers ∧
          r = conclude call p (FanOut.gathered fetches answers)) ∨
        ∃ limit, p.executor.limit = some limit ∧
          r = .error (.serving (.backend (.timedOut fetches.length limit))))

theorem made_reply (state : ServingState) (store : Store) (call : Call) :
    Made state call [store] (reply state store call) := by
  rw [reply]
  cases hq : queries state call with
  | error err => exact .inl ⟨err, hq, rfl⟩
  | ok q =>
    obtain ⟨p, fetches⟩ := q
    refine .inr ⟨p, fetches, hq, .inl ⟨fetches.map fun f => store.answer f.lookup f.binds, ?_, ?_⟩⟩
    · have hpieced : store.PiecedFrom [store] :=
        Store.piecedFrom_of_mem (List.mem_singleton_self store)
      exact List.forall₂_map_right_iff.2 (List.forall₂_same.2 fun f _ => ⟨store, hpieced, rfl⟩)
    · rw [FanOut.gathered, List.zipWith_map_right, List.zipWith_self, List.mapM_map]
      rfl

/-- How far a call can be that has taken a state, when its queries have seen some stores. -/
def WorksOn (s : ServingState) (call : Call) (seen : List Store) : Phase → Prop
  | .fresh _ => False
  | .fetching c s' p fan =>
    c = call ∧ s' = s ∧ ∃ fetches, queries s call = .ok (p, fetches) ∧
      List.Forall₂ (Fetch.ComesFrom seen) fetches fan.fetches ∧
      fan.deadline.map (·.millis) = p.executor.limit
  | .finished r => Made s call seen r

theorem worksOn_opening {w : World} {i : Installed} (hi : w.client.installed = some i) (call : Call) :
    WorksOn i.state call [] (opening w call) := by
  rw [opening, start_of_installed hi call]
  cases hq : queries i.state call with
  | error e => exact .inl ⟨e, hq, rfl⟩
  | ok q =>
    obtain ⟨p, fetches⟩ := q
    have hfresh := fresh_of_prepare (queries_ok_iff.1 hq).2.2
    refine ⟨rfl, rfl, fetches, hq, FanOut.comesFrom_refl hfresh, ?_⟩
    rw [Executor.submit]
    cases p.executor.limit <;> rfl

/-- **Every action of a call** keeps to the state that it took, and what a query sees is the store of
the executor that the state has for the call. -/
theorem worksOn_step {s : ServingState} {call : Call} {seen : List Store} {w w' : World}
    {p p' : Phase} {act : Option Act} (hp : WorksOn s call seen p) (h : Acts w p act w' p') :
    (act = none ∧ WorksOn s call seen p') ∨ ∃ pipeline fetches,
      queries s call = .ok (pipeline, fetches) ∧
      act = some (.reaches pipeline.executor.store (w.storeOf pipeline.executor.store)) ∧
      WorksOn s call (seen ++ [w.storeOf pipeline.executor.store]) p' := by
  cases h with
  | begins c => exact hp.elim
  | queries hn hstep =>
    obtain ⟨rfl, rfl, fetches, hq, hfetches, hlimit⟩ := hp
    exact .inr ⟨_, fetches, hq, rfl, rfl, rfl, fetches, hq,
      FanOut.comesFrom_set hfetches hn hstep, hlimit⟩
  | concludes hover =>
    obtain ⟨rfl, rfl, fetches, hq, hfetches, -⟩ := hp
    obtain ⟨answers, hanswers, rfl⟩ := FanOut.gathered_of_outcome? hfetches hover
    exact .inl ⟨rfl, .inr ⟨_, fetches, hq, .inl ⟨answers, hanswers, rfl⟩⟩⟩
  | expires hd hpassed =>
    obtain ⟨rfl, rfl, fetches, hq, hfetches, hlimit⟩ := hp
    rw [hd] at hlimit
    exact .inl ⟨rfl, .inr ⟨_, fetches, hq, .inr ⟨_, hlimit.symm, by rw [hfetches.length_eq]⟩⟩⟩

theorem worksOn_goes {s : ServingState} {call : Call} {w : World} {p : Phase} {last : World × Phase}
    (hp : ∃ seen, WorksOn s call seen p) (h : Goes (w, p) last) :
    ∃ seen, WorksOn s call seen last.2 := by
  induction h with
  | refl => exact hp
  | tail _ hacts ih =>
    obtain ⟨seen, hworks⟩ := ih
    obtain ⟨act, hact⟩ := hacts
    rcases worksOn_step hworks hact with ⟨-, hnext⟩ | ⟨_, _, -, -, hnext⟩
    · exact ⟨seen, hnext⟩
    · exact ⟨_, hnext⟩

end Serving

namespace Session

/-! ## Commands -/

/-- **What a command answers** is made from the installed state. -/
theorem made_of_runCommand {w : World} {i : Installed} (hi : w.client.installed = some i)
    {call : Serving.Call} {r : Except Failure Reply}
    (h : (runCommand w (.serve call)).2.result = some r) :
    ∃ seen r', Serving.Made i.state call seen r' ∧
      (r'.map Reply.ofAnswer).mapError .client = r := by
  obtain ⟨w', p, hsettle, seen, hworks⟩ := settle_keeps
    (R := fun _ p => ∃ seen, Serving.WorksOn i.state call seen p)
    (fun w now p hp => Serving.worksOn_goes hp (Serving.goes_advance { w with now } p)) 2
    (Serving.worksOn_goes ⟨[], Serving.worksOn_opening hi call⟩ (Serving.goes_run w call))
  have hresult : Task.result? (Task.settle 2 (Serving.run w (.fresh call)).1
      (Task.ofServing (Serving.run w (.fresh call)).2)).2 = some r := h
  rw [hsettle] at hresult
  cases p with
  | finished r' => exact ⟨seen, r', hworks, Option.some.inj hresult⟩
  | fresh | fetching => cases hresult

end Session

end FeatureServing
