import Mathlib.Data.Set.Card
import Mathlib.Order.Bounds.Basic
import FeatureServing.Proofs.FanOutBarrier

/-!
# What the store counts

A store counts its queries while they go on side by side. `Traffic` is a store with the queries that
were put to it; in one `Traffic.Step` another query is put to it, one of them takes its next action
or is given up, or the store is handled otherwise. `Traffic.Runs` keeps the moments of a run, so
that it can be told which queries were accepted and which were executed, whatever became of them.

* `Fetch.Moves` : what can happen to a query, `Fetch.counted_of_moves` : what is counted of it;
* `Fetch.Phase.Past` : what a phase tells about the past, `Fetch.past_of_moves` : it stays true;
* `Traffic.Invariant` : the counters and the past of all queries, `Traffic.invariant_step` : every
  step keeps it;
* `Traffic.counts_of_runs` : each counter is the number of queries that it stands for;
* `Traffic.Runs.fanOut`, `Traffic.inFlight_of_fanOut` : a fan-out that runs is such a run, and
  leaves nothing in flight when it is over.
-/

namespace FeatureServing

/-- What is done to a store apart from its queries. -/
inductive Store.Handled (s : Store) : Store → Prop
  | insertTable (p : Position) (t : Table) : Handled s (s.insertTable p t)
  | setLatency (millis : Nat) : Handled s (s.setLatency millis)
  | failOn (p : Position) : Handled s (s.failOn p)
  | nullRowFor (p : Position) : Handled s (s.nullRowFor p)
  | close : Handled s s.close
  | connect : Handled s s.connect

namespace Fetch

/-! ## The past of a query -/

namespace Phase

/-- Whether a query was just accepted. -/
def isAccepted : Phase → Bool
  | accepted _ => true
  | _ => false

/-- Whether a query was just executed. -/
def isExecuted : Phase → Bool
  | failing => true
  | _ => false

def isDropped : Phase → Bool
  | dropped => true
  | _ => false

/-- Whether a query is finished or dropped. -/
def isOver : Phase → Bool
  | finished _ | dropped => true
  | _ => false

/-- What a phase tells about the past: whether the query was accepted, and whether it was executed.
A query that finished was refused or executed; one that was dropped may have come anywhere. -/
def Past (accepted executed : Prop) : Phase → Prop
  | .fresh => ¬ accepted ∧ ¬ executed
  | .accepted _ | .sleeping _ _ | .recording _ => accepted ∧ ¬ executed
  | .failing | .losing | .reading => accepted ∧ executed
  | .finished _ => accepted ↔ executed
  | .dropped => executed → accepted

section Past

variable {p : Phase} {accepted executed : Prop}

theorem isActive_iff_of_past (h : p.Past accepted executed) :
    p.isActive = true ↔ accepted ∧ ¬ p.isOver = true := by
  cases p <;> simp_all [Past, isActive, isOver]

theorem isPending_or_iff_of_past (h : p.Past accepted executed) :
    p.isPending = true ∨ p.isDropped = true ∧ accepted ∧ ¬ executed ↔ accepted ∧ ¬ executed := by
  cases p <;> simp_all [Past, isPending, isDropped]

theorem accepted_of_past (h : p.Past accepted executed) (he : executed) : accepted := by
  cases p <;> simp_all [Past]

end Past

end Phase

/-- What can happen to a query: it takes its next action, at any time, or is given up. -/
inductive Moves (s : Store) (f : Fetch) : Store → Fetch → Prop
  | acts {now : Nat} {s' : Store} {f' : Fetch} (h : f.step now s = some (s', f')) : Moves s f s' f'
  | drops : Moves s f (f.drop s).1 (f.drop s).2

variable {s s' : Store} {f f' : Fetch} {p p' : Phase}

/-- **The past stays true** when something happens to a query: it is accepted at most once, and
executed at most once and after that. -/
theorem past_of_moves (h : Moves s f s' f') {accepted executed : Prop}
    (hpast : f.phase.Past accepted executed) :
    f'.phase.Past (f'.phase.isAccepted = true ∨ accepted)
        (f'.phase.isExecuted = true ∨ executed) ∧
      (f'.phase.isAccepted = true → ¬ accepted) ∧ (f'.phase.isExecuted = true → ¬ executed) := by
  obtain ⟨l, b, phase, place⟩ := f
  cases h with
  | acts hstep =>
    obtain ⟨phase', rfl, hacts⟩ := acts_of_step hstep
    cases hacts <;> simp_all [Phase.Past, Phase.isAccepted, Phase.isExecuted]
  | drops =>
    cases phase <;> simp_all [Phase.Past, Phase.isAccepted, Phase.isExecuted, drop]

/-! ## What is counted of a query -/

/-- What a store counts when a query goes from one phase to another. -/
structure Counted (s : Store) (p : Phase) (s' : Store) (p' : Phase) : Prop where
  queries : s'.queries = s.queries + p'.isAccepted.toNat
  executed : s'.executed.length = s.executed.length + p'.isExecuted.toNat
  inFlight : s'.inFlight = s.inFlight + p'.isActive.toNat - p.isActive.toNat
  maxInFlight : s.inFlight ≤ s.maxInFlight → s'.maxInFlight = max s'.inFlight s.maxInFlight

theorem Counted.of_eq (haccepted : p'.isAccepted = false) (hexecuted : p'.isExecuted = false)
    (hactive : p'.isActive = p.isActive) : Counted s p s p' where
  queries := by rw [haccepted]; rfl
  executed := by rw [hexecuted]; rfl
  inFlight := by rw [hactive, Nat.add_sub_cancel]
  maxInFlight h := (Nat.max_eq_right h).symm

theorem Counted.of_release (hactive : p.isActive = true) (hover : p'.isOver = true) :
    Counted s p s.release p' := by
  have hmax : s.inFlight ≤ s.maxInFlight → s.maxInFlight = max (s.inFlight - 1) s.maxInFlight := by
    omega
  cases p' with
  | finished | dropped => exact ⟨rfl, rfl, by rw [hactive]; rfl, hmax⟩
  | _ => cases hover

theorem counted_of_moves (h : Moves s f s' f') : Counted s f.phase s' f'.phase := by
  obtain ⟨l, b, phase, place⟩ := f
  cases h with
  | acts hstep =>
    obtain ⟨phase', rfl, hacts⟩ := acts_of_step hstep
    cases hacts with
    | accept q => exact ⟨rfl, rfl, rfl, fun _ => Nat.max_comm _ _⟩
    | record q =>
      exact ⟨rfl, List.length_append, (Nat.add_sub_cancel _ _).symm,
        fun h => (Nat.max_eq_right h).symm⟩
    | fail | lose | read => exact .of_release rfl rfl
    | _ => exact .of_eq rfl rfl rfl
  | drops =>
    cases phase with
    | fresh | finished | dropped => exact .of_eq rfl rfl rfl
    | _ => exact .of_release rfl rfl

theorem counted_of_handled (h : s.Handled s') : Counted s .fresh s' .fresh := by
  cases h <;> exact ⟨rfl, rfl, rfl, fun h => (Nat.max_eq_right h).symm⟩

theorem isActive_drop (s : Store) (f : Fetch) : (f.drop s).2.phase.isActive = false := by
  obtain ⟨l, b, phase, place⟩ := f
  cases phase <;> rfl

end Fetch

namespace FanOut

theorem isActive_of_dropAll {s : Store} {fetches : List Fetch} :
    ∀ f ∈ (dropAll s fetches).2, f.phase.isActive = false := by
  induction fetches generalizing s with
  | nil => exact List.forall_mem_nil _
  | cons f fetches ih => exact List.forall_mem_cons.2 ⟨f.isActive_drop s, ih⟩

theorem isActive_of_run {now : Nat} {s s' : Store} {fan fan' : FanOut}
    {r : Except ServingError (SortedMap Position RowSet)}
    (h : fan.run now s = (s', fan', some r)) : ∀ f ∈ fan'.fetches, f.phase.isActive = false := by
  rcases run_cases (rfl : runAll now s fan.fetches = (_, _)) with
    ⟨r', hover, hrun⟩ | ⟨d, -, -, hrun⟩ | hrun
  · cases hrun.symm.trans h
    intro f hf
    obtain ⟨a, ha⟩ := exists_outcome?_iff.1 ⟨_, hover⟩ f hf
    rw [ha]
    rfl
  · cases hrun.symm.trans h
    exact isActive_of_dropAll
  · cases hrun.symm.trans h

end FanOut

/-! ## Runs -/

/-- A store and the queries that were put to it, each as far as it has come. -/
structure Traffic where
  store : Store := {}
  queries : List Fetch := []

namespace Traffic

/-- One thing that happens at a store: something is done to it, a query is put to it, or something
happens to one of its queries. -/
inductive Step (t : Traffic) : Traffic → Prop
  | handles {s : Store} (h : t.store.Handled s) : Step t { t with store := s }
  | begins {f : Fetch} (hfresh : f.phase = .fresh) : Step t { t with queries := t.queries ++ [f] }
  | moves {n : Nat} {f f' : Fetch} {s : Store} (hn : t.queries[n]? = some f)
    (h : f.Moves t.store s f') : Step t ⟨s, t.queries.set n f'⟩

/-- All moments that a new store can come to, each with the moments before it, the latest first. -/
inductive Runs : List Traffic → Traffic → Prop
  | start : Runs [] {}
  | step {past : List Traffic} {t t' : Traffic} (hruns : Runs past t) (hstep : Step t t') :
    Runs (t :: past) t'

/-- Whether the query with a number is in a phase of a kind. -/
def Is (P : Fetch.Phase → Bool) (t : Traffic) (n : Nat) : Prop :=
  ∃ f, t.queries[n]? = some f ∧ P f.phase = true

/-- Whether the query with a number was in a phase of a kind at one of the moments. -/
def Seen (P : Fetch.Phase → Bool) (moments : List Traffic) (n : Nat) : Prop :=
  ∃ t ∈ moments, t.Is P n

/-- Whether the query with a number was accepted at one of the moments. -/
abbrev Accepted (moments : List Traffic) (n : Nat) : Prop :=
  Seen Fetch.Phase.isAccepted moments n

/-- Whether the query with a number was executed at one of the moments. -/
abbrev Executed (moments : List Traffic) (n : Nat) : Prop :=
  Seen Fetch.Phase.isExecuted moments n

/-- The numbers of queries that were in flight at the moments. -/
def loads (moments : List Traffic) : Set Nat :=
  {k | ∃ t ∈ moments, t.store.inFlight = k}

variable {P : Fetch.Phase → Bool} {t t' : Traffic} {past : List Traffic} {n j : Nat} {f f' : Fetch}
  {fetches : List Fetch} {s : Store}

theorem Runs.stays (h : Runs past t) (hn : t.queries[n]? = some f) :
    Runs past ⟨t.store, t.queries.set n f⟩ := by
  obtain ⟨hlt, rfl⟩ := List.getElem?_eq_some_iff.1 hn
  rwa [List.set_getElem_self]

theorem Runs.query (h : Runs past t) (hn : t.queries[n]? = some f) (now fuel : Nat) :
    ∃ past', Runs past'
      ⟨(f.runFor now fuel t.store).1, t.queries.set n (f.runFor now fuel t.store).2⟩ := by
  induction fuel generalizing past t f with
  | zero => exact ⟨past, h.stays hn⟩
  | succ fuel ih =>
    rw [Fetch.runFor]
    cases hstep : f.step now t.store with
    | none => exact ⟨past, h.stays hn⟩
    | some next =>
      have hlt := (List.getElem?_eq_some_iff.1 hn).1
      obtain ⟨past', hruns⟩ :=
        ih (h.step (.moves hn (.acts hstep))) (List.getElem?_set_self hlt)
      rw [List.set_set] at hruns
      exact ⟨past', hruns⟩

section FanOut

variable {others : List Fetch}

theorem getElem?_behind : (others ++ f :: fetches)[others.length]? = some f := by
  simp

theorem set_behind : (others ++ f :: fetches).set others.length f' = others ++ [f'] ++ fetches := by
  simp

theorem Runs.runAll (h : Runs past ⟨s, others ++ fetches⟩) (now : Nat) :
    ∃ past', Runs past'
      ⟨(FanOut.runAll now s fetches).1, others ++ (FanOut.runAll now s fetches).2⟩ := by
  induction fetches generalizing past s others with
  | nil => exact ⟨past, h⟩
  | cons f fetches ih =>
    obtain ⟨_, hfirst⟩ := h.query getElem?_behind now 7
    rw [set_behind] at hfirst
    obtain ⟨past', hrest⟩ := ih hfirst
    rw [List.append_assoc] at hrest
    exact ⟨past', hrest⟩

theorem Runs.dropAll (h : Runs past ⟨s, others ++ fetches⟩) :
    ∃ past', Runs past'
      ⟨(FanOut.dropAll s fetches).1, others ++ (FanOut.dropAll s fetches).2⟩ := by
  induction fetches generalizing past s others with
  | nil => exact ⟨past, h⟩
  | cons f fetches ih =>
    have hfirst := h.step (.moves getElem?_behind .drops)
    rw [set_behind] at hfirst
    obtain ⟨past', hrest⟩ := ih hfirst
    rw [List.append_assoc] at hrest
    exact ⟨past', hrest⟩

/-- A fan-out that runs is a run of its store, with the queries of others beside it. -/
theorem Runs.fanOut {fan : FanOut} (h : Runs past ⟨s, others ++ fan.fetches⟩) (now : Nat) :
    ∃ past', Runs past' ⟨(fan.run now s).1, others ++ (fan.run now s).2.1.fetches⟩ := by
  obtain ⟨past', hall⟩ := h.runAll now
  rcases FanOut.run_cases (rfl : FanOut.runAll now s fan.fetches = (_, _)) with
    ⟨r, -, hrun⟩ | ⟨d, -, -, hrun⟩ | hrun
  · rw [hrun]
    exact ⟨past', hall⟩
  · rw [hrun]
    exact hall.dropAll
  · rw [hrun]
    exact ⟨past', hall⟩

end FanOut

/-! ## Phases and moments -/

theorem is_iff (hn : t.queries[n]? = some f) : t.Is P n ↔ P f.phase = true := by
  simp [Is, hn]

theorem lt_of_is (h : t.Is P n) : n < t.queries.length := by
  obtain ⟨f, hf, -⟩ := h
  exact (List.getElem?_eq_some_iff.1 hf).1

theorem seen_cons : Seen P (t :: past) n ↔ t.Is P n ∨ Seen P past n := by
  simp [Seen]

theorem loads_cons : loads (t :: past) = insert t.store.inFlight (loads past) := by
  ext k
  simp [loads, eq_comm]

theorem getElem?_append_eq_some (h : (fetches ++ [f])[n]? = some f') :
    fetches[n]? = some f' ∨ n = fetches.length ∧ f = f' := by
  rcases Nat.lt_or_ge n fetches.length with hlt | hge
  · exact .inl (by rwa [List.getElem?_append_left hlt] at h)
  · rw [List.getElem?_append_right hge, List.getElem?_singleton] at h
    split at h
    · exact .inr ⟨by omega, Option.some.inj h⟩
    · cases h

theorem is_append :
    Is P ⟨s, fetches ++ [f]⟩ n ↔ n = fetches.length ∧ P f.phase = true ∨ Is P ⟨s, fetches⟩ n := by
  constructor
  · rintro ⟨g, hg, hP⟩
    rcases getElem?_append_eq_some hg with hold | ⟨rfl, rfl⟩
    · exact .inr ⟨g, hold, hP⟩
    · exact .inl ⟨rfl, hP⟩
  · rintro (⟨rfl, hP⟩ | ⟨g, hg, hP⟩)
    · exact ⟨f, List.getElem?_concat_length, hP⟩
    · have hlt := (List.getElem?_eq_some_iff.1 hg).1
      exact ⟨g, (List.getElem?_append_left hlt).trans hg, hP⟩

theorem is_set (hn : t.queries[n]? = some f) :
    Is P ⟨s, t.queries.set n f'⟩ j ↔ j = n ∧ P f'.phase = true ∨ j ≠ n ∧ t.Is P j := by
  have hlt := (List.getElem?_eq_some_iff.1 hn).1
  by_cases hj : j = n
  · subst hj
    simp [Is, hlt]
  · simp [Is, hj, List.getElem?_set_ne (Ne.symm hj)]

/-- What was seen stays seen, also when the query goes on. -/
theorem seen_set (hn : t.queries[n]? = some f) :
    Seen P (⟨s, t.queries.set n f'⟩ :: t :: past) j ↔
      j = n ∧ P f'.phase = true ∨ Seen P (t :: past) j := by
  rw [seen_cons, is_set hn, seen_cons]
  tauto

theorem seen_cons_of_imp (h : t'.Is P n → t.Is P n) :
    Seen P (t' :: t :: past) n ↔ Seen P (t :: past) n := by
  rw [seen_cons, or_iff_right_iff_imp, seen_cons]
  exact fun hnew => .inl (h hnew)

/-! ## Numbers of queries -/

theorem length_le_of_step (h : Step t t') : t.queries.length ≤ t'.queries.length := by
  cases h with
  | handles => exact Nat.le_refl _
  | begins => exact List.length_append ▸ Nat.le_add_right _ _
  | moves => rw [List.length_set]

theorem lt_of_seen (hruns : Runs past t) (h : Seen P (t :: past) n) : n < t.queries.length := by
  induction hruns with
  | start =>
    obtain ⟨u, hu, his⟩ := h
    obtain rfl := List.mem_singleton.1 hu
    exact lt_of_is his
  | step _ hstep ih =>
    rcases seen_cons.1 h with his | hseen
    · exact lt_of_is his
    · exact Nat.lt_of_lt_of_le (ih hseen) (length_le_of_step hstep)

theorem finite_seen (hruns : Runs past t) (P : Fetch.Phase → Bool) :
    {n | Seen P (t :: past) n}.Finite :=
  (Set.finite_lt_nat t.queries.length).subset fun _ hn => lt_of_seen hruns hn

theorem ncard_eq_or {S : Set Nat} (hfinite : S.Finite) {b : Bool} (hnew : b = true → n ∉ S) :
    {j | j = n ∧ b = true ∨ j ∈ S}.ncard = S.ncard + b.toNat := by
  cases b with
  | false => simp
  | true =>
    have hinsert : {j | j = n ∧ true = true ∨ j ∈ S} = insert n S := by
      ext j
      simp
    rw [hinsert, Set.ncard_insert_of_notMem (hnew rfl) hfinite]
    rfl

/-- One more query was in a phase of a kind when one came to it that never was. -/
theorem ncard_seen_set (hruns : Runs past t) (hn : t.queries[n]? = some f)
    (hnew : P f'.phase = true → ¬ Seen P (t :: past) n) :
    {j | Seen P (⟨s, t.queries.set n f'⟩ :: t :: past) j}.ncard =
      {j | Seen P (t :: past) j}.ncard + (P f'.phase).toNat := by
  simp only [seen_set hn]
  exact ncard_eq_or (finite_seen hruns P) hnew

theorem ncard_is (P : Fetch.Phase → Bool) (t : Traffic) :
    {n | t.Is P n}.ncard = t.queries.countP (P ·.phase) := by
  obtain ⟨s, fetches⟩ := t
  induction fetches using List.reverseRecOn with
  | nil => simp [Is]
  | append_singleton fetches f ih =>
    have hlt : ∀ n, Is P ⟨s, fetches⟩ n → n < fetches.length := fun _ h => lt_of_is h
    have hfinite : {n | Is P ⟨s, fetches⟩ n}.Finite :=
      (Set.finite_lt_nat fetches.length).subset hlt
    have hnew : fetches.length ∉ {n | Is P ⟨s, fetches⟩ n} := fun h => Nat.lt_irrefl _ (hlt _ h)
    simp only [is_append]
    refine (ncard_eq_or hfinite fun _ => hnew).trans ?_
    rw [ih, List.countP_append, List.countP_singleton]
    cases P f.phase <;> rfl

theorem countP_set_eq (p : Fetch → Bool) (hn : fetches[n]? = some f) (f' : Fetch) :
    (fetches.set n f').countP p = fetches.countP p + (p f').toNat - (p f).toNat := by
  obtain ⟨hlt, hfound⟩ := List.getElem?_eq_some_iff.1 hn
  rw [List.countP_set hlt, hfound]
  cases hold : p f with
  | false =>
    show fetches.countP p - 0 + (if p f' = true then 1 else 0) = fetches.countP p + (p f').toNat - 0
    cases p f' <;> rfl
  | true =>
    -- The query that went on is one of those counted: the difference is not cut off at zero.
    have hpos : 0 < fetches.countP p := List.countP_pos_iff.2 ⟨f, List.mem_of_getElem? hn, hold⟩
    show fetches.countP p - 1 + (if p f' = true then 1 else 0) = fetches.countP p + (p f').toNat - 1
    cases p f' with
    | false => rfl
    | true =>
      show fetches.countP p - 1 + 1 = fetches.countP p + 1 - 1
      omega

/-! ## The invariant -/

/-- What holds of every moment of a run. -/
structure Invariant (past : List Traffic) (t : Traffic) : Prop where
  phases : ∀ (n : Nat) (f : Fetch), t.queries[n]? = some f →
    f.phase.Past (Accepted (t :: past) n) (Executed (t :: past) n)
  queries : t.store.queries = {n | Accepted (t :: past) n}.ncard
  executed : t.store.executed.length = {n | Executed (t :: past) n}.ncard
  inFlight : t.store.inFlight = t.queries.countP (·.phase.isActive)
  maxInFlight : IsGreatest (loads (t :: past)) t.store.maxInFlight

theorem invariant_start : Invariant [] {} where
  phases n f hn := by cases hn
  queries := by simp [Seen, Is]
  executed := by simp [Seen, Is]
  inFlight := rfl
  maxInFlight := by simp [loads]

theorem isGreatest_loads {p p' : Fetch.Phase}
    (h : IsGreatest (loads (t :: past)) t.store.maxInFlight)
    (hcounted : Fetch.Counted t.store p t'.store p') :
    IsGreatest (loads (t' :: t :: past)) t'.store.maxInFlight := by
  have hle : t.store.inFlight ≤ t.store.maxInFlight := h.2 ⟨t, List.mem_cons_self, rfl⟩
  rw [loads_cons, hcounted.maxInFlight hle]
  exact h.insert _

theorem invariant_handles (h : Invariant past t) (hs : t.store.Handled s) :
    Invariant (t :: past) { t with store := s } := by
  have hcounted := Fetch.counted_of_handled hs
  have hseen : ∀ P n, Seen P ({ t with store := s } :: t :: past) n ↔ Seen P (t :: past) n :=
    fun P n => seen_cons_of_imp id
  refine ⟨?_, ?_, ?_, hcounted.inFlight.trans h.inFlight, isGreatest_loads h.maxInFlight hcounted⟩
  · simp only [Accepted, Executed, hseen]
    exact h.phases
  · simp only [Accepted, hseen]
    exact hcounted.queries.trans h.queries
  · simp only [Executed, hseen]
    exact hcounted.executed.trans h.executed

theorem invariant_begins (hruns : Runs past t) (h : Invariant past t) (hf : f.phase = .fresh) :
    Invariant (t :: past) { t with queries := t.queries ++ [f] } := by
  have hseen : ∀ P, P .fresh = false → ∀ n,
      Seen P ({ t with queries := t.queries ++ [f] } :: t :: past) n ↔ Seen P (t :: past) n := by
    intro P hP n
    refine seen_cons_of_imp fun his => ?_
    rcases is_append.1 his with ⟨-, hPf⟩ | hold
    · rw [hf, hP] at hPf
      cases hPf
    · exact hold
  have haccepted := hseen Fetch.Phase.isAccepted rfl
  have hexecuted := hseen Fetch.Phase.isExecuted rfl
  have hunborn : ∀ P, ¬ Seen P (t :: past) t.queries.length := fun P hlt =>
    Nat.lt_irrefl _ (lt_of_seen hruns hlt)
  have hcounted : Fetch.Counted t.store .fresh t.store .fresh := .of_eq rfl rfl rfl
  refine ⟨fun n g hn => ?_, ?_, ?_, ?_, isGreatest_loads h.maxInFlight hcounted⟩
  · simp only [Accepted, Executed, haccepted, hexecuted]
    rcases getElem?_append_eq_some hn with hold | ⟨rfl, rfl⟩
    · exact h.phases n g hold
    · rw [hf]
      exact ⟨hunborn _, hunborn _⟩
  · simp only [Accepted, haccepted]
    exact h.queries
  · simp only [Executed, hexecuted]
    exact h.executed
  · rw [List.countP_append, List.countP_singleton, hf]
    exact h.inFlight

/-- What happens to a query is counted, and changes the past of no other one. -/
theorem invariant_moves (hruns : Runs past t) (h : Invariant past t) (hn : t.queries[n]? = some f)
    (hmoves : f.Moves t.store s f') : Invariant (t :: past) ⟨s, t.queries.set n f'⟩ := by
  have hcounted := Fetch.counted_of_moves hmoves
  obtain ⟨hpast, haccepted, hexecuted⟩ := Fetch.past_of_moves hmoves (h.phases n f hn)
  have hlt := (List.getElem?_eq_some_iff.1 hn).1
  refine ⟨fun j g hj => ?_, ?_, ?_, ?_, isGreatest_loads h.maxInFlight hcounted⟩
  · simp only [Accepted, Executed, seen_set hn]
    by_cases hjn : j = n
    · subst hjn
      obtain rfl : f' = g := by simpa [hlt] using hj
      simpa using hpast
    · simpa [hjn] using h.phases j g (by simpa [Ne.symm hjn] using hj)
  · rw [hcounted.queries, h.queries]
    exact (ncard_seen_set hruns hn haccepted).symm
  · rw [hcounted.executed, h.executed]
    exact (ncard_seen_set hruns hn hexecuted).symm
  · rw [hcounted.inFlight, h.inFlight]
    exact (countP_set_eq (·.phase.isActive) hn f').symm

/-- **Every step keeps the invariant.** -/
theorem invariant_step (hruns : Runs past t) (h : Invariant past t) (hstep : Step t t') :
    Invariant (t :: past) t' := by
  cases hstep with
  | handles hs => exact invariant_handles h hs
  | begins hf => exact invariant_begins hruns h hf
  | moves hn hmoves => exact invariant_moves hruns h hn hmoves

theorem invariant_of_runs (h : Runs past t) : Invariant past t := by
  induction h with
  | start => exact invariant_start
  | step hruns hstep ih => exact invariant_step hruns ih hstep

/-! ## The counters -/

theorem inFlight_pos (h : Runs past t) (hf : f ∈ t.queries) (hactive : f.phase.isActive = true) :
    0 < t.store.inFlight := by
  rw [(invariant_of_runs h).inFlight]
  exact List.countP_pos_iff.2 ⟨f, hf, hactive⟩

theorem countP_isActive_eq_zero (hnone : ∀ f ∈ fetches, f.phase.isActive = false) :
    fetches.countP (·.phase.isActive) = 0 :=
  List.countP_eq_zero.2 fun f hf => Bool.not_eq_true _ ▸ hnone f hf

/-- A fan-out that is over, be it that its time limit has passed, leaves nothing in flight but the
queries of others. -/
theorem inFlight_of_fanOut {others : List Fetch} {fan fan' : FanOut} {now : Nat} {s' : Store}
    {r : Except ServingError (SortedMap Position RowSet)} (h : Runs past ⟨s, others ++ fan.fetches⟩)
    (hrun : fan.run now s = (s', fan', some r)) :
    s'.inFlight = others.countP (·.phase.isActive) := by
  obtain ⟨_, hruns⟩ := h.fanOut now
  rw [hrun] at hruns
  have hall := (invariant_of_runs hruns).inFlight
  rwa [List.countP_append, countP_isActive_eq_zero (FanOut.isActive_of_run hrun)] at hall

/-- Two facts about a number that each take a query with it, compared by the past of the query. -/
theorem iff_of_past (h : Runs past t) {A B : Prop} (hA : A → n < t.queries.length)
    (hB : B → n < t.queries.length)
    (hiff : ∀ f, t.queries[n]? = some f →
      f.phase.Past (Accepted (t :: past) n) (Executed (t :: past) n) → (A ↔ B)) : A ↔ B := by
  have hborn : n < t.queries.length → (A ↔ B) := fun hlt =>
    have hn := List.getElem?_eq_getElem hlt
    hiff _ hn ((invariant_of_runs h).phases n _ hn)
  exact ⟨fun a => (hborn (hA a)).1 a, fun b => (hborn (hB b)).2 b⟩

theorem is_active_iff (h : Runs past t) :
    t.Is Fetch.Phase.isActive n ↔ Accepted (t :: past) n ∧ ¬ t.Is Fetch.Phase.isOver n := by
  refine iff_of_past h lt_of_is (fun hb => lt_of_seen h hb.1) fun f hn hpast => ?_
  rw [is_iff hn, is_iff hn]
  exact Fetch.Phase.isActive_iff_of_past hpast

theorem is_pending_or_iff (h : Runs past t) :
    t.Is Fetch.Phase.isPending n ∨
        t.Is Fetch.Phase.isDropped n ∧ Accepted (t :: past) n ∧ ¬ Executed (t :: past) n ↔
      Accepted (t :: past) n ∧ ¬ Executed (t :: past) n := by
  refine iff_of_past h ?_ (fun hb => lt_of_seen h hb.1) fun f hn hpast => ?_
  · rintro (hpending | ⟨hdropped, -⟩)
    · exact lt_of_is hpending
    · exact lt_of_is hdropped
  · rw [is_iff hn, is_iff hn]
    exact Fetch.Phase.isPending_or_iff_of_past hpast

theorem accepted_of_executed (h : Runs past t) (he : Executed (t :: past) n) :
    Accepted (t :: past) n := by
  have hn := List.getElem?_eq_getElem (lt_of_seen h he)
  exact Fetch.Phase.accepted_of_past ((invariant_of_runs h).phases n _ hn) he

/-- **The counters are exact** at every moment, whatever the order in which the queries of a store
take their actions, and whichever of them are refused, fail or are dropped, wherever they are:

* in flight are as many queries as were accepted and are neither finished nor dropped, and there are
  none when no query is under way;
* the most that were in flight is the greatest number that ever was;
* as many queries are counted as were accepted, and the log has one entry for each executed one;
* the accepted queries without an entry still wait to be executed or were dropped before. -/
theorem counts_of_runs {past : List Traffic} {t : Traffic} (h : Runs past t) :
    t.store.inFlight =
        {n | Accepted (t :: past) n ∧ ¬ t.Is Fetch.Phase.isOver n}.ncard ∧
      IsGreatest (loads (t :: past)) t.store.maxInFlight ∧
      t.store.queries = {n | Accepted (t :: past) n}.ncard ∧
      t.store.executed.length = {n | Executed (t :: past) n}.ncard ∧
      t.store.queries = t.store.executed.length +
        {n | t.Is Fetch.Phase.isPending n ∨
          t.Is Fetch.Phase.isDropped n ∧ Accepted (t :: past) n ∧ ¬ Executed (t :: past) n}.ncard ∧
      ((∀ f ∈ t.queries, f.phase.isActive = false) → t.store.inFlight = 0) := by
  have hinv := invariant_of_runs h
  refine ⟨?_, hinv.maxInFlight, hinv.queries, hinv.executed, ?_, fun hnone => ?_⟩
  · simp only [← is_active_iff h]
    rw [ncard_is]
    exact hinv.inFlight
  · have hsub : {n | Executed (t :: past) n} ⊆ {n | Accepted (t :: past) n} :=
      fun n => accepted_of_executed h
    have hsplit := Set.ncard_sdiff_add_ncard_of_subset hsub (finite_seen h _)
    simp only [is_pending_or_iff h]
    rw [hinv.queries, hinv.executed, Nat.add_comm]
    exact hsplit.symm
  · rw [hinv.inFlight]
    exact countP_isActive_eq_zero hnone

/-! ### Two queries, one of them dropped -/

def plainQuery : Fetch where
  lookup := ⟨0, none, none, .single, [.text "SELECT 0"], []⟩
  binds := .named ∅

/-- Two queries sleep; one is dropped, the other one is executed. A third is refused, since the
connection broke meanwhile. -/
theorem counts_of_runs_plain : ∃ past t, Runs past t ∧
    {n | Accepted (t :: past) n ∧ ¬ t.Is Fetch.Phase.isOver n}.ncard = 0 ∧
      t.store.maxInFlight = 2 ∧
      {n | Accepted (t :: past) n}.ncard = 2 ∧ {n | Executed (t :: past) n}.ncard = 1 ∧
      {n | t.Is Fetch.Phase.isPending n ∨
        t.Is Fetch.Phase.isDropped n ∧ Accepted (t :: past) n ∧
          ¬ Executed (t :: past) n}.ncard = 1 := by
  have hslow := Runs.start.step (.handles (.setLatency 5))
  have hone := hslow.step (.begins (f := plainQuery) rfl)
  have htwo := hone.step (.begins (f := plainQuery) rfl)
  obtain ⟨_, hsleeps⟩ := htwo.query (n := 0) rfl 0 7
  obtain ⟨_, hsleep⟩ := hsleeps.query (n := 1) rfl 0 7
  have hdropped := hsleep.step (.moves (n := 1) rfl .drops)
  have hbroken := hdropped.step (.handles .close)
  have hthree := hbroken.step (.begins (f := plainQuery) rfl)
  obtain ⟨_, hrefused⟩ := hthree.query (n := 2) rfl 3 7
  obtain ⟨past, hwoken⟩ := hrefused.query (n := 0) rfl 5 7
  obtain ⟨hflight, -, hqueries, hexecuted, hwaiting, -⟩ := counts_of_runs hwoken
  refine ⟨_, _, hwoken, hflight.symm, rfl, hqueries.symm, hexecuted.symm, ?_⟩
  exact (Nat.add_left_cancel hwaiting).symm

end Traffic

end FeatureServing
