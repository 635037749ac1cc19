import Mathlib.Data.List.Nodup
import Mathlib.Logic.Relation
import FeatureServing.Proofs.CallRun
import FeatureServing.Proofs.FiniteMap

/-!
# A fan-out waits for all of its queries

The queries of a fan-out go on side by side and end in any order. What they give together depends on
their answers alone, and there is nothing before the last of them has ended:

* `FanOut.Shared` : the positions that a fan-out has queries for; `FanOut.mem_submitted_iff`,
  `FanOut.ascending_submitted`, one each;
* `FanOut.Moves` : what can happen to queries under way, `FanOut.same_of_moves` : they stay the same
  queries;
* `FanOut.Collects` : what answers give together, and nothing else (`FanOut.Collects.unique`);
* `FanOut.exists_outcome?_iff`, `FanOut.outcome?_of_ended` : when there is an outcome, and which;
* `FanOut.barrier` : all of this for every order of the queries, and for the in-memory store.
-/

namespace FeatureServing

namespace FanOut

variable {lookups : SortedMap Position Lookup} {binds : SortedMap Position Binds}
  {fetches fetches' : List Fetch}

/-! ## Submitted queries -/

/-- Whether a position has a lookup and binds. -/
def Shared (lookups : SortedMap Position Lookup) (binds : SortedMap Position Binds)
    (j : Position) : Prop :=
  (∃ l, lookups.get? j = some l) ∧ ∃ b, binds.get? j = some b

theorem mem_submitted_iff {f : Fetch} :
    f ∈ submitted lookups binds ↔ ∃ j l b, lookups.get? j = some l ∧ binds.get? j = some b ∧
      { lookup := l, binds := b, place := j } = f := by
  simp only [submitted, List.mem_filterMap, Option.map_eq_some_iff, Prod.exists,
    SortedMap.mem_entries_iff, exists_and_left]

theorem shared_iff {j : Position} :
    Shared lookups binds j ↔ j ∈ (submitted lookups binds).map (·.place) := by
  simp only [List.mem_map, mem_submitted_iff]
  constructor
  · rintro ⟨⟨l, hl⟩, b, hb⟩
    exact ⟨_, ⟨j, l, b, hl, hb, rfl⟩, rfl⟩
  · rintro ⟨_, ⟨j, l, b, hl, hb, rfl⟩, rfl⟩
    exact ⟨⟨l, hl⟩, b, hb⟩

theorem ascending_submitted (lookups : SortedMap Position Lookup)
    (binds : SortedMap Position Binds) :
    ((submitted lookups binds).map (·.place)).Pairwise (· < ·) := by
  rw [List.pairwise_map]
  refine lookups.sorted.filterMap _ fun e e' hlt f hf f' hf' => ?_
  obtain ⟨b, -, rfl⟩ := Option.map_eq_some_iff.1 hf
  obtain ⟨b', -, rfl⟩ := Option.map_eq_some_iff.1 hf'
  exact compareOfLessAndEq_eq_lt.1 hlt

/-! ## Queries under way -/

/-- One thing that happens to queries under way: one of them takes its next action, whatever the
store and the time are by then, or is answered by a store of any kind. -/
inductive Moves : List Fetch → List Fetch → Prop
  | acts {fetches : List Fetch} {n : Nat} {f f' : Fetch} {now : Nat} {s s' : Store}
    (hn : fetches[n]? = some f) (hstep : f.step now s = some (s', f')) :
    Moves fetches (fetches.set n f')
  | answered {fetches : List Fetch} {n : Nat} {f : Fetch} (hn : fetches[n]? = some f)
    (hopen : f.result? = none) (r : Except ServingError RowSet) :
    Moves fetches (fetches.set n { f with phase := .finished r })

/-- Whether a query is a later form of another. -/
def Same (f f' : Fetch) : Prop :=
  f'.place = f.place ∧ f'.lookup = f.lookup ∧ f'.binds = f.binds

theorem same_of_moves (h : Relation.ReflTransGen Moves fetches fetches') :
    List.Forall₂ Same fetches fetches' := by
  induction h with
  | refl => exact List.forall₂_same.2 fun _ _ => ⟨rfl, rfl, rfl⟩
  | tail _ hmove ih =>
    cases hmove with
    | acts hn hstep =>
      obtain ⟨phase, rfl, -⟩ := Fetch.acts_of_step hstep
      exact forall₂_set ih (fun _ _ h => h) hn fun _ h => h
    | answered hn _ r => exact forall₂_set ih (fun _ _ h => h) hn fun _ h => h

theorem places_of_moves (h : Relation.ReflTransGen Moves fetches fetches') :
    fetches'.map (·.place) = fetches.map (·.place) := by
  rw [← List.forall₂_eq_eq_eq, List.forall₂_map_left_iff, List.forall₂_map_right_iff]
  exact (same_of_moves h).flip.imp fun _ _ h => h.1

theorem moves_runFor (now fuel : Nat) (s : Store) (front back : List Fetch) (f : Fetch) :
    Relation.ReflTransGen Moves (front ++ f :: back)
      (front ++ (f.runFor now fuel s).2 :: back) := by
  induction fuel generalizing s f with
  | zero => exact .refl
  | succ fuel ih =>
    rw [Fetch.runFor]
    cases hstep : f.step now s with
    | none => exact .refl
    | some next =>
      obtain ⟨s', f'⟩ := next
      have hn : (front ++ f :: back)[front.length]? = some f := by simp
      have hmove := Moves.acts hn hstep
      rw [List.set_append_right _ _ (Nat.le_refl _), Nat.sub_self, List.set_cons_zero] at hmove
      exact (ih s' f').head hmove

theorem moves_runAll (now : Nat) (s : Store) (front fetches : List Fetch) :
    Relation.ReflTransGen Moves (front ++ fetches) (front ++ (runAll now s fetches).2) := by
  induction fetches generalizing s front with
  | nil => exact .refl
  | cons f rest ih =>
    have hrest := ih (f.run now s).1 (front ++ [(f.run now s).2])
    rw [List.append_assoc, List.append_assoc] at hrest
    exact (moves_runFor now 7 s front rest f).trans hrest

/-- Without a time limit a fan-out that runs ends when there is an outcome. -/
theorem run_without_limit (now : Nat) (s : Store) (fetches : List Fetch) :
    ∃ s' fetches', run now s ⟨fetches, none⟩ = (s', ⟨fetches', none⟩, outcome? fetches') ∧
      Relation.ReflTransGen Moves fetches fetches' := by
  refine ⟨(runAll now s fetches).1, (runAll now s fetches).2, ?_, moves_runAll now s [] fetches⟩
  rw [run]
  cases hover : outcome? (runAll now s fetches).2 <;> simp only [hover]

/-! ## Outcomes -/

/-- Whether the query of a position has ended with an answer. -/
def Ended (fetches : List Fetch) (j : Position) (a : Except ServingError RowSet) : Prop :=
  ∃ f ∈ fetches, f.place = j ∧ f.phase = .finished a

/-- **There is an outcome** once all queries have ended, and not before. -/
theorem exists_outcome?_iff :
    (∃ r, outcome? fetches = some r) ↔ ∀ f ∈ fetches, ∃ a, f.phase = .finished a := by
  have hended : ∀ f : Fetch, (∃ item, positioned? f = some item) ↔ ∃ a, f.phase = .finished a := by
    intro f
    rw [positioned?, Fetch.result?]
    cases f.phase <;> simp
  simp only [← hended, ← exists_mapM_some_iff, outcome?, Option.map_eq_some_iff]
  constructor
  · rintro ⟨_, items, h, -⟩
    exact ⟨items, h⟩
  · rintro ⟨items, h⟩
    exact ⟨_, items, h, rfl⟩

/-- What answers for positions give together: all rows under their positions, or the error of the
smallest position that has one. -/
inductive Collects (lookups : SortedMap Position Lookup) (binds : SortedMap Position Binds)
    (answer : Position → Except ServingError RowSet) :
    Except ServingError (SortedMap Position RowSet) → Prop
  | rows {results : SortedMap Position RowSet}
    (hall : ∀ j, Shared lookups binds j → ∃ rows, answer j = .ok rows)
    (hrows : ∀ j rows, results.get? j = some rows ↔ Shared lookups binds j ∧ answer j = .ok rows) :
    Collects lookups binds answer (.ok results)
  | fails {j : Position} {e : ServingError} (hj : Shared lookups binds j) (he : answer j = .error e)
    (hleast : ∀ j', Shared lookups binds j' → j' < j → ∃ rows, answer j' = .ok rows) :
    Collects lookups binds answer (.error e)

/-- The rows of positions, or the error of the first one that has any. -/
def collected (js : List Position) (answer : Position → Except ServingError RowSet) :
    Except ServingError (SortedMap Position RowSet) :=
  (js.mapM fun j => (answer j).map fun rows => (j, rows)).map SortedMap.ofList

variable {answer : Position → Except ServingError RowSet}

theorem outcome?_of_ended (h : ∀ f ∈ fetches, f.phase = .finished (answer f.place)) :
    outcome? fetches = some (collected (fetches.map (·.place)) answer) := by
  have hitems : fetches.mapM positioned? = some (fetches.map fun f =>
      (answer f.place).map fun rows => (f.place, rows)) := by
    rw [mapM_some_iff, List.forall₂_map_right_iff]
    refine List.forall₂_same.2 fun f hf => ?_
    rw [positioned?, Fetch.result?, h f hf]
    rfl
  rw [outcome?, hitems, Option.map_some, List.mapM_map, collected, List.mapM_map]
  rfl

/-- **Answers of ascending positions** are collected. -/
theorem collects_collected (lookups : SortedMap Position Lookup) (binds : SortedMap Position Binds)
    (answer : Position → Except ServingError RowSet) :
    Collects lookups binds answer
      (collected ((submitted lookups binds).map (·.place)) answer) := by
  have hsorted := ascending_submitted lookups binds
  have hshared : ∀ {j}, Shared lookups binds j ↔ j ∈ (submitted lookups binds).map (·.place) :=
    shared_iff
  generalize (submitted lookups binds).map (·.place) = js at hsorted hshared
  cases hc : collected js answer with
  | ok results =>
    obtain ⟨pairs, hpairs, rfl⟩ := map_ok_iff.1 hc
    have hmem : ∀ {j rows}, (j, rows) ∈ pairs ↔ Shared lookups binds j ∧ answer j = .ok rows := by
      intro j rows
      simp only [mem_mapM_ok_iff hpairs, map_ok_iff, Prod.mk.injEq, hshared]
      constructor
      · rintro ⟨_, hj, _, hrows, rfl, rfl⟩
        exact ⟨hj, hrows⟩
      · rintro ⟨hj, hrows⟩
        exact ⟨j, hj, rows, hrows, rfl, rfl⟩
    refine .rows (fun j hj => ?_) fun j rows => ?_
    · obtain ⟨_, hrows⟩ := exists_mapM_ok_iff.1 ⟨pairs, hpairs⟩ j (hshared.1 hj)
      exact exists_map_ok_iff.1 ⟨_, hrows⟩
    · rw [SortedMap.get?_ofList_eq_some_iff, hmem]
      intro j rows rows' h h'
      exact Except.ok.inj ((hmem.1 h).2.symm.trans (hmem.1 h').2)
  | error e =>
    obtain ⟨before, j, after, rfl, hbefore, he⟩ := mapM_error_iff.1 (map_error_iff.1 hc)
    refine .fails (hshared.2 (List.mem_append_right _ List.mem_cons_self)) (map_error_iff.1 he) ?_
    intro j' hj' hlt
    have hother : j' ∉ j :: after := by
      intro hmem
      rcases List.mem_cons.1 hmem with rfl | hmem
      · exact absurd hlt (UInt64.lt_irrefl _)
      · exact absurd hlt (UInt64.lt_asymm
          ((List.pairwise_cons.1 (List.pairwise_append.1 hsorted).2.1).1 j' hmem))
    obtain ⟨_, hrows⟩ := hbefore j' ((List.mem_append.1 (hshared.1 hj')).resolve_right hother)
    exact exists_map_ok_iff.1 ⟨_, hrows⟩

/-- Answers give one thing together. -/
theorem Collects.unique {r r' : Except ServingError (SortedMap Position RowSet)}
    (h : Collects lookups binds answer r) (h' : Collects lookups binds answer r') : r = r' := by
  cases h with
  | @rows results hall hrows =>
    cases h' with
    | @rows results' hall' hrows' =>
      refine congrArg Except.ok (SortedMap.ext_get? fun j => Option.ext fun rows => ?_)
      rw [hrows, hrows']
    | fails hj he =>
      obtain ⟨rows, hok⟩ := hall _ hj
      cases he.symm.trans hok
  | @fails j e hj he hleast =>
    cases h' with
    | rows hall' =>
      obtain ⟨rows, hok⟩ := hall' _ hj
      cases he.symm.trans hok
    | @fails j' e' hj' he' hleast' =>
      obtain rfl : j = j' := by
        rcases Std.lt_trichotomy j j' with hlt | heq | hlt
        · obtain ⟨rows, hok⟩ := hleast' j hj hlt
          cases he.symm.trans hok
        · exact heq
        · obtain ⟨rows, hok⟩ := hleast j' hj' hlt
          cases he'.symm.trans hok
      rw [Except.error.inj (he.symm.trans he')]

/-- With one query for each position, all queries have ended when those of all positions have. -/
theorem ended_iff_of_moves
    (h : Relation.ReflTransGen Moves (submitted lookups binds) fetches)
    {P : Position → Except ServingError RowSet → Prop} :
    (∀ f ∈ fetches, ∃ a, f.phase = .finished a ∧ P f.place a) ↔
      ∀ j, Shared lookups binds j → ∃ a, Ended fetches j a ∧ P j a := by
  have hplaces := places_of_moves h
  have hnodup : (fetches.map (·.place)).Nodup :=
    hplaces ▸ (ascending_submitted lookups binds).imp fun hlt => UInt64.ne_of_lt hlt
  constructor
  · intro hall j hj
    rw [shared_iff, ← hplaces] at hj
    obtain ⟨f, hf, rfl⟩ := List.mem_map.1 hj
    obtain ⟨a, ha, hP⟩ := hall f hf
    exact ⟨a, ⟨f, hf, rfl, ha⟩, hP⟩
  · intro hall f hf
    obtain ⟨a, ⟨g, hg, hplace, ha⟩, hP⟩ :=
      hall f.place (shared_iff.2 (hplaces ▸ List.mem_map_of_mem hf))
    obtain rfl := List.inj_on_of_nodup_map hnodup hg hf hplace
    exact ⟨a, ha, hP⟩

end FanOut

/-- What a store answers at a position with a lookup and binds. -/
def Store.answerAt (s : Store) (lookups : SortedMap Position Lookup)
    (binds : SortedMap Position Binds) (j : Position) : Except ServingError RowSet :=
  match lookups.get? j, binds.get? j with
  | some l, some b => s.answer l b
  | _, _ => .ok []

theorem FanOut.answers_submitted (s : Store) (lookups : SortedMap Position Lookup)
    (binds : SortedMap Position Binds) :
    answers s (submitted lookups binds) =
      collected ((submitted lookups binds).map (·.place)) (s.answerAt lookups binds) := by
  have hanswer : ∀ f ∈ submitted lookups binds,
      s.answerAt lookups binds f.place = s.answer f.lookup f.binds := by
    intro f hf
    obtain ⟨j, l, b, hl, hb, rfl⟩ := mem_submitted_iff.1 hf
    simp only [Store.answerAt, hl, hb]
  have hitems : (submitted lookups binds).map (fun f =>
        (s.answer f.lookup f.binds).map fun rows => (f.place, rows)) =
      (submitted lookups binds).map fun f =>
        (s.answerAt lookups binds f.place).map fun rows => (f.place, rows) :=
    List.map_congr_left fun f hf => by rw [hanswer f hf]
  have hmapM := congrArg (List.mapM id) hitems
  rw [List.mapM_map, List.mapM_map] at hmapM
  rw [answers, collected, List.mapM_map]
  exact congrArg (Except.map SortedMap.ofList) hmapM

theorem Session.runCommand_execute (w : World) (lookups : SortedMap Position Lookup)
    (binds : SortedMap Position Binds) :
    (runCommand w (.execute (.ok lookups) binds none)).2.result =
      some (((FanOut.answers w.store (FanOut.submitted lookups binds)).map
        Reply.rowSets).mapError .serving) := by
  have hfresh : ∀ f ∈ FanOut.submitted lookups binds, f.phase = .fresh :=
    fun _ => FanOut.fresh_of_mem_submitted
  obtain ⟨s, f, o, hrun, hdata, ho⟩ := FanOut.run_fresh w.store w.now hfresh none
  have hstart : Command.start w (.execute (.ok lookups) binds none) =
      Task.runFanOut w (.of w.now none (FanOut.submitted lookups binds)) := by rw [Command.start]
  rw [runCommand, hstart, Task.runFanOut, hrun]
  rcases ho with rfl | ⟨rfl, wake, hwake, hlt, hends⟩
  · simp only [settle_finished]
    rfl
  · have hwake' : Task.wake? (.executing f) = some wake := hwake
    have hnow : max w.now wake = wake := Nat.max_eq_right (Nat.le_of_lt hlt)
    obtain ⟨s', f', hrun', -⟩ := hends s hdata
    simp only [Command.waits, Task.settle, hwake', Task.run, Task.runFanOut, hnow, hrun']
    rfl

namespace FanOut

/-- **A fan-out without a time limit waits for all of its queries**, in whatever order they end. It
has one query for each position with a lookup and binds, with these, and no other; without such a
position it has none. As the queries go on no other appears, and there is an outcome exactly when
all of them have ended, which is what a run of the fan-out gives. The outcome is settled by the
answers alone: all rows under their own positions, or the error of the smallest position that has
one. With the in-memory store the fan-out always ends so. -/
theorem barrier (lookups : SortedMap Position Lookup) (binds : SortedMap Position Binds) :
    (∀ f, f ∈ submitted lookups binds ↔ lookups.get? f.place = some f.lookup ∧
      binds.get? f.place = some f.binds ∧ f.phase = .fresh) ∧
    ((submitted lookups binds).map (·.place)).Pairwise (· < ·) ∧
    ((∀ j, ¬ Shared lookups binds j) → submitted lookups binds = []) ∧
    (∀ fetches, Relation.ReflTransGen Moves (submitted lookups binds) fetches →
      fetches.map (·.place) = (submitted lookups binds).map (·.place) ∧
      ((∃ r, outcome? fetches = some r) ↔
        ∀ j, Shared lookups binds j → ∃ a, Ended fetches j a) ∧
      ∀ now s, ∃ s' fetches',
        run now s ⟨fetches, none⟩ = (s', ⟨fetches', none⟩, outcome? fetches') ∧
        Relation.ReflTransGen Moves fetches fetches') ∧
    (∀ answer, ∃ r, (∀ r', Collects lookups binds answer r' ↔ r' = r) ∧
      ∀ fetches, Relation.ReflTransGen Moves (submitted lookups binds) fetches →
        (∀ j, Shared lookups binds j → Ended fetches j (answer j)) → outcome? fetches = some r) ∧
    ∀ w : World, ∃ r, Collects lookups binds (w.store.answerAt lookups binds) r ∧
      (Session.runCommand w (.execute (.ok lookups) binds none)).2.result =
        some ((r.map .rowSets).mapError .serving) := by
  refine ⟨fun f => ?_, ascending_submitted lookups binds, fun hnone => ?_, fun fetches h => ?_,
    fun answer => ?_, fun w => ?_⟩
  · rw [mem_submitted_iff]
    constructor
    · rintro ⟨j, l, b, hl, hb, rfl⟩
      exact ⟨hl, hb, rfl⟩
    · obtain ⟨l, b, phase, j⟩ := f
      rintro ⟨hl, hb, rfl⟩
      exact ⟨j, l, b, hl, hb, rfl⟩
  · refine List.eq_nil_iff_forall_not_mem.2 fun f hf => hnone f.place ?_
    exact shared_iff.2 (List.mem_map_of_mem hf)
  · refine ⟨places_of_moves h, ?_, fun now s => run_without_limit now s fetches⟩
    have hended := ended_iff_of_moves h (P := fun _ _ => True)
    simp only [and_true] at hended
    rw [exists_outcome?_iff, hended]
  · refine ⟨_, fun r' => ⟨fun h => h.unique (collects_collected lookups binds answer), ?_⟩,
      fun fetches h hall => ?_⟩
    · rintro rfl
      exact collects_collected lookups binds answer
    · have hended : ∀ f ∈ fetches, ∃ a, f.phase = .finished a ∧ answer f.place = a :=
        (ended_iff_of_moves h).2 fun j hj => ⟨_, hall j hj, rfl⟩
      rw [← places_of_moves h]
      refine outcome?_of_ended fun f hf => ?_
      obtain ⟨_, hphase, rfl⟩ := hended f hf
      exact hphase
  · refine ⟨_, collects_collected lookups binds _, ?_⟩
    rw [Session.runCommand_execute, answers_submitted]

/-! ### Two failing positions -/

def pairLookups : SortedMap Position Lookup :=
  .ofList [(0, ⟨0, none, none, .single, [.text "SELECT 0"], []⟩),
    (1, ⟨1, none, none, .single, [.text "SELECT 1"], []⟩),
    (2, ⟨2, none, none, .single, [.text "SELECT 2"], []⟩)]

def pairBinds : SortedMap Position Binds :=
  .ofList [(0, .named ∅), (1, .named ∅), (7, .named ∅)]

/-- The first failure ends nothing, and the error is that of the smaller position. -/
theorem barrier_pair : ∃ one both : List Fetch,
    Relation.ReflTransGen Moves (submitted pairLookups pairBinds) one ∧
      Ended one 1 (.error (.backend (.failed 1))) ∧ outcome? one = none ∧
      Relation.ReflTransGen Moves one both ∧
      outcome? both = some (.error (.backend (.failed 0))) := by
  obtain ⟨-, -, -, hwaits, hcollects, -⟩ := barrier pairLookups pairBinds
  obtain ⟨f, g, hfetches, hf, hg⟩ : ∃ f g, submitted pairLookups pairBinds = [f, g] ∧
      (f.place = 0 ∧ f.phase = .fresh) ∧ g.place = 1 ∧ g.phase = .fresh :=
    ⟨_, _, rfl, ⟨rfl, rfl⟩, rfl, rfl⟩
  let failed (f : Fetch) : Fetch :=
    { f with phase := .finished (.error (.backend (.failed f.place))) }
  have hone : Relation.ReflTransGen Moves (submitted pairLookups pairBinds) [f, failed g] := by
    rw [hfetches]
    exact .single (.answered (n := 1) rfl (by rw [Fetch.result?, hg.2]) _)
  have hboth : Relation.ReflTransGen Moves [f, failed g] [failed f, failed g] :=
    .single (.answered (n := 0) rfl (by rw [Fetch.result?, hf.2]) _)
  have hshared : ∀ j, Shared pairLookups pairBinds j ↔ j = 0 ∨ j = 1 := by
    intro j
    rw [shared_iff, hfetches, List.map_cons, List.map_singleton, hf.1, hg.1]
    simp
  refine ⟨_, _, hone, ⟨failed g, by simp, hg.1, by rw [← hg.1]⟩, ?_, hboth, ?_⟩
  · refine Option.eq_none_iff_forall_ne_some.2 fun r hr => ?_
    obtain ⟨a, h, hh, hplace, ha⟩ := (hwaits _ hone).2.1.1 ⟨r, hr⟩ 0 ((hshared 0).2 (.inl rfl))
    rcases List.mem_pair.1 hh with rfl | rfl
    · rw [hf.2] at ha
      cases ha
    · exact absurd (hg.1.symm.trans hplace) (by decide)
  · obtain ⟨r, hr, hall⟩ := hcollects fun j => .error (.backend (.failed j))
    have hfails : .error (.backend (.failed 0)) = r :=
      (hr _).1 (.fails ((hshared 0).2 (.inl rfl)) rfl fun j' _ hlt =>
        absurd hlt (UInt64.not_lt.2 (UInt64.zero_le)))
    rw [hfails]
    refine hall _ (hone.trans hboth) fun j hj => ?_
    rcases (hshared j).1 hj with rfl | rfl
    · exact ⟨failed f, by simp, hf.1, by rw [← hf.1]⟩
    · exact ⟨failed g, by simp, hg.1, by rw [← hg.1]⟩

end FanOut

end FeatureServing
