import FeatureServing.Proofs.Rendering
import FeatureServing.Proofs.SetUpReading

/-!
# Setting up is all or nothing

`SetUp.Runs` : a set-up that takes steps while anything else happens that leaves the client and the
way of new connections alone, with the number of connections that it asks for.

* `Accepts` : what an entity has to have to be set up, `accepts_iff_outline`; `accepts_iff` says it of
  the single statements;
* `exists_runs_finished` : a set-up always comes to an end;
* `Stage`, `stage_of_runs` : what holds at every phase; `installed_of_runs` : at a good end;
* `all_or_nothing` : a set-up succeeds when everything is accepted and the connection comes about,
  and otherwise changes nothing.
-/

namespace FeatureServing

/-! ## What is accepted -/

namespace Registry

/-- What a list of statements needs to be compiled to lookups: a position is not repeated, and every
statement can be compiled. Statements of skipped groups are not looked at. -/
def Compilable (fits : PreparedStatement → Prop) (skip : SortedSet GroupId)
    (ss : List PreparedStatement) : Prop :=
  ((PreparedStatement.retained skip ss).map (·.position)).Nodup ∧
    ∀ s ∈ PreparedStatement.retained skip ss,
      ((s.parameters.map (·.index)).Nodup ∧ Text.isBlankText s.query = false) ∧ fits s

/-- A single statement has a placeholder per parameter. -/
def FitsSingle (s : PreparedStatement) : Prop :=
  s.parameters.length = Query.placeholders s.query

/-- A batch statement has one placeholder, for all tuples. -/
def FitsBatch (s : PreparedStatement) : Prop :=
  Query.placeholders s.query = 1

instance : DecidablePred FitsSingle := fun s =>
  inferInstanceAs (Decidable (s.parameters.length = Query.placeholders s.query))

instance : DecidablePred FitsBatch := fun s =>
  inferInstanceAs (Decidable (Query.placeholders s.query = 1))

instance (fits : PreparedStatement → Prop) [DecidablePred fits] (skip : SortedSet GroupId)
    (ss : List PreparedStatement) : Decidable (Compilable fits skip ss) :=
  inferInstanceAs (Decidable (_ ∧ _))

theorem exists_compile_iff {single batch : List PreparedStatement} {skip : SortedSet GroupId} :
    (∃ r, Registry.compile single batch skip = .ok r) ↔
      Compilable FitsSingle skip single ∧ Compilable FitsBatch skip batch := by
  have hsingle : ∀ s, (∃ l, Lookup.single s = .ok l) ↔
      ((s.parameters.map (·.index)).Nodup ∧ Text.isBlankText s.query = false) ∧ FitsSingle s := by
    intro s
    rw [Lookup.exists_single_ok_iff, PreparedStatement.validate_ok_iff, FitsSingle]
  have hbatch : ∀ s, (∃ l, Lookup.batch s = .ok l) ↔
      ((s.parameters.map (·.index)).Nodup ∧ Text.isBlankText s.query = false) ∧ FitsBatch s := by
    intro s
    rw [Lookup.exists_batch_ok_iff, PreparedStatement.validate_ok_iff, FitsBatch]
  have hnone : ∀ ss : List PreparedStatement, ∀ s ∈ ss,
      (∅ : SortedMap Position Lookup).get? s.position = none := fun _ _ _ => rfl
  rw [exists_compile_ok_iff, exists_compileAll_ok_iff, exists_compileAll_ok_iff]
  simp only [hsingle, hbatch, Compilable]
  exact and_congr (and_congr_right fun _ => and_iff_right (hnone _))
    (and_congr_right fun _ => and_iff_right (hnone _))

end Registry

namespace SetUp

/-- What a source has to have for a request: an entity of a kind that is supported, helper columns
for a feature view only, all sets of statements, keys that can be indexed and statements that can be
compiled. -/
structure Accepts (source : Source) (r : Request) : Prop where
  kind : r.entity.kind ≠ .unsupported
  helperKind : r.helpers = true → r.entity.kind = .featureView
  vector : ∃ single batch, source r.entity false false = .ok (some single) ∧
    source r.entity true false = .ok (some batch) ∧
    (∃ keys, KeyIndex.build single r.entity.servingKeys r.entity.skip = .ok keys) ∧
    ∃ registry, Registry.compile single batch r.entity.skip = .ok registry
  helper : r.helpers = true → ∃ single batch, source r.entity false true = .ok (some single) ∧
    source r.entity true true = .ok (some batch) ∧
    ∃ registry, Registry.compile single batch r.entity.skip = .ok registry

theorem checkKind_ok_iff {r : Request} :
    checkKind r = .ok () ↔
      r.entity.kind ≠ .unsupported ∧ (r.helpers = true → r.entity.kind = .featureView) := by
  unfold checkKind
  split
  · next h => simp [h]
  · next hkind =>
    split
    · next h => simp [h.1, h.2]
    · next h => simpa [hkind] using h

theorem exists_helperRegistry_iff {source : Source} {r : Request} :
    (∃ helper, helperRegistry source r = .ok helper) ↔
      (r.helpers = true → ∃ single batch, source r.entity false true = .ok (some single) ∧
        source r.entity true true = .ok (some batch) ∧
        ∃ registry, Registry.compile single batch r.entity.skip = .ok registry) := by
  cases hhelpers : r.helpers with
  | false => simp [helperRegistry, hhelpers]
  | true =>
    simp only [helperRegistry, hhelpers, if_true, bind_ok_iff, statements_ok_iff, mapError_ok_iff,
      forall_const, Except.ok.injEq]
    constructor
    · rintro ⟨_, single, hs, batch, hb, registry, hr, -⟩
      exact ⟨single, batch, hs, hb, registry, hr⟩
    · rintro ⟨single, batch, hs, hb, registry, hr⟩
      exact ⟨_, single, hs, batch, hb, registry, hr, rfl⟩

/-- **What is accepted can be planned**, and nothing else. -/
theorem accepts_iff_outline {source : Source} {r : Request} :
    Accepts source r ↔ ∃ p, outline source r = .ok p := by
  simp only [outline_ok_iff, checkKind_ok_iff]
  constructor
  · rintro ⟨hkind, hhelperKind, ⟨single, batch, hs, hb, ⟨keys, hx⟩, registry, hr⟩, hhelper⟩
    obtain ⟨helper, hh⟩ := exists_helperRegistry_iff.2 hhelper
    exact ⟨_, ⟨hkind, hhelperKind⟩, single, batch, keys, registry, helper, hs, hb, hx, hr, hh, rfl⟩
  · rintro ⟨_, ⟨hkind, hhelperKind⟩, single, batch, keys, registry, helper, hs, hb, hx, hr, hh, -⟩
    exact ⟨hkind, hhelperKind, ⟨single, batch, hs, hb, ⟨keys, hx⟩, registry, hr⟩,
      exists_helperRegistry_iff.1 ⟨helper, hh⟩⟩

theorem accepts_iff_plan {source : Source} {r : Request} :
    Accepts source r ↔ ∃ s, plan source r = .ok s := by
  rw [accepts_iff_outline, plan, exists_map_ok_iff]

/-- **What is accepted, statement by statement.** The index of the keys asks for nothing more, since
the statements that it looks at are those of the single registry. -/
theorem accepts_iff {source : Source} {r : Request} :
    Accepts source r ↔
      r.entity.kind ≠ .unsupported ∧ (r.helpers = true → r.entity.kind = .featureView) ∧
      (∃ single batch, source r.entity false false = .ok (some single) ∧
        source r.entity true false = .ok (some batch) ∧
        Registry.Compilable Registry.FitsSingle r.entity.skip single ∧
        Registry.Compilable Registry.FitsBatch r.entity.skip batch) ∧
      (r.helpers = true → ∃ single batch, source r.entity false true = .ok (some single) ∧
        source r.entity true true = .ok (some batch) ∧
        Registry.Compilable Registry.FitsSingle r.entity.skip single ∧
        Registry.Compilable Registry.FitsBatch r.entity.skip batch) := by
  constructor
  · rintro ⟨hkind, hhelperKind, ⟨single, batch, hs, hb, -, hr⟩, hhelper⟩
    refine ⟨hkind, hhelperKind, ⟨single, batch, hs, hb, Registry.exists_compile_iff.1 hr⟩,
      fun h => ?_⟩
    obtain ⟨single, batch, hs, hb, hr⟩ := hhelper h
    exact ⟨single, batch, hs, hb, Registry.exists_compile_iff.1 hr⟩
  · rintro ⟨hkind, hhelperKind, ⟨single, batch, hs, hb, hr⟩, hhelper⟩
    have hkeys : ∃ keys, KeyIndex.build single r.entity.servingKeys r.entity.skip = .ok keys :=
      ⟨_, KeyIndex.build_ok_iff.2
        ⟨fun s hs => PreparedStatement.validate_ok_iff.2 (hr.1.2 s hs).1, rfl⟩⟩
    refine ⟨hkind, hhelperKind, ⟨single, batch, hs, hb, hkeys, Registry.exists_compile_iff.2 hr⟩,
      fun h => ?_⟩
    obtain ⟨single, batch, hs, hb, hr⟩ := hhelper h
    exact ⟨single, batch, hs, hb, Registry.exists_compile_iff.2 hr⟩

/-! ## Runs -/

/-- How many connections the next step asks for. -/
def Phase.asked : Phase → Nat
  | .connecting _ .fresh => 1
  | _ => 0

/-- `Runs source w p n w' p'` : a set-up comes from `p` in `w` to `p'` in `w'` and asks for `n`
connections on the way. -/
inductive Runs (source : Source) : World → Phase → Nat → World → Phase → Prop
  | refl (w : World) (p : Phase) : Runs source w p 0 w p
  | step {w w₁ w' : World} {p p₁ p' : Phase} {n : Nat} (hstep : step source w p = some (w₁, p₁))
    (hruns : Runs source w₁ p₁ n w' p') : Runs source w p (p.asked + n) w' p'
  | around {w w₁ w' : World} {p p' : Phase} {n : Nat} (hclient : w₁.client = w.client)
    (hconnector : w₁.connector = w.connector) (htarget : w₁.target = w.target)
    (hruns : Runs source w₁ p n w' p') : Runs source w p n w' p'

/-- Where no step can be taken, one can be taken later, unless the set-up is over. -/
theorem exists_step (source : Source) (w : World) {p : Phase} (h : ∀ result, p ≠ .finished result) :
    ∃ now w' p', step source { w with now } p = some (w', p') := by
  cases p with
  | connecting plan c =>
    cases c with
    | waiting wake refuses =>
      cases refuses <;> exact ⟨wake, _, _, by simp [step, Connecting.step]; exact ⟨rfl, rfl⟩⟩
    | _ => exact ⟨w.now, _, _, rfl⟩
  | finished result => exact absurd rfl (h result)
  | _ => exact ⟨w.now, _, _, rfl⟩

/-- **A set-up always comes to an end.** -/
theorem exists_runs_finished (source : Source) (w : World) (p : Phase) :
    ∃ n w' result, Runs source w p n w' (.finished result) := by
  induction hn : p.remaining using Nat.strongRecOn generalizing w p with
  | _ _ ih =>
    by_cases hover : ∃ result, p = .finished result
    · obtain ⟨result, rfl⟩ := hover
      exact ⟨0, w, result, .refl _ _⟩
    · obtain ⟨now, w₁, p₁, hstep⟩ := exists_step source w fun result h => hover ⟨result, h⟩
      have hless := (moves_of_step hstep).remaining_lt
      obtain ⟨n, w', result, hruns⟩ := ih _ (hn ▸ hless) w₁ p₁ rfl
      have hlater := Runs.step hstep hruns
      exact ⟨_, w', result, .around (by rfl) (by rfl) (by rfl) hlater⟩

/-! ## Stages -/

/-- What holds of a set-up that began in a world, when it has asked for a number of connections and
come to a phase. -/
def Stage (source : Source) (r : Request) (start : World) (n : Nat) (w : World) : Phase → Prop
  | .connecting p .fresh => outline source r = .ok p ∧ n = 0 ∧ w.client = start.client
  | .connecting p (.waiting _ refuses) =>
    outline source r = .ok p ∧ n = 1 ∧ w.client = start.client ∧ refuses = start.connector.refuses
  | .connecting p .refused =>
    outline source r = .ok p ∧ n = 1 ∧ w.client = start.client ∧ start.connector.refuses = true
  | .connecting p (.connected store) | .installing p store =>
    outline source r = .ok p ∧ n = 1 ∧ w.client = start.client ∧
      start.connector.refuses = false ∧ store = start.target
  | .finished (.ok _) =>
    ∃ s, plan source r start.target = .ok s ∧ n = 1 ∧ w.client = start.client.install s ∧
      start.connector.refuses = false
  | .finished (.error e) =>
    w.client = start.client ∧ (n = 0 ∧ outline source r = .error e ∨
      n = 1 ∧ (∃ p, outline source r = .ok p) ∧ start.connector.refuses = true ∧
        e = .serving (.backend .refused))
  | p => n = 0 ∧ w.client = start.client ∧ Reads (source r.entity) r p

section Stage

variable {source : Source} {r : Request} {n : Nat} {start w w' : World} {p p' : Phase}

theorem stage_planning (hp : p.isPlanning = true) :
    Stage source r start n w p ↔
      n = 0 ∧ w.client = start.client ∧ Reads (source r.entity) r p := by
  cases p with
  | connecting | installing | finished => cases hp
  | _ => rfl

theorem after_source (h : Reads (source r.entity) r p) (hp : p.isPlanning = true) :
    Answers.after (source r.entity) source p = source r.entity := by
  cases p with
  | fresh => rfl
  | readingSingle | readingBatch | readingHelperSingle | readingHelperBatch =>
    obtain rfl := h.1
    exact Answers.tell_self _ _ _
  | connecting | installing | finished => cases hp

theorem stage_step (h : Stage source r start n w p) (hconnector : w.connector = start.connector)
    (htarget : w.target = start.target) (hstep : step source w p = some (w', p')) :
    Stage source r start (n + p.asked) w' p' ∧ w'.connector = start.connector ∧
      w'.target = start.target := by
  cases hplanning : p.isPlanning with
  | true =>
    obtain ⟨rfl, hclient, hreads⟩ := (stage_planning hplanning).1 h
    obtain ⟨x, hx, hlearns⟩ := learns_step hreads hplanning source
    rw [after_source hreads hplanning] at hlearns
    obtain ⟨rfl, rfl⟩ : w = w' ∧ _ = p' := by simpa [hx w] using hstep
    have hasked : 0 + p.asked = 0 := by
      cases p with
      | connecting => cases hplanning
      | _ => rfl
    rw [hasked]
    refine ⟨?_, hconnector, htarget⟩
    cases x with
    | error e => exact ⟨hclient, .inl ⟨rfl, hlearns⟩⟩
    | ok p' =>
      obtain ⟨hp' | ⟨plan, rfl⟩, hreads'⟩ := hlearns
      · exact (stage_planning hp').2 ⟨rfl, hclient, hreads'⟩
      · exact ⟨hreads', rfl, hclient⟩
  | false =>
    cases moves_of_step hstep with
    | plans hp | fails _ hp => rw [hp] at hplanning; cases hplanning
    | asks =>
      obtain ⟨hplan, rfl, hclient⟩ := h
      exact ⟨⟨hplan, rfl, hclient, by rw [hconnector]⟩, hconnector, htarget⟩
    | connects =>
      obtain ⟨hplan, rfl, hclient, hrefuses⟩ := h
      rw [World.connector_setStore, World.target_setStore]
      exact ⟨⟨hplan, rfl, (w.client_setStore _ _).trans hclient, hrefuses.symm, htarget⟩,
        hconnector, htarget⟩
    | refuses =>
      obtain ⟨hplan, rfl, hclient, hrefuses⟩ := h
      exact ⟨⟨hplan, rfl, hclient, hrefuses.symm⟩, hconnector, htarget⟩
    | givesUp p =>
      obtain ⟨hplan, rfl, hclient, hrefuses⟩ := h
      exact ⟨⟨hclient, .inr ⟨rfl, ⟨p, hplan⟩, hrefuses, rfl⟩⟩, hconnector, htarget⟩
    | takes => exact ⟨h, hconnector, htarget⟩
    | installs p =>
      obtain ⟨hplan, rfl, hclient, hrefuses, rfl⟩ := h
      exact ⟨⟨_, map_ok_iff.2 ⟨p, hplan, rfl⟩, rfl, by rw [hclient], hrefuses⟩, hconnector, htarget⟩

theorem stage_of_client (h : Stage source r start n w p) (hclient : w'.client = w.client) :
    Stage source r start n w' p := by
  cases p with
  | connecting plan c => cases c <;> simpa [Stage, hclient] using h
  | finished result => cases result <;> simpa [Stage, hclient] using h
  | _ => simpa [Stage, hclient] using h

/-- **Every phase that a set-up comes to is at its stage.** -/
theorem stage_of_runs {m : Nat} (hruns : Runs source w p m w' p') (h : Stage source r start n w p)
    (hconnector : w.connector = start.connector) (htarget : w.target = start.target) :
    Stage source r start (n + m) w' p' := by
  induction hruns generalizing n with
  | refl => exact h
  | step hstep _ ih =>
    obtain ⟨hnext, hconnector', htarget'⟩ := stage_step h hconnector htarget hstep
    rw [← Nat.add_assoc]
    exact ih hnext hconnector' htarget'
  | around hclient hconnector' htarget' _ ih =>
    exact ih (stage_of_client h hclient) (hconnector'.trans hconnector) (htarget'.trans htarget)

theorem stage_of_fresh (hruns : Runs source w (.fresh r) n w' p) : Stage source r w n w' p := by
  have hstart : Stage source r w 0 w (.fresh r) := ⟨rfl, rfl, rfl⟩
  have hend := stage_of_runs hruns hstart rfl rfl
  rwa [Nat.zero_add] at hend

/-- A set-up that succeeded installed its plan, over the one connection that it asked for. -/
theorem installed_of_runs (hruns : Runs source w (.fresh r) n w' (.finished (.ok ()))) :
    ∃ s, plan source r w.target = .ok s ∧ n = 1 ∧ w'.client = w.client.install s ∧
      w.connector.refuses = false :=
  stage_of_fresh hruns

end Stage

/-- What can be planned is installed, unless the connection is refused. -/
theorem exists_runs_of_plan {source : Source} {r : Request} {s : ServingState} {w : World}
    (hplan : plan source r w.target = .ok s) (hrefuses : w.connector.refuses = false) :
    ∃ n w', Runs source w (.fresh r) n w' (.finished (.ok ())) ∧
      w'.client = w.client.install s := by
  obtain ⟨n, w', result, hruns⟩ := exists_runs_finished source w (.fresh r)
  cases result with
  | ok u =>
    obtain ⟨s', hplan', -, hclient, -⟩ := installed_of_runs hruns
    obtain rfl := Except.ok.inj (hplan.symm.trans hplan')
    exact ⟨n, w', hruns, hclient⟩
  | error e =>
    obtain ⟨-, ⟨-, herror⟩ | ⟨-, -, h, -⟩⟩ := stage_of_fresh hruns
    · rw [plan, herror] at hplan
      cases hplan
    · rw [hrefuses] at h
      cases h

/-- **Setting up is all or nothing.** Every set-up comes to an end; it succeeds exactly when the
source has what is accepted and the connection is not refused, and then the state is installed that
is planned over the connection. Any error leaves the client as it was, and only the error of a
refused connection comes after a connection was asked for. -/
theorem all_or_nothing (source : Source) (w : World) (r : Request) :
    (∃ n w' result, Runs source w (.fresh r) n w' (.finished result)) ∧
      ∀ n w' result, Runs source w (.fresh r) n w' (.finished result) →
        (result = .ok () ↔ Accepts source r ∧ w.connector.refuses = false) ∧
        (result = .ok () → ∃ s, plan source r w.target = .ok s ∧ n = 1 ∧
          w'.client = w.client.install s) ∧
        ∀ e, result = .error e → w'.client = w.client ∧
          (n = 0 ∧ ¬ Accepts source r ∨
            n = 1 ∧ Accepts source r ∧ e = .serving (.backend .refused)) := by
  refine ⟨exists_runs_finished source w _, fun n w' result hruns => ?_⟩
  cases result with
  | ok u =>
    obtain ⟨s, hplan, hn, hclient, hrefuses⟩ := installed_of_runs hruns
    have haccepts := accepts_iff_outline.2 (exists_map_ok_iff.1 ⟨s, hplan⟩)
    exact ⟨iff_of_true rfl ⟨haccepts, hrefuses⟩, fun _ => ⟨s, hplan, hn, hclient⟩, nofun⟩
  | error e =>
    obtain ⟨hclient, ⟨hn, herror⟩ | ⟨hn, houtline, hrefuses, rfl⟩⟩ := stage_of_fresh hruns
    · have hrejects : ¬ Accepts source r := by
        rw [accepts_iff_outline, herror]
        simp
      refine ⟨iff_of_false (by simp) fun h => hrejects h.1, nofun, ?_⟩
      rintro _ ⟨⟩
      exact ⟨hclient, .inl ⟨hn, hrejects⟩⟩
    · refine ⟨iff_of_false (by simp) fun h => by simp [hrefuses] at h, nofun, ?_⟩
      rintro _ ⟨⟩
      exact ⟨hclient, .inr ⟨hn, accepts_iff_outline.2 houtline, rfl⟩⟩

end SetUp

end FeatureServing
