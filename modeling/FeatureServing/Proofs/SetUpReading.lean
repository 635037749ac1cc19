import FeatureServing.Proofs.SetUpPlan

/-!
# Setting up step by step

A set-up reads one set of statements after the other, and its source may change in between.

* `Answers.after` : what it has been told after a step, the last answer of each set;
* `Reads` : what a phase knows of the plan that these answers make;
* `learns_step`, `reads_step` : every step keeps it;
* `Moves` : what a step does to the world, with `moves_of_step`.
-/

namespace FeatureServing.SetUp

/-! ## Answers -/

/-- What a set-up is told of its entity: a set of statements for single entries or batches, of the
vector or of the helper columns. -/
abbrev Answers := Bool → Bool → Except ClientError (Option (List PreparedStatement))

/-- The plan that answers make. -/
def outlineOf (answers : Answers) (r : Request) : Except ClientError Plan :=
  outline (fun _ => answers) r

/-- The state that answers make over a connection. -/
def planOf (answers : Answers) (r : Request) (store : Handle) : Except ClientError ServingState :=
  plan (fun _ => answers) r store

/-- The set that a phase asks for. -/
def Phase.asks? : Phase → Option (Request × Bool × Bool)
  | .readingSingle r => some (r, false, false)
  | .readingBatch r _ => some (r, true, false)
  | .readingHelperSingle r _ _ => some (r, false, true)
  | .readingHelperBatch r _ _ _ => some (r, true, true)
  | _ => none

namespace Answers

/-- The answers with another one for a set. -/
def tell (answers : Answers) (batch helper : Bool)
    (answer : Except ClientError (Option (List PreparedStatement))) : Answers :=
  fun b h => if b = batch ∧ h = helper then answer else answers b h

/-- The answers after a step from a phase. -/
def after (answers : Answers) (source : Source) (p : Phase) : Answers :=
  match p.asks? with
  | some (r, batch, helper) => answers.tell batch helper (source r.entity batch helper)
  | none => answers

theorem tell_same (answers : Answers) (batch helper : Bool)
    (answer : Except ClientError (Option (List PreparedStatement))) :
    answers.tell batch helper answer batch helper = answer := by
  simp [tell]

theorem tell_other (answers : Answers) {batch helper b h : Bool}
    {answer answer' : Except ClientError (Option (List PreparedStatement))}
    (hanswer : answers b h = answer') (hset : ¬ (b = batch ∧ h = helper)) :
    answers.tell batch helper answer b h = answer' := by
  rw [tell, if_neg hset, hanswer]

theorem tell_self (answers : Answers) (batch helper : Bool) :
    answers.tell batch helper (answers batch helper) = answers := by
  funext b h
  rw [tell]
  split
  · next hset => rw [hset.1, hset.2]
  · rfl

end Answers

/-! ## What a phase knows -/

/-- Whether nothing is connected yet. -/
def Phase.isPlanning : Phase → Bool
  | .fresh _ | .readingSingle _ | .readingBatch _ _ | .readingHelperSingle _ _ _
  | .readingHelperBatch _ _ _ _ => true
  | .connecting _ _ | .installing _ _ | .finished _ => false

/-- Whether the planning goes on in a phase, or ends with a connection to be asked for. -/
def Phase.GoesOn (p : Phase) : Prop :=
  p.isPlanning = true ∨ ∃ plan, p = .connecting plan .fresh

/-- Whether the keys and the registry of the vector are what answers make of them. -/
def PlansVector (answers : Answers) (r : Request) (keys : KeyIndex) (registry : Registry) : Prop :=
  checkKind r = .ok () ∧ ∃ single batch,
    answers false false = .ok (some single) ∧ answers true false = .ok (some batch) ∧
    KeyIndex.build single r.entity.servingKeys r.entity.skip = .ok keys ∧
    Registry.compile single batch r.entity.skip = .ok registry

theorem PlansVector.tell {answers : Answers} {r : Request} {keys : KeyIndex} {registry : Registry}
    (h : PlansVector answers r keys registry) (batch : Bool)
    (answer : Except ClientError (Option (List PreparedStatement))) :
    PlansVector (answers.tell batch true answer) r keys registry := by
  obtain ⟨hkind, single, batch, hs, hb, hx, hr⟩ := h
  exact ⟨hkind, single, batch, answers.tell_other hs (by simp), answers.tell_other hb (by simp), hx, hr⟩

/-- What a phase of a request knows of the plan that answers make. -/
def Reads (answers : Answers) (r : Request) : Phase → Prop
  | .fresh q => q = r
  | .readingSingle q => q = r ∧ checkKind r = .ok ()
  | .readingBatch q single =>
    q = r ∧ checkKind r = .ok () ∧ answers false false = .ok (some single)
  | .readingHelperSingle q keys registry =>
    q = r ∧ r.helpers = true ∧ PlansVector answers r keys registry
  | .readingHelperBatch q keys registry single =>
    q = r ∧ r.helpers = true ∧ PlansVector answers r keys registry ∧
      answers false true = .ok (some single)
  | .connecting plan _ | .installing plan _ => outlineOf answers r = .ok plan
  | .finished (.ok _) => ∃ plan, outlineOf answers r = .ok plan
  | .finished (.error _) => True

/-- What a step of the planning knows: the next phase, or the error that the plan ends with. -/
def Learns (answers : Answers) (r : Request) : Except ClientError Phase → Prop
  | .ok p => p.GoesOn ∧ Reads answers r p
  | .error e => outlineOf answers r = .error e

/-! ## What a phase learns -/

section Step

variable {answers : Answers} {source : Source} {r : Request} {keys : KeyIndex} {registry : Registry}
  {single batch : List PreparedStatement}

/-- Answers give the statements that the source gives where they agree. -/
theorem statements_of_answer {batch helper : Bool}
    (h : answers batch helper = source r.entity batch helper) :
    statements source r.entity batch helper =
      statements (fun _ => answers) r.entity batch helper := by
  rw [statements, statements, h]

theorem learns_single (hkind : checkKind r = .ok ())
    (h : answers false false = source r.entity false false) :
    Learns answers r ((statements source r.entity false false).map (.readingBatch r)) := by
  rw [statements_of_answer h]
  cases hs : statements (fun _ => answers) r.entity false false with
  | ok single => exact ⟨.inl rfl, rfl, hkind, statements_ok_iff.1 hs⟩
  | error e =>
    have hplan : outlineOf answers r = .error e := by
      rw [outlineOf, outline, bind_of_ok hkind, bind_of_error hs]
    exact hplan

theorem learns_planVector (hkind : checkKind r = .ok ())
    (hs : answers false false = .ok (some single)) (hb : answers true false = .ok (some batch)) :
    Learns answers r (planVector r single batch) := by
  have hparts : outlineOf answers r = (do
      let keys ← (KeyIndex.build single r.entity.servingKeys r.entity.skip).mapError .serving
      let registry ← (Registry.compile single batch r.entity.skip).mapError .serving
      let helper ← helperRegistry (fun _ => answers) r
      .ok ⟨r, keys, registry, helper⟩) := by
    rw [outlineOf, outline, bind_of_ok hkind, bind_of_ok (statements_ok_iff.2 hs),
      bind_of_ok (statements_ok_iff.2 hb)]
  cases hx : KeyIndex.build single r.entity.servingKeys r.entity.skip with
  | error e =>
    rw [hx] at hparts
    rw [planVector, hx]
    exact hparts
  | ok keys =>
  cases hr : Registry.compile single batch r.entity.skip with
  | error e =>
    rw [hx, hr] at hparts
    rw [planVector, hx, hr]
    exact hparts
  | ok registry =>
  rw [hx, hr] at hparts
  rw [planVector, hx, hr]
  cases hhelpers : r.helpers with
  | true =>
    exact ⟨.inl rfl, rfl, hhelpers, hkind, single, batch, hs, hb, hx, hr⟩
  | false =>
    rw [helperRegistry, hhelpers] at hparts
    exact ⟨.inr ⟨_, rfl⟩, hparts⟩

theorem learns_batch (hkind : checkKind r = .ok ())
    (hs : answers false false = .ok (some single))
    (h : answers true false = source r.entity true false) :
    Learns answers r ((statements source r.entity true false).bind (planVector r single)) := by
  rw [statements_of_answer h]
  cases hb : statements (fun _ => answers) r.entity true false with
  | ok batch => exact learns_planVector hkind hs (statements_ok_iff.1 hb)
  | error e =>
    have hplan : outlineOf answers r = .error e := by
      rw [outlineOf, outline, bind_of_ok hkind, bind_of_ok (statements_ok_iff.2 hs), bind_of_error hb]
    exact hplan

/-- A plan with helper columns goes on with their sets when the vector is planned. -/
theorem outlineOf_of_plansVector (hhelpers : r.helpers = true)
    (h : PlansVector answers r keys registry) : outlineOf answers r = (do
      let single ← statements (fun _ => answers) r.entity false true
      let batch ← statements (fun _ => answers) r.entity true true
      let helper ← (Registry.compile single batch r.entity.skip).mapError .serving
      .ok ⟨r, keys, registry, some helper⟩) := by
  obtain ⟨hkind, single, batch, hs, hb, hx, hr⟩ := h
  have hhelper : helperRegistry (fun _ => answers) r = (do
      let single ← statements (fun _ => answers) r.entity false true
      let batch ← statements (fun _ => answers) r.entity true true
      let helper ← (Registry.compile single batch r.entity.skip).mapError .serving
      .ok (some helper)) := by
    rw [helperRegistry, if_pos hhelpers]
  rw [outlineOf, outline, bind_of_ok hkind, bind_of_ok (statements_ok_iff.2 hs),
    bind_of_ok (statements_ok_iff.2 hb), bind_of_ok (mapError_ok_iff.2 hx),
    bind_of_ok (mapError_ok_iff.2 hr), hhelper]
  simp only [bind_assoc]
  rfl

theorem learns_helperSingle (hhelpers : r.helpers = true)
    (hvector : PlansVector answers r keys registry)
    (h : answers false true = source r.entity false true) :
    Learns answers r
      ((statements source r.entity false true).map (.readingHelperBatch r keys registry)) := by
  have hplan := outlineOf_of_plansVector hhelpers hvector
  rw [statements_of_answer h]
  cases hs : statements (fun _ => answers) r.entity false true with
  | ok single => exact ⟨.inl rfl, rfl, hhelpers, hvector, statements_ok_iff.1 hs⟩
  | error e =>
    rw [bind_of_error hs] at hplan
    exact hplan

theorem learns_planHelper (hhelpers : r.helpers = true)
    (hvector : PlansVector answers r keys registry)
    (hs : answers false true = .ok (some single)) (hb : answers true true = .ok (some batch)) :
    Learns answers r (planHelper r keys registry single batch) := by
  have hplan := outlineOf_of_plansVector hhelpers hvector
  rw [bind_of_ok (statements_ok_iff.2 hs), bind_of_ok (statements_ok_iff.2 hb)] at hplan
  rw [planHelper]
  cases hr : Registry.compile single batch r.entity.skip with
  | ok helper =>
    rw [hr] at hplan
    exact ⟨.inr ⟨_, rfl⟩, hplan⟩
  | error e =>
    rw [hr] at hplan
    exact hplan

theorem learns_helperBatch (hhelpers : r.helpers = true)
    (hvector : PlansVector answers r keys registry) (hs : answers false true = .ok (some single))
    (h : answers true true = source r.entity true true) :
    Learns answers r
      ((statements source r.entity true true).bind (planHelper r keys registry single)) := by
  rw [statements_of_answer h]
  cases hb : statements (fun _ => answers) r.entity true true with
  | ok batch => exact learns_planHelper hhelpers hvector hs (statements_ok_iff.1 hb)
  | error e =>
    have hplan := outlineOf_of_plansVector hhelpers hvector
    rw [bind_of_ok (statements_ok_iff.2 hs), bind_of_error hb] at hplan
    exact hplan

end Step

/-! ## What a step does to the world -/

/-- How many steps are left at most. -/
def Phase.remaining : Phase → Nat
  | .fresh _ => 9
  | .readingSingle _ => 8
  | .readingBatch _ _ => 7
  | .readingHelperSingle _ _ _ => 6
  | .readingHelperBatch _ _ _ _ => 5
  | .connecting _ .fresh => 4
  | .connecting _ (.waiting _ _) => 3
  | .connecting _ _ => 2
  | .installing _ _ => 1
  | .finished _ => 0

/-- What one step does. Planning leaves the world alone; a connection is asked for, comes about or
is refused; the planned state is installed in the end. -/
inductive Moves (w : World) : Phase → World → Phase → Prop
  | plans {p p' : Phase} (hp : p.isPlanning = true)
    (hp' : p'.GoesOn) (hless : p'.remaining < p.remaining) : Moves w p w p'
  | fails {p : Phase} (e : ClientError) (hp : p.isPlanning = true) :
    Moves w p w (.finished (.error e))
  | asks (plan : Plan) : Moves w (.connecting plan .fresh) w
      (.connecting plan (.waiting (w.now + w.connector.delay) w.connector.refuses))
  | connects (plan : Plan) {wake : Nat} (hwake : wake ≤ w.now) :
    Moves w (.connecting plan (.waiting wake false))
      (w.setStore w.target (w.storeOf w.target).connect) (.connecting plan (.connected w.target))
  | refuses (plan : Plan) {wake : Nat} (hwake : wake ≤ w.now) :
    Moves w (.connecting plan (.waiting wake true)) w (.connecting plan .refused)
  | givesUp (plan : Plan) :
    Moves w (.connecting plan .refused) w (.finished (.error (.serving (.backend .refused))))
  | takes (plan : Plan) (store : Handle) :
    Moves w (.connecting plan (.connected store)) w (.installing plan store)
  | installs (plan : Plan) (store : Handle) :
    Moves w (.installing plan store) { w with client := w.client.install (plan.stateOver store) }
      (.finished (.ok ()))

theorem moves_orError {w : World} {p : Phase} {x : Except ClientError Phase}
    (hp : p.isPlanning = true) (h : ∀ p', x = .ok p' →
      p'.GoesOn ∧ p'.remaining < p.remaining) :
    Moves w p w (.orError x) := by
  cases x with
  | ok p' => exact .plans hp (h p' rfl).1 (h p' rfl).2
  | error e => exact .fails e hp

theorem moves_map {α : Type} {w : World} {p : Phase} (x : Except ClientError α) {f : α → Phase}
    (hp : p.isPlanning = true) (hnext : ∀ a, (f a).isPlanning = true)
    (hless : ∀ a, (f a).remaining < p.remaining) : Moves w p w (.orError (x.map f)) := by
  refine moves_orError hp fun p' hp' => ?_
  obtain ⟨a, -, rfl⟩ := map_ok_iff.1 hp'
  exact ⟨.inl (hnext a), hless a⟩

/-- **Every step is one of the moves.** -/
theorem moves_of_step {source : Source} {w w' : World} {p p' : Phase}
    (h : step source w p = some (w', p')) : Moves w p w' p' := by
  cases p with
  | fresh r =>
    obtain ⟨rfl, rfl⟩ : w = w' ∧ _ = p' := by simpa [step] using h
    exact moves_map _ rfl (fun _ => rfl) fun _ => by simp [Phase.remaining]
  | readingSingle r =>
    obtain ⟨rfl, rfl⟩ : w = w' ∧ _ = p' := by simpa [step] using h
    exact moves_map _ rfl (fun _ => rfl) fun _ => by simp [Phase.remaining]
  | readingBatch r single =>
    obtain ⟨rfl, rfl⟩ : w = w' ∧ _ = p' := by simpa [step] using h
    refine moves_orError rfl fun p' hp' => ?_
    obtain ⟨batch, -, hplan⟩ := bind_ok_iff.1 hp'
    simp only [planVector, bind_ok_iff] at hplan
    obtain ⟨keys, -, registry, -, hplan⟩ := hplan
    split at hplan <;> cases hplan
    · exact ⟨.inl rfl, by simp [Phase.remaining]⟩
    · exact ⟨.inr ⟨_, rfl⟩, by simp [Phase.remaining]⟩
  | readingHelperSingle r keys registry =>
    obtain ⟨rfl, rfl⟩ : w = w' ∧ _ = p' := by simpa [step] using h
    exact moves_map _ rfl (fun _ => rfl) fun _ => by simp [Phase.remaining]
  | readingHelperBatch r keys registry single =>
    obtain ⟨rfl, rfl⟩ : w = w' ∧ _ = p' := by simpa [step] using h
    refine moves_orError rfl fun p' hp' => ?_
    obtain ⟨batch, -, hplan⟩ := bind_ok_iff.1 hp'
    simp only [planHelper, bind_ok_iff] at hplan
    obtain ⟨helper, -, hplan⟩ := hplan
    cases hplan
    exact ⟨.inr ⟨_, rfl⟩, by simp [Phase.remaining]⟩
  | connecting plan c =>
    cases c with
    | fresh =>
      obtain ⟨rfl, rfl⟩ : w = w' ∧ _ = p' := by simpa [step, Connecting.step] using h
      exact .asks plan
    | waiting wake refuses =>
      obtain ⟨⟨w₁, c'⟩, hc, hp⟩ := Option.map_eq_some_iff.1 h
      cases hp
      rw [Connecting.step] at hc
      split at hc
      · next hwake =>
        cases refuses <;> cases hc
        · exact .connects plan hwake
        · exact .refuses plan hwake
      · cases hc
    | connected store =>
      obtain ⟨rfl, rfl⟩ : w = w' ∧ _ = p' := by simpa [step] using h
      exact .takes plan store
    | refused =>
      obtain ⟨rfl, rfl⟩ : w = w' ∧ _ = p' := by simpa [step] using h
      exact .givesUp plan
  | installing plan store =>
    obtain ⟨rfl, rfl⟩ : _ = w' ∧ _ = p' := by simpa [step] using h
    exact .installs plan store
  | finished => cases h

theorem Moves.remaining_lt {w w' : World} {p p' : Phase} (h : Moves w p w' p') :
    p'.remaining < p.remaining := by
  cases h with
  | plans _ _ hless => exact hless
  | fails _ hp => cases p <;> simp_all [Phase.isPlanning, Phase.remaining]
  | _ => simp [Phase.remaining]

/-! ## What is known after a step -/

/-- **A step of the planning** comes to the next phase or to the error that the plan ends with, as
the answer that it was given has it. -/
theorem learns_step {answers : Answers} {r : Request} {p : Phase} (h : Reads answers r p)
    (hplanning : p.isPlanning = true) (source : Source) :
    ∃ x, (∀ w, step source w p = some (w, .orError x)) ∧ Learns (answers.after source p) r x := by
  cases p with
  | fresh q =>
    obtain rfl : q = r := h
    refine ⟨_, fun _ => rfl, ?_⟩
    cases hkind : checkKind q with
    | ok => exact ⟨.inl rfl, rfl, hkind⟩
    | error e =>
      have hplan : outlineOf answers q = .error e := by rw [outlineOf, outline, bind_of_error hkind]
      exact hplan
  | readingSingle q =>
    obtain ⟨rfl, hkind⟩ := h
    exact ⟨_, fun _ => rfl, learns_single hkind (answers.tell_same _ _ _)⟩
  | readingBatch q single =>
    obtain ⟨rfl, hkind, hs⟩ := h
    exact ⟨_, fun _ => rfl,
      learns_batch hkind (answers.tell_other hs (by simp)) (answers.tell_same _ _ _)⟩
  | readingHelperSingle q keys registry =>
    obtain ⟨rfl, hhelpers, hvector⟩ := h
    exact ⟨_, fun _ => rfl,
      learns_helperSingle hhelpers (hvector.tell _ _) (answers.tell_same _ _ _)⟩
  | readingHelperBatch q keys registry single =>
    obtain ⟨rfl, hhelpers, hvector, hs⟩ := h
    exact ⟨_, fun _ => rfl, learns_helperBatch hhelpers (hvector.tell _ _)
      (answers.tell_other hs (by simp)) (answers.tell_same _ _ _)⟩
  | connecting | installing | finished => cases hplanning

/-- **Every step keeps what is known**, with the answer that it was given. -/
theorem reads_step {answers : Answers} {source : Source} {r : Request} {w w' : World} {p p' : Phase}
    (h : Reads answers r p) (hstep : step source w p = some (w', p')) :
    Reads (answers.after source p) r p' := by
  cases hplanning : p.isPlanning with
  | true =>
    obtain ⟨x, hx, hlearns⟩ := learns_step h hplanning source
    obtain ⟨-, rfl⟩ : w = w' ∧ _ = p' := by simpa [hx w] using hstep
    cases x with
    | ok p' => exact hlearns.2
    | error e => trivial
  | false =>
    cases moves_of_step hstep with
    | plans hp | fails _ hp => rw [hp] at hplanning; cases hplanning
    | givesUp => trivial
    | installs plan => exact ⟨plan, h⟩
    | _ => exact h

end FeatureServing.SetUp
