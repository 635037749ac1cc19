import FeatureServing.Store.Fetch

/-!
# A query runs to its answer

Queries of one store run side by side and change nothing but its counters, so what a query gives is
settled before it starts:

* `Store.SameData` : stores that differ in nothing that a query reads;
* `Store.answer` : what a query gives;
* `Fetch.Acts` : the actions of a query; every step is one of them (`Fetch.acts_of_step`);
* `Fetch.due?` : what a query that is under way is going to give; no step changes it
  (`Fetch.step_leads`), nor does a run (`Fetch.runFor_leads`);
* `Fetch.run_fresh`, `Fetch.run_late` : a new query ends or sleeps, one whose sleep is over ends.
-/

namespace FeatureServing

namespace Store

/-- Stores that differ in nothing but what they counted. -/
structure SameData (s t : Store) : Prop where
  tables : t.tables = s.tables
  failing : t.failing = s.failing
  nullRows : t.nullRows = s.nullRows
  latency : t.latency = s.latency
  closed : t.closed = s.closed

theorem SameData.refl (s : Store) : SameData s s := ⟨rfl, rfl, rfl, rfl, rfl⟩

theorem SameData.symm {s t : Store} (h : SameData s t) : SameData t s :=
  ⟨h.tables.symm, h.failing.symm, h.nullRows.symm, h.latency.symm, h.closed.symm⟩

theorem SameData.trans {s t u : Store} (h : SameData s t) (h' : SameData t u) : SameData s u :=
  ⟨h'.tables.trans h.tables, h'.failing.trans h.failing, h'.nullRows.trans h.nullRows,
    h'.latency.trans h.latency, h'.closed.trans h.closed⟩

theorem sameData_accept (s : Store) : SameData s s.accept := ⟨rfl, rfl, rfl, rfl, rfl⟩

theorem sameData_release (s : Store) : SameData s s.release := ⟨rfl, rfl, rfl, rfl, rfl⟩

theorem sameData_record (s : Store) (q : ExecutedQuery) : SameData s (s.record q) :=
  ⟨rfl, rfl, rfl, rfl, rfl⟩

/-! ## Answers -/

/-- The rows of a query of a position that does not fail. -/
def readableRows (s : Store) (l : Lookup) (b : Binds) : RowSet :=
  if s.nullRows.contains l.position then unreadable b else s.select l b

/-- What an accepted query gives. -/
def acceptedAnswer (s : Store) (l : Lookup) (b : Binds) : Except ServingError RowSet :=
  if s.failing.contains l.position then .error (.backend (.failed l.position))
  else .ok (s.readableRows l b)

/-- What a query gives. -/
def answer (s : Store) (l : Lookup) (b : Binds) : Except ServingError RowSet :=
  if s.closed then .error (.backend .closed)
  else
    match l.render .questionMark b with
    | .error e => .error e
    | .ok _ => s.acceptedAnswer l b

/-- Whether the store accepts a query. -/
def accepts (s : Store) (l : Lookup) (b : Binds) : Bool :=
  !s.closed && (l.render .questionMark b).isOk

theorem accepts_iff {s : Store} {l : Lookup} {b : Binds} :
    s.accepts l b = true ↔ s.closed = false ∧ ∃ q, l.render .questionMark b = .ok q := by
  unfold accepts
  cases s.closed <;> cases l.render .questionMark b <;> simp [Except.isOk, Except.toBool]

theorem accepts_congr {s t : Store} (h : SameData s t) (l : Lookup) (b : Binds) :
    t.accepts l b = s.accepts l b := by
  rw [accepts, accepts, h.closed]

theorem select_congr {s t : Store} (h : SameData s t) (l : Lookup) (b : Binds) :
    t.select l b = s.select l b := by
  rw [select, select, h.tables]

theorem acceptedAnswer_congr {s t : Store} (h : SameData s t) (l : Lookup) (b : Binds) :
    t.acceptedAnswer l b = s.acceptedAnswer l b := by
  rw [acceptedAnswer, acceptedAnswer, readableRows, readableRows, h.failing, h.nullRows,
    select_congr h]

theorem answer_congr {s t : Store} (h : SameData s t) (l : Lookup) (b : Binds) :
    t.answer l b = s.answer l b := by
  rw [answer, answer, h.closed, acceptedAnswer_congr h]

end Store

namespace Fetch

/-- What a query is going to give; nothing if it was dropped. -/
def due? (s : Store) (f : Fetch) : Option (Except ServingError RowSet) :=
  match f.phase with
  | .fresh => some (s.answer f.lookup f.binds)
  | .accepted _ | .sleeping _ _ | .recording _ | .failing =>
    some (s.acceptedAnswer f.lookup f.binds)
  | .losing => some (.ok (s.readableRows f.lookup f.binds))
  | .reading => some (.ok (s.select f.lookup f.binds))
  | .finished r => some r
  | .dropped => none

theorem due?_congr {s t : Store} (h : Store.SameData s t) (f : Fetch) : f.due? t = f.due? s := by
  simp only [due?, Store.answer_congr h, Store.acceptedAnswer_congr h, Store.select_congr h,
    Store.readableRows, h.nullRows]

/-! ## Steps and runs -/

/-- What one action of a query does, with the condition it takes place under: to the store and to
the phase. The lookup, the binds and the place of the rows never change. -/
inductive Acts (now : Nat) (s : Store) (l : Lookup) (b : Binds) : Phase → Store → Phase → Prop
  | refuseClosed (hclosed : s.closed = true) :
    Acts now s l b .fresh s (.finished (.error (.backend .closed)))
  | refuseBinds (e : ServingError) (hopen : s.closed = false)
    (hrender : l.render .questionMark b = .error e) : Acts now s l b .fresh s (.finished (.error e))
  | accept (q : RenderedQuery) (hopen : s.closed = false)
    (hrender : l.render .questionMark b = .ok q) :
    Acts now s l b .fresh s.accept (.accepted ⟨l.position, l.form, q.text, b⟩)
  | sleep (q : ExecutedQuery) (ms : Nat) (hlatency : s.latency = some ms) :
    Acts now s l b (.accepted q) s (.sleeping q (now + ms))
  | go (q : ExecutedQuery) (hlatency : s.latency = none) :
    Acts now s l b (.accepted q) s (.recording q)
  | wake (q : ExecutedQuery) (w : Nat) (hover : w ≤ now) :
    Acts now s l b (.sleeping q w) s (.recording q)
  | record (q : ExecutedQuery) : Acts now s l b (.recording q) (s.record q) .failing
  | fail (hfails : s.failing.contains l.position = true) :
    Acts now s l b .failing s.release (.finished (.error (.backend (.failed l.position))))
  | pass (hworks : s.failing.contains l.position = false) : Acts now s l b .failing s .losing
  | lose (hlost : s.nullRows.contains l.position = true) :
    Acts now s l b .losing s.release (.finished (.ok (Store.unreadable b)))
  | keep (hkept : s.nullRows.contains l.position = false) : Acts now s l b .losing s .reading
  | read : Acts now s l b .reading s.release (.finished (.ok (s.select l b)))

/-- **Every step is one of the actions.** -/
theorem acts_of_step {now : Nat} {s s' : Store} {f f' : Fetch}
    (h : f.step now s = some (s', f')) :
    ∃ phase, f' = { f with phase } ∧ Acts now s f.lookup f.binds f.phase s' phase := by
  obtain ⟨l, b, phase, place⟩ := f
  cases phase with
  | fresh =>
    have hstart : start s ⟨l, b, .fresh, place⟩ = (s', f') := Option.some.inj h
    unfold start at hstart
    split at hstart
    · next hc =>
      cases hstart
      exact ⟨_, rfl, .refuseClosed hc⟩
    · next hc =>
      have hopen := Bool.of_not_eq_true hc
      split at hstart
      · next e he =>
        cases hstart
        exact ⟨_, rfl, .refuseBinds e hopen he⟩
      · next q hq =>
        cases hstart
        exact ⟨_, rfl, .accept q hopen hq⟩
  | accepted q =>
    simp only [step] at h
    split at h
    · next ms hms =>
      cases h
      exact ⟨_, rfl, .sleep q ms hms⟩
    · next hms =>
      cases h
      exact ⟨_, rfl, .go q hms⟩
  | sleeping q w =>
    simp only [step] at h
    split at h
    · next hover =>
      cases h
      exact ⟨_, rfl, .wake q w hover⟩
    · simp at h
  | recording q =>
    cases h
    exact ⟨_, rfl, .record q⟩
  | failing =>
    simp only [step, finish] at h
    split at h
    · next hfails =>
      cases h
      exact ⟨_, rfl, .fail hfails⟩
    · next hfails =>
      cases h
      exact ⟨_, rfl, .pass (Bool.of_not_eq_true hfails)⟩
  | losing =>
    simp only [step, finish] at h
    split at h
    · next hlost =>
      cases h
      exact ⟨_, rfl, .lose hlost⟩
    · next hlost =>
      cases h
      exact ⟨_, rfl, .keep (Bool.of_not_eq_true hlost)⟩
  | reading =>
    cases h
    exact ⟨_, rfl, .read⟩
  | finished r => simp [step] at h
  | dropped => simp [step] at h

/-- From a store with a query to a later pair of them: the data, the place of the rows and what is
due stay. -/
structure Leads (s : Store) (f : Fetch) (s' : Store) (f' : Fetch) : Prop where
  data : Store.SameData s s'
  place : f'.place = f.place
  due : f'.due? s' = f.due? s

theorem Leads.refl (s : Store) (f : Fetch) : Leads s f s f := ⟨.refl s, rfl, rfl⟩

theorem Leads.trans {s s' s'' : Store} {f f' f'' : Fetch} (h : Leads s f s' f')
    (h' : Leads s' f' s'' f'') : Leads s f s'' f'' :=
  ⟨h.data.trans h'.data, h'.place.trans h.place, h'.due.trans h.due⟩

/-- How many steps a query can take at most. -/
def remaining (f : Fetch) : Nat :=
  match f.phase with
  | .fresh => 7
  | .accepted _ => 6
  | .sleeping _ _ => 5
  | .recording _ => 4
  | .failing => 3
  | .losing => 2
  | .reading => 1
  | .finished _ | .dropped => 0

theorem remaining_le (f : Fetch) : f.remaining ≤ 7 := by
  rw [remaining]
  split <;> omega

theorem Acts.data {now : Nat} {s s' : Store} {l : Lookup} {b : Binds} {phase phase' : Phase}
    (h : Acts now s l b phase s' phase') : Store.SameData s s' := by
  cases h with
  | accept => exact s.sameData_accept
  | record q => exact s.sameData_record q
  | fail | lose | read => exact s.sameData_release
  | _ => exact .refl s

/-- **A step** changes neither the data nor what is due, and leaves fewer steps. -/
theorem step_leads {now : Nat} {s s' : Store} {f f' : Fetch}
    (h : f.step now s = some (s', f')) : Leads s f s' f' ∧ f'.remaining < f.remaining := by
  obtain ⟨l, b, phase, place⟩ := f
  obtain ⟨phase', rfl, hacts⟩ := acts_of_step h
  have hdata := hacts.data
  refine ⟨⟨hdata, rfl, ?_⟩, ?_⟩
  · rw [due?_congr hdata]
    cases hacts with
    | refuseClosed hclosed => simp [due?, Store.answer, hclosed]
    | refuseBinds e hopen hrender => simp [due?, Store.answer, hopen, hrender]
    | accept q hopen hrender => simp [due?, Store.answer, hopen, hrender]
    | fail hfails => simp [due?, Store.acceptedAnswer, hfails]
    | pass hworks => simp [due?, Store.acceptedAnswer, hworks]
    | lose hlost => simp [due?, Store.readableRows, hlost]
    | keep hkept => simp [due?, Store.readableRows, hkept]
    | _ => rfl
  · cases hacts <;> simp [remaining]

theorem step_eq_none_iff {now : Nat} {s : Store} {f : Fetch} :
    f.step now s = none ↔
      (∃ r, f.phase = .finished r) ∨ f.phase = .dropped ∨
        ∃ q wake, f.phase = .sleeping q wake ∧ now < wake := by
  obtain ⟨l, b, phase, place⟩ := f
  cases phase with
  | accepted q => cases hl : s.latency <;> simp [step, hl]
  | sleeping q wake =>
    simp only [step, ite_eq_right_iff, reduceCtorEq, imp_false, Nat.not_le, exists_false, false_or,
      Phase.sleeping.injEq]
    exact ⟨fun h => ⟨q, wake, ⟨rfl, rfl⟩, h⟩, fun ⟨_, _, ⟨_, hw⟩, h⟩ => hw ▸ h⟩
  | failing => cases hf : s.failing.contains l.position <;> simp [step, hf]
  | losing => cases hn : s.nullRows.contains l.position <;> simp [step, hn]
  | _ => simp [step]

theorem runFor_leads (now fuel : Nat) (s : Store) (f : Fetch) :
    Leads s f (runFor now fuel s f).1 (runFor now fuel s f).2 := by
  induction fuel generalizing s f with
  | zero => exact .refl s f
  | succ fuel ih =>
    rw [runFor]
    cases hstep : f.step now s with
    | none => exact .refl s f
    | some next => exact (step_leads hstep).1.trans (ih next.1 next.2)

/-- What every step at a time keeps, a run keeps. -/
theorem runFor_keeps {P : Fetch → Prop} {now : Nat} {s : Store}
    (hP : ∀ t f t' f', Store.SameData s t → P f → f.step now t = some (t', f') → P f')
    {fuel : Nat} {f : Fetch} (h : P f) : P (runFor now fuel s f).2 := by
  have hrun : ∀ t, Store.SameData s t → ∀ f, P f → P (runFor now fuel t f).2 := by
    induction fuel with
    | zero => exact fun _ _ _ h => h
    | succ fuel ih =>
      intro t ht f h
      rw [runFor]
      cases hstep : f.step now t with
      | none => exact h
      | some next =>
        exact ih next.1 (ht.trans (step_leads hstep).1.data) next.2 (hP _ _ _ _ ht h hstep)
  exact hrun s (.refl s) f h

theorem step_runFor_eq_none {now fuel : Nat} {s : Store} {f : Fetch} (h : f.remaining ≤ fuel) :
    (runFor now fuel s f).2.step now (runFor now fuel s f).1 = none := by
  induction fuel generalizing s f with
  | zero =>
    rw [runFor]
    cases hstep : f.step now s with
    | none => rfl
    | some next => exact absurd (step_leads hstep).2 (by omega)
  | succ fuel ih =>
    rw [runFor]
    cases hstep : f.step now s with
    | none => exact hstep
    | some next =>
      have hless := (step_leads hstep).2
      exact ih (by omega)

/-! ## Sleeping queries -/

/-- The time to which a query sleeps that reads the latency at a time. -/
def sleepEnd (s : Store) (now : Nat) : Nat :=
  now + s.latency.getD 0

/-- Where a query can come from: it sleeps after it was accepted, and is accepted first of all. -/
theorem step_origin {now : Nat} {s s' : Store} {f f' : Fetch}
    (h : f.step now s = some (s', f')) :
    f'.phase ≠ .fresh ∧ (∀ q, f'.phase = .accepted q → f.phase = .fresh) ∧
      ∀ q w, f'.phase = .sleeping q w → (∃ q', f.phase = .accepted q') ∧ w = sleepEnd s now := by
  obtain ⟨l, b, phase, place⟩ := f
  obtain ⟨phase', rfl, hacts⟩ := acts_of_step h
  cases hacts with
  | sleep q ms hlatency => simp [sleepEnd, hlatency]
  | _ => simp

/-- Whether a query sleeps to no other time than a given one. -/
def SleepsTo (wake : Nat) (f : Fetch) : Prop :=
  ∀ q w, f.phase = .sleeping q w → w = wake

/-- Whether a query has read the latency and does not sleep beyond a time. -/
structure Late (now : Nat) (f : Fetch) : Prop where
  started : f.phase ≠ .fresh
  read : ∀ q, f.phase ≠ .accepted q
  awake : ∀ q w, f.phase = .sleeping q w → w ≤ now

theorem step_late {now : Nat} {s s' : Store} {f f' : Fetch}
    (h : f.step now s = some (s', f')) (hf : f.Late now) : f'.Late now := by
  obtain ⟨hfresh, haccepted, hsleeping⟩ := step_origin h
  refine ⟨hfresh, fun q hq => hf.started (haccepted q hq), fun q w hw => ?_⟩
  obtain ⟨⟨q', hq'⟩, -⟩ := hsleeping q w hw
  exact absurd hq' (hf.read q')

/-- After a run a query is over or sleeps beyond the time; what was due still is. -/
theorem run_cases {s t : Store} (ht : Store.SameData s t) {f : Fetch}
    {r : Except ServingError RowSet} (hr : f.due? s = some r) (now : Nat) :
    (f.run now t).2.due? s = some r ∧
      ((f.run now t).2.phase = .finished r ∨
        ∃ q w, (f.run now t).2.phase = .sleeping q w ∧ now < w) := by
  have hleads := runFor_leads now 7 t f
  have hdue : (f.run now t).2.due? s = some r := by
    rw [← due?_congr (ht.trans hleads.data)]
    exact hleads.due.trans ((due?_congr ht f).trans hr)
  refine ⟨hdue, ?_⟩
  rcases step_eq_none_iff.1 (step_runFor_eq_none f.remaining_le) with ⟨r', h⟩ | h | h
  · have hphase : (f.run now t).2.phase = .finished r' := h
    simp only [due?, hphase, Option.some.injEq] at hdue
    exact .inl (hdue ▸ hphase)
  · have hphase : (f.run now t).2.phase = .dropped := h
    simp [due?, hphase] at hdue
  · exact .inr h

/-- **A new query** ends with its answer or sleeps for the time of the latency. -/
theorem run_fresh {s t : Store} (ht : Store.SameData s t) {f : Fetch} (hf : f.phase = .fresh)
    (now : Nat) :
    (f.run now t).2.due? s = some (s.answer f.lookup f.binds) ∧
      ((f.run now t).2.phase = .finished (s.answer f.lookup f.binds) ∨
        ∃ q, (f.run now t).2.phase = .sleeping q (sleepEnd s now) ∧ now < sleepEnd s now) := by
  have hdue : f.due? s = some (s.answer f.lookup f.binds) := by simp [due?, hf]
  obtain ⟨hdue', hphase⟩ := run_cases ht hdue now
  refine ⟨hdue', hphase.imp_right fun ⟨q, w, hq, hw⟩ => ?_⟩
  have hsleeps : (f.run now t).2.SleepsTo (sleepEnd s now) := by
    refine runFor_keeps (fun u f u' f' hu _ hstep q w hw => ?_) fun q w h => ?_
    · have hlatency := (ht.trans hu).latency
      rw [((step_origin hstep).2.2 q w hw).2, sleepEnd, hlatency, sleepEnd]
    · simp [hf] at h
  obtain rfl := hsleeps q w hq
  exact ⟨q, hq, hw⟩

theorem run_refused {s t : Store} (ht : Store.SameData s t) {f : Fetch} (hf : f.phase = .fresh)
    (h : s.accepts f.lookup f.binds = false) (now : Nat) :
    (f.run now t).2.phase = .finished (s.answer f.lookup f.binds) := by
  have hstart : f.step now t =
      some (t, { f with phase := .finished (s.answer f.lookup f.binds) }) := by
    rw [← Store.accepts_congr ht, Store.accepts] at h
    rw [step, hf, ← Store.answer_congr ht, Store.answer, start]
    cases hclosed : t.closed with
    | true => rfl
    | false =>
      cases hrender : f.lookup.render .questionMark f.binds with
      | error e => rfl
      | ok q => simp [hclosed, hrender, Except.isOk, Except.toBool] at h
  rw [run, runFor, hstart]
  rfl

theorem run_accepted {s t : Store} (ht : Store.SameData s t) {f : Fetch} (hf : f.phase = .fresh)
    (h : s.accepts f.lookup f.binds = true) {now : Nat} (hlt : now < sleepEnd s now) :
    ∃ q, (f.run now t).2.phase = .sleeping q (sleepEnd s now) := by
  obtain ⟨hopen, r, hrender⟩ := Store.accepts_iff.1 h
  obtain ⟨ms, hms⟩ : ∃ ms, t.latency = some ms := by
    refine Option.ne_none_iff_exists'.1 fun hnone => ?_
    rw [sleepEnd, ← ht.latency, hnone] at hlt
    exact Nat.lt_irrefl _ hlt
  have hend : sleepEnd s now = now + ms := by rw [sleepEnd, ← ht.latency, hms, Option.getD_some]
  have hopen' : t.closed = false := ht.closed.trans hopen
  obtain ⟨l, b, _, place⟩ := f
  obtain rfl := hf
  let q : ExecutedQuery := ⟨l.position, l.form, r.text, b⟩
  have haccepts : step now t ⟨l, b, .fresh, place⟩ = some (t.accept, ⟨l, b, .accepted q, place⟩) := by
    simp [step, start, hopen', hrender, q]
  have hsleeps : step now t.accept ⟨l, b, .accepted q, place⟩ =
      some (t.accept, ⟨l, b, .sleeping q (now + ms), place⟩) := by
    have hlatency : t.accept.latency = some ms := hms
    simp [step, hlatency]
  have hwaits : step now t.accept ⟨l, b, .sleeping q (now + ms), place⟩ = none := by
    rw [hend] at hlt
    simp [step, Nat.not_le.2 hlt]
  refine ⟨q, ?_⟩
  rw [run, runFor, haccepts]
  simp only [runFor, hsleeps, hwaits, hend]

theorem run_of_step_eq_none {now : Nat} {s : Store} {f : Fetch} (h : f.step now s = none) :
    f.run now s = (s, f) := by
  rw [run, runFor, h]

/-- **A query whose sleep is over** ends with what is due. -/
theorem run_late {s t : Store} (ht : Store.SameData s t) {f : Fetch} {now : Nat}
    (hf : f.Late now) {r : Except ServingError RowSet} (hr : f.due? s = some r) :
    (f.run now t).2.phase = .finished r := by
  obtain ⟨-, hphase | ⟨q, w, hq, hw⟩⟩ := run_cases ht hr now
  · exact hphase
  · have hlate : (f.run now t).2.Late now :=
      runFor_keeps (fun _ _ _ _ _ h hstep => step_late hstep h) hf
    exact absurd (hlate.awake q w hq) (Nat.not_le.2 hw)

end Fetch

end FeatureServing
