import FeatureServing.Proofs.BatchAgreement
import FeatureServing.Proofs.InterleavedCalls

/-!
# What calls are refused for

A call is refused for its input before any query, for one of three reasons. Whatever a store answers
and however long a call takes, nothing else is reported as invalid input:

* `Entry.ListShaped`, `KeyIndex.Unknown` : what can be wrong with an entry, and
  `checkSingleShape_error_iff`, `KeyIndex.validateEntry_error_iff`, the checks of these;
* `Serving.RefusedWith` : the cause that a state refuses a call with, `Serving.Malformed` : whether
  there is one (`Serving.exists_refusedWith_iff`);
* `Serving.Call.binds_ne_nil` : no query is prepared with an empty list of tuples, which is the only
  thing that a lookup would refuse (`Lookup.binds_of_render`);
* `Serving.invalid_iff_of_made` : every way that a call can end;
* `Session.serve_refused_iff` : serving commands.
-/

namespace FeatureServing

/-! ## Entries -/

/-- Whether an entry holds lists only, and at least one. -/
def Entry.ListShaped (e : Entry) : Prop :=
  e.isEmpty = false ∧ ∀ v ∈ e.values, v.isList = true

theorem checkSingleShape_error_iff {e : Entry} {err : ServingError} :
    checkSingleShape e = .error err ↔ e.ListShaped ∧ err = .validation .listShaped := by
  have hshape : (!e.isEmpty && e.values.all Value.isList) = true ↔ e.ListShaped := by
    rw [Entry.ListShaped, Bool.and_eq_true, Bool.not_eq_true', List.all_eq_true]
  rw [checkSingleShape, ← hshape]
  split
  · next h => simp only [h, true_and, Except.error.injEq, eq_comm]
  · next h => simp [h]

theorem checkSingleShape_ok_iff_not {e : Entry} : checkSingleShape e = .ok () ↔ ¬ e.ListShaped := by
  rw [checkSingleShape_ok_iff, Entry.ListShaped]
  cases e.isEmpty <;> simp

namespace KeyIndex

/-- Whether an entry holds a name that is no key. -/
def Unknown (x : KeyIndex) (e : Entry) (name : String) : Prop :=
  name ∈ e.keys ∧ x.isValid name = false

/-- Whether a name is the smallest unknown one of an entry, in the order of the code points. -/
def LeastUnknown (x : KeyIndex) (e : Entry) (name : String) : Prop :=
  x.Unknown e name ∧ ∀ other, x.Unknown e other → name ≤ other

/-- Whether a name is the smallest unknown one of the first entry that holds any. -/
def FirstUnknown (x : KeyIndex) (es : List Entry) (name : String) : Prop :=
  ∃ before e after, es = before ++ e :: after ∧ (∀ e' ∈ before, ∀ other, ¬ x.Unknown e' other) ∧
    x.LeastUnknown e name

variable {x : KeyIndex} {e : Entry} {es : List Entry}

theorem validateEntry_ok_iff : x.validateEntry e = .ok () ↔ ∀ name, ¬ x.Unknown e name := by
  have hfind : (e.keys.find? fun name => !x.isValid name) = none ↔ ∀ name, ¬ x.Unknown e name := by
    simp [List.find?_eq_none, Unknown]
  rw [validateEntry, ← hfind]
  split <;> simp_all

/-- The names of an entry are checked in their order, so the smallest unknown one is found. -/
theorem find?_keys_eq_some_iff {name : String} :
    (e.keys.find? fun name => !x.isValid name) = some name ↔ x.LeastUnknown e name := by
  have hsorted : e.keys.Pairwise (· < ·) := by
    refine List.pairwise_map.2 (e.sorted.imp fun h => ?_)
    exact compareOfLessAndEq_eq_lt.1 h
  rw [List.find?_eq_some_iff_append]
  constructor
  · rintro ⟨hinvalid, before, after, hkeys, hbefore⟩
    rw [Bool.not_eq_true'] at hinvalid
    refine ⟨⟨hkeys ▸ List.mem_append_right _ List.mem_cons_self, hinvalid⟩, ?_⟩
    rintro other ⟨hother, hinvalid'⟩
    rw [hkeys] at hother hsorted
    rcases List.mem_append.1 hother with hmem | hmem
    · have hvalid := hbefore other hmem
      simp [hinvalid'] at hvalid
    · rcases List.mem_cons.1 hmem with rfl | hmem
      · exact Std.le_refl _
      · have hlater := List.pairwise_cons.1 (List.pairwise_append.1 hsorted).2.1
        exact Std.le_of_lt (hlater.1 other hmem)
  · rintro ⟨⟨hmem, hinvalid⟩, hleast⟩
    obtain ⟨before, after, hkeys⟩ := List.append_of_mem hmem
    refine ⟨by rw [hinvalid]; rfl, before, after, hkeys, fun other hother => ?_⟩
    rw [hkeys] at hsorted
    have hlt : other < name := (List.pairwise_append.1 hsorted).2.2 other hother name
      List.mem_cons_self
    rw [Bool.not_not]
    by_contra hvalid
    have hunknown : x.Unknown e other :=
      ⟨hkeys ▸ List.mem_append_left _ hother, Bool.of_not_eq_true hvalid⟩
    exact Std.not_le.2 hlt (hleast other hunknown)

theorem validateEntry_error_iff {err : ServingError} :
    x.validateEntry e = .error err ↔
      ∃ name, x.LeastUnknown e name ∧
        err = .validation (.unknownName name x.validNames.toList) := by
  simp only [← find?_keys_eq_some_iff, validateEntry]
  cases e.keys.find? fun name => !x.isValid name with
  | none => simp
  | some name => simp [eq_comm]

theorem forM_validateEntry_error_iff {err : ServingError} :
    es.forM x.validateEntry = .error err ↔
      ∃ name, x.FirstUnknown es name ∧
        err = .validation (.unknownName name x.validNames.toList) := by
  simp only [forM_error_iff, validateEntry_ok_iff, validateEntry_error_iff, FirstUnknown]
  constructor
  · rintro ⟨before, e, after, hsplit, hbefore, name, hname, rfl⟩
    exact ⟨name, ⟨before, e, after, hsplit, hbefore, hname⟩, rfl⟩
  · rintro ⟨name, ⟨before, e, after, hsplit, hbefore, hname⟩, rfl⟩
    exact ⟨before, e, after, hsplit, hbefore, name, hname, rfl⟩

theorem exists_firstUnknown_iff :
    (∃ name, x.FirstUnknown es name) ↔ ∃ e ∈ es, ∃ name, x.Unknown e name := by
  constructor
  · rintro ⟨name, before, e, after, rfl, -, hname, -⟩
    exact ⟨e, List.mem_append_right _ List.mem_cons_self, name, hname⟩
  · rintro ⟨e, he, name, hname⟩
    cases hcheck : es.forM x.validateEntry with
    | ok _ => exact absurd hname (validateEntry_ok_iff.1 (forM_ok_iff.1 hcheck e he) name)
    | error err => exact (forM_validateEntry_error_iff.1 hcheck).imp fun _ h => h.1

theorem firstUnknown_singleton_iff {name : String} :
    x.FirstUnknown [e] name ↔ x.LeastUnknown e name := by
  constructor
  · rintro ⟨before, e', after, hsplit, -, hname⟩
    obtain ⟨-, rfl, -⟩ : before = [] ∧ e = e' ∧ after = [] := by
      rcases before with _ | ⟨_, _ | _⟩ <;> simp_all
    exact hname
  · exact fun h => ⟨[], e, [], rfl, nofun, h⟩

end KeyIndex

/-! ## Queries -/

namespace Pipeline

variable {p : Pipeline} {cause : ValidationCause}

theorem prepare_invalid_iff {e : Entry} :
    p.prepare e = .error (.validation cause) ↔
      e.ListShaped ∧ cause = .listShaped ∨
        ¬ e.ListShaped ∧ ∃ name, p.keys.FirstUnknown [e] name ∧
          cause = .unknownName name p.keys.validNames.toList := by
  have hshape : ∀ u, checkSingleShape e = .ok u ↔ ¬ e.ListShaped := fun _ =>
    checkSingleShape_ok_iff_not
  simp only [prepare, bind_error_iff, checkSingleShape_error_iff, KeyIndex.validateEntry_error_iff,
    KeyIndex.firstUnknown_singleton_iff, ServingError.validation.injEq, reduceCtorEq, and_false,
    exists_false, or_false, hshape, exists_const]

theorem prepareBatch_invalid_iff {es : List Entry} :
    p.prepareBatch es = .error (.validation cause) ↔
      ∃ name, p.keys.FirstUnknown es name ∧
        cause = .unknownName name p.keys.validNames.toList := by
  have hrest : ∀ fetches, (if p.lacksBatch then .error (.configuration .noBatchStatements)
      else .ok fetches : Except ServingError (List Fetch)) ≠ .error (.validation cause) := by
    intro fetches h
    split at h <;> cases h
  simp only [prepareBatch, bind_error_iff, KeyIndex.forM_validateEntry_error_iff,
    ServingError.validation.injEq, hrest, and_false, exists_false, or_false]

end Pipeline

/-- A lookup finds binds invalid only if they are an empty list of tuples. -/
theorem Lookup.binds_of_render {l : Lookup} {style : PlaceholderStyle} {b : Binds}
    {cause : ValidationCause} (h : l.render style b = .error (.validation cause)) :
    b = .expanding [] := by
  obtain ⟨segment, -, hsegment⟩ := exists_error_of_mapM (map_error_iff.1 (map_error_iff.1 h))
  unfold segmentPieces at hsegment
  split at hsegment
  · cases hsegment
  · split at hsegment
    · split at hsegment <;> cases hsegment
    · cases hsegment
  · split at hsegment
    · cases hsegment
    · rfl
    · cases hsegment

theorem Store.binds_of_answer {s : Store} {l : Lookup} {b : Binds} {cause : ValidationCause}
    (h : s.answer l b = .error (.validation cause)) : b = .expanding [] := by
  rw [answer, acceptedAnswer] at h
  split at h
  · cases h
  · cases hrender : l.render .questionMark b with
    | error e =>
      rw [hrender] at h
      obtain rfl := Except.error.inj h
      exact Lookup.binds_of_render hrender
    | ok q =>
      simp only [hrender] at h
      split at h <;> cases h

/-! ## Calls -/

namespace Serving

namespace Call

/-- The entries of a call. -/
def entries : Call → List Entry
  | vector _ e => [e]
  | vectors _ es => es
  | serve r => [r.entry]
  | serveBatch r => r.entries

/-- The entry of a call for one vector. -/
def entry? : Call → Option Entry
  | vector _ e => some e
  | serve r => some r.entry
  | vectors _ _ | serveBatch _ => none

theorem check_error_iff {call : Call} {e : ClientError} :
    call.check = .error e ↔ ∃ r, call = .serveBatch r ∧
      (r.passed ≠ [] ∧ r.passed.length ≠ r.entries.length) ∧
        e = .serving (.validation (.passedLength r.passed.length r.entries.length)) := by
  cases call with
  | serveBatch r =>
    have hfits : (r.passed.isEmpty || r.passed.length = r.entries.length) = true ↔
        ¬ (r.passed ≠ [] ∧ r.passed.length ≠ r.entries.length) := by
      simp [or_iff_not_imp_left]
    rw [check, BatchRequest.validate]
    split
    · next h => simp [hfits.1 h]
    · next h =>
      have hpassed := Classical.not_not.1 (mt hfits.2 h)
      simp only [serveBatch.injEq, exists_eq_left', and_iff_right hpassed, Except.error.injEq]
      exact eq_comm
  | _ => simp [check]

theorem prepare_invalid_iff {call : Call} {p : Pipeline} {cause : ValidationCause} :
    call.prepare p = .error (.validation cause) ↔
      (∃ e, call.entry? = some e ∧ e.ListShaped) ∧ cause = .listShaped ∨
        (∀ e, call.entry? = some e → ¬ e.ListShaped) ∧ ∃ name,
          p.keys.FirstUnknown call.entries name ∧
            cause = .unknownName name p.keys.validNames.toList := by
  cases call <;>
    simp [prepare, entries, entry?, Pipeline.prepare_invalid_iff, Pipeline.prepareBatch_invalid_iff]

theorem prepare_ok_iff {call : Call} {p : Pipeline} {fetches : List Fetch} :
    call.prepare p = .ok fetches ↔
      (∃ e, call.entry? = some e ∧ checkSingleShape e = .ok () ∧
        p.keys.validateEntry e = .ok () ∧ p.singleFetches e = fetches) ∨
      call.entry? = none ∧ p.lacksBatch = false ∧
        (∀ e ∈ call.entries, p.keys.validateEntry e = .ok ()) ∧
          p.batchFetches call.entries = fetches := by
  cases call <;>
    simp [prepare, entries, entry?, Pipeline.prepare_ok_iff, Pipeline.prepareBatch_ok_iff]

/-- **No empty list of tuples** is bound for a query. -/
theorem binds_ne_nil {call : Call} {p : Pipeline} {fetches : List Fetch}
    (h : call.prepare p = .ok fetches) : ∀ f ∈ fetches, f.binds ≠ .expanding [] := by
  intro f hf
  rcases prepare_ok_iff.1 h with ⟨e, -, -, -, rfl⟩ | ⟨-, -, -, rfl⟩
  · obtain ⟨j, l, b, -, hb, rfl⟩ := FanOut.mem_submitted_iff.1 hf
    obtain ⟨-, keys, vs, -, -, rfl⟩ := KeyIndex.get?_resolve_eq_some_iff.1 hb
    exact nofun
  · obtain ⟨j, l, b, -, hb, rfl⟩ := FanOut.mem_submitted_iff.1 hf
    obtain ⟨-, keys, -, hne, rfl⟩ := KeyIndex.get?_resolveBatch_eq_some_iff.1 hb
    exact fun heq => hne (Binds.expanding.inj heq)

theorem data_of_assemble {call : Call} {p : Pipeline} {results : SortedMap Position RowSet}
    {e : ServingError} (h : call.assemble p results = .error e) : ∃ cause, e = .data cause := by
  have hbatch : ∀ {es}, p.assembleBatch es results = .error e → ∃ cause, e = .data cause := by
    intro es h
    rcases bind_error_iff.1 h with h | ⟨_, -, h⟩
    · obtain ⟨v, -, hv⟩ := exists_error_of_mapM h
      exact Schema.data_of_coerce hv
    · cases h
  cases call with
  | vector | serve => exact Schema.data_of_coerce (map_error_iff.1 h)
  | vectors | serveBatch => exact hbatch (map_error_iff.1 h)

end Call

/-- The cause that a state refuses a call with: passed features that do not line up with the entries
come first, then an only entry that holds lists, then an unknown name. -/
inductive RefusedWith (s : ServingState) : Call → ValidationCause → Prop
  | passedLength {r : BatchRequest} (hpassed : r.passed ≠ [])
    (hlen : r.passed.length ≠ r.entries.length) :
    RefusedWith s (.serveBatch r) (.passedLength r.passed.length r.entries.length)
  | listShaped {call : Call} {p : Pipeline} {e : Entry} (hp : s.pipeline call.isHelper = .ok p)
    (he : call.entry? = some e) (hshape : e.ListShaped) : RefusedWith s call .listShaped
  | unknownName {call : Call} {p : Pipeline} {name : String} (hcheck : call.check = .ok ())
    (hp : s.pipeline call.isHelper = .ok p) (hshape : ∀ e, call.entry? = some e → ¬ e.ListShaped)
    (hname : p.keys.FirstUnknown call.entries name) :
    RefusedWith s call (.unknownName name p.keys.validNames.toList)

/-- Whether the input of a call is invalid for the pipeline that it is about. -/
def Malformed (s : ServingState) : Call → Prop
  | .vector helper e => ∃ p, s.pipeline helper = .ok p ∧
      (e.ListShaped ∨ ∃ name, p.keys.Unknown e name)
  | .serve r => r.entry.ListShaped ∨ ∃ name, s.vector.keys.Unknown r.entry name
  | .vectors helper es => ∃ p, s.pipeline helper = .ok p ∧ ∃ e ∈ es, ∃ name, p.keys.Unknown e name
  | .serveBatch r => r.passed ≠ [] ∧ r.passed.length ≠ r.entries.length ∨
      ∃ e ∈ r.entries, ∃ name, s.vector.keys.Unknown e name

variable {s : ServingState} {call : Call} {cause : ValidationCause}

theorem exists_refusedWith {p : Pipeline} (hcheck : call.check = .ok ())
    (hp : s.pipeline call.isHelper = .ok p)
    (h : (∃ e, call.entry? = some e ∧ e.ListShaped) ∨ ∃ e ∈ call.entries, ∃ name,
      p.keys.Unknown e name) : ∃ cause, RefusedWith s call cause := by
  by_cases hshape : ∃ e, call.entry? = some e ∧ e.ListShaped
  · obtain ⟨e, he, hshape⟩ := hshape
    exact ⟨_, .listShaped hp he hshape⟩
  · obtain ⟨name, hname⟩ := KeyIndex.exists_firstUnknown_iff.2 (h.resolve_left hshape)
    exact ⟨_, .unknownName hcheck hp (fun e he hlist => hshape ⟨e, he, hlist⟩) hname⟩

/-- **A call is refused when it is malformed.** -/
theorem exists_refusedWith_iff : (∃ cause, RefusedWith s call cause) ↔ Malformed s call := by
  constructor
  · rintro ⟨cause, h⟩
    cases h with
    | passedLength hpassed hlen => exact .inl ⟨hpassed, hlen⟩
    | listShaped hp he hshape =>
      cases call with
      | vector helper e =>
        obtain rfl := Option.some.inj he
        exact ⟨_, hp, .inl hshape⟩
      | serve r =>
        obtain rfl := Option.some.inj he
        exact .inl hshape
      | vectors | serveBatch => cases he
    | unknownName _ hp _ hname =>
      obtain ⟨e, he, hunknown⟩ := KeyIndex.exists_firstUnknown_iff.1 ⟨_, hname⟩
      cases call with
      | vector helper e =>
        obtain rfl := List.mem_singleton.1 he
        exact ⟨_, hp, .inr hunknown⟩
      | serve r =>
        obtain rfl := List.mem_singleton.1 he
        obtain rfl := Except.ok.inj hp
        exact .inr hunknown
      | vectors helper es => exact ⟨_, hp, e, he, hunknown⟩
      | serveBatch r =>
        obtain rfl := Except.ok.inj hp
        exact .inr ⟨e, he, hunknown⟩
  · intro h
    cases call with
    | vector helper e =>
      obtain ⟨p, hp, h⟩ := h
      exact exists_refusedWith rfl hp (h.imp (⟨e, rfl, ·⟩) (⟨e, List.mem_singleton_self e, ·⟩))
    | serve r =>
      have hp : s.pipeline (Call.serve r).isHelper = .ok s.vector := rfl
      exact exists_refusedWith rfl hp
        (h.imp (⟨r.entry, rfl, ·⟩) (⟨r.entry, List.mem_singleton_self _, ·⟩))
    | vectors helper es =>
      obtain ⟨p, hp, h⟩ := h
      exact exists_refusedWith rfl hp (.inr h)
    | serveBatch r =>
      cases hcheck : r.validate with
      | ok _ =>
        have hp : s.pipeline (Call.serveBatch r).isHelper = .ok s.vector := rfl
        refine exists_refusedWith hcheck hp (.inr (h.resolve_left fun ⟨hpassed, hlen⟩ => ?_))
        exact (BatchRequest.validate_ok_iff.1 hcheck).elim hpassed hlen
      | error e =>
        have hrefused : (Call.serveBatch r).check = .error e := hcheck
        obtain ⟨_, hr, ⟨hpassed, hlen⟩, -⟩ := Call.check_error_iff.1 hrefused
        obtain rfl := Call.serveBatch.inj hr
        exact ⟨_, .passedLength hpassed hlen⟩

theorem queries_invalid_iff :
    queries s call = .error (.serving (.validation cause)) ↔ RefusedWith s call cause := by
  have hpipeline : s.pipeline call.isHelper ≠ .error (.serving (.validation cause)) := by
    unfold ServingState.pipeline
    split
    · split <;> exact nofun
    · exact nofun
  simp only [queries, bind_error_iff, Call.check_error_iff, hpipeline, false_or, mapError_error_iff,
    ClientError.serving.injEq, exists_eq_right, Call.prepare_invalid_iff, reduceCtorEq, and_false,
    exists_false, or_false]
  constructor
  · rintro (⟨r, rfl, ⟨hpassed, hlen⟩, h⟩ | ⟨_, hcheck, p, hp, ⟨⟨e, he, hshape⟩, rfl⟩ |
      ⟨hshape, name, hname, rfl⟩⟩)
    · obtain rfl := ServingError.validation.inj h
      exact .passedLength hpassed hlen
    · exact .listShaped hp he hshape
    · exact .unknownName hcheck hp hshape hname
  · intro h
    cases h with
    | passedLength hpassed hlen => exact .inl ⟨_, rfl, ⟨hpassed, hlen⟩, rfl⟩
    | listShaped hp he hshape =>
      have hcheck : call.check = .ok () := by
        cases call with
        | serveBatch => cases he
        | _ => rfl
      exact .inr ⟨(), hcheck, _, hp, .inl ⟨⟨_, he, hshape⟩, rfl⟩⟩
    | unknownName hcheck hp hshape hname =>
      exact .inr ⟨(), hcheck, _, hp, .inr ⟨hshape, _, hname, rfl⟩⟩

/-- **However a call ends**, it ends as invalid for the cause that its state refuses it with, and
for nothing else. -/
theorem invalid_iff_of_made {seen : List Store} {r : Except ClientError Answer}
    (h : Made s call seen r) :
    r = .error (.serving (.validation cause)) ↔ RefusedWith s call cause := by
  rw [← queries_invalid_iff]
  rcases h with ⟨e, hq, rfl⟩ | ⟨p, fetches, hq, h⟩
  · rw [hq]
    simp
  · refine iff_of_false ?_ (by rw [hq]; exact nofun)
    rcases h with ⟨answers, hanswers, rfl⟩ | ⟨limit, -, rfl⟩
    · intro h
      obtain ⟨e, herror, he⟩ := mapError_error_iff.1 h
      obtain rfl := ClientError.serving.inj he
      rcases bind_error_iff.1 herror with hgathered | ⟨results, -, hassemble⟩
      · obtain ⟨f, hf, t, hanswer⟩ := FanOut.exists_error_of_gathered hanswers hgathered
        exact Call.binds_ne_nil (queries_ok_iff.1 hq).2.2 f hf (Store.binds_of_answer hanswer)
      · obtain ⟨c, hc⟩ := call.data_of_assemble hassemble
        cases hc
    · exact nofun

end Serving

namespace Session

/-- **Input is checked exactly, and before anything else.** Let a client be set up, over a store in
any state and with or without a time limit. A serving command is answered with invalid input exactly
when its call is refused, and with the cause of that: the smallest unknown name of the first entry
that has any, unless passed features or the shape of an only entry come first. A call is refused
when it is malformed. Then the command leaves everything as it was; otherwise its queries are
prepared without any empty list of tuples. -/
theorem serve_refused_iff {w : World} {i : Installed} (hi : w.client.installed = some i)
    (call : Serving.Call) :
    (∀ cause, (runCommand w (.serve call)).2.result =
        some (.error (.client (.serving (.validation cause)))) ↔
      Serving.RefusedWith i.state call cause) ∧
    ((∃ cause, Serving.RefusedWith i.state call cause) ↔ Serving.Malformed i.state call) ∧
    (∀ cause, Serving.RefusedWith i.state call cause → runCommand w (.serve call) =
      (w, ⟨some (.error (.client (.serving (.validation cause)))), [], w.store⟩)) ∧
    ∀ p fetches, Serving.queries i.state call = .ok (p, fetches) →
      ∀ f ∈ fetches, f.binds ≠ .expanding [] := by
  have hrefused : ∀ cause, Serving.RefusedWith i.state call cause → runCommand w (.serve call) =
      (w, ⟨some (.error (.client (.serving (.validation cause)))), [], w.store⟩) :=
    fun cause h => runCommand_of_refused hi (Serving.queries_invalid_iff.2 h)
  refine ⟨fun cause => ⟨fun h => ?_, fun h => by rw [hrefused cause h]⟩,
    Serving.exists_refusedWith_iff, hrefused, fun p fetches hq =>
      Serving.Call.binds_ne_nil (Serving.queries_ok_iff.1 hq).2.2⟩
  obtain ⟨seen, r, hmade, hr⟩ := made_of_runCommand hi h
  obtain ⟨e, herror, he⟩ := mapError_error_iff.1 hr
  obtain rfl := Failure.client.inj he
  exact (Serving.invalid_iff_of_made hmade).1 (map_error_iff.1 herror)

end Session

/-! ### A batch with stray names -/

/-- An entry with two names that are no keys. -/
def strayEntry : Entry :=
  SortedMap.ofList [("shop", .text "a"), ("id", .int 1), ("city", .text "b")]

def saleState : ServingState where
  entity := saleRequest.entity
  external := false
  pool := {}
  store := .memory
  vector := ⟨⟨∅, saleLookups⟩, saleKeys, ⟨[]⟩, ⟨.memory, none⟩⟩
  helper := none

namespace Session

/-- The first entry is in order; the second is refused for its smaller unknown name. -/
theorem serve_refused_stray :
    runCommand (saleWorld saleState) (.serve (.vectors false [saleEntry 2, strayEntry])) =
      (saleWorld saleState,
        ⟨some (.error (.client (.serving (.validation (.unknownName "city" ["id"]))))), [],
          saleStore⟩) ∧
    Serving.Malformed saleState (.vectors false [saleEntry 2, strayEntry]) := by
  have hfirst : saleKeys.FirstUnknown [saleEntry 2, strayEntry] "city" :=
    ⟨[saleEntry 2], strayEntry, [], rfl,
      List.forall_mem_singleton.2 (KeyIndex.validateEntry_ok_iff.1 rfl),
      KeyIndex.find?_keys_eq_some_iff.1 (by decide)⟩
  have hrefused : Serving.RefusedWith saleState (.vectors false [saleEntry 2, strayEntry])
      (.unknownName "city" ["id"]) :=
    .unknownName (p := saleState.vector) rfl rfl (fun _ he => by cases he) hfirst
  obtain ⟨-, hmalformed, hnothing, -⟩ := serve_refused_iff (w := saleWorld saleState)
    (i := ⟨0, saleState⟩) rfl (.vectors false [saleEntry 2, strayEntry])
  exact ⟨hnothing _ hrefused, hmalformed.1 ⟨_, hrefused⟩⟩

end Session

end FeatureServing
