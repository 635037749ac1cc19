import FeatureServing.Proofs.FaithfulText
import FeatureServing.Registry

/-!
# The text of a preview

A preview is the query in front of its key filter with a limit behind it:

* `Lookup.IsFirst` : the text in front of the first place where a word stands;
  `Lookup.before?_eq_some_iff`, `Lookup.before?_eq_none_iff` : the search for it;
* `Query.ahead` : the text ahead of the first placeholder, `Query.ahead_of_reads` by the grammar;
* `Lookup.unfiltered?_of_tokens` : the key filter is looked for there and nowhere else;
* `Lookup.not_infix_limited` : no second filter comes up where the limit is put;
* `Lookup.preview_cuts` : which lookups have previews, and what these are.
-/

namespace FeatureServing

open Query

namespace Query

/-! ## The text ahead of the placeholders -/

/-- The characters in front of the first placeholder. -/
def ahead : List (Option Char) → List Char
  | some c :: ms => c :: ahead ms
  | _ => []

theorem ahead_map_some_append (cs : List Char) (ms : List (Option Char)) :
    ahead (cs.map some ++ ms) = cs ++ ahead ms := by
  induction cs with
  | nil => rfl
  | cons c cs ih => exact congrArg (c :: ·) ih

/-- What stands ahead of the first placeholder are the elements in front of it. -/
theorem ahead_flatMap_marks (es : List Element) :
    ahead (es.flatMap Element.marks) =
      (es.takeWhile (· ≠ .placeholder)).flatMap Element.spelling := by
  induction es with
  | nil => rfl
  | cons e es ih =>
    by_cases he : e = .placeholder
    · subst he
      rfl
    · have hmarks : e.marks = e.spelling.map some := by
        cases e with
        | placeholder => exact absurd rfl he
        | _ => rfl
      rw [List.flatMap_cons, hmarks, ahead_map_some_append, ih,
        List.takeWhile_cons_of_pos (by simpa using he), List.flatMap_cons]

theorem ahead_of_reads {cs : List Char} {es : List Element} (h : Reads cs es) :
    ahead (marks .code cs) = (es.takeWhile (· ≠ .placeholder)).flatMap Element.spelling := by
  rw [marks_of_reads h, ahead_flatMap_marks]

theorem ahead_prefix (ms : List (Option Char)) : ahead ms <+: spelled ms := by
  induction ms with
  | nil => exact List.nil_prefix
  | cons m ms ih =>
    cases m with
    | none => exact List.nil_prefix
    | some c => exact List.cons_prefix_cons.2 ⟨rfl, ih⟩

end Query

namespace Lookup

variable {word cs head : List Char} {limit : Nat} {l l' : Lookup} {s : PreparedStatement}

/-! ## The first place of a word -/

/-- Whether some text stands in front of the first place where a word stands. -/
def IsFirst (word cs head : List Char) : Prop :=
  head ++ word <+: cs ∧ ∀ other, other ++ word <+: cs → head.length ≤ other.length

theorem IsFirst.unique {head' : List Char} (h : IsFirst word cs head)
    (h' : IsFirst word cs head') : head = head' := by
  have hlen : head.length = head'.length :=
    Nat.le_antisymm (h.2 head' h'.1) (h'.2 head h.1)
  have hpre : head <+: cs := (List.prefix_append head word).trans h.1
  have hpre' : head' <+: cs := (List.prefix_append head' word).trans h'.1
  exact (List.prefix_of_prefix_length_le hpre hpre' hlen.le).eq_of_length hlen

theorem IsFirst.of_prefix {front : List Char} (h : IsFirst word front head) (hfront : front <+: cs) :
    IsFirst word cs head := by
  refine ⟨h.1.trans hfront, fun other hother => ?_⟩
  rcases Nat.le_total head.length other.length with hle | hle
  · exact hle
  · have hlen : (other ++ word).length ≤ front.length := by
      have hhead := h.1.length_le
      rw [List.length_append] at hhead ⊢
      omega
    exact h.2 other (List.prefix_of_prefix_length_le hother hfront hlen)

theorem before?_eq_none_iff : before? word cs = none ↔ ¬ word <:+: cs := by
  induction cs with
  | nil =>
    unfold before?
    simp
  | cons c cs ih =>
    unfold before?
    rw [List.infix_cons_iff, not_or, ← ih]
    split
    · next hprefix => simp [List.isPrefixOf_iff_prefix.1 hprefix]
    · next hprefix => simp [mt List.isPrefixOf_iff_prefix.2 hprefix]

theorem isFirst_of_before? (h : before? word cs = some head) : IsFirst word cs head := by
  induction cs generalizing head with
  | nil =>
    obtain ⟨back, hback⟩ := before?_eq_some h
    obtain ⟨rfl, rfl, -⟩ : head = [] ∧ word = [] ∧ back = [] := by simpa using hback.symm
    exact ⟨List.nil_prefix, fun _ _ => Nat.zero_le _⟩
  | cons c cs ih =>
    unfold before? at h
    split at h
    · next hprefix =>
      obtain rfl := Option.some.inj h
      exact ⟨List.isPrefixOf_iff_prefix.1 hprefix, fun _ _ => Nat.zero_le _⟩
    · next hprefix =>
      obtain ⟨head', hhead', rfl⟩ := Option.map_eq_some_iff.1 h
      obtain ⟨hat, hfirst⟩ := ih hhead'
      refine ⟨List.cons_prefix_cons.2 ⟨rfl, hat⟩, fun other hother => ?_⟩
      cases other with
      | nil => exact absurd (List.isPrefixOf_iff_prefix.2 hother) hprefix
      | cons d other => exact Nat.succ_le_succ (hfirst other (List.cons_prefix_cons.1 hother).2)

/-- **The search finds the first place of a word.** -/
theorem before?_eq_some_iff : before? word cs = some head ↔ IsFirst word cs head := by
  refine ⟨isFirst_of_before?, fun h => ?_⟩
  cases hbefore : before? word cs with
  | none =>
    obtain ⟨back, hback⟩ := h.1
    exact absurd ⟨head, back, hback⟩ (before?_eq_none_iff.1 hbefore)
  | some head' => rw [(isFirst_of_before? hbefore).unique h]

theorem exists_before?_iff : (∃ head, before? word cs = some head) ↔ word <:+: cs := by
  rw [← not_iff_not, ← before?_eq_none_iff, Option.eq_none_iff_forall_ne_some, not_exists]

/-! ## The place of the key filter -/

/-- **The key filter is looked for ahead of the placeholders.** Texts of a query are as long as they
can be, so all text that is ahead is in the first segment. -/
theorem unfiltered?_of_tokens {query : String} {segments : List Segment}
    (h : segments.map Segment.token = tokens query) :
    unfiltered? segments = before? filterMark.toList (ahead (marks .code query.toList)) := by
  have hchain := isChain_tokens query
  rw [← flatMap_marks_tokens, ← h, List.flatMap_map]
  rw [← h] at hchain
  cases segments with
  | nil => rfl
  | cons g rest =>
    cases g with
    | parameter | expanding => rfl
    | text t =>
      -- what comes next is no text, so nothing is looked for there
      have hrest : unfiltered? rest = none ∧
          ahead (rest.flatMap fun g => g.token.marks) = [] := by
        cases rest with
        | nil => exact ⟨rfl, rfl⟩
        | cons g' rest =>
          cases g' with
          | parameter | expanding => exact ⟨rfl, rfl⟩
          | text t' =>
            rw [List.map_cons, List.map_cons, List.isChain_cons_cons] at hchain
            rcases hchain.1 with htoken | htoken <;> cases htoken
      have htext : (Segment.text t).token.marks = t.toList.map some := rfl
      rw [List.flatMap_cons, htext, ahead_map_some_append, hrest.2, List.append_nil, unfiltered?,
        hrest.1]
      cases before? filterMark.toList t.toList <;> rfl

/-! ## Previews -/

theorem preview_error_iff {e : ServingError} : l.preview limit = .error e ↔
    unfiltered? l.segments = none ∧ e = .configuration (.noKeyFilter l.position) := by
  unfold preview
  cases unfiltered? l.segments <;> simp [eq_comm]

theorem render_limited (l : Lookup) (head : List Char) (limit : Nat) (style : PlaceholderStyle)
    (b : Binds) : (l.limited head limit).render style b =
      .ok ⟨String.ofList head ++ limitClause limit, []⟩ := by
  have hjoin : String.join [String.ofList head ++ limitClause limit] =
      String.ofList head ++ limitClause limit :=
    String.toList_injective (by rw [String.toList_join]; simp)
  have hpieces : (l.limited head limit).pieces b =
      .ok [.text (String.ofList head ++ limitClause limit)] := rfl
  rw [render, hpieces]
  show Except.ok (RenderedQuery.mk (String.join [_]) []) = _
  rw [hjoin]

theorem template_limited (l : Lookup) (head : List Char) (limit : Nat) :
    (l.limited head limit).template = String.ofList head ++ limitClause limit :=
  String.toList_injective (by rw [template, String.toList_join]; simp [limited, Segment.template])

/-- **No key filter comes up at the cut.** Where the limit begins, the filter began before, so that
of a second one no more than the last blank could be behind the cut. -/
theorem not_infix_limited (h : IsFirst filterMark.toList cs head) (limit : Nat) :
    ¬ filterMark.toList <:+: head ++ (limitClause limit).toList := by
  rintro ⟨other, back, hback⟩
  have hother : other ++ filterMark.toList <+: head ++ (limitClause limit).toList := ⟨back, hback⟩
  have hclause : 'E' ∉ (limitClause limit).toList := by
    rw [toList_limitClause, List.mem_append, not_or]
    exact ⟨by decide, fun hd => absurd (Text.isDigit_of_mem_decimalDigits hd) (by decide)⟩
  have hend : other.length + 5 < head.length := by
    by_contra hlt
    have hat : (head ++ (limitClause limit).toList)[other.length + 5]? = some 'E' := by
      rw [← hback, List.append_assoc, List.getElem?_append_right (by omega), Nat.add_sub_cancel_left]
      rfl
    rw [List.getElem?_append_right (by omega)] at hat
    exact hclause (List.mem_of_getElem? hat)
  have hcut : head ++ [' '] <+: head ++ (limitClause limit).toList := by
    rw [toList_limitClause]
    exact List.prefix_append_right_inj head |>.2 ⟨_, rfl⟩
  have hlen : (other ++ filterMark.toList).length ≤ (head ++ [' ']).length := by
    have hmark : filterMark.toList.length = 7 := by decide
    rw [List.length_append, List.length_append, hmark, List.length_singleton]
    omega
  have hword : head ++ [' '] <+: head ++ filterMark.toList :=
    List.prefix_append_right_inj head |>.2 ⟨_, rfl⟩
  have hsecond : other ++ filterMark.toList <+: cs :=
    ((List.prefix_of_prefix_length_le hother hcut hlen).trans hword).trans h.1
  have hfirst := h.2 other hsecond
  omega

theorem preview_limited (l : Lookup) (h : IsFirst filterMark.toList cs head) (limit limit' : Nat) :
    (l.limited head limit).preview limit' = .error (.configuration (.noKeyFilter l.position)) := by
  refine preview_error_iff.2 ⟨?_, rfl⟩
  have hnone : before? filterMark.toList (String.ofList head ++ limitClause limit).toList = none := by
    rw [before?_eq_none_iff, String.toList_append, String.toList_ofList]
    exact not_infix_limited h limit
  unfold limited
  rw [unfiltered?, hnone]
  rfl

/-- The previews of compiled lookups, by the key filter ahead of the placeholders. -/
theorem preview_of_compile (h : single s = .ok l ∨ batch s = .ok l) :
    l.preview limit = .ok l' ↔ ∃ head,
      IsFirst filterMark.toList (ahead (marks .code s.query.toList)) head ∧
        l' = l.limited head limit := by
  rw [preview_ok_iff, unfiltered?_of_tokens (tokens_of_compile h).2]
  simp only [before?_eq_some_iff]

theorem isFirst_of_ahead (h : IsFirst word (ahead (marks .code cs)) head) : IsFirst word cs head := by
  refine h.of_prefix ?_
  have hprefix := ahead_prefix (marks .code cs)
  rwa [spelled_marks] at hprefix

end Lookup

namespace Registry

variable {r : Registry} {limit : Nat} {ps : List (Position × Lookup)}

theorem previews_ok_iff : r.previews limit = .ok ps ↔
    List.Forall₂ (fun e p => p.1 = e.1 ∧ e.2.preview limit = .ok p.2) r.single.entries ps := by
  unfold previews
  rw [mapM_ok_iff]
  simp only [map_ok_iff, Prod.ext_iff]
  constructor <;> intro h <;> refine h.imp fun e p hp => ?_
  · obtain ⟨l, hl, hfst, rfl⟩ := hp
    exact ⟨hfst.symm, hl⟩
  · exact ⟨p.2, hp.2, hp.1.symm, rfl⟩

theorem exists_previews_ok_iff : (∃ ps, r.previews limit = .ok ps) ↔
    ∀ j l, r.single.get? j = some l → ∃ l', l.preview limit = .ok l' := by
  unfold previews
  rw [exists_mapM_ok_iff]
  simp only [exists_map_ok_iff, Prod.forall, SortedMap.mem_entries_iff]

theorem positions_of_previews (h : r.previews limit = .ok ps) : ps.map (·.1) = r.positions := by
  rw [previews_ok_iff] at h
  unfold positions SortedMap.keys
  generalize r.single.entries = es at h
  induction h with
  | nil => rfl
  | cons he _ ih => rw [List.map_cons, List.map_cons, he.1, ih]

end Registry

namespace Lookup

/-- **A preview cuts the key filter off.** A lookup compiled from a query has a preview if and only if
the word of the key filter stands ahead of the first placeholder of the query. The text of the preview
is then the query in front of the first such place, with the limit behind it; it has no parameters and
renders to its text under all binds, and it has no preview itself. A registry has previews exactly
when all its single lookups have them, and they are the previews of these, at the same positions. -/
theorem preview_cuts (limit : Nat) :
    (∀ (s : PreparedStatement) (l : Lookup), (single s = .ok l ∨ batch s = .ok l) →
      ∃ es, Reads s.query.toList es ∧
        ((∃ l', l.preview limit = .ok l') ↔
          filterMark.toList <:+: (es.takeWhile (· ≠ .placeholder)).flatMap Element.spelling) ∧
        ∀ l', l.preview limit = .ok l' →
          ∃ head, IsFirst filterMark.toList s.query.toList head ∧
            l'.template = String.ofList head ++ " LIMIT " ++ Text.decimal limit ∧
            l'.parameters = [] ∧ l'.position = s.position ∧ l'.form = .preview ∧
            (∀ style b, l'.render style b = .ok ⟨l'.template, []⟩) ∧
            ∀ limit', l'.preview limit' = .error (.configuration (.noKeyFilter s.position))) ∧
    ∀ r : Registry, ((∃ ps, r.previews limit = .ok ps) ↔
        ∀ j l, r.single.get? j = some l → ∃ l', l.preview limit = .ok l') ∧
      ∀ ps, r.previews limit = .ok ps → ps.map (·.1) = r.positions ∧
        List.Forall₂ (fun e p => p.1 = e.1 ∧ e.2.preview limit = .ok p.2) r.single.entries ps := by
  refine ⟨fun s l h => ?_, fun r => ⟨Registry.exists_previews_ok_iff, fun ps hps =>
    ⟨Registry.positions_of_previews hps, Registry.previews_ok_iff.1 hps⟩⟩⟩
  obtain ⟨es, hes⟩ := exists_reads s.query.toList
  obtain ⟨hposition, -⟩ := tokens_of_compile h
  refine ⟨es, hes, ?_, fun l' hl' => ?_⟩
  · simp only [preview_of_compile h]
    rw [exists_comm, ← ahead_of_reads hes, ← exists_before?_iff]
    simp only [exists_and_left, exists_eq, and_true, before?_eq_some_iff]
  · obtain ⟨head, hhead, rfl⟩ := (preview_of_compile h).1 hl'
    have hfirst := isFirst_of_ahead hhead
    refine ⟨head, hfirst, ?_, rfl, hposition, rfl, fun style b => ?_, fun limit' => ?_⟩
    · rw [template_limited, String.append_assoc]
      rfl
    · rw [render_limited, template_limited]
    · rw [preview_limited l hfirst, hposition]

/-! ### Two words of a filter -/

/-- The first filter is cut off with the second one. -/
def filteredStatement : PreparedStatement where
  group := none
  position := 4
  parameters := [⟨"id", 0⟩]
  query := "SELECT a FROM t WHERE b WHERE id IN ?"
  keyPrefix := none

theorem preview_cuts_filtered :
    ∃ l l', batch filteredStatement = .ok l ∧ l.preview 5 = .ok l' ∧
      l'.template = "SELECT a FROM t LIMIT 5" ∧
      l'.render .numbered (.named ∅) = .ok ⟨"SELECT a FROM t LIMIT 5", []⟩ ∧
      l'.preview 6 = .error (.configuration (.noKeyFilter 4)) ∧
      ∃ ps, (⟨.ofList [(4, l)], ∅⟩ : Registry).previews 5 = .ok ps ∧ ps.map (·.1) = [4] := by
  obtain ⟨hcut, hregistry⟩ := preview_cuts 5
  obtain ⟨l, hl⟩ : ∃ l, batch filteredStatement = .ok l :=
    exists_batch_iff.2 ⟨by decide, by decide +kernel, by decide +kernel⟩
  obtain ⟨es, -, -, hpreview⟩ := hcut filteredStatement l (.inr hl)
  obtain ⟨l', hl', htext⟩ :
      ∃ l', l.preview 5 = .ok l' ∧ l'.template = "SELECT a FROM t LIMIT 5" := by
    obtain ⟨-, -, rfl⟩ := batch_ok_iff.1 hl
    exact ⟨_, rfl, rfl⟩
  obtain ⟨head, -, -, -, -, -, hrender, hagain⟩ := hpreview l' hl'
  obtain ⟨hsome, hpositions⟩ := hregistry ⟨.ofList [(4, l)], ∅⟩
  obtain ⟨ps, hps⟩ := hsome.2 fun j k hk => by
    obtain ⟨-, rfl⟩ := Prod.mk.inj (List.mem_singleton.1 (SortedMap.mem_entries_iff.2 hk))
    exact ⟨l', hl'⟩
  refine ⟨l, l', hl, hl', htext, ?_, hagain 6, ps, hps, (hpositions ps hps).1⟩
  rw [hrender, htext]

end Lookup

end FeatureServing
