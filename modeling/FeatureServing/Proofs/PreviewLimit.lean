import FeatureServing.Proofs.PreviewText

/-!
# Where the limit of a preview stands

The key filter is found by its word alone, wherever that stands. Whether the limit behind the cut is
code is settled by the blank that the query is cut in front of:

* `Query.Inert` : characters that no element looks out for; `Query.reads_inert_iff`, they are code
  wherever code is read;
* `Query.IsCode` : some characters behind the front of a query are code, each by itself;
  `Query.isCode_congr`, this does not depend on what comes behind the front, if a blank comes first;
* `Query.EndsOpen` : an element that nothing closes, with some characters at its end;
* `Query.reads_cut` : a query that is cut in front of a blank is cut between two elements, or what is
  put behind it is inside an open one;
* `Lookup.limit_is_code` : the limit of a preview is code exactly when the filter of the query is.
-/

namespace FeatureServing

namespace Query

variable {front back cs more : List Char} {e : Element} {es before after : List Element} {q : Char}

/-! ## Readings in parts -/

theorem reads_append (h : Reads cs (before ++ after)) :
    ∃ rest, cs = before.flatMap Element.spelling ++ rest ∧ Reads rest after := by
  induction before generalizing cs with
  | nil => exact ⟨cs, rfl, h⟩
  | cons e before ih =>
    cases h with
    | @cons _ next _ _ he hes =>
      obtain ⟨rest, rfl, hrest⟩ := ih hes
      refine ⟨rest, ?_, hrest⟩
      rw [spelling_of_begins he, List.flatMap_cons, List.append_assoc]

/-- What an element is does not depend on what comes behind the next blank. -/
theorem begins_blank (h : Begins cs e (front ++ ' ' :: back)) (more : List Char) :
    Begins (e.spelling ++ (front ++ ' ' :: more)) e (front ++ ' ' :: more) := by
  refine begins_congr h (fun c _ hhead => ?_) fun hnil => by simp at hnil
  rw [List.head?_append] at hhead ⊢
  exact hhead

/-! ## Inert characters -/

/-- The characters that some element begins or ends with, or looks out for. -/
def specialCharacters : List Char :=
  ['?', '\x27', '\x22', '\x60', '-', '/', '*', '\n', '\x5c']

/-- Characters that no element looks out for. -/
def Inert (cs : List Char) : Prop :=
  ∀ c ∈ cs, c ∉ specialCharacters

instance (cs : List Char) : Decidable (Inert cs) :=
  List.decidableBAll (· ∉ specialCharacters) cs

theorem not_mem_special {c : Char} (h : c ∉ specialCharacters) :
    c ≠ '?' ∧ c ∉ quotes ∧ c ≠ '-' ∧ c ≠ '/' ∧ c ≠ '*' ∧ c ≠ '\n' ∧ c ≠ '\x5c' := by
  simp only [specialCharacters, quotes, List.mem_cons, List.not_mem_nil, or_false, not_or] at h ⊢
  simp [h]

/-- **Inert characters are code**, each by itself, whatever comes behind them. -/
theorem reads_inert_iff (hcs : Inert cs) : Reads (cs ++ more) es ↔
    ∃ es', es = cs.map .code ++ es' ∧ Reads more es' := by
  induction cs generalizing es with
  | nil => simp
  | cons c cs ih =>
    obtain ⟨hc, hrest⟩ := List.forall_mem_cons.1 hcs
    obtain ⟨hmark, hquote, hdash, hslash, -⟩ := not_mem_special hc
    constructor
    · intro h
      cases h with
      | cons he hes =>
        obtain ⟨rfl, rfl⟩ := begins_code he hmark hquote (fun h => hdash h.1) fun h => hslash h.1
        obtain ⟨es', rfl, hmore⟩ := (ih hrest).1 hes
        exact ⟨es', rfl, hmore⟩
    · rintro ⟨es', rfl, hmore⟩
      exact .cons (.code hmark hquote (fun h => absurd h hdash) fun h => absurd h hslash)
        ((ih hrest).2 ⟨es', rfl, hmore⟩)

/-- Whether some characters behind the front of what is read are code, each by itself. -/
def IsCode (front word : List Char) (es : List Element) : Prop :=
  ∃ before after, es = before ++ word.map .code ++ after ∧
    before.flatMap Element.spelling = front

/-- Elements in front of a blank stay as they are when other text comes behind the blank. -/
theorem reads_before_blank (h : Reads (before.flatMap Element.spelling ++ ' ' :: back)
    (before ++ after)) {es' : List Element} (hmore : Reads (' ' :: more) es') :
    Reads (before.flatMap Element.spelling ++ ' ' :: more) (before ++ es') := by
  induction before with
  | nil => exact hmore
  | cons e before ih =>
    rw [List.flatMap_cons, List.append_assoc] at h ⊢
    generalize hcs : e.spelling ++ _ = cs at h
    cases h with
    | cons he hes =>
      obtain rfl := List.append_cancel_left (hcs.trans (spelling_of_begins he))
      exact .cons (begins_blank he more) (ih hes)

/-- **Whether a word is code** depends on the text in front of it alone, if it begins with a blank. -/
theorem isCode_congr {word word' : List Char} {es' : List Element} (hword : Inert (' ' :: word))
    (hword' : Inert (' ' :: word')) (h : Reads (front ++ ' ' :: word ++ back) es)
    (h' : Reads (front ++ ' ' :: word' ++ more) es') :
    IsCode front (' ' :: word) es ↔ IsCode front (' ' :: word') es' := by
  have hone : ∀ {word word' back more : List Char} {es es' : List Element},
      Inert (' ' :: word') → Reads (front ++ ' ' :: word ++ back) es →
      Reads (front ++ ' ' :: word' ++ more) es' →
      IsCode front (' ' :: word) es → IsCode front (' ' :: word') es' := by
    rintro word word' back more es es' hword' h h' ⟨before, after, rfl, rfl⟩
    rw [List.append_assoc] at h h'
    rw [List.append_assoc] at h
    obtain ⟨es'', hmore⟩ := exists_reads more
    have hother := reads_before_blank h ((reads_inert_iff hword').2 ⟨es'', rfl, hmore⟩)
    exact ⟨before, es'', (reads_unique h' hother).trans (List.append_assoc ..).symm, rfl⟩
  exact ⟨hone hword' h h', hone hword h' h⟩

/-! ## Open elements -/

/-- Whether an element is open and ends with some characters. -/
inductive EndsOpen (tail : List Char) : Element → Prop
  | literal (q : Char) (inside : List Char) : EndsOpen tail (.openLiteral q (inside ++ tail))
  | lineComment (inside : List Char) : EndsOpen tail (.openLineComment (inside ++ tail))
  | blockComment (inside : List Char) : EndsOpen tail (.openBlockComment (inside ++ tail))

/-- Whether nothing closes an element. -/
def Element.isOpen : Element → Bool
  | openLiteral _ _ | openLineComment _ | openBlockComment _ => true
  | _ => false

theorem EndsOpen.isOpen {tail : List Char} (h : EndsOpen tail e) : e.isOpen = true := by
  cases h <;> rfl

theorem eq_nil_of_isOpen {rest : List Char} (h : Begins cs e rest) (he : e.isOpen = true) :
    rest = [] := by
  cases h with
  | openLiteral | openLineComment | openBlockComment => rfl
  | _ => cases he

theorem isOpen_eq_false_of_reads (h : Reads cs (before ++ e :: after)) :
    ∀ o ∈ before, o.isOpen = false := by
  induction before generalizing cs with
  | nil => nofun
  | cons o before ih =>
    cases h with
    | cons ho hes =>
      refine List.forall_mem_cons.2 ⟨Bool.eq_false_iff.2 fun hopen => ?_, ih hes⟩
      obtain rfl := eq_nil_of_isOpen ho hopen
      obtain ⟨rest, hrest, he⟩ := reads_append hes
      obtain ⟨-, rfl⟩ := List.append_eq_nil_iff.1 hrest.symm
      cases he with
      | cons he => cases he

/-! ## A blank inside an element -/

theorem blank_cases {text rest : List Char} (h : front ++ ' ' :: back = text ++ rest) :
    (∃ mid, front = text ++ mid ∧ rest = mid ++ ' ' :: back) ∨
      ∃ tail, text = front ++ ' ' :: tail := by
  rcases List.append_eq_append_iff.1 h with ⟨mid, htext, hback⟩ | ⟨mid, hfront, hrest⟩
  · cases mid with
    | nil => exact .inl ⟨[], by simpa using htext.symm, hback.symm⟩
    | cons c mid =>
      obtain ⟨rfl, -⟩ := List.cons.inj hback
      exact .inr ⟨mid, htext⟩
  · exact .inl ⟨mid, hfront, hrest⟩

theorem blank_behind {opening inside : List Char} (hopening : ' ' ∉ opening)
    (h : front ++ ' ' :: back = opening ++ inside) :
    ∃ mid, front = opening ++ mid ∧ inside = mid ++ ' ' :: back := by
  refine (blank_cases h).resolve_right ?_
  rintro ⟨tail, rfl⟩
  exact hopening (List.mem_append_right _ List.mem_cons_self)

theorem blank_ahead {inside closing : List Char} (hclosing : ' ' ∉ closing)
    (h : front ++ ' ' :: back = inside ++ closing) : ∃ tail, inside = front ++ ' ' :: tail := by
  refine (blank_cases h).resolve_left ?_
  rintro ⟨mid, -, rfl⟩
  exact hclosing (List.mem_append_right _ List.mem_cons_self)

theorem inside_of_inert (hq : q ∈ quotes) (h : Inert cs) : Inside q cs := by
  induction cs with
  | nil => exact .nil
  | cons c cs ih =>
    obtain ⟨hc, hcs⟩ := List.forall_mem_cons.1 h
    obtain ⟨-, hquote, -, -, -, -, hslash⟩ := not_mem_special hc
    refine .plain ?_ (fun h => absurd h hslash) (ih hcs)
    rintro rfl
    exact hquote hq

theorem inside_cut (hq : q ∈ quotes) (hmore : Inert more) {inside mid tail : List Char}
    (h : Inside q inside) (heq : inside = mid ++ ' ' :: tail) : Inside q (mid ++ ' ' :: more) := by
  have hblank : q ≠ ' ' := by
    rintro rfl
    exact absurd hq (by decide)
  have hrest : Inside q more := inside_of_inert hq hmore
  induction h generalizing mid with
  | nil => simp at heq
  | escaped hesc _ ih =>
    match mid, heq with
    | [], heq => simp at heq
    | [c], heq =>
      obtain ⟨rfl, rfl, -⟩ : '\x5c' = c ∧ _ = ' ' ∧ _ := by simpa using heq
      exact .escaped hesc hrest
    | c :: d :: mid, heq =>
      obtain ⟨rfl, rfl, hcs⟩ : '\x5c' = c ∧ _ = d ∧ _ := by simpa using heq
      exact .escaped hesc (ih hcs)
  | doubled _ ih =>
    match mid, heq with
    | [], heq => exact absurd (List.cons.inj heq).1 hblank
    | [c], heq => exact absurd (List.cons.inj (List.cons.inj heq).2).1 hblank
    | c :: d :: mid, heq =>
      obtain ⟨rfl, rfl, hcs⟩ : q = c ∧ q = d ∧ _ := by simpa using heq
      exact .doubled (ih hcs)
  | plain hquote hplain _ ih =>
    cases mid with
    | nil =>
      obtain ⟨rfl, -⟩ := List.cons.inj heq
      exact .plain hquote hplain hrest
    | cons c mid =>
      obtain ⟨rfl, hcs⟩ := List.cons.inj heq
      exact .plain hquote hplain (ih hcs)

theorem not_newline_of_cut (hmore : Inert more) {mid tail : List Char}
    (h : '\n' ∉ mid ++ ' ' :: tail) : '\n' ∉ mid ++ ' ' :: more := by
  have hmid : '\n' ∉ mid := fun hmem => h (List.mem_append_left _ hmem)
  rw [List.mem_append, List.mem_cons, not_or, not_or]
  exact ⟨hmid, by decide, fun hmem => absurd (hmore _ hmem) (by decide)⟩

theorem not_end_of_cut (hmore : Inert more) {mid tail : List Char}
    (h : ¬ ['*', '/'] <:+: mid ++ ' ' :: tail) : ¬ ['*', '/'] <:+: mid ++ ' ' :: more := by
  rintro ⟨left, right, heq⟩
  rw [List.append_assoc] at heq
  rcases List.append_eq_append_iff.1 heq with ⟨rest, rfl, hrest⟩ | ⟨rest, rfl, hrest⟩
  · match rest, hrest with
    | [], hrest => simp at hrest
    | [c], hrest => simp at hrest
    | c :: d :: rest, hrest =>
      obtain ⟨rfl, rfl, -⟩ : '*' = c ∧ '/' = d ∧ _ := by simpa using hrest
      exact h ⟨left, rest ++ ' ' :: tail, by simp⟩
  · have hstar : '*' ∈ ' ' :: more := by
      rw [hrest]
      simp
    rcases List.mem_cons.1 hstar with hblank | hmem
    · exact absurd hblank (by decide)
    · exact absurd (hmore '*' hmem) (by decide)

/-- An element with a blank inside is open if it is cut there and goes on with inert characters. -/
theorem exists_open_of_begins {rest tail : List Char} (h : Begins cs e rest) (hfront : front ≠ [])
    (heq : e.spelling = front ++ ' ' :: tail) (hmore : Inert more) :
    ∃ o, EndsOpen (' ' :: more) o ∧ Begins (front ++ ' ' :: more) o [] := by
  have hshort : ∀ {c : Char}, [c] ≠ front ++ ' ' :: tail := by
    intro c hc
    have hlen := congrArg List.length hc
    have hpos := List.length_pos_iff.2 hfront
    simp only [List.length_cons, List.length_nil, List.length_append] at hlen
    omega
  have hquote : ∀ {q : Char}, q ∈ quotes → ' ' ∉ [q] := by
    intro q hq hmem
    obtain rfl := List.mem_singleton.1 hmem
    exact absurd hq (by decide)
  cases h with
  | placeholder => exact absurd heq hshort
  | code => exact absurd heq hshort
  | @literal q inside _ hq hinside hend =>
    have htext : front ++ ' ' :: tail = [q] ++ (inside ++ [q]) := heq.symm
    obtain ⟨mid, rfl, hmid⟩ := blank_behind (hquote hq) htext
    obtain ⟨tail', htail⟩ := blank_ahead (hquote hq) hmid.symm
    exact ⟨_, .literal q mid, .openLiteral hq (.inside (inside_cut hq hmore hinside htail))⟩
  | @openLiteral q inside hq hopen =>
    have htext : front ++ ' ' :: tail = [q] ++ inside := heq.symm
    obtain ⟨mid, rfl, hmid⟩ := blank_behind (hquote hq) htext
    refine ⟨_, .literal q mid, .openLiteral hq (.inside ?_)⟩
    cases hopen with
    | inside hinside => exact inside_cut hq hmore hinside hmid
    | escaping _ hinside =>
      obtain ⟨tail', htail⟩ := blank_ahead (by decide) hmid.symm
      exact inside_cut hq hmore hinside htail
  | @lineComment inside _ hinside =>
    have htext : front ++ ' ' :: tail = ['-', '-'] ++ (inside ++ ['\n']) := heq.symm
    obtain ⟨mid, rfl, hmid⟩ := blank_behind (by decide) htext
    obtain ⟨tail', rfl⟩ := blank_ahead (by decide) hmid.symm
    exact ⟨_, .lineComment mid, .openLineComment (not_newline_of_cut hmore hinside)⟩
  | @openLineComment inside hinside =>
    have htext : front ++ ' ' :: tail = ['-', '-'] ++ inside := heq.symm
    obtain ⟨mid, rfl, rfl⟩ := blank_behind (by decide) htext
    exact ⟨_, .lineComment mid, .openLineComment (not_newline_of_cut hmore hinside)⟩
  | @blockComment inside _ hinside =>
    have htext : front ++ ' ' :: tail = ['/', '*'] ++ (inside ++ ['*', '/']) := heq.symm
    obtain ⟨mid, rfl, hmid⟩ := blank_behind (by decide) htext
    obtain ⟨tail', rfl⟩ := blank_ahead (by decide) hmid.symm
    exact ⟨_, .blockComment mid, .openBlockComment (not_end_of_cut hmore hinside)⟩
  | @openBlockComment inside hinside =>
    have htext : front ++ ' ' :: tail = ['/', '*'] ++ inside := heq.symm
    obtain ⟨mid, rfl, rfl⟩ := blank_behind (by decide) htext
    exact ⟨_, .blockComment mid, .openBlockComment (not_end_of_cut hmore hinside)⟩

/-- **A query that is cut in front of a blank** is cut between two elements, or what is put behind the
cut belongs to an element that nothing closes. -/
theorem reads_cut (h : Reads (front ++ ' ' :: back) es) :
    (∃ before after, es = before ++ after ∧ before.flatMap Element.spelling = front ∧
      Reads (' ' :: back) after) ∨
    ∀ more, Inert more → ∃ before o, EndsOpen (' ' :: more) o ∧
      Reads (front ++ ' ' :: more) (before ++ [o]) := by
  generalize hcs : front ++ ' ' :: back = cs at h
  induction h generalizing front with
  | nil => simp at hcs
  | @cons cs rest e es he hes ih =>
    by_cases hfront : front = []
    · subst hfront hcs
      exact .inl ⟨[], e :: es, rfl, rfl, .cons he hes⟩
    rw [spelling_of_begins he] at hcs
    rcases blank_cases hcs with ⟨mid, rfl, rfl⟩ | ⟨tail, htail⟩
    · rcases ih rfl with ⟨before, after, rfl, rfl, hafter⟩ | hopen
      · exact .inl ⟨e :: before, after, rfl, rfl, hafter⟩
      · refine .inr fun more hmore => ?_
        obtain ⟨before, o, ho, hreads⟩ := hopen more hmore
        refine ⟨e :: before, o, ho, ?_⟩
        rw [List.append_assoc]
        exact .cons (begins_blank he more) hreads
    · refine .inr fun more hmore => ?_
      obtain ⟨o, ho, hbegins⟩ := exists_open_of_begins he hfront htail hmore
      exact ⟨[], o, ho, .cons hbegins .nil⟩

/-- What is put in the place of a word that is no code ends an open element. -/
theorem exists_endsOpen {word word' : List Char} {es' : List Element} (hword : Inert (' ' :: word))
    (hword' : Inert (' ' :: word')) (h : Reads (front ++ ' ' :: word ++ back) es)
    (h' : Reads (front ++ ' ' :: word') es') (hcode : ¬ IsCode front (' ' :: word) es) :
    ∃ before o, es' = before ++ [o] ∧ EndsOpen (' ' :: word') o := by
  rw [List.append_assoc] at h
  rcases reads_cut h with ⟨before, after, rfl, rfl, hafter⟩ | hcut
  · obtain ⟨after, rfl, -⟩ := (reads_inert_iff hword).1 hafter
    exact absurd ⟨before, after, (List.append_assoc ..).symm, rfl⟩ hcode
  · obtain ⟨before, o, ho, hreads⟩ := hcut word' (List.forall_mem_cons.1 hword').2
    exact ⟨before, o, reads_unique h' hreads, ho⟩

theorem isOpen_eq_false_of_isCode {c : Char} {word : List Char} (h : Reads (front ++ c :: word) es)
    (hcode : IsCode front (c :: word) es) : ∀ e ∈ es, e.isOpen = false := by
  obtain ⟨before, after, rfl, rfl⟩ := hcode
  have hspelling := spelling_of_reads h
  have hword : ((c :: word).map Element.code).flatMap Element.spelling = c :: word := by
    rw [List.flatMap_map]
    exact List.flatMap_singleton' _
  have hafter : after = [] := by
    rw [List.flatMap_append, List.flatMap_append, hword, List.append_right_eq_self] at hspelling
    cases after with
    | nil => rfl
    | cons e after => exact absurd (List.append_eq_nil_iff.1 hspelling).1 (spelling_ne_nil e)
  subst hafter
  rw [List.append_nil] at h ⊢
  intro e he
  rcases List.mem_append.1 he with hbefore | hmem
  · exact isOpen_eq_false_of_reads h e hbefore
  · obtain ⟨d, -, rfl⟩ := List.mem_map.1 hmem
    rfl

end Query

namespace Lookup

open Query

variable {limit : Nat} {l l' : Lookup} {s : PreparedStatement}

/-! ## The limit of a preview -/

theorem inert_filterMark : Inert filterMark.toList := by
  decide

theorem inert_limitClause (limit : Nat) : Inert (limitClause limit).toList := by
  intro c hc
  rw [toList_limitClause, List.mem_append] at hc
  rcases hc with hword | hdigit
  · have hinert : Inert " LIMIT ".toList := by decide
    exact hinert c hword
  · intro hspecial
    have hnone : (specialCharacters.all fun d => !Text.isDigit d) = true := rfl
    have hother := List.all_eq_true.1 hnone c hspecial
    rw [Text.isDigit_of_mem_decimalDigits hdigit] at hother
    cases hother

/-- **The limit of a preview is code exactly when the filter is** that the query is cut at, and then
nothing of the preview is open. If the filter is no code, all of the limit is inside a literal or a
comment that nothing closes. -/
theorem limit_is_code (h : single s = .ok l ∨ batch s = .ok l) (hl' : l.preview limit = .ok l') :
    ∃ head es es', IsFirst filterMark.toList s.query.toList head ∧ Reads s.query.toList es ∧
      Reads l'.template.toList es' ∧
      l'.template.toList = head ++ (limitClause limit).toList ∧
      (IsCode head (limitClause limit).toList es' ↔ IsCode head filterMark.toList es) ∧
      ((∀ e ∈ es', e.isOpen = false) ↔ IsCode head filterMark.toList es) ∧
      (¬ IsCode head filterMark.toList es →
        ∃ before e, es' = before ++ [e] ∧ EndsOpen (limitClause limit).toList e) := by
  obtain ⟨head, hhead, rfl⟩ := (preview_of_compile h).1 hl'
  have hfirst := isFirst_of_ahead hhead
  obtain ⟨es, hes⟩ := exists_reads s.query.toList
  obtain ⟨es', hes'⟩ := exists_reads (l.limited head limit).template.toList
  have htext : (l.limited head limit).template.toList = head ++ (limitClause limit).toList := by
    rw [template_limited, String.toList_append, String.toList_ofList]
  refine ⟨head, es, es', hfirst, hes, hes', htext, ?_⟩
  -- both words begin with the blank that the query is cut in front of
  obtain ⟨word, hword⟩ : ∃ word, (limitClause limit).toList = ' ' :: word :=
    ⟨_, toList_limitClause limit⟩
  have hinert := inert_limitClause limit
  rw [htext] at hes'
  rw [hword] at hinert hes' ⊢
  obtain ⟨back, hback⟩ := hfirst.1
  have hquery : Reads (head ++ filterMark.toList ++ back) es := hback.symm ▸ hes
  have hpreview : Reads (head ++ ' ' :: word ++ []) es' := by rwa [List.append_nil]
  have hsame : IsCode head (' ' :: word) es' ↔ IsCode head filterMark.toList es :=
    isCode_congr hinert inert_filterMark hpreview hquery
  have hopen := exists_endsOpen inert_filterMark hinert hquery hes'
  refine ⟨hsame, ⟨fun hclosed => ?_, fun hcode => ?_⟩, hopen⟩
  · by_contra hcode
    obtain ⟨before, e, rfl, he⟩ := hopen hcode
    exact absurd he.isOpen (Bool.eq_false_iff.1 (hclosed e List.mem_concat_self))
  · exact isOpen_eq_false_of_isCode hes' (hsame.2 hcode)

/-! ### A word in quotes -/

/-- The statement of one parameter. -/
def statementOf (query : String) : PreparedStatement where
  group := none
  position := 0
  parameters := [⟨"id", 0⟩]
  query := query
  keyPrefix := none

/-- Behind a literal that is closed the limit is code. -/
theorem limit_is_code_quoted :
    ∃ l l' es', single (statementOf "SELECT 'it''s' FROM t WHERE id = ?") = .ok l ∧
      l.preview 3 = .ok l' ∧ l'.template.toList = "SELECT 'it''s' FROM t LIMIT 3".toList ∧
      Reads l'.template.toList es' ∧ (∀ e ∈ es', e.isOpen = false) ∧
      IsCode "SELECT 'it''s' FROM t".toList (limitClause 3).toList es' := by
  obtain ⟨l, hl⟩ : ∃ l, single (statementOf "SELECT 'it''s' FROM t WHERE id = ?") = .ok l :=
    exists_single_iff.2 ⟨by decide, by decide +kernel, by decide +kernel⟩
  have hat : before? filterMark.toList "SELECT 'it''s' FROM t WHERE id = ?".toList =
      some "SELECT 'it''s' FROM t".toList := by decide +kernel
  have hahead : before? filterMark.toList
      (ahead (marks .code "SELECT 'it''s' FROM t WHERE id = ?".toList)) =
      some "SELECT 'it''s' FROM t".toList := by decide +kernel
  have hl' : l.preview 3 = .ok (l.limited "SELECT 'it''s' FROM t".toList 3) :=
    (preview_of_compile (.inl hl)).2 ⟨_, before?_eq_some_iff.1 hahead, rfl⟩
  obtain ⟨head, es, es', hfirst, hes, hes', htext, hsame, hopen, -⟩ := limit_is_code (.inl hl) hl'
  obtain rfl := hfirst.unique (before?_eq_some_iff.1 hat)
  have hselect : Inert "SELECT ".toList := by decide
  have hfrom : Inert " FROM t WHERE id = ".toList := by decide
  have hinside : Inside '\x27' ['i', 't', '\x27', '\x27', 's'] :=
    .plain (by decide) (by decide) (.plain (by decide) (by decide)
      (.doubled (inside_of_inert (by decide) (by decide : Inert ['s']))))
  have hquery : "SELECT 'it''s' FROM t WHERE id = ?".toList =
      "SELECT ".toList ++ '\x27' :: (['i', 't', '\x27', '\x27', 's'] ++ '\x27' ::
        (" FROM t WHERE id = ".toList ++ ['?'])) := by decide +kernel
  have hread : Reads "SELECT 'it''s' FROM t WHERE id = ?".toList
      ("SELECT ".toList.map .code ++ (.literal '\x27' ['i', 't', '\x27', '\x27', 's'] ::
        (" FROM t WHERE id = ".toList.map .code ++ [.placeholder]))) := by
    rw [hquery]
    exact (reads_inert_iff hselect).2 ⟨_, rfl, .cons (.literal (by decide) hinside (by decide +kernel))
      ((reads_inert_iff hfrom).2 ⟨_, rfl, .cons (.placeholder []) .nil⟩)⟩
  have hcode : IsCode "SELECT 'it''s' FROM t".toList filterMark.toList es := by
    rw [reads_unique hes hread]
    exact ⟨"SELECT ".toList.map .code ++ .literal '\x27' ['i', 't', '\x27', '\x27', 's'] ::
      " FROM t".toList.map .code, "id = ".toList.map .code ++ [.placeholder], by decide +kernel,
      by decide +kernel⟩
  exact ⟨l, _, es', hl, hl', htext.trans (by decide +kernel), hes', hopen.2 hcode, hsame.2 hcode⟩

/-- **The limit of a preview can be text.** The word of a key filter in quotes ends the preview, and
the literal that is open there takes the limit in. -/
theorem limit_in_literal :
    ∃ l l' es', single (statementOf "SELECT ' WHERE ' FROM t WHERE id = ?") = .ok l ∧
      l.preview 10 = .ok l' ∧ l'.template = "SELECT ' LIMIT 10" ∧ Reads l'.template.toList es' ∧
      .openLiteral '\x27' " LIMIT 10".toList ∈ es' ∧
      ¬ IsCode "SELECT '".toList (limitClause 10).toList es' := by
  obtain ⟨l, hl⟩ : ∃ l, single (statementOf "SELECT ' WHERE ' FROM t WHERE id = ?") = .ok l :=
    exists_single_iff.2 ⟨by decide, by decide +kernel, by decide +kernel⟩
  have hahead : before? filterMark.toList
      (ahead (marks .code "SELECT ' WHERE ' FROM t WHERE id = ?".toList)) =
      some "SELECT '".toList := by decide +kernel
  have hl' : l.preview 10 = .ok (l.limited "SELECT '".toList 10) :=
    (preview_of_compile (.inl hl)).2 ⟨_, before?_eq_some_iff.1 hahead, rfl⟩
  have htext : (l.limited "SELECT '".toList 10).template = "SELECT ' LIMIT 10" := by
    rw [template_limited]
    decide +kernel
  have hselect : Inert "SELECT ".toList := by decide
  have hlimit : Inert " LIMIT 10".toList := by decide
  have hinside : Inside '\x27' " LIMIT 10".toList := inside_of_inert (by decide) hlimit
  have hpreview : "SELECT ' LIMIT 10".toList = "SELECT ".toList ++ '\x27' :: " LIMIT 10".toList := by
    decide +kernel
  have hread : Reads "SELECT ' LIMIT 10".toList
      ("SELECT ".toList.map .code ++ [.openLiteral '\x27' " LIMIT 10".toList]) := by
    rw [hpreview]
    exact (reads_inert_iff hselect).2
      ⟨_, rfl, .cons (.openLiteral (by decide) (.inside hinside)) .nil⟩
  refine ⟨l, _, _, hl, hl', htext, htext ▸ hread, by decide, fun hcode => ?_⟩
  have hclosed := isOpen_eq_false_of_isCode (hread : Reads ("SELECT '".toList ++ ' ' :: _) _) hcode
  exact absurd (hclosed (.openLiteral '\x27' " LIMIT 10".toList) (by decide)) (by decide)

end Lookup

end FeatureServing
