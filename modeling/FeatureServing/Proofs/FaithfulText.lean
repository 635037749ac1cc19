import FeatureServing.Proofs.QuerySplicing
import FeatureServing.Proofs.Rendering

/-!
# Rendered text is faithful to the query

What a lookup is rendered to has the placeholders that were put there and no others, however the
parts of the query stand around them:

* `Segment.marks`, `Piece.marks` : which characters of a lookup's text, and of a rendered one, are
  placeholders;
* `Lookup.marks_of_pieces` : pieces are the segments with one group in the place of every parameter;
* `Lookup.Compiled` : the lookups that a statement can be compiled to, previews among them;
  `Lookup.scans_of_compiled` : their text is scanned as it is meant;
* `Lookup.toList_text`, `Query.numbered` : rendered text, character by character;
* `Lookup.faithful` : when a statement compiles, and what its lookups are rendered to.
-/

namespace FeatureServing

open Query

/-- The characters of a segment, a parameter as one placeholder. -/
def Segment.marks : Segment → List (Option Char)
  | .text s => s.toList.map some
  | .parameter _ | .expanding _ => [none]

/-- The token that a segment was made of. -/
def Segment.token : Segment → Token
  | .text s => .text s
  | .parameter _ | .expanding _ => .placeholder

theorem Segment.marks_token (g : Segment) : g.token.marks = g.marks := by
  cases g <;> rfl

/-- The characters of a piece, a value as a placeholder. -/
def Piece.marks : Piece → List (Option Char)
  | .text s => s.toList.map some
  | .value _ => [none]

namespace RenderedQuery

/-! ## Written placeholders -/

/-- Marked characters as a backend writes them, the next placeholder having a given number. -/
def written (style : PlaceholderStyle) : Nat → List (Option Char) → List Char
  | _, [] => []
  | n, some c :: ms => c :: written style n ms
  | n, none :: ms => (style.text n).toList ++ written style (n + 1) ms

theorem written_map_some_append (style : PlaceholderStyle) (n : Nat) (cs : List Char)
    (ms : List (Option Char)) : written style n (cs.map some ++ ms) = cs ++ written style n ms := by
  induction cs with
  | nil => rfl
  | cons c cs ih => exact congrArg (c :: ·) ih

theorem written_questionMark (n : Nat) (ms : List (Option Char)) :
    written .questionMark n ms = spelled ms := by
  induction ms generalizing n with
  | nil => rfl
  | cons m ms ih =>
    cases m with
    | some c => exact congrArg (c :: ·) (ih n)
    | none =>
      rw [written, ih, PlaceholderStyle.text]
      rfl

theorem toList_join_write (style : PlaceholderStyle) (n : Nat) (ps : List Piece) :
    (String.join (write style n ps)).toList = written style n (ps.flatMap Piece.marks) := by
  rw [String.toList_join]
  induction ps generalizing n with
  | nil => rfl
  | cons p ps ih =>
    rw [List.flatMap_cons]
    cases p with
    | text s => rw [write, List.flatMap_cons, ih, Piece.marks, written_map_some_append]
    | value v =>
      rw [write, List.flatMap_cons, ih]
      rfl

theorem length_filterMap_valueOf? (ps : List Piece) :
    (ps.filterMap valueOf?).length = (ps.flatMap Piece.marks).count none := by
  induction ps with
  | nil => rfl
  | cons p ps ih =>
    rw [List.flatMap_cons, List.count_append, ← ih]
    cases p with
    | text s =>
      have hnone : (Piece.text s).marks.count none = 0 := by
        simp [Piece.marks, List.count_eq_zero]
      rw [hnone, Nat.zero_add]
      rfl
    | value v => exact Nat.add_comm _ _

end RenderedQuery

/-- Tokens with a dollar sign and a number in the place of every placeholder. -/
def Query.numbered : Nat → List Token → List String
  | _, [] => []
  | n, .text s :: rest => s :: numbered n rest
  | n, .placeholder :: rest => ("$" ++ Text.decimal n) :: numbered (n + 1) rest

theorem Query.toList_join_numbered (n : Nat) (ts : List Token) :
    (String.join (numbered n ts)).toList =
      RenderedQuery.written .numbered n (ts.flatMap Token.marks) := by
  rw [String.toList_join]
  induction ts generalizing n with
  | nil => rfl
  | cons t ts ih =>
    rw [List.flatMap_cons]
    cases t with
    | text s =>
      rw [numbered, List.flatMap_cons, ih, Token.marks, RenderedQuery.written_map_some_append]
    | placeholder =>
      rw [numbered, List.flatMap_cons, ih]
      rfl

namespace Lookup

/-! ## Groups of values -/

/-- Whether all text of pieces stands between the placeholders of a group. -/
def Punctuates (ps : List Piece) : Prop :=
  ∀ c, some c ∈ ps.flatMap Piece.marks → c ∈ groupCharacters

theorem punctuates_append {ps qs : List Piece} (hp : Punctuates ps) (hq : Punctuates qs) :
    Punctuates (ps ++ qs) := by
  intro c hc
  rw [List.flatMap_append] at hc
  exact (List.mem_append.1 hc).elim (hp c) (hq c)

theorem punctuates_text {s : String} (h : s.toList ⊆ groupCharacters) :
    Punctuates [.text s] := by
  intro c hc
  rw [List.flatMap_singleton, Piece.marks, List.mem_map] at hc
  obtain ⟨d, hd, heq⟩ := hc
  exact Option.some.inj heq ▸ h hd

theorem punctuates_value (v : Value) : Punctuates [.value v] := by
  intro c hc
  rw [List.flatMap_singleton, Piece.marks, List.mem_singleton] at hc
  cases hc

theorem punctuates_listed {parts : List (List Piece)} (h : ∀ p ∈ parts, Punctuates p) :
    Punctuates (listed parts) := by
  fun_induction listed parts with
  | case1 => exact fun _ hc => absurd hc List.not_mem_nil
  | case2 p => exact h p List.mem_cons_self
  | case3 p q rest ih =>
    have hcomma : Punctuates [.text ", "] := punctuates_text (by decide)
    have hrest := ih fun p hp => h p (List.mem_cons_of_mem _ hp)
    exact punctuates_append (h p List.mem_cons_self) (punctuates_append hcomma hrest)

theorem punctuates_parentheses {ps : List Piece} (h : Punctuates ps) :
    Punctuates (.text "(" :: ps ++ [.text ")"]) := by
  have hopen : Punctuates [.text "("] := punctuates_text (by decide)
  have hclose : Punctuates [.text ")"] := punctuates_text (by decide)
  exact punctuates_append (punctuates_append hopen h) hclose

theorem punctuates_tuplePieces (tuple : List Value) : Punctuates (tuplePieces tuple) := by
  have hinner : Punctuates (listed (tuple.map fun v => [.value v])) :=
    punctuates_listed (List.forall_mem_map.2 fun v _ => punctuates_value v)
  unfold tuplePieces
  split_ifs
  · exact punctuates_parentheses hinner
  · exact hinner

/-- What stands in the place of a parameter: the value, or all tuples. -/
def groupPieces : Binds → List Piece
  | .named _ => [.value .null]
  | .expanding tuples => .text "(" :: listed (tuples.map tuplePieces) ++ [.text ")"]

theorem isGroup_groupPieces (b : Binds) : IsGroup ((groupPieces b).flatMap Piece.marks) := by
  cases b with
  | named values => exact ⟨List.cons_ne_nil _ _, punctuates_value .null⟩
  | expanding tuples =>
    have hlisted : Punctuates (listed (tuples.map tuplePieces)) :=
      punctuates_listed (List.forall_mem_map.2 fun t _ => punctuates_tuplePieces t)
    refine ⟨?_, punctuates_parentheses hlisted⟩
    rw [groupPieces, List.cons_append, List.flatMap_cons]
    exact List.cons_ne_nil _ _

theorem marks_of_segmentPieces {l : Lookup} {b : Binds} {g : Segment} {ps : List Piece}
    (h : l.segmentPieces b g = .ok ps) :
    ps.flatMap Piece.marks = spliced ((groupPieces b).flatMap Piece.marks) g.marks := by
  have hone : ∀ group, spliced group [none] = group := fun group => by simp [spliced]
  cases g with
  | text s =>
    obtain rfl := Except.ok.inj h
    rw [List.flatMap_singleton, Segment.marks, spliced_map_some]
    rfl
  | parameter name =>
    cases b with
    | expanding tuples => cases h
    | named values =>
      simp only [segmentPieces] at h
      split at h
      · obtain rfl := Except.ok.inj h
        rfl
      · cases h
  | expanding name =>
    cases b with
    | named values => cases h
    | expanding tuples =>
      rw [Segment.marks, hone]
      cases tuples with
      | nil => cases h
      | cons tuple tuples =>
        obtain rfl := Except.ok.inj h
        rfl

/-- **Pieces are the segments** with the same group in the place of every parameter. -/
theorem marks_of_pieces {l : Lookup} {b : Binds} {ps : List Piece} (h : l.pieces b = .ok ps) :
    ps.flatMap Piece.marks =
      spliced ((groupPieces b).flatMap Piece.marks) (l.segments.flatMap Segment.marks) := by
  rw [pieces, map_ok_iff] at h
  obtain ⟨parts, hparts, rfl⟩ := h
  rw [mapM_ok_iff] at hparts
  generalize l.segments = segments at hparts
  induction hparts with
  | nil => rfl
  | cons hpart _ ih =>
    rw [List.flatten_cons, List.flatMap_append, marks_of_segmentPieces hpart, ih, List.flatMap_cons,
      spliced_append]

/-! ## Compiled lookups -/

variable {s : PreparedStatement} {l l' : Lookup} {limit : Nat}

/-- The lookups that a statement is compiled to, and their previews. -/
inductive Compiled (s : PreparedStatement) : Lookup → Prop
  | single {l : Lookup} (h : single s = .ok l) : Compiled s l
  | batch {l : Lookup} (h : batch s = .ok l) : Compiled s l
  | preview {l l' : Lookup} {limit : Nat} (hl : Compiled s l) (h : l.preview limit = .ok l') :
    Compiled s l'

theorem map_token_of_parametrize {position : Position} {count : Nat} {tokens : List Token}
    {names : List String} {segments : List Segment}
    (h : parametrize position count tokens names = .ok segments) :
    segments.map Segment.token = tokens := by
  induction tokens generalizing names segments with
  | nil =>
    cases names with
    | nil =>
      obtain rfl := Except.ok.inj h
      rfl
    | cons name names => cases h
  | cons t rest ih =>
    cases t with
    | text s =>
      obtain ⟨more, hmore, hsegments⟩ := bind_ok_iff.1 h
      obtain rfl := Except.ok.inj hsegments
      rw [List.map_cons, ih hmore]
      rfl
    | placeholder =>
      cases names with
      | nil => cases h
      | cons name names =>
        obtain ⟨more, hmore, hsegments⟩ := bind_ok_iff.1 h
        obtain rfl := Except.ok.inj hsegments
        rw [List.map_cons, ih hmore]
        rfl

theorem map_token_batchSegment (tokens : List Token) :
    (tokens.map batchSegment).map Segment.token = tokens := by
  rw [List.map_map]
  refine (List.map_congr_left fun t _ => ?_).trans (List.map_id tokens)
  cases t <;> rfl

theorem tokens_of_compile (h : single s = .ok l ∨ batch s = .ok l) :
    l.position = s.position ∧ l.segments.map Segment.token = tokens s.query := by
  rcases h with h | h
  · obtain ⟨-, segments, hsegments, rfl⟩ := single_ok_iff.1 h
    exact ⟨rfl, map_token_of_parametrize hsegments⟩
  · obtain ⟨-, -, rfl⟩ := batch_ok_iff.1 h
    exact ⟨rfl, map_token_batchSegment _⟩

theorem marks_of_compile (h : single s = .ok l ∨ batch s = .ok l) :
    l.segments.flatMap Segment.marks = marks .code s.query.toList := by
  rw [← flatMap_marks_tokens, ← (tokens_of_compile h).2, List.flatMap_map,
    funext Segment.marks_token]

/-! ### Previews -/

theorem before?_eq_some {word cs head : List Char} (h : before? word cs = some head) :
    ∃ back, cs = head ++ word ++ back := by
  induction cs generalizing head with
  | nil =>
    unfold before? at h
    split at h
    · next hempty =>
      obtain rfl := Option.some.inj h
      exact ⟨[], by simpa using hempty⟩
    · cases h
  | cons c cs ih =>
    unfold before? at h
    split at h
    · next hprefix =>
      obtain rfl := Option.some.inj h
      obtain ⟨back, hback⟩ := List.isPrefixOf_iff_prefix.1 hprefix
      exact ⟨back, hback.symm⟩
    · obtain ⟨head', hhead', rfl⟩ := Option.map_eq_some_iff.1 h
      obtain ⟨back, hback⟩ := ih hhead'
      exact ⟨back, by rw [hback]; rfl⟩

/-- What stands ahead of the key filter is text, and a blank comes next. -/
theorem marks_of_unfiltered? {segments : List Segment} {head : List Char}
    (h : unfiltered? segments = some head) :
    ∃ back, segments.flatMap Segment.marks = head.map some ++ some ' ' :: back := by
  induction segments generalizing head with
  | nil => cases h
  | cons g rest ih =>
    cases g with
    | parameter | expanding => cases h
    | text s =>
      rw [unfiltered?] at h
      split at h
      · next head' hhead =>
        obtain rfl := Option.some.inj h
        obtain ⟨back, hback⟩ := before?_eq_some hhead
        rw [List.flatMap_cons, Segment.marks, hback]
        exact ⟨_, by simp [filterMark]; rfl⟩
      · obtain ⟨head', hhead', rfl⟩ := Option.map_eq_some_iff.1 h
        obtain ⟨back, hback⟩ := ih hhead'
        refine ⟨back, ?_⟩
        rw [List.flatMap_cons, hback, List.map_append, List.append_assoc]
        rfl

theorem mark_not_mem_decimal (n : Nat) : '?' ∉ Text.decimalDigits n := fun h =>
  absurd (Text.isDigit_of_mem_decimalDigits h) (by decide)

/-- What stands in the place of the key filter. -/
def limitClause (limit : Nat) : String :=
  " LIMIT " ++ Text.decimal limit

theorem toList_limitClause (limit : Nat) :
    (limitClause limit).toList = " LIMIT ".toList ++ Text.decimalDigits limit := by
  rw [limitClause, String.toList_append]
  exact congrArg (" LIMIT ".toList ++ ·) String.toList_ofList

/-- The preview of a lookup that has a text in front of its key filter. -/
def limited (l : Lookup) (head : List Char) (limit : Nat) : Lookup :=
  { l with form := .preview, segments := [.text (String.ofList head ++ limitClause limit)],
           parameters := [] }

theorem preview_ok_iff : l.preview limit = .ok l' ↔
    ∃ head, unfiltered? l.segments = some head ∧ l' = l.limited head limit := by
  unfold preview
  cases unfiltered? l.segments with
  | none => simp
  | some head => simp [limited, limitClause, String.append_assoc, eq_comm]

/-- **The text of a compiled lookup** has its placeholders where its parameters are. -/
theorem scans_of_compiled {s : PreparedStatement} {l : Lookup} (h : Compiled s l) :
    Scans (l.segments.flatMap Segment.marks) := by
  induction h with
  | single h =>
    rw [marks_of_compile (.inl h)]
    exact scans_marks _
  | batch h =>
    rw [marks_of_compile (.inr h)]
    exact scans_marks _
  | @preview l l' limit _ h ih =>
    obtain ⟨head, hhead, rfl⟩ := preview_ok_iff.1 h
    obtain ⟨back, hback⟩ := marks_of_unfiltered? hhead
    rw [hback] at ih
    have hlimit : '?' ∉ "LIMIT ".toList ++ Text.decimalDigits limit := by
      rw [List.mem_append, not_or]
      exact ⟨by decide, mark_not_mem_decimal limit⟩
    have htext : (l.limited head limit).segments.flatMap Segment.marks =
        (head ++ ' ' :: ("LIMIT ".toList ++ Text.decimalDigits limit)).map some := by
      rw [limited, List.flatMap_singleton, Segment.marks, String.toList_append,
        String.toList_ofList, toList_limitClause]
      rfl
    rw [htext]
    exact scans_cut ih hlimit

/-! ## Rendered text -/

theorem toList_text {l : Lookup} {b : Binds} {style : PlaceholderStyle} {q : RenderedQuery}
    (h : l.render style b = .ok q) :
    ∃ ps, l.pieces b = .ok ps ∧ q.values = ps.filterMap RenderedQuery.valueOf? ∧
      q.text.toList = RenderedQuery.written style 1 (ps.flatMap Piece.marks) := by
  obtain ⟨ps, hps, rfl⟩ := map_ok_iff.1 h
  exact ⟨ps, hps, rfl, RenderedQuery.toList_join_write style 1 ps⟩

theorem render_of_pieces {l : Lookup} {b : Binds} {ps : List Piece} (h : l.pieces b = .ok ps)
    (style : PlaceholderStyle) : l.render style b = .ok (.ofPieces style ps) := by
  rw [render, h]
  rfl

/-- **The placeholders of a rendered text** are the pieces with a value. -/
theorem marks_text {s : PreparedStatement} {l : Lookup} (hl : Compiled s l) {b : Binds}
    {ps : List Piece} (h : l.pieces b = .ok ps) :
    marks .code (RenderedQuery.ofPieces .questionMark ps).text.toList = ps.flatMap Piece.marks := by
  have hscans : Scans (ps.flatMap Piece.marks) := by
    rw [marks_of_pieces h]
    exact scans_spliced (isGroup_groupPieces b) (scans_of_compiled hl)
  rw [RenderedQuery.ofPieces, RenderedQuery.toList_join_write, RenderedQuery.written_questionMark]
  exact hscans

theorem exists_single_iff {s : PreparedStatement} :
    (∃ l, single s = .ok l) ↔
      (s.parameters.map (·.index)).Nodup ∧ Text.isBlankText s.query = false ∧
        placeholders s.query = s.parameters.length := by
  rw [exists_single_ok_iff, PreparedStatement.validate_ok_iff, and_assoc,
    eq_comm (a := s.parameters.length)]

theorem exists_batch_iff {s : PreparedStatement} :
    (∃ l, batch s = .ok l) ↔
      (s.parameters.map (·.index)).Nodup ∧ Text.isBlankText s.query = false ∧
        placeholders s.query = 1 := by
  rw [exists_batch_ok_iff, PreparedStatement.validate_ok_iff, and_assoc]

/-- Values for all parameters of a single lookup leave its query as it is. -/
theorem render_single_covered {s : PreparedStatement} {l : Lookup} (h : single s = .ok l)
    {values : SortedMap String Value}
    (hvalues : ∀ p ∈ s.parameters, ∃ v, values.get? p.name = some v) :
    ∃ vs, l.render .questionMark (.named values) = .ok ⟨s.query, vs⟩ := by
  have hnames : ∀ name ∈ l.parameters, ∃ v, values.get? name = some v := by
    rw [parameters_of_single h]
    refine List.forall_mem_map.2 fun p hp => hvalues p ?_
    exact s.sortedParameters_perm.mem_iff.1 hp
  obtain ⟨q, hq⟩ : ∃ q, l.render .questionMark (.named values) = .ok q :=
    (exists_render_named_iff h).2 hnames
  obtain ⟨ps, hps, -, htext⟩ := toList_text hq
  refine ⟨q.values, ?_⟩
  have hsame : q.text = s.query := by
    refine String.toList_injective ?_
    have hnone : ∀ ms, spliced [none] ms = ms := by
      intro ms
      induction ms with
      | nil => rfl
      | cons m ms ih =>
        rw [spliced, List.flatMap_cons, ← spliced, ih]
        cases m <;> rfl
    have hmarks : ps.flatMap Piece.marks = marks .code s.query.toList :=
      ((marks_of_pieces hps).trans (hnone _)).trans (marks_of_compile (.inl h))
    rw [htext, RenderedQuery.written_questionMark, hmarks, spelled_marks]
  rw [hq, ← hsame]

/-- **Compiling and rendering are faithful to the query.** A statement compiles to a single lookup
when its indices are distinct and its query is not blank and has a placeholder per parameter, and to
a batch lookup when it has one placeholder. A single lookup whose parameters all have values leaves
the query as it is. Of every lookup of a statement, its previews among them, and all binds that it
takes: the text with question marks has a placeholder per value and no others, and the numbered text
is the same with numbers, from one, in the place of these. -/
theorem faithful (s : PreparedStatement) :
    ((∃ l, single s = .ok l) ↔
      (s.parameters.map (·.index)).Nodup ∧ Text.isBlankText s.query = false ∧
        placeholders s.query = s.parameters.length) ∧
    ((∃ l, batch s = .ok l) ↔
      (s.parameters.map (·.index)).Nodup ∧ Text.isBlankText s.query = false ∧
        placeholders s.query = 1) ∧
    (∀ l, single s = .ok l → ∀ values : SortedMap String Value,
      (∀ p ∈ s.parameters, ∃ v, values.get? p.name = some v) →
      ∃ vs, l.render .questionMark (.named values) = .ok ⟨s.query, vs⟩) ∧
    ∀ l, Compiled s l → ∀ b q, l.render .questionMark b = .ok q →
      placeholders q.text = q.values.length ∧
        l.render .numbered b =
          .ok ⟨String.join (numbered 1 (tokens q.text)), q.values⟩ := by
  refine ⟨exists_single_iff, exists_batch_iff, fun l h values => render_single_covered h,
    fun l hl b q hq => ?_⟩
  obtain ⟨ps, hps, rfl⟩ := map_ok_iff.1 hq
  have hmarks := marks_text hl hps
  constructor
  · rw [placeholders_eq_count_marks, hmarks]
    exact (RenderedQuery.length_filterMap_valueOf? ps).symm
  · have htext : String.join (RenderedQuery.write .numbered 1 ps) =
        String.join (numbered 1 (tokens (RenderedQuery.ofPieces .questionMark ps).text)) := by
      refine String.toList_injective ?_
      rw [RenderedQuery.toList_join_write, toList_join_numbered, flatMap_marks_tokens, hmarks]
    rw [render_of_pieces hps, RenderedQuery.ofPieces, htext]
    rfl

/-! ### A placeholder between dashes -/

/-- The first and the last question mark are text, in quotes and in a comment. -/
def crowdedStatement : PreparedStatement where
  group := none
  position := 2
  parameters := [⟨"shop", 0⟩, ⟨"day", 1⟩]
  query := "SELECT '?' FROM t WHERE (shop, day) IN -?--?"
  keyPrefix := none

def crowdedBinds : Binds :=
  .expanding [[.int 1, .null], [.text "?", .int 2]]

/-- Two tuples are four values in the place of the only placeholder. -/
theorem faithful_crowded :
    ∃ l vs, batch crowdedStatement = .ok l ∧
      l.render .questionMark crowdedBinds =
        .ok ⟨"SELECT '?' FROM t WHERE (shop, day) IN -((?, ?), (?, ?))--?", vs⟩ ∧
      vs.length = 4 ∧
      l.render .numbered crowdedBinds =
        .ok ⟨"SELECT '?' FROM t WHERE (shop, day) IN -(($1, $2), ($3, $4))--?", vs⟩ := by
  obtain ⟨-, hbatch, -, hrender⟩ := faithful crowdedStatement
  obtain ⟨l, hl⟩ := hbatch.2 ⟨by decide, by decide +kernel, by decide +kernel⟩
  have hq : l.render .questionMark crowdedBinds =
      .ok ⟨"SELECT '?' FROM t WHERE (shop, day) IN -((?, ?), (?, ?))--?",
        [.int 1, .null, .text "?", .int 2]⟩ := by
    obtain ⟨-, -, rfl⟩ := batch_ok_iff.1 hl
    rfl
  obtain ⟨-, hnumbered⟩ := hrender l (.batch hl) crowdedBinds _ hq
  refine ⟨l, _, hl, hq, rfl, ?_⟩
  have htext : String.join (numbered 1 (tokens
      "SELECT '?' FROM t WHERE (shop, day) IN -((?, ?), (?, ?))--?")) =
        "SELECT '?' FROM t WHERE (shop, day) IN -(($1, $2), ($3, $4))--?" := by
    decide +kernel
  rw [hnumbered, htext]

end Lookup

end FeatureServing
