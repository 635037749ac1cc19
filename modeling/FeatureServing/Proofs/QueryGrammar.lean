import Mathlib.Data.List.Infix
import FeatureServing.Query.Grammar

/-!
# The scan of a query follows the grammar

`Query.marks` goes through a query once; `Query.Reads` says what its characters are. Here every query
gets a reading (`exists_reads`), and the scan finds the placeholders of a reading and no others
(`marks_of_reads`).
-/

namespace FeatureServing.Query

attribute [simp] marks runs

theorem isQuote_iff {c : Char} : isQuote c = true ↔ c ∈ quotes := by
  simp [isQuote, quotes, or_assoc]

theorem escapes_iff {q : Char} (hq : q ∈ quotes) : escapes q = true ↔ q ∈ escapingQuotes := by
  simp only [quotes, List.mem_cons, List.not_mem_nil, or_false] at hq
  rcases hq with rfl | rfl | rfl <;> decide

theorem quote_ne {q : Char} (hq : q ∈ quotes) : q ≠ '?' ∧ q ≠ '-' ∧ q ≠ '/' ∧ q ≠ '\x5c' := by
  simp only [quotes, List.mem_cons, List.not_mem_nil, or_false] at hq
  rcases hq with rfl | rfl | rfl <;> decide

/-! ## The scan of one element -/

section Scan

variable {c q : Char} {cs rest : List Char}

theorem marks_code (hmark : c ≠ '?') (hline : c = '-' → rest.head? ≠ some '-')
    (hblock : c = '/' → rest.head? ≠ some '*') :
    marks .code (c :: rest) = some c :: marks (if isQuote c then .quoted c else .code) rest := by
  rw [marks]
  · exact hmark
  · rintro rest' rfl rfl
    exact hline rfl rfl
  · rintro rest' rfl rfl
    exact hblock rfl rfl

theorem marks_quote (hq : q ∈ quotes) :
    marks .code (q :: rest) = some q :: marks (.quoted q) rest := by
  obtain ⟨hmark, hdash, hslash, -⟩ := quote_ne hq
  rw [marks_code hmark (fun h => absurd h hdash) (fun h => absurd h hslash), if_pos (isQuote_iff.2 hq)]

theorem marks_plain (hquote : c ≠ q) (hplain : ¬ (c = '\x5c' ∧ escapes q = true)) :
    marks (.quoted q) (c :: rest) = some c :: marks (.quoted q) rest := by
  cases rest with
  | nil => simp
  | cons d rest => simp [hplain, hquote]

theorem marks_inside (hq : q ∈ quotes) (h : Inside q cs) (rest : List Char) :
    marks (.quoted q) (cs ++ rest) = cs.map some ++ marks (.quoted q) rest := by
  induction h with
  | nil => rfl
  | @escaped c cs hesc _ ih =>
    simp [(escapes_iff hq).2 hesc, ih]
  | @doubled cs _ ih =>
    have hslash : ¬ (q = '\x5c' ∧ escapes q = true) := fun h => (quote_ne hq).2.2.2 h.1
    rw [List.cons_append, List.cons_append, marks, if_neg (by simpa using hslash), if_pos rfl,
      if_pos rfl, ih]
    rfl
  | @plain c cs hquote hplain _ ih =>
    rw [List.cons_append, marks_plain hquote fun h => hplain h.1 ((escapes_iff hq).1 h.2), ih]
    rfl

theorem marks_close (hq : q ∈ quotes) (hend : rest.head? ≠ some q) :
    marks (.quoted q) (q :: rest) = some q :: marks .code rest := by
  cases rest with
  | nil => simp
  | cons d rest =>
    have hslash := (quote_ne hq).2.2.2
    have hd : d ≠ q := fun h => hend (congrArg some h)
    simp [marks.eq_7, hslash, hd]

theorem marks_unclosed (hq : q ∈ quotes) (h : Unclosed q cs) :
    marks (.quoted q) cs = cs.map some := by
  cases h with
  | inside hcs => simpa using marks_inside hq hcs []
  | escaping _ hcs => rw [marks_inside hq hcs, List.map_append]; rfl

theorem marks_lineComment (h : '\n' ∉ cs) (rest : List Char) :
    marks .lineComment (cs ++ rest) = cs.map some ++ marks .lineComment rest := by
  induction cs with
  | nil => rfl
  | cons c cs ih =>
    obtain ⟨hc, hcs⟩ := not_or.1 (mt List.mem_cons.2 h)
    rw [List.cons_append, marks, if_neg (Ne.symm hc), ih hcs]
    rfl

theorem marks_blockComment (h : ¬ ['*', '/'] <:+: cs) (hrest : rest.head? ≠ some '/') :
    marks .blockComment (cs ++ rest) = cs.map some ++ marks .blockComment rest := by
  induction cs with
  | nil => rfl
  | cons c cs ih =>
    have hcs : ¬ ['*', '/'] <:+: cs := fun hi => h (List.infix_cons hi)
    have hnext : c = '*' → (cs ++ rest).head? ≠ some '/' := by
      rintro rfl hhead
      cases cs with
      | nil => exact hrest hhead
      | cons d cs =>
        obtain rfl := Option.some.inj hhead
        exact h (List.IsPrefix.isInfix ⟨cs, rfl⟩)
    rw [List.cons_append, marks, ih hcs]
    · rfl
    · rintro rest' rfl hr
      exact hnext rfl (by rw [hr]; rfl)

end Scan

/-- **The scan of an element** gives its placeholder or its text, and goes on with code. -/
theorem marks_of_begins {cs rest : List Char} {e : Element} (h : Begins cs e rest) :
    marks .code cs = e.marks ++ marks .code rest := by
  cases h with
  | placeholder => rfl
  | code hmark hquote hline hblock =>
    rw [marks_code hmark hline hblock, if_neg (mt isQuote_iff.1 hquote)]
    rfl
  | literal hq hinside hend =>
    rw [marks_quote hq, marks_inside hq hinside, marks_close hq hend]
    simp [Element.marks, Element.spelling]
  | lineComment _ hinside =>
    rw [marks, marks_lineComment hinside, marks]
    simp [Element.marks, Element.spelling]
  | blockComment _ hinside =>
    rw [marks, marks_blockComment hinside (by simp), marks]
    simp [Element.marks, Element.spelling]
  | openLiteral hq hinside =>
    rw [marks_quote hq, marks_unclosed hq hinside, marks, List.append_nil]
    rfl
  | @openLineComment inside hinside =>
    have htail := marks_lineComment hinside []
    rw [List.append_nil, marks, List.append_nil] at htail
    simp [htail, Element.marks, Element.spelling]
  | @openBlockComment inside hinside =>
    have htail : marks .blockComment (inside ++ []) = inside.map some ++ marks .blockComment [] :=
      marks_blockComment hinside (by simp)
    rw [List.append_nil, marks, List.append_nil] at htail
    simp [htail, Element.marks, Element.spelling]

/-- **The scan follows the grammar.** -/
theorem marks_of_reads {cs : List Char} {es : List Element} (h : Reads cs es) :
    marks .code cs = es.flatMap Element.marks := by
  induction h with
  | nil => rfl
  | cons he _ ih => rw [marks_of_begins he, ih, List.flatMap_cons]

theorem spelling_of_begins {cs rest : List Char} {e : Element} (h : Begins cs e rest) :
    cs = e.spelling ++ rest := by
  cases h <;> simp [Element.spelling]

theorem spelling_of_reads {cs : List Char} {es : List Element} (h : Reads cs es) :
    es.flatMap Element.spelling = cs := by
  induction h with
  | nil => rfl
  | cons he _ ih => rw [List.flatMap_cons, ih, ← spelling_of_begins he]

/-! ## Every query can be read -/

/-- Behind a quote stands the inside of a literal that ends, or of one that does not. -/
theorem closes_or_unclosed (q : Char) : ∀ cs : List Char,
    (∃ inside rest, cs = inside ++ q :: rest ∧ Inside q inside ∧ rest.head? ≠ some q) ∨
      Unclosed q cs
  | [] => .inr (.inside .nil)
  | [c] => by
    by_cases hquote : c = q
    · subst hquote
      exact .inl ⟨[], [], rfl, .nil, by simp⟩
    · by_cases hesc : c = '\x5c' ∧ q ∈ escapingQuotes
      · obtain ⟨rfl, hesc⟩ := hesc
        exact .inr (.escaping hesc .nil)
      · exact .inr (.inside (.plain hquote (fun h h' => hesc ⟨h, h'⟩) .nil))
  | c :: d :: cs => by
    by_cases hesc : c = '\x5c' ∧ q ∈ escapingQuotes
    · obtain ⟨rfl, hesc⟩ := hesc
      rcases closes_or_unclosed q cs with ⟨inside, rest, rfl, hinside, hend⟩ | hopen
      · exact .inl ⟨_, rest, rfl, .escaped hesc hinside, hend⟩
      · refine .inr ?_
        cases hopen with
        | inside h => exact .inside (.escaped hesc h)
        | escaping _ h => exact .escaping hesc (.escaped hesc h)
    · by_cases hquote : c = q
      · subst hquote
        by_cases hd : d = c
        · subst hd
          rcases closes_or_unclosed d cs with ⟨inside, rest, rfl, hinside, hend⟩ | hopen
          · exact .inl ⟨_, rest, rfl, .doubled hinside, hend⟩
          · refine .inr ?_
            cases hopen with
            | inside h => exact .inside (.doubled h)
            | escaping hq h => exact .escaping hq (.doubled h)
        · exact .inl ⟨[], d :: cs, rfl, .nil, fun h => hd (Option.some.inj h)⟩
      · have hplain : c = '\x5c' → q ∉ escapingQuotes := fun h h' => hesc ⟨h, h'⟩
        rcases closes_or_unclosed q (d :: cs) with ⟨inside, rest, heq, hinside, hend⟩ | hopen
        · exact .inl ⟨c :: inside, rest, by rw [heq]; rfl, .plain hquote hplain hinside, hend⟩
        · refine .inr ?_
          generalize d :: cs = tail at hopen
          cases hopen with
          | inside h => exact .inside (.plain hquote hplain h)
          | escaping hq h => exact .escaping hq (.plain hquote hplain h)

theorem exists_first_end {cs : List Char} (h : ['*', '/'] <:+: cs) :
    ∃ inside rest, cs = inside ++ '*' :: '/' :: rest ∧ ¬ ['*', '/'] <:+: inside := by
  induction cs with
  | nil => exact absurd (List.infix_nil.1 h) (by simp)
  | cons c cs ih =>
    by_cases hpre : ['*', '/'] <+: c :: cs
    · obtain ⟨rest, hrest⟩ := hpre
      exact ⟨[], rest, hrest.symm, by simp⟩
    · obtain ⟨inside, rest, rfl, hinside⟩ := ih ((List.infix_cons_iff.1 h).resolve_left hpre)
      refine ⟨c :: inside, rest, rfl, fun hi => ?_⟩
      rcases List.infix_cons_iff.1 hi with hp | hi
      · exact hpre (hp.trans ⟨'*' :: '/' :: rest, rfl⟩)
      · exact hinside hi

/-- An element stands at the front of any characters, and something less is left. -/
theorem exists_begins (c : Char) (cs : List Char) :
    ∃ e rest, Begins (c :: cs) e rest ∧ rest.length ≤ cs.length := by
  by_cases hmark : c = '?'
  · subst hmark
    exact ⟨_, cs, .placeholder cs, Nat.le_refl _⟩
  by_cases hquote : c ∈ quotes
  · rcases closes_or_unclosed c cs with ⟨inside, rest, rfl, hinside, hend⟩ | hopen
    · exact ⟨_, rest, .literal hquote hinside hend, by simp; omega⟩
    · exact ⟨_, [], .openLiteral hquote hopen, Nat.zero_le _⟩
  by_cases hline : c = '-' ∧ cs.head? = some '-'
  · obtain ⟨rfl, hhead⟩ := hline
    obtain ⟨cs, rfl⟩ := List.head?_eq_some_iff.1 hhead
    by_cases hend : '\n' ∈ cs
    · obtain ⟨inside, rest, rfl, hinside⟩ := List.eq_append_cons_of_mem hend
      exact ⟨_, rest, .lineComment rest hinside, by simp; omega⟩
    · exact ⟨_, [], .openLineComment hend, Nat.zero_le _⟩
  by_cases hblock : c = '/' ∧ cs.head? = some '*'
  · obtain ⟨rfl, hhead⟩ := hblock
    obtain ⟨cs, rfl⟩ := List.head?_eq_some_iff.1 hhead
    by_cases hend : ['*', '/'] <:+: cs
    · obtain ⟨inside, rest, rfl, hinside⟩ := exists_first_end hend
      exact ⟨_, rest, .blockComment rest hinside, by simp; omega⟩
    · exact ⟨_, [], .openBlockComment hend, Nat.zero_le _⟩
  exact ⟨_, cs, .code hmark hquote (fun h h' => hline ⟨h, h'⟩) (fun h h' => hblock ⟨h, h'⟩),
    Nat.le_refl _⟩

/-- **Every query can be read.** -/
theorem exists_reads (cs : List Char) : ∃ es, Reads cs es := by
  induction hn : cs.length using Nat.strong_induction_on generalizing cs with
  | _ n ih =>
    cases cs with
    | nil => exact ⟨[], .nil⟩
    | cons c cs =>
      obtain ⟨e, rest, he, hlen⟩ := exists_begins c cs
      obtain ⟨es, hes⟩ := ih rest.length (by rw [← hn, List.length_cons]; omega) rest rfl
      exact ⟨e :: es, .cons he hes⟩

end FeatureServing.Query
