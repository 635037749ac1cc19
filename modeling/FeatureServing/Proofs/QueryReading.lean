import FeatureServing.Proofs.QueryGrammar

/-!
# A query is read in one way

What an element can be is settled by the first one or two characters (`begins_mark`, `begins_quote`,
`begins_dashes`, `begins_slashStar`, `begins_code`), and where it ends by the first end that counts
(`split_unique` and its uses). Together: `reads_unique`.
-/

namespace FeatureServing.Query

section Unique
variable {c q : Char} {cs inside inside' rest rest' : List Char}

/-! ## Where an element ends -/

/-- Two ways to cut a list are one if neither front goes on behind the other. -/
theorem split_unique {α : Type} {front front' back back' : List α}
    (heq : front ++ back = front' ++ back') (h : ∀ more, front' = front ++ more → more = [])
    (h' : ∀ more, front = front' ++ more → more = []) : front = front' ∧ back = back' := by
  rcases List.append_eq_append_iff.1 heq with ⟨more, hmore, hback⟩ | ⟨more, hmore, hback⟩
  · obtain rfl := h more hmore
    exact ⟨by simpa using hmore.symm, hback⟩
  · obtain rfl := h' more hmore
    exact ⟨by simpa using hmore, hback.symm⟩

theorem not_inside_of_closed (hq : q ∈ quotes) (h : Inside q inside) (hend : rest.head? ≠ some q) :
    ¬ Inside q (inside ++ q :: rest) := by
  have hslash := (quote_ne hq).2.2.2
  induction h with
  | nil =>
    intro h
    cases h with
    | escaped => exact hslash rfl
    | doubled => exact hend rfl
    | plain hne => exact hne rfl
  | escaped hesc _ ih =>
    intro h
    cases h with
    | escaped _ h => exact ih h
    | doubled => exact hslash rfl
    | plain _ hplain => exact hplain rfl hesc
  | doubled _ ih =>
    intro h
    cases h with
    | escaped => exact hslash rfl
    | doubled h => exact ih h
    | plain hne => exact hne rfl
  | @plain c cs hne hplain _ ih =>
    intro h
    rw [List.cons_append] at h
    generalize cs ++ q :: rest = tail at ih h
    cases h with
    | escaped hesc => exact hplain rfl hesc
    | doubled => exact hne rfl
    | plain _ _ h => exact ih h

theorem not_unclosed_of_closed (hq : q ∈ quotes) (h : Inside q inside)
    (hend : rest.head? ≠ some q) : ¬ Unclosed q (inside ++ q :: rest) := by
  intro hopen
  generalize htext : inside ++ q :: rest = text at hopen
  cases hopen with
  | inside hcs => exact not_inside_of_closed hq h hend (htext ▸ hcs)
  | @escaping cs _ hcs =>
    rcases List.eq_nil_or_concat rest with rfl | ⟨front, last, rfl⟩
    · obtain ⟨-, hlast⟩ := List.append_inj' htext rfl
      exact (quote_ne hq).2.2.2 (List.cons.inj hlast).1
    · have hshift : (inside ++ q :: front) ++ [last] = cs ++ ['\x5c'] := by
        rw [← htext, List.append_assoc, List.concat_eq_append]
        rfl
      obtain ⟨rfl, -⟩ := List.append_inj' hshift rfl
      refine not_inside_of_closed hq h (fun hfront => hend ?_) hcs
      rw [List.concat_eq_append, List.head?_append, hfront]
      rfl

theorem no_longer_inside {more : List Char} (hq : q ∈ quotes) (h : Inside q inside)
    (hend : rest.head? ≠ some q) (h' : Inside q (inside ++ more))
    (heq : inside ++ q :: rest = inside ++ more ++ q :: rest') : more = [] := by
  cases more with
  | nil => rfl
  | cons d more =>
    rw [List.append_assoc] at heq
    obtain ⟨rfl, hrest⟩ := List.cons.inj (List.append_cancel_left heq)
    refine absurd h' (not_inside_of_closed hq h fun hmore => hend ?_)
    change rest = more ++ _ at hrest
    rw [hrest, List.head?_append, hmore]
    rfl

theorem inside_unique (hq : q ∈ quotes) (h : Inside q inside) (hend : rest.head? ≠ some q)
    (h' : Inside q inside') (hend' : rest'.head? ≠ some q)
    (heq : inside ++ q :: rest = inside' ++ q :: rest') : inside = inside' ∧ rest = rest' := by
  obtain ⟨hsame, hrest⟩ := split_unique heq
    (fun more hmore => no_longer_inside hq h hend (hmore ▸ h') (hmore ▸ heq))
    (fun more hmore => no_longer_inside hq h' hend' (hmore ▸ h) (hmore ▸ heq.symm))
  exact ⟨hsame, (List.cons.inj hrest).2⟩

theorem line_unique (h : '\n' ∉ inside) (h' : '\n' ∉ inside')
    (heq : inside ++ '\n' :: rest = inside' ++ '\n' :: rest') : inside = inside' ∧ rest = rest' := by
  have hlonger : ∀ {a b r r' : List Char} {more : List Char}, '\n' ∉ b →
      a ++ '\n' :: r = b ++ '\n' :: r' → b = a ++ more → more = [] := by
    rintro a b r r' more hb heq rfl
    cases more with
    | nil => rfl
    | cons d more =>
      rw [List.append_assoc] at heq
      obtain ⟨rfl, -⟩ := List.cons.inj (List.append_cancel_left heq)
      exact absurd (by simp) hb
  obtain ⟨hsame, hrest⟩ := split_unique heq (fun _ => hlonger h' heq) (fun _ => hlonger h heq.symm)
  exact ⟨hsame, (List.cons.inj hrest).2⟩

theorem block_unique (h : ¬ ['*', '/'] <:+: inside) (h' : ¬ ['*', '/'] <:+: inside')
    (heq : inside ++ '*' :: '/' :: rest = inside' ++ '*' :: '/' :: rest') :
    inside = inside' ∧ rest = rest' := by
  have hlonger : ∀ {a b r r' : List Char} {more : List Char}, ¬ ['*', '/'] <:+: b →
      a ++ '*' :: '/' :: r = b ++ '*' :: '/' :: r' → b = a ++ more → more = [] := by
    rintro a b r r' more hb heq rfl
    rw [List.append_assoc] at heq
    replace heq := List.append_cancel_left heq
    match more, heq with
    | [], _ => rfl
    | [c], heq => simp at heq
    | c :: d :: more, heq =>
      obtain ⟨rfl, rfl, -⟩ : '*' = c ∧ '/' = d ∧ _ := by simpa using heq
      exact absurd ⟨a, more, by simp⟩ hb
  obtain ⟨hsame, hrest⟩ := split_unique heq (fun _ => hlonger h' heq) (fun _ => hlonger h heq.symm)
  exact ⟨hsame, by simpa using hrest⟩

/-! ## What an element can be, by its first characters -/

theorem begins_mark {e : Element} (h : Begins ('?' :: cs) e rest) :
    e = .placeholder ∧ rest = cs := by
  cases h with
  | placeholder => exact ⟨rfl, rfl⟩
  | code hmark => exact absurd rfl hmark
  | literal hq => exact absurd rfl (quote_ne hq).1
  | openLiteral hq => exact absurd rfl (quote_ne hq).1

theorem begins_quote {e : Element} (hq : q ∈ quotes) (h : Begins (q :: cs) e rest) :
    (∃ inside, e = .literal q inside ∧ cs = inside ++ q :: rest ∧ Inside q inside ∧
      rest.head? ≠ some q) ∨ e = .openLiteral q cs ∧ rest = [] ∧ Unclosed q cs := by
  obtain ⟨hmark, hdash, hslash, -⟩ := quote_ne hq
  cases h with
  | placeholder => exact absurd rfl hmark
  | code _ hquote => exact absurd hq hquote
  | literal _ hinside hend => exact .inl ⟨_, rfl, rfl, hinside, hend⟩
  | openLiteral _ hopen => exact .inr ⟨rfl, rfl, hopen⟩
  | lineComment => exact absurd rfl hdash
  | openLineComment => exact absurd rfl hdash
  | blockComment => exact absurd rfl hslash
  | openBlockComment => exact absurd rfl hslash

theorem begins_dashes {e : Element} (h : Begins ('-' :: '-' :: cs) e rest) :
    (∃ inside, e = .lineComment inside ∧ cs = inside ++ '\n' :: rest ∧ '\n' ∉ inside) ∨
      e = .openLineComment cs ∧ rest = [] ∧ '\n' ∉ cs := by
  generalize htext : '-' :: '-' :: cs = text at h
  cases h with
  | placeholder => simp at htext
  | code _ _ hline =>
    obtain ⟨rfl, rfl⟩ := List.cons.inj htext
    exact absurd rfl (hline rfl)
  | literal hq =>
    obtain ⟨rfl, -⟩ := List.cons.inj htext
    exact absurd rfl (quote_ne hq).2.1
  | openLiteral hq =>
    obtain ⟨rfl, -⟩ := List.cons.inj htext
    exact absurd rfl (quote_ne hq).2.1
  | lineComment _ hinside =>
    exact .inl ⟨_, rfl, by simpa using htext, hinside⟩
  | openLineComment hinside =>
    obtain rfl : cs = _ := by simpa using htext
    exact .inr ⟨rfl, rfl, hinside⟩
  | blockComment => simp at htext
  | openBlockComment => simp at htext

theorem begins_slashStar {e : Element} (h : Begins ('/' :: '*' :: cs) e rest) :
    (∃ inside, e = .blockComment inside ∧ cs = inside ++ '*' :: '/' :: rest ∧
      ¬ ['*', '/'] <:+: inside) ∨
      e = .openBlockComment cs ∧ rest = [] ∧ ¬ ['*', '/'] <:+: cs := by
  generalize htext : '/' :: '*' :: cs = text at h
  cases h with
  | placeholder => simp at htext
  | code _ _ _ hblock =>
    obtain ⟨rfl, rfl⟩ := List.cons.inj htext
    exact absurd rfl (hblock rfl)
  | literal hq =>
    obtain ⟨rfl, -⟩ := List.cons.inj htext
    exact absurd rfl (quote_ne hq).2.2.1
  | openLiteral hq =>
    obtain ⟨rfl, -⟩ := List.cons.inj htext
    exact absurd rfl (quote_ne hq).2.2.1
  | lineComment => simp at htext
  | openLineComment => simp at htext
  | blockComment _ hinside =>
    exact .inl ⟨_, rfl, by simpa using htext, hinside⟩
  | openBlockComment hinside =>
    obtain rfl : cs = _ := by simpa using htext
    exact .inr ⟨rfl, rfl, hinside⟩

theorem begins_code {e : Element} (h : Begins (c :: cs) e rest) (hmark : c ≠ '?')
    (hquote : c ∉ quotes) (hline : ¬ (c = '-' ∧ cs.head? = some '-'))
    (hblock : ¬ (c = '/' ∧ cs.head? = some '*')) : e = .code c ∧ rest = cs := by
  cases h with
  | placeholder => exact absurd rfl hmark
  | code => exact ⟨rfl, rfl⟩
  | literal hq => exact absurd hq hquote
  | openLiteral hq => exact absurd hq hquote
  | lineComment => exact absurd ⟨rfl, rfl⟩ hline
  | openLineComment => exact absurd ⟨rfl, rfl⟩ hline
  | blockComment => exact absurd ⟨rfl, rfl⟩ hblock
  | openBlockComment => exact absurd ⟨rfl, rfl⟩ hblock

end Unique

/-! ## One element, one reading -/

/-- **Only one element stands at the front of a query.** -/
theorem begins_unique {cs rest rest' : List Char} {e e' : Element} (h : Begins cs e rest)
    (h' : Begins cs e' rest') : e = e' ∧ rest = rest' := by
  cases cs with
  | nil => cases h
  | cons c cs =>
  by_cases hmark : c = '?'
  · subst hmark
    obtain ⟨rfl, rfl⟩ := begins_mark h
    obtain ⟨rfl, rfl⟩ := begins_mark h'
    exact ⟨rfl, rfl⟩
  by_cases hq : c ∈ quotes
  · rcases begins_quote hq h with ⟨inside, rfl, rfl, hin, hend⟩ | ⟨rfl, rfl, hopen⟩ <;>
      rcases begins_quote hq h' with ⟨inside', rfl, heq, hin', hend'⟩ | ⟨rfl, rfl, hopen'⟩
    · obtain ⟨rfl, rfl⟩ := inside_unique hq hin hend hin' hend' heq
      exact ⟨rfl, rfl⟩
    · exact absurd hopen' (not_unclosed_of_closed hq hin hend)
    · exact absurd (heq ▸ hopen) (not_unclosed_of_closed hq hin' hend')
    · exact ⟨rfl, rfl⟩
  by_cases hline : c = '-' ∧ cs.head? = some '-'
  · obtain ⟨rfl, hhead⟩ := hline
    obtain ⟨cs, rfl⟩ := List.head?_eq_some_iff.1 hhead
    rcases begins_dashes h with ⟨inside, rfl, rfl, hin⟩ | ⟨rfl, rfl, hopen⟩ <;>
      rcases begins_dashes h' with ⟨inside', rfl, heq, hin'⟩ | ⟨rfl, rfl, hopen'⟩
    · obtain ⟨rfl, rfl⟩ := line_unique hin hin' heq
      exact ⟨rfl, rfl⟩
    · exact absurd (by simp) hopen'
    · exact absurd (by simp [heq]) hopen
    · exact ⟨rfl, rfl⟩
  by_cases hblock : c = '/' ∧ cs.head? = some '*'
  · obtain ⟨rfl, hhead⟩ := hblock
    obtain ⟨cs, rfl⟩ := List.head?_eq_some_iff.1 hhead
    rcases begins_slashStar h with ⟨inside, rfl, rfl, hin⟩ | ⟨rfl, rfl, hopen⟩ <;>
      rcases begins_slashStar h' with ⟨inside', rfl, heq, hin'⟩ | ⟨rfl, rfl, hopen'⟩
    · obtain ⟨rfl, rfl⟩ := block_unique hin hin' heq
      exact ⟨rfl, rfl⟩
    · exact absurd ⟨inside, rest, by simp⟩ hopen'
    · exact absurd ⟨inside', rest', by simp [heq]⟩ hopen
    · exact ⟨rfl, rfl⟩
  obtain ⟨rfl, rfl⟩ := begins_code h hmark hq hline hblock
  obtain ⟨rfl, rfl⟩ := begins_code h' hmark hq hline hblock
  exact ⟨rfl, rfl⟩

/-- **A query is read in one way.** -/
theorem reads_unique {cs : List Char} {es es' : List Element} (h : Reads cs es)
    (h' : Reads cs es') : es = es' := by
  induction h generalizing es' with
  | nil =>
    cases h' with
    | nil => rfl
    | cons he _ => cases he
  | cons he _ ih =>
    cases h' with
    | nil => cases he
    | cons he' hes' =>
      obtain ⟨rfl, rfl⟩ := begins_unique he he'
      rw [ih hes']

end FeatureServing.Query
