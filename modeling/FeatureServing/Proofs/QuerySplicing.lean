import FeatureServing.Proofs.QueryTokens

/-!
# Other text in the place of placeholders

Marked characters say of each character of a text whether it is a placeholder. They scan if the scan
of the text says the same. Here they keep scanning

* when every placeholder is replaced by parentheses, commas, blanks and placeholders:
  `scans_spliced`, by the grammar, since what an element is depends on one character behind it only;
* when they are cut in front of a blank and text without placeholders is put behind:
  `scans_cut`, since the scan of a text up to a blank does not depend on what comes next
  (`goesOn_of_endsBlank`).
-/

namespace FeatureServing.Query

/-- The text of marked characters. -/
def spelled (ms : List (Option Char)) : List Char :=
  ms.map (·.getD '?')

/-- Whether the scan of the text of marked characters gives these back. -/
def Scans (ms : List (Option Char)) : Prop :=
  marks .code (spelled ms) = ms

theorem spelled_marks (m : Mode) (cs : List Char) : spelled (marks m cs) = cs :=
  map_getD_marks m cs

theorem spelled_append (ms ms' : List (Option Char)) :
    spelled (ms ++ ms') = spelled ms ++ spelled ms' :=
  List.map_append

theorem spelled_map_some (cs : List Char) : spelled (cs.map some) = cs := by
  rw [spelled, List.map_map]
  exact List.map_id cs

theorem scans_marks (cs : List Char) : Scans (marks .code cs) := by
  rw [Scans, spelled_marks]

theorem spelled_element (e : Element) : spelled e.marks = e.spelling := by
  cases e with
  | placeholder => rfl
  | _ => exact spelled_map_some _

theorem spelled_flatMap_marks (es : List Element) :
    spelled (es.flatMap Element.marks) = es.flatMap Element.spelling := by
  unfold spelled
  rw [List.map_flatMap]
  exact congrArg (List.flatMap · es) (funext spelled_element)

theorem scans_of_reads {es : List Element} (h : Reads (es.flatMap Element.spelling) es) :
    Scans (es.flatMap Element.marks) := by
  rw [Scans, spelled_flatMap_marks]
  exact marks_of_reads h

/-! ## Groups in the place of placeholders -/

/-- The characters that stand between the placeholders of a group. -/
def groupCharacters : List Char :=
  ['(', ')', ',', ' ']

/-- Whether marked characters are a group: placeholders, and characters that open nothing. -/
def IsGroup (g : List (Option Char)) : Prop :=
  g ≠ [] ∧ ∀ c, some c ∈ g → c ∈ groupCharacters

/-- Marked characters with a group in the place of every placeholder. -/
def spliced (g ms : List (Option Char)) : List (Option Char) :=
  ms.flatMap fun m => if m = none then g else [m]

/-- The element of a character of a group. -/
def groupElement : Option Char → Element
  | some c => .code c
  | none => .placeholder

namespace Element

/-- An element, or a group in the place of a placeholder. -/
def spliced (g : List (Option Char)) (e : Element) : List Element :=
  if e = .placeholder then g.map groupElement else [e]

end Element

theorem groupCharacter_plain {c : Char} (hc : c ∈ groupCharacters) :
    c ≠ '?' ∧ c ∉ quotes ∧ c ≠ '-' ∧ c ≠ '/' ∧ c ≠ '*' := by
  simp only [groupCharacters, List.mem_cons, List.not_mem_nil, or_false] at hc
  rcases hc with rfl | rfl | rfl | rfl <;> decide

theorem spliced_append (g ms ms' : List (Option Char)) :
    spliced g (ms ++ ms') = spliced g ms ++ spliced g ms' :=
  List.flatMap_append

theorem spliced_map_some (g : List (Option Char)) (cs : List Char) :
    spliced g (cs.map some) = cs.map some := by
  induction cs with
  | nil => rfl
  | cons c cs ih =>
    rw [List.map_cons, spliced, List.flatMap_cons, ← spliced, ih]
    rfl

theorem flatMap_marks_group (g : List (Option Char)) :
    (g.map groupElement).flatMap Element.marks = g := by
  induction g with
  | nil => rfl
  | cons m g ih =>
    rw [List.map_cons, List.flatMap_cons, ih]
    cases m <;> rfl

theorem marks_spliced (g : List (Option Char)) (e : Element) :
    (e.spliced g).flatMap Element.marks = spliced g e.marks := by
  by_cases he : e = .placeholder
  · subst he
    rw [Element.spliced, if_pos rfl, flatMap_marks_group]
    simp [Element.marks, spliced]
  · have hmarks : e.marks = e.spelling.map some := by
      cases e with
      | placeholder => exact absurd rfl he
      | _ => rfl
    rw [Element.spliced, if_neg he, List.flatMap_singleton, hmarks, spliced_map_some]

theorem flatMap_marks_spliced (g : List (Option Char)) (es : List Element) :
    (es.flatMap (Element.spliced g)).flatMap Element.marks =
      spliced g (es.flatMap Element.marks) := by
  induction es with
  | nil => rfl
  | cons e es ih =>
    rw [List.flatMap_cons, List.flatMap_append, marks_spliced, ih, List.flatMap_cons, spliced_append]

section Splice

variable {g : List (Option Char)}

theorem reads_group (hg : ∀ c, some c ∈ g → c ∈ groupCharacters) {rest : List Char}
    {es : List Element} (hrest : Reads rest es) :
    Reads ((g.map groupElement).flatMap Element.spelling ++ rest) (g.map groupElement ++ es) := by
  induction g with
  | nil => exact hrest
  | cons m g ih =>
    have hnext := ih fun c hc => hg c (List.mem_cons_of_mem _ hc)
    rw [List.map_cons, List.flatMap_cons, List.append_assoc, List.cons_append]
    cases m with
    | none => exact .cons (.placeholder _) hnext
    | some c =>
      obtain ⟨hmark, hquote, hdash, hslash, -⟩ := groupCharacter_plain (hg c List.mem_cons_self)
      exact .cons (.code hmark hquote (fun h => absurd h hdash) fun h => absurd h hslash) hnext

theorem head?_group (hg : IsGroup g) (rest : List Char) {c : Char}
    (hc : c = '-' ∨ c = '*' ∨ c ∈ quotes) :
    ((g.map groupElement).flatMap Element.spelling ++ rest).head? ≠ some c := by
  obtain ⟨hne, hall⟩ := hg
  cases g with
  | nil => exact absurd rfl hne
  | cons m g =>
    intro h
    cases m with
    | none =>
      obtain rfl : '?' = c := Option.some.inj h
      revert hc
      decide
    | some d =>
      obtain rfl : d = c := Option.some.inj h
      obtain ⟨-, hquote, hdash, -, hstar⟩ := groupCharacter_plain (hall d List.mem_cons_self)
      rcases hc with hc | hc | hc
      · exact hdash hc
      · exact hstar hc
      · exact hquote hc

theorem spelling_ne_nil (e : Element) : e.spelling ≠ [] := by
  cases e <;> simp [Element.spelling]

/-- With groups in it, a text begins with such a character only if it did so before. -/
theorem head?_spliced (hg : IsGroup g) {cs : List Char} {es : List Element} (h : Reads cs es)
    {c : Char} (hc : c = '-' ∨ c = '*' ∨ c ∈ quotes) (hhead : cs.head? ≠ some c) :
    ((es.flatMap (Element.spliced g)).flatMap Element.spelling).head? ≠ some c := by
  rw [← spelling_of_reads h] at hhead
  cases es with
  | nil => exact hhead
  | cons e es =>
    rw [List.flatMap_cons, List.flatMap_append]
    by_cases he : e = .placeholder
    · rw [Element.spliced, if_pos he]
      exact head?_group hg _ hc
    · rw [Element.spliced, if_neg he, List.flatMap_singleton]
      rw [List.flatMap_cons] at hhead
      rwa [List.head?_append_of_ne_nil _ (spelling_ne_nil e)] at hhead ⊢

/-- An element stays what it is when other text comes behind it, if that begins with none of the
characters that the element looks out for unless the text before did. -/
theorem begins_congr {cs rest rest' : List Char} {e : Element} (h : Begins cs e rest)
    (hhead : ∀ c, c = '-' ∨ c = '*' ∨ c ∈ quotes → rest.head? ≠ some c → rest'.head? ≠ some c)
    (hnil : rest = [] → rest' = []) : Begins (e.spelling ++ rest') e rest' := by
  cases h with
  | placeholder => exact .placeholder rest'
  | code hmark hquote hline hblock =>
    exact .code hmark hquote (fun h => hhead '-' (.inl rfl) (hline h))
      fun h => hhead '*' (.inr (.inl rfl)) (hblock h)
  | @literal q inside _ hq hinside hend =>
    have htext : (Element.literal q inside).spelling ++ rest' = q :: (inside ++ q :: rest') := by
      simp [Element.spelling]
    rw [htext]
    exact .literal hq hinside (hhead q (.inr (.inr hq)) hend)
  | @lineComment inside _ hinside =>
    have htext : (Element.lineComment inside).spelling ++ rest' =
        '-' :: '-' :: (inside ++ '\n' :: rest') := by
      simp [Element.spelling]
    rw [htext]
    exact .lineComment rest' hinside
  | @blockComment inside _ hinside =>
    have htext : (Element.blockComment inside).spelling ++ rest' =
        '/' :: '*' :: (inside ++ '*' :: '/' :: rest') := by
      simp [Element.spelling]
    rw [htext]
    exact .blockComment rest' hinside
  | openLiteral hq hinside =>
    rw [hnil rfl, List.append_nil]
    exact .openLiteral hq hinside
  | openLineComment hinside =>
    rw [hnil rfl, List.append_nil]
    exact .openLineComment hinside
  | openBlockComment hinside =>
    rw [hnil rfl, List.append_nil]
    exact .openBlockComment hinside

/-- **A query with groups in the place of its placeholders** is read as before, but for the groups. -/
theorem reads_spliced (hg : IsGroup g) {cs : List Char} {es : List Element} (h : Reads cs es) :
    Reads ((es.flatMap (Element.spliced g)).flatMap Element.spelling)
      (es.flatMap (Element.spliced g)) := by
  induction h with
  | nil => exact .nil
  | @cons cs rest e es he hes ih =>
    rw [List.flatMap_cons, List.flatMap_append]
    by_cases hmark : e = .placeholder
    · rw [Element.spliced, if_pos hmark]
      exact reads_group hg.2 ih
    · rw [Element.spliced, if_neg hmark, List.flatMap_singleton]
      refine .cons (begins_congr he (fun c hc hhead => head?_spliced hg hes hc hhead) fun hnil => ?_) ih
      subst hnil
      cases hes with
      | nil => rfl
      | cons he' => cases he'

/-- **Marked characters with groups in them** still scan. -/
theorem scans_spliced (hg : IsGroup g) {ms : List (Option Char)} (h : Scans ms) :
    Scans (spliced g ms) := by
  obtain ⟨es, hes⟩ := exists_reads (spelled ms)
  have hms : es.flatMap Element.marks = ms := (marks_of_reads hes).symm.trans h
  rw [← hms, ← flatMap_marks_spliced]
  exact scans_of_reads (reads_spliced hg hes)

end Splice

/-! ## Other text behind a blank -/

/-- The quote of a mode is one. -/
def Mode.Proper : Mode → Prop
  | .quoted q => q ∈ quotes
  | _ => True

/-- Whether characters end with a blank, if there are any. -/
def EndsBlank (cs : List Char) : Prop :=
  ∀ c, cs.getLast? = some c → c = ' '

theorem EndsBlank.tail {c : Char} {cs : List Char} (h : EndsBlank (c :: cs)) : EndsBlank cs := by
  cases cs with
  | nil => exact nofun
  | cons d cs => exact fun e he => h e (by rwa [List.getLast?_cons_cons])

theorem EndsBlank.eq_of_singleton {c : Char} (h : EndsBlank [c]) : c = ' ' :=
  h c rfl

theorem EndsBlank.head?_ne {c d : Char} {cs : List Char} (h : EndsBlank (c :: cs)) (hc : c ≠ ' ')
    (hnext : ∀ cs', cs = d :: cs' → False) (rest : List Char) : (cs ++ rest).head? ≠ some d := by
  cases cs with
  | nil => exact absurd h.eq_of_singleton hc
  | cons e cs => exact fun hhead => hnext cs (by rw [Option.some.inj hhead])

/-- Whether what comes behind some characters is scanned from one mode, whatever it is. -/
def GoesOn (m : Mode) (cs : List Char) : Prop :=
  ∃ m', ∀ rest, marks m (cs ++ rest) = marks m cs ++ marks m' rest

/-- One step of a scan that looks no further than the characters given. -/
theorem GoesOn.step {m m' : Mode} {cs : List Char} (front : List Char) (ms : List (Option Char))
    (h : GoesOn m' cs)
    (hstep : ∀ rest, marks m (front ++ (cs ++ rest)) = ms ++ marks m' (cs ++ rest)) :
    GoesOn m (front ++ cs) := by
  obtain ⟨m'', hm''⟩ := h
  refine ⟨m'', fun rest => ?_⟩
  have hown : marks m (front ++ cs) = ms ++ marks m' cs := by
    simpa only [List.append_nil] using hstep []
  rw [List.append_assoc, hstep, hm'', hown, List.append_assoc]

/-- **The scan up to a blank** does not depend on what comes next, which is scanned from a mode of
its own. -/
theorem goesOn_of_endsBlank {m : Mode} (hm : m.Proper) {cs : List Char} (h : EndsBlank cs) :
    GoesOn m cs := by
  fun_induction marks m cs with
  | case1 m => exact ⟨m, fun _ => by rw [marks, List.nil_append, List.nil_append]⟩
  | case2 cs ih => exact (ih trivial h.tail).step ['?'] [none] fun _ => rfl
  | case3 cs ih =>
    exact (ih trivial h.tail.tail).step ['-', '-'] [some '-', some '-'] fun _ => rfl
  | case4 cs ih =>
    exact (ih trivial h.tail.tail).step ['/', '*'] [some '/', some '*'] fun _ => rfl
  | case5 c cs hmark hline hblock ih =>
    have hproper : (if isQuote c then Mode.quoted c else .code).Proper := by
      split_ifs with hc
      · exact isQuote_iff.1 hc
      · trivial
    refine (ih hproper h.tail).step [c] [some c] fun rest => marks_code hmark ?_ ?_
    · rintro rfl
      exact h.head?_ne (by decide) (fun cs' hcs => hline cs' rfl hcs) rest
    · rintro rfl
      exact h.head?_ne (by decide) (fun cs' hcs => hblock cs' rfl hcs) rest
  | case6 q c =>
    -- a blank alone between quotes: what follows is still inside
    obtain rfl := h.eq_of_singleton
    have hquote : ' ' ≠ q := by
      rintro rfl
      have hblank : ' ' ∈ quotes := hm
      exact absurd hblank (by decide)
    exact ⟨.quoted q, fun rest => marks_plain hquote (by simp)⟩
  | case7 q c d cs hescape ih =>
    exact (ih hm h.tail.tail).step [c, d] [some c, some d] fun rest => by
      simp only [List.cons_append, List.nil_append, marks, if_pos hescape]
  | case8 q cs hescape ih =>
    exact (ih hm h.tail.tail).step [q, q] [some q, some q] fun rest => by
      simp only [List.cons_append, List.nil_append, marks, if_neg hescape, if_true]
  | case9 q d cs hescape hne ih =>
    refine (ih trivial h.tail).step [q] [some q] fun rest => marks_close hm fun hhead => ?_
    exact hne (Option.some.inj hhead)
  | case10 q c d cs hescape hne ih =>
    exact (ih hm h.tail).step [c] [some c] fun rest => marks_plain hne (by simpa using hescape)
  | case11 c cs ih =>
    have hproper : (if c = '\n' then Mode.code else .lineComment).Proper := by
      split_ifs <;> trivial
    exact (ih hproper h.tail).step [c] [some c] fun rest => by
      rw [List.singleton_append, marks, List.singleton_append]
  | case12 cs ih =>
    exact (ih trivial h.tail.tail).step ['*', '/'] [some '*', some '/'] fun _ => rfl
  | case13 c cs hend ih =>
    refine (ih trivial h.tail).step [c] [some c] fun rest => ?_
    rw [List.singleton_append, marks]
    · rfl
    · rintro cs' rfl heq
      have hslash : (cs ++ rest).head? ≠ some '/' :=
        h.head?_ne (by decide) (fun cs'' hcs => hend cs'' rfl hcs) rest
      exact hslash (by rw [heq]; rfl)

theorem marks_of_no_mark (m : Mode) {cs : List Char} (h : '?' ∉ cs) : marks m cs = cs.map some := by
  have hall : ∀ x ∈ marks m cs, ∃ c, x = some c := by
    intro x hx
    cases x with
    | some c => exact ⟨c, rfl⟩
    | none =>
      refine absurd ?_ h
      rw [← spelled_marks m cs]
      exact List.mem_map.2 ⟨none, hx, rfl⟩
  have hback : (spelled (marks m cs)).map some = marks m cs := by
    have hsome : ∀ x ∈ marks m cs, (some ∘ (·.getD '?')) x = id x := by
      intro x hx
      obtain ⟨c, rfl⟩ := hall x hx
      rfl
    rw [spelled, List.map_map, List.map_congr_left hsome, List.map_id]
  rw [← hback, spelled_marks]

/-- **Marked text that is cut in front of a blank** can go on with a blank and any text without
placeholders. -/
theorem scans_cut {front : List Char} {back : List (Option Char)}
    (h : Scans (front.map some ++ some ' ' :: back)) {more : List Char} (hmore : '?' ∉ more) :
    Scans ((front ++ ' ' :: more).map some) := by
  have hblank : EndsBlank (front ++ [' ']) := by
    intro c hc
    rw [List.getLast?_append] at hc
    exact (Option.some.inj hc).symm
  obtain ⟨m', hm'⟩ := goesOn_of_endsBlank (m := .code) trivial hblank
  have htext : spelled (front.map some ++ some ' ' :: back) = front ++ [' '] ++ spelled back := by
    rw [spelled_append, spelled_map_some, List.append_assoc]
    rfl
  have hfront : marks .code (front ++ [' ']) = (front ++ [' ']).map some := by
    have hlen : (marks .code (front ++ [' '])).length = ((front ++ [' ']).map some).length := by
      rw [List.length_map, ← congrArg List.length (spelled_marks .code (front ++ [' '])), spelled,
        List.length_map]
    have hwhole : front.map some ++ some ' ' :: back = (front ++ [' ']).map some ++ back := by
      rw [List.map_append, List.append_assoc]
      rfl
    rw [Scans, htext, hm', hwhole] at h
    exact List.append_inj_left h hlen
  rw [Scans, spelled_map_some, List.append_cons, hm', hfront, marks_of_no_mark m' hmore,
    ← List.map_append]

end FeatureServing.Query
