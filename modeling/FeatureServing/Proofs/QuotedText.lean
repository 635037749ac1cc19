import Mathlib.Data.List.Basic
import Mathlib.Data.Nat.Init
import FeatureServing.Text.Quoted

/-!
# A quoted text stands for one text

* `Text.hexDigits_injective` : hexadecimal digits determine a number;
* `Text.quoteChar_append_inj` : no escape is the start of another one, so the first character of a
  quoted text and what follows it are determined;
* `Text.quote_injective` : hence a quoted text is that of one text only.
-/

namespace FeatureServing.Text

/-! ## Hexadecimal digits -/

theorem hexDigits_of_lt {n : Nat} (h : n < 16) : hexDigits n = [Nat.digitChar n] :=
  Nat.toDigits_of_lt_base h

theorem hexDigits_of_le {n : Nat} (h : 16 ≤ n) :
    hexDigits n = hexDigits (n / 16) ++ [Nat.digitChar (n % 16)] :=
  Nat.toDigits_of_base_le (by decide) h

theorem digitChar_inj : ∀ d < 16, ∀ e < 16, Nat.digitChar d = Nat.digitChar e → d = e := by
  decide

theorem exists_of_mem_hexDigits (n : Nat) {c : Char} (h : c ∈ hexDigits n) :
    ∃ d < 16, c = Nat.digitChar d := by
  induction n using Nat.strong_induction_on with
  | h n ih =>
    rcases Nat.lt_or_ge n 16 with hn | hn
    · rw [hexDigits_of_lt hn, List.mem_singleton] at h
      exact ⟨n, hn, h⟩
    · rw [hexDigits_of_le hn, List.mem_append, List.mem_singleton] at h
      rcases h with h | h
      · exact ih (n / 16) (by omega) h
      · exact ⟨n % 16, Nat.mod_lt _ (by decide), h⟩

theorem brace_not_mem_hexDigits (n : Nat) : '\x7d' ∉ hexDigits n := by
  intro h
  obtain ⟨d, hd, hc⟩ := exists_of_mem_hexDigits n h
  exact (by decide : ∀ d < 16, '\x7d' ≠ Nat.digitChar d) d hd hc

theorem hexDigits_injective : Function.Injective hexDigits := by
  intro n m h
  induction n using Nat.strong_induction_on generalizing m with
  | h n ih =>
    have hne (k : Nat) : hexDigits k ≠ [] := Nat.toDigits_ne_nil
    rcases Nat.lt_or_ge n 16 with hn | hn <;> rcases Nat.lt_or_ge m 16 with hm | hm
    · rw [hexDigits_of_lt hn, hexDigits_of_lt hm] at h
      exact digitChar_inj n hn m hm (List.head_eq_of_cons_eq h)
    · rw [hexDigits_of_lt hn, hexDigits_of_le hm] at h
      exact absurd (List.append_eq_singleton_iff.1 h.symm) (by simp [hne])
    · rw [hexDigits_of_le hn, hexDigits_of_lt hm] at h
      exact absurd (List.append_eq_singleton_iff.1 h) (by simp [hne])
    · rw [hexDigits_of_le hn, hexDigits_of_le hm] at h
      obtain ⟨hfront, hlast⟩ := List.append_inj' h rfl
      have hdiv := ih (n / 16) (by omega) hfront
      have hmod := digitChar_inj _ (Nat.mod_lt n (by decide)) _ (Nat.mod_lt m (by decide))
        (List.head_eq_of_cons_eq hlast)
      omega

theorem takeWhile_hexDigits (n : Nat) (r : List Char) :
    (hexDigits n ++ '\x7d' :: r).takeWhile (· != '\x7d') = hexDigits n := by
  rw [List.takeWhile_append_of_pos, List.takeWhile_cons_of_neg (by decide), List.append_nil]
  rintro c hc
  refine bne_iff_ne.2 ?_
  rintro rfl
  exact brace_not_mem_hexDigits n hc

theorem hexDigits_append_inj {n m : Nat} {r r' : List Char}
    (h : hexDigits n ++ '\x7d' :: r = hexDigits m ++ '\x7d' :: r') : n = m ∧ r = r' := by
  have hdigits : hexDigits n = hexDigits m := by
    rw [← takeWhile_hexDigits n r, h, takeWhile_hexDigits]
  have hrest := (List.append_inj h (congrArg List.length hdigits)).2
  exact ⟨hexDigits_injective hdigits, List.tail_eq_of_cons_eq hrest⟩

/-! ## Escapes -/

/-- The characters that have an escape of their own, with its letter. -/
def shortEscapes : List (Char × Char) :=
  [('\x00', '0'), ('\t', 't'), ('\n', 'n'), ('\r', 'r'), ('\x22', '\x22'), ('\x5c', '\x5c')]

theorem mem_shortEscapes {c e : Char} (h : shortEscape? c = some e) : (c, e) ∈ shortEscapes := by
  unfold shortEscape? at h
  split_ifs at h with h0 h1 h2 h3 h4 h5 <;> cases h <;> subst_vars <;> decide

theorem shortEscape?_inj {c d e : Char} (hc : shortEscape? c = some e)
    (hd : shortEscape? d = some e) : c = d :=
  (by decide : ∀ p ∈ shortEscapes, ∀ q ∈ shortEscapes, p.2 = q.2 → p.1 = q.1) _
    (mem_shortEscapes hc) _ (mem_shortEscapes hd) rfl

theorem shortEscape?_ne_u {c e : Char} (h : shortEscape? c = some e) : e ≠ 'u' :=
  (by decide : ∀ p ∈ shortEscapes, p.2 ≠ 'u') _ (mem_shortEscapes h)

/-- How a character stands in a quoted text: behind a backslash by a letter, as itself, or by its
number. -/
inductive Quoted (c : Char) : List Char → Prop
  | short {e : Char} (h : shortEscape? c = some e) : Quoted c ['\x5c', e]
  | itself (hquote : c ≠ '\x22') (hslash : c ≠ '\x5c') : Quoted c [c]
  | number : Quoted c ('\x5c' :: 'u' :: '\x7b' :: (hexDigits c.toNat ++ ['\x7d']))

theorem quoted_quoteChar (c : Char) : Quoted c (quoteChar c) := by
  unfold quoteChar
  split
  · next h => exact .short h
  · next h =>
    have hquote : c ≠ '\x22' := by
      rintro rfl
      cases h
    have hslash : c ≠ '\x5c' := by
      rintro rfl
      cases h
    split
    · exact .itself hquote hslash
    · exact .number

theorem Quoted.exists_cons {c : Char} {cs : List Char} (h : Quoted c cs) :
    ∃ a as, cs = a :: as ∧ a ≠ '\x22' := by
  cases h with
  | short _ => exact ⟨_, _, rfl, by decide⟩
  | itself hquote _ => exact ⟨_, _, rfl, hquote⟩
  | number => exact ⟨_, _, rfl, by decide⟩

/-- No escape is the start of another one. -/
theorem Quoted.append_inj {c d : Char} {cs ds r r' : List Char} (hc : Quoted c cs)
    (hd : Quoted d ds) (h : cs ++ r = ds ++ r') : c = d ∧ r = r' := by
  cases hc with
  | short hc =>
    cases hd with
    | short hd =>
      simp only [List.cons_append, List.nil_append, List.cons.injEq, true_and] at h
      obtain ⟨rfl, hr⟩ := h
      exact ⟨shortEscape?_inj hc hd, hr⟩
    | itself _ hslash => exact absurd (List.head_eq_of_cons_eq h).symm hslash
    | number =>
      simp only [List.cons_append, List.nil_append, List.cons.injEq, true_and] at h
      exact absurd h.1 (shortEscape?_ne_u hc)
  | itself _ hslash =>
    cases hd with
    | short _ => exact absurd (List.head_eq_of_cons_eq h) hslash
    | itself _ _ => exact List.cons_eq_cons.1 h
    | number => exact absurd (List.head_eq_of_cons_eq h) hslash
  | number =>
    cases hd with
    | short hd =>
      simp only [List.cons_append, List.nil_append, List.cons.injEq, true_and] at h
      exact absurd h.1.symm (shortEscape?_ne_u hd)
    | itself _ hslash => exact absurd (List.head_eq_of_cons_eq h).symm hslash
    | number =>
      simp only [List.cons_append, List.append_assoc, List.nil_append, List.cons.injEq,
        true_and] at h
      obtain ⟨hnumber, hrest⟩ := hexDigits_append_inj h
      exact ⟨Char.toNat_inj.1 hnumber, hrest⟩

theorem quoteChar_append_inj {c d : Char} {r r' : List Char}
    (h : quoteChar c ++ r = quoteChar d ++ r') : c = d ∧ r = r' :=
  (quoted_quoteChar c).append_inj (quoted_quoteChar d) h

/-! ## Quoted texts -/

/-- The first quote that is no part of an escape ends the text. -/
theorem flatMap_quoteChar_inj {cs ds : List Char}
    (h : cs.flatMap quoteChar ++ ['\x22'] = ds.flatMap quoteChar ++ ['\x22']) : cs = ds := by
  have hend (d : Char) (r : List Char) : ['\x22'] ≠ quoteChar d ++ r := by
    obtain ⟨a, as, ha, hne⟩ := (quoted_quoteChar d).exists_cons
    rw [ha]
    exact fun he => hne (List.head_eq_of_cons_eq he).symm
  induction cs generalizing ds with
  | nil =>
    cases ds with
    | nil => rfl
    | cons d ds =>
      rw [List.flatMap_cons, List.append_assoc] at h
      exact absurd h (hend d _)
  | cons c cs ih =>
    cases ds with
    | nil =>
      rw [List.flatMap_cons, List.append_assoc] at h
      exact absurd h.symm (hend c _)
    | cons d ds =>
      rw [List.flatMap_cons, List.flatMap_cons, List.append_assoc, List.append_assoc] at h
      obtain ⟨hc, hrest⟩ := quoteChar_append_inj h
      rw [hc, ih hrest]

/-- **A quoted text is that of one text only.** -/
theorem quote_injective : Function.Injective quote := by
  intro s t h
  have hlist := List.tail_eq_of_cons_eq (String.ofList_inj.1 h)
  exact String.toList_inj.1 (flatMap_quoteChar_inj hlist)

end FeatureServing.Text
