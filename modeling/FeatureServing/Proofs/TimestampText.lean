import Mathlib.Data.List.DropRight
import FeatureServing.Proofs.CalendarDays
import FeatureServing.Proofs.InstantText
import FeatureServing.Time.Reading

/-!
# The texts that are timestamps

`readTimestamp` goes from left to right. What it reads is said here without an order:

* `Timestamp.Numeral`, `Timestamp.Field`, `Timestamp.Year` : digits that spell a number, with white
  space in front of them, and with a sign for a year;
* `Timestamp.Written` : a text in the layout of relational columns, part by part;
* `Timestamp.number_ok_iff`, `field_ok_iff`, `yearField_ok_iff` : what one step takes, and that it
  takes all the digits it can;
* `readTimestamp_ok_iff` : a text is read as an instant if it is written so and names the instant.
-/

namespace FeatureServing

open Text

theorem Date.of?_eq_some_iff {year : Int} {month day : Nat} {d : Date} :
    Date.of? year month day = some d ↔ d.year = year ∧ d.month = month ∧ d.day = day := by
  unfold Date.of?
  constructor
  · intro h
    split at h
    · cases h
      exact ⟨rfl, rfl, rfl⟩
    · cases h
  · rintro ⟨rfl, rfl, rfl⟩
    exact dif_pos d.valid

theorem Clock.of?_eq_some_iff {hour minute second nanos : Nat} {k : Clock} :
    Clock.of? hour minute second nanos = some k ↔
      k.hour = hour ∧ k.minute = minute ∧ k.second = second ∧ k.nanos = nanos := by
  unfold Clock.of?
  constructor
  · intro h
    split at h
    · cases h
      exact ⟨rfl, rfl, rfl, rfl⟩
    · cases h
  · rintro ⟨rfl, rfl, rfl, rfl⟩
    exact dif_pos k.valid

theorem isBlank_of_isDigit {ch : Char} (h : isDigit ch = true) : isBlank ch = false := by
  have hdigit : 48 ≤ ch.toNat ∧ ch.toNat ≤ 57 := by
    rw [isDigit, Bool.and_eq_true, decide_eq_true_eq, decide_eq_true_eq] at h
    exact h
  simp [isBlank, blankRanges]
  omega

namespace Timestamp

open Instant (Ends)

/-! ## The parts of a text -/

/-- Digits that spell a number, not more than its width. -/
structure Numeral (width : Option Nat) where
  digits : List Char
  ne_nil : digits ≠ []
  allDigits : AllDigits digits
  fits : ∀ w ∈ width, digits.length ≤ w

def Numeral.value {width : Option Nat} (d : Numeral width) : Nat :=
  numberOf d.digits

theorem Numeral.exists_cons {width : Option Nat} (d : Numeral width) :
    ∃ c ds, d.digits = c :: ds ∧ isDigit c = true := by
  obtain ⟨c, ds, hds⟩ := List.exists_cons_of_ne_nil d.ne_nil
  exact ⟨c, ds, hds, d.allDigits c (hds ▸ List.mem_cons_self)⟩

/-- White space. -/
structure Blanks where
  text : List Char
  isBlank : ∀ c ∈ text, isBlank c = true

/-- A number of one or two digits, behind white space. -/
structure Field where
  blanks : Blanks
  number : Numeral (some 2)

def Field.text (f : Field) : List Char :=
  f.blanks.text ++ f.number.digits

/-- The number of a year: up to four digits, or a sign in front of any number of them. -/
inductive Year
  | plain (d : Numeral (some 4))
  | plus (d : Numeral none)
  | minus (d : Numeral none)

namespace Year

def text : Year → List Char
  | plain d => d.digits
  | plus d => '+' :: d.digits
  | minus d => '-' :: d.digits

def value : Year → Int
  | plain d => d.value
  | plus d => d.value
  | minus d => -d.value

end Year

/-- A text in the layout of relational columns. -/
structure Written where
  blanks : Blanks
  year : Year
  month : Field
  day : Field
  hour : Field
  minute : Field
  second : Field
  /-- The day and the hour do not run into each other. -/
  apart : day.number.digits.length = 2 ∨ hour.blanks.text ≠ []

namespace Written

def text (w : Written) : List Char :=
  w.blanks.text ++ (w.year.text ++ '-' :: (w.month.text ++ '-' :: (w.day.text ++
    (w.hour.text ++ ':' :: (w.minute.text ++ ':' :: w.second.text)))))

/-- Whether the numbers of the text are those of an instant. -/
def Names (w : Written) (t : Instant) : Prop :=
  (t.date.year = w.year.value ∧ t.date.month = w.month.number.value ∧
    t.date.day = w.day.number.value) ∧
  t.clock.hour = w.hour.number.value ∧ t.clock.minute = w.minute.number.value ∧
    t.clock.second = w.second.number.value ∧ t.clock.nanos = 0

end Written

/-! ## Digits -/

/-- The digits that a number of some width takes. -/
def taken (width : Option Nat) (cs : List Char) : List Char :=
  (match width with
    | some w => cs.take w
    | none => cs).takeWhile isDigit

theorem number_ok_iff_taken {width : Option Nat} {cs rest : List Char} {n : Nat} :
    number width cs = .ok (n, rest) ↔ taken width cs ≠ [] ∧ numberOf (taken width cs) = n ∧
      cs.drop (taken width cs).length = rest := by
  unfold number
  dsimp only
  split
  · have hnil : taken width [] = [] := by cases width <;> simp [taken]
    simp [hnil]
  · next c cs heq =>
    have hds : taken width (c :: cs) = [] := heq
    simp [hds]
  · next c cs d ds heq =>
    have hds : taken width (c :: cs) ≠ [] := List.ne_nil_of_mem (heq ▸ List.mem_cons_self)
    rw [Except.ok.injEq, Prod.mk.injEq]
    exact (and_iff_right hds).symm

theorem taken_append {width : Option Nat} {ds rest : List Char} (hds : AllDigits ds)
    (hfits : ∀ w ∈ width, ds.length ≤ w) (hrest : Ends rest ∨ width = some ds.length) :
    taken width (ds ++ rest) = ds := by
  cases width with
  | none =>
    have hends : Ends rest := hrest.resolve_right nofun
    show (ds ++ rest).takeWhile isDigit = ds
    rw [List.takeWhile_append_of_pos hds, hends.takeWhile_eq_nil, List.append_nil]
  | some w =>
    show ((ds ++ rest).take w).takeWhile isDigit = ds
    rw [← List.take_takeWhile, List.takeWhile_append_of_pos hds]
    rcases hrest with hends | hw
    · rw [hends.takeWhile_eq_nil, List.append_nil]
      exact List.take_of_length_le (hfits w rfl)
    · exact List.take_left' (Option.some.inj hw).symm

theorem exists_taken (width : Option Nat) (cs : List Char) :
    ∃ rest, cs = taken width cs ++ rest ∧ AllDigits (taken width cs) ∧
      (∀ w ∈ width, (taken width cs).length ≤ w) ∧
      (Ends rest ∨ width = some (taken width cs).length) := by
  have hsplit : cs.takeWhile isDigit ++ cs.dropWhile isDigit = cs :=
    List.takeWhile_append_dropWhile
  have hall : AllDigits (cs.takeWhile isDigit) := fun _ => List.mem_takeWhile_imp
  cases width with
  | none => exact ⟨_, hsplit.symm, hall, nofun, .inl (Instant.ends_dropWhile cs)⟩
  | some w =>
    have htaken : taken (some w) cs = (cs.takeWhile isDigit).take w := List.take_takeWhile.symm
    rw [htaken]
    refine ⟨(cs.takeWhile isDigit).drop w ++ cs.dropWhile isDigit, ?_, ?_, ?_, ?_⟩
    · rw [← List.append_assoc, List.take_append_drop, hsplit]
    · exact fun c hc => hall c (List.mem_of_mem_take hc)
    · intro w' hw'
      obtain rfl := Option.some.inj hw'
      exact List.length_take_le _ _
    · -- either the width is used up or the digits end earlier
      by_cases hw : w ≤ (cs.takeWhile isDigit).length
      · exact .inr (by rw [List.length_take_of_le hw])
      · rw [List.drop_eq_nil_of_le (by omega), List.nil_append]
        exact .inl (Instant.ends_dropWhile cs)

/-- **A number takes digits** that spell it, all there are up to its width. -/
theorem number_ok_iff {width : Option Nat} {cs rest : List Char} {n : Nat} :
    number width cs = .ok (n, rest) ↔ ∃ d : Numeral width, cs = d.digits ++ rest ∧ d.value = n ∧
      (Ends rest ∨ width = some d.digits.length) := by
  rw [number_ok_iff_taken]
  constructor
  · rintro ⟨hne, hvalue, hdrop⟩
    obtain ⟨rest', hsplit, hall, hfits, hstop⟩ := exists_taken width cs
    obtain rfl : rest' = rest := by
      rw [← hdrop]
      generalize taken width cs = ds at hsplit
      rw [hsplit, List.drop_left]
    exact ⟨⟨taken width cs, hne, hall, hfits⟩, hsplit, hvalue, hstop⟩
  · rintro ⟨d, rfl, hvalue, hstop⟩
    rw [taken_append d.allDigits d.fits hstop]
    exact ⟨d.ne_nil, hvalue, List.drop_left⟩

/-! ## Steps -/

theorem trimStart_blanks (b : Blanks) {c : Char} (h : isBlank c = false) (rest : List Char) :
    trimStart (b.text ++ c :: rest) = c :: rest := by
  unfold trimStart
  rw [List.dropWhile_append_of_pos b.isBlank]
  exact trimStart_cons h rest

theorem trimStart_numeral (b : Blanks) {width : Option Nat} (d : Numeral width)
    (rest : List Char) : trimStart (b.text ++ (d.digits ++ rest)) = d.digits ++ rest := by
  obtain ⟨c, ds, hds, hc⟩ := d.exists_cons
  rw [hds]
  exact trimStart_blanks b (isBlank_of_isDigit hc) _

theorem exists_blanks (cs : List Char) : ∃ b : Blanks, cs = b.text ++ trimStart cs :=
  ⟨⟨cs.takeWhile Text.isBlank, fun _ => List.mem_takeWhile_imp⟩,
    List.takeWhile_append_dropWhile.symm⟩

theorem checked_ok_iff {α : Type} (width : Option Nat) (f : Nat → α) (p : α → Prop)
    [DecidablePred p] (cs rest : List Char) (a : α) :
    (number width cs >>= fun r =>
        if p (f r.1) then .ok (f r.1, r.2) else .error .outOfRange) = .ok (a, rest) ↔
      p a ∧ ∃ d : Numeral width, cs = d.digits ++ rest ∧ f d.value = a ∧
        (Ends rest ∨ width = some d.digits.length) := by
  rw [bind_ok_iff]
  constructor
  · rintro ⟨⟨n, rest'⟩, hn, h⟩
    split at h
    · next hp =>
      obtain ⟨rfl, rfl⟩ := Prod.mk.inj (Except.ok.inj h)
      obtain ⟨d, hd, rfl, hstop⟩ := number_ok_iff.1 hn
      exact ⟨hp, d, hd, rfl, hstop⟩
    · cases h
  · rintro ⟨hp, d, hd, rfl, hstop⟩
    exact ⟨_, number_ok_iff.2 ⟨d, hd, rfl, hstop⟩, if_pos hp⟩

theorem field_ok_iff {low high n : Nat} {cs rest : List Char} :
    field low high cs = .ok (n, rest) ↔ (low ≤ n ∧ n ≤ high) ∧
      ∃ f : Field, cs = f.text ++ rest ∧ f.number.value = n ∧
        (Ends rest ∨ f.number.digits.length = 2) := by
  apply (checked_ok_iff (some 2) id (fun n => low ≤ n ∧ n ≤ high) _ rest n).trans
  refine and_congr_right fun _ => ?_
  constructor
  · rintro ⟨d, hd, hvalue, hstop⟩
    obtain ⟨b, hb⟩ := exists_blanks cs
    refine ⟨⟨b, d⟩, ?_, hvalue, hstop.imp_right fun h => (Option.some.inj h).symm⟩
    rw [Field.text, List.append_assoc, ← hd, ← hb]
  · rintro ⟨f, rfl, hvalue, hstop⟩
    refine ⟨f.number, ?_, hvalue, hstop.imp_right fun h => congrArg some h.symm⟩
    rw [Field.text, List.append_assoc, trimStart_numeral]

theorem field_text {low high : Nat} (f : Field) (hlow : low ≤ f.number.value)
    (hhigh : f.number.value ≤ high) {rest : List Char}
    (hstop : Ends rest ∨ f.number.digits.length = 2) :
    field low high (f.text ++ rest) = .ok (f.number.value, rest) :=
  field_ok_iff.2 ⟨⟨hlow, hhigh⟩, f, rfl, rfl, hstop⟩

theorem field_trimStart (low high : Nat) (cs : List Char) :
    field low high (trimStart cs) = field low high cs := by
  unfold field trimStart
  rw [List.dropWhile_idempotent]

/-- White space is no digit, and without it a number starts with one. -/
theorem Field.ends_iff (f : Field) (rest : List Char) :
    Ends (f.text ++ rest) ↔ f.blanks.text ≠ [] := by
  unfold Field.text
  cases hb : f.blanks.text with
  | nil =>
    obtain ⟨c, ds, hds, hc⟩ := f.number.exists_cons
    rw [hds]
    refine iff_of_false (fun h => ?_) (fun h => h rfl)
    rw [h c rfl] at hc
    cases hc
  | cons c cs =>
    refine iff_of_true (Instant.ends_cons ?_ _) (List.cons_ne_nil c cs)
    have hblank : Text.isBlank c = true := f.blanks.isBlank c (hb ▸ List.mem_cons_self)
    by_contra hc
    rw [isBlank_of_isDigit (Bool.not_eq_false _ ▸ hc)] at hblank
    cases hblank

theorem yearField_ok_iff {y : Int} {cs rest : List Char} (hrest : Ends rest) :
    yearField cs = .ok (y, rest) ↔ (-2147483648 ≤ y ∧ y ≤ 2147483647) ∧
      ∃ (b : Blanks) (year : Year), cs = b.text ++ (year.text ++ rest) ∧ year.value = y := by
  let InRange (y : Int) : Prop := -2147483648 ≤ y ∧ y ≤ 2147483647
  have hminus digits := checked_ok_iff none (fun n => -(n : Int)) InRange digits rest y
  have hplus digits := checked_ok_iff none (fun n => (n : Int)) InRange digits rest y
  have hplain digits := checked_ok_iff (some 4) (fun n => (n : Int)) InRange digits rest y
  constructor
  · intro h
    obtain ⟨b, hb⟩ := exists_blanks cs
    unfold yearField at h
    split at h
    · next digits heq =>
      obtain ⟨hy, d, hd, hvalue, -⟩ := (hminus digits).1 h
      refine ⟨hy, b, .minus d, ?_, hvalue⟩
      rw [hb, heq, hd]
      rfl
    · next digits heq =>
      obtain ⟨hy, d, hd, hvalue, -⟩ := (hplus digits).1 h
      refine ⟨hy, b, .plus d, ?_, hvalue⟩
      rw [hb, heq, hd]
      rfl
    · obtain ⟨hy, d, hd, hvalue, -⟩ := (hplain _).1 h
      refine ⟨hy, b, .plain d, ?_, hvalue⟩
      rw [hb, hd]
      rfl
  · rintro ⟨hy, b, year, rfl, hvalue⟩
    unfold yearField
    cases year with
    | plain d =>
      rw [Year.text, trimStart_numeral]
      have hread := (hplain _).2 ⟨hy, d, rfl, hvalue, .inl hrest⟩
      -- a digit is no sign
      obtain ⟨c, ds, hds, hc⟩ := d.exists_cons
      split
      · next heq =>
        rw [hds, List.cons_append] at heq
        exact absurd (List.head_eq_of_cons_eq heq ▸ hc) (by decide)
      · next heq =>
        rw [hds, List.cons_append] at heq
        exact absurd (List.head_eq_of_cons_eq heq ▸ hc) (by decide)
      · exact hread
    | plus d =>
      rw [Year.text, List.cons_append, trimStart_blanks b (by decide)]
      exact (hplus _).2 ⟨hy, d, rfl, hvalue, .inl hrest⟩
    | minus d =>
      rw [Year.text, List.cons_append, trimStart_blanks b (by decide)]
      exact (hminus _).2 ⟨hy, d, rfl, hvalue, .inl hrest⟩

theorem literal_ok_iff {c : Char} {cs rest : List Char} :
    literal c cs = .ok rest ↔ cs = c :: rest := by
  cases cs with
  | nil => simp [literal]
  | cons d ds =>
    show (if d = c then Except.ok ds else .error TimestampFault.invalid) = .ok rest ↔ _
    split
    · next h => simp [h]
    · next h => simp [h]

theorem literal_cons (c : Char) (rest : List Char) : literal c (c :: rest) = .ok rest :=
  literal_ok_iff.2 rfl

/-! ## Texts -/

theorem ends_dash (rest : List Char) : Ends ('-' :: rest) := Instant.ends_cons rfl rest

theorem ends_colon (rest : List Char) : Ends (':' :: rest) := Instant.ends_cons rfl rest

/-- What is read is written in the layout. -/
theorem exists_written {s : String} {t : Instant} (h : readTimestamp s = .ok t) :
    ∃ w : Written, s.toList = w.text ∧ w.Names t := by
  unfold readTimestamp at h
  obtain ⟨⟨year, cs₁⟩, hyear, h⟩ := bind_ok_iff.1 h
  obtain ⟨cs₂, hdash₁, h⟩ := bind_ok_iff.1 h
  obtain ⟨⟨month, cs₃⟩, hmonth, h⟩ := bind_ok_iff.1 h
  obtain ⟨cs₄, hdash₂, h⟩ := bind_ok_iff.1 h
  obtain ⟨⟨day, cs₅⟩, hday, h⟩ := bind_ok_iff.1 h
  obtain ⟨⟨hour, cs₆⟩, hhour, h⟩ := bind_ok_iff.1 h
  obtain ⟨cs₇, hcolon₁, h⟩ := bind_ok_iff.1 h
  obtain ⟨⟨minute, cs₈⟩, hminute, h⟩ := bind_ok_iff.1 h
  obtain ⟨cs₉, hcolon₂, h⟩ := bind_ok_iff.1 h
  obtain ⟨⟨second, cs₁₀⟩, hsecond, h⟩ := bind_ok_iff.1 h
  rw [field_trimStart] at hhour
  dsimp only at h
  split at h
  · cases h
  split at h
  · next date clock hdate hclock =>
    obtain rfl := Except.ok.inj h
    obtain rfl := literal_ok_iff.1 hdash₁
    obtain rfl := literal_ok_iff.1 hdash₂
    obtain rfl := literal_ok_iff.1 hcolon₁
    obtain rfl := literal_ok_iff.1 hcolon₂
    obtain ⟨-, b, y, hy, rfl⟩ := (yearField_ok_iff (ends_dash _)).1 hyear
    obtain ⟨-, mo, rfl, rfl, -⟩ := field_ok_iff.1 hmonth
    obtain ⟨-, d, rfl, rfl, hstop⟩ := field_ok_iff.1 hday
    obtain ⟨-, ho, rfl, rfl, -⟩ := field_ok_iff.1 hhour
    obtain ⟨-, mi, rfl, rfl, -⟩ := field_ok_iff.1 hminute
    obtain ⟨-, se, rfl, rfl, -⟩ := field_ok_iff.1 hsecond
    rw [ho.ends_iff] at hstop
    refine ⟨⟨b, y, mo, d, ho, mi, se, hstop.symm⟩, ?_, ?_⟩
    · rw [hy, List.append_nil]
      rfl
    · exact ⟨Date.of?_eq_some_iff.1 hdate, Clock.of?_eq_some_iff.1 hclock⟩
  · cases h

/-- What is written in the layout is read, as the numbers of an instant are in their ranges. -/
theorem readTimestamp_of_names {s : String} {w : Written} {t : Instant} (htext : s.toList = w.text)
    (h : w.Names t) : readTimestamp s = .ok t := by
  obtain ⟨hdate, hclock⟩ := h
  have hof : Date.of? w.year.value w.month.number.value w.day.number.value = some t.date :=
    Date.of?_eq_some_iff.2 hdate
  have hat : Clock.of? w.hour.number.value w.minute.number.value w.second.number.value 0 =
      some t.clock := Clock.of?_eq_some_iff.2 hclock
  obtain ⟨hfirst, hlast, h1, h12, h1', hin⟩ := t.date.valid
  obtain ⟨h24, h60, hleap, -⟩ := t.clock.valid
  have h31 : t.date.day ≤ 31 := hin.trans (Date.daysIn_le _ _)
  obtain ⟨hyear, hmonth, hday⟩ := hdate
  obtain ⟨hhour, hminute, hsecond, -⟩ := hclock
  have hrange : -2147483648 ≤ w.year.value ∧ w.year.value ≤ 2147483647 := by
    unfold Date.firstYear at hfirst
    unfold Date.lastYear at hlast
    omega
  have hread (rest : List Char) :
      yearField (w.blanks.text ++ (w.year.text ++ '-' :: rest)) =
        .ok (w.year.value, '-' :: rest) :=
    (yearField_ok_iff (ends_dash rest)).2 ⟨hrange, w.blanks, w.year, rfl, rfl⟩
  have hstop (rest : List Char) : Ends (w.hour.text ++ rest) ∨ w.day.number.digits.length = 2 :=
    w.apart.symm.imp_left (w.hour.ends_iff rest).2
  have hend : field 0 60 (w.second.text ++ []) = .ok (w.second.number.value, []) :=
    field_text w.second (Nat.zero_le _) (by omega) (.inl Instant.ends_nil)
  rw [List.append_nil] at hend
  unfold readTimestamp
  rw [htext]
  refine (bind_of_ok (hread _) _).trans ?_
  refine (bind_of_ok (literal_cons _ _) _).trans ?_
  refine (bind_of_ok (field_text w.month (by omega) (by omega) (.inl (ends_dash _))) _).trans ?_
  refine (bind_of_ok (literal_cons _ _) _).trans ?_
  refine (bind_of_ok (field_text w.day (by omega) (by omega) (hstop _)) _).trans ?_
  -- white space is skipped in front of the hour, and once more as in front of any number
  refine (bind_of_ok ((field_trimStart _ _ _).trans
    (field_text w.hour (Nat.zero_le _) (by omega) (.inl (ends_colon _)))) _).trans ?_
  refine (bind_of_ok (literal_cons _ _) _).trans ?_
  refine (bind_of_ok (field_text w.minute (Nat.zero_le _) (by omega) (.inl (ends_colon _)))
    _).trans ?_
  refine (bind_of_ok (literal_cons _ _) _).trans ?_
  refine (bind_of_ok hend _).trans ?_
  simp only [hof, hat]

end Timestamp

open Timestamp in
/-- **The texts that are timestamps.** A text is read as an instant if it is in the layout, white
space in front of any number aside, and its numbers are those of the instant. -/
theorem readTimestamp_ok_iff {s : String} {t : Instant} :
    readTimestamp s = .ok t ↔ ∃ w : Written, s.toList = w.text ∧ w.Names t := by
  constructor
  · exact exists_written
  · rintro ⟨w, htext, h⟩
    exact readTimestamp_of_names htext h

/-- A day of two digits needs no space behind it. -/
example : readTimestamp "2024-01-0203:04:05" = readTimestamp " 2024-1-2 3:4:5" := by
  decide +kernel

end FeatureServing
