import FeatureServing.Proofs.DecimalText
import FeatureServing.Proofs.Fallible
import FeatureServing.Text.Float
import FeatureServing.Time.Instant

/-!
# An instant is read as it is written

* `Instant.Ends` : no digit follows, so a run of digits ends there;
* `Instant.takeNumber?_padded` : the digits of a number give it back, whatever follows them but a
  digit;
* `Instant.readFraction?_writeFraction` : so do three, six or nine digits of a fraction;
* `Instant.read?_write` : a written instant is read back;
* `Instant.write_injective` : hence a text names one instant only.
-/

namespace FeatureServing

namespace Text

theorem allDigits_padded (w n : Nat) : AllDigits (padded w n) :=
  (allDigits_zeros _).append (allDigits_decimalDigits n)

@[simp] theorem numberOf_padded (w n : Nat) : numberOf (padded w n) = n := by
  unfold padded
  rw [numberOf_zeros_append, numberOf_decimalDigits]

theorem padded_ne_nil (w n : Nat) : padded w n ≠ [] := by
  unfold padded
  simp [decimalDigits_ne_nil]

theorem length_padded {w n : Nat} (hw : 0 < w) (h : n < 10 ^ w) : (padded w n).length = w := by
  have hlen : (decimalDigits n).length ≤ w := (Nat.length_toDigits_le_iff (by decide) hw).2 h
  unfold padded
  rw [List.length_append, List.length_replicate]
  omega

end Text

namespace Instant

open Text

/-! ## Numbers -/

/-- Whether no digit stands at the start of a text. -/
def Ends (rest : List Char) : Prop :=
  ∀ c ∈ rest.head?, isDigit c = false

theorem ends_nil : Ends [] := nofun

theorem ends_cons {c : Char} (h : isDigit c = false) (rest : List Char) : Ends (c :: rest) :=
  fun _ hd => Option.some.inj hd ▸ h

theorem ends_dropWhile (cs : List Char) : Ends (cs.dropWhile isDigit) := by
  intro c hc
  have hnot := List.head?_dropWhile_not isDigit cs
  rwa [Option.mem_def.1 hc] at hnot

theorem Ends.takeWhile_eq_nil {rest : List Char} (h : Ends rest) : rest.takeWhile isDigit = [] := by
  cases rest with
  | nil => rfl
  | cons c cs => exact List.takeWhile_cons_of_neg (Bool.eq_false_iff.1 (h c rfl))

theorem Ends.dropWhile_eq_self {rest : List Char} (h : Ends rest) :
    rest.dropWhile isDigit = rest := by
  cases rest with
  | nil => rfl
  | cons c cs => exact List.dropWhile_cons_of_neg (Bool.eq_false_iff.1 (h c rfl))

theorem takeNumber?_append {ds rest : List Char} (hds : AllDigits ds) (hne : ds ≠ [])
    (hrest : Ends rest) : takeNumber? (ds ++ rest) = some (numberOf ds, rest) := by
  obtain ⟨d, ds', rfl⟩ := List.exists_cons_of_ne_nil hne
  unfold takeNumber?
  rw [List.takeWhile_append_of_pos hds, List.dropWhile_append_of_pos hds, hrest.takeWhile_eq_nil,
    hrest.dropWhile_eq_self, List.append_nil]

theorem takeNumber?_padded (w n : Nat) {rest : List Char} (hrest : Ends rest) :
    takeNumber? (padded w n ++ rest) = some (n, rest) := by
  rw [takeNumber?_append (allDigits_padded w n) (padded_ne_nil w n) hrest, numberOf_padded]

theorem takeNumber?_padded_cons (w n : Nat) {c : Char} {rest : List Char}
    (hc : isDigit c = false) : takeNumber? (padded w n ++ c :: rest) = some (n, c :: rest) :=
  takeNumber?_padded w n (ends_cons hc rest)

@[simp] theorem takeChar?_cons (c : Char) (rest : List Char) :
    takeChar? c (c :: rest) = some rest :=
  if_pos rfl

/-! ## Fractions -/

theorem ends_writeFraction (n : Nat) : Ends (writeFraction n) := by
  unfold writeFraction Ends
  split_ifs <;> simp [show isDigit '.' = false from rfl]

/-- The digits of a fraction, up to nine of them, give its nanoseconds back. -/
theorem readFraction?_padded {w n : Nat} (hw : 0 < w) (hw' : w ≤ 9) (h : n < 10 ^ w) :
    readFraction? ('.' :: padded w n) = some (n * 10 ^ (9 - w)) := by
  have hdigits : (padded w n).all isDigit = true := List.all_eq_true.2 (allDigits_padded w n)
  have hempty : (padded w n).isEmpty = false := by
    rw [List.isEmpty_eq_false_iff]
    exact padded_ne_nil w n
  have hshape : ('.' = '.' && !(padded w n).isEmpty && (padded w n).length ≤ 9 &&
      (padded w n).all isDigit) = true := by
    simp [hdigits, hempty, length_padded hw h, hw']
  refine (if_pos hshape).trans ?_
  rw [numberOf_padded, length_padded hw h]
  rfl

theorem readFraction?_writeFraction {n : Nat} (h : n < 1000000000) :
    readFraction? (writeFraction n) = some n := by
  unfold writeFraction
  split_ifs with h0 h3 h6
  · rw [h0]
    rfl
  · rw [readFraction?_padded (by decide) (by decide) (by omega)]
    exact congrArg some (by omega)
  · rw [readFraction?_padded (by decide) (by decide) (by omega)]
    exact congrArg some (by omega)
  · rw [readFraction?_padded (by decide) (by decide) (by omega)]
    exact congrArg some (by omega)

/-! ## Instants -/

theorem toList_write (separator : Char) (t : Instant) :
    (t.write separator).toList =
      writeYear t.date.year ++ '-' :: (padded 2 t.date.month ++ '-' :: (padded 2 t.date.day ++
        separator :: (padded 2 t.clock.hour ++ ':' :: (padded 2 t.clock.minute ++
          ':' :: (padded 2 t.clock.second ++ writeFraction t.clock.nanos))))) := by
  unfold write writeDate writeClock
  simp only [String.toList_ofList, List.append_assoc, List.cons_append]

theorem takeSign_writeYear (year : Int) :
    ∃ (negative : Bool) (n : Nat), (if negative then -(n : Int) else n) = year ∧
      ∀ rest, takeSign (writeYear year ++ rest) = (negative, padded 4 n ++ rest) := by
  unfold writeYear
  split_ifs with hplain hneg
  · refine ⟨false, year.toNat, Int.toNat_of_nonneg hplain.1, fun rest => ?_⟩
    obtain ⟨d, ds, hds⟩ := List.exists_cons_of_ne_nil (padded_ne_nil 4 year.toNat)
    have hd : isDigit d = true := allDigits_padded 4 year.toNat d (hds ▸ List.mem_cons_self)
    rw [hds, List.cons_append]
    unfold takeSign
    split
    · next heq => exact absurd (List.head_eq_of_cons_eq heq ▸ hd) (by decide)
    · next heq => exact absurd (List.head_eq_of_cons_eq heq ▸ hd) (by decide)
    · rfl
  · exact ⟨true, year.natAbs, show -(year.natAbs : Int) = year by omega, fun _ => rfl⟩
  · exact ⟨false, year.natAbs, show (year.natAbs : Int) = year by omega, fun _ => rfl⟩

/-- **A written instant is read back.** -/
theorem read?_write {separator : Char} (h : isDigit separator = false) (t : Instant) :
    read? separator (t.write separator) = some t := by
  obtain ⟨negative, n, hyear, hsign⟩ := takeSign_writeYear t.date.year
  have hminus : isDigit '-' = false := rfl
  have hcolon : isDigit ':' = false := rfl
  have hsecond := takeNumber?_padded 2 t.clock.second (ends_writeFraction t.clock.nanos)
  have hfraction := readFraction?_writeFraction t.clock.valid.2.2.2
  have hdate : Date.of? (if negative then -(n : Int) else n) t.date.month t.date.day =
      some t.date := by
    rw [hyear]
    exact dif_pos t.date.valid
  have hclock : Clock.of? t.clock.hour t.clock.minute t.clock.second t.clock.nanos = some t.clock :=
    dif_pos t.clock.valid
  unfold read?
  rw [toList_write]
  split
  next sign rest heq =>
    -- the sign is split off as `takeSign` does it
    cases heq.symm.trans (hsign _)
    refine (bind_of_some (takeNumber?_padded_cons 4 n hminus) _).trans ?_
    refine (bind_of_some (takeChar?_cons _ _) _).trans ?_
    refine (bind_of_some (takeNumber?_padded_cons 2 t.date.month hminus) _).trans ?_
    refine (bind_of_some (takeChar?_cons _ _) _).trans ?_
    refine (bind_of_some (takeNumber?_padded_cons 2 t.date.day h) _).trans ?_
    refine (bind_of_some (takeChar?_cons _ _) _).trans ?_
    refine (bind_of_some (takeNumber?_padded_cons 2 t.clock.hour hcolon) _).trans ?_
    refine (bind_of_some (takeChar?_cons _ _) _).trans ?_
    refine (bind_of_some (takeNumber?_padded_cons 2 t.clock.minute hcolon) _).trans ?_
    refine (bind_of_some (takeChar?_cons _ _) _).trans ?_
    refine (bind_of_some hsecond _).trans ?_
    refine (bind_of_some hfraction _).trans ?_
    refine (bind_of_some hdate _).trans ?_
    exact bind_of_some hclock _

/-- **A text names one instant only.** -/
theorem write_injective {separator : Char} (h : isDigit separator = false) :
    Function.Injective (write separator) := by
  intro t u htu
  have hread := read?_write h t
  rw [htu, read?_write h u] at hread
  exact (Option.some.inj hread).symm

end Instant

end FeatureServing
