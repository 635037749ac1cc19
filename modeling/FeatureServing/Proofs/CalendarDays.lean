import FeatureServing.Time.Calendar
import Mathlib.Tactic.IntervalCases
import Mathlib.Tactic.Ring

/-!
# Days of the calendar and their numbers

The number of a day goes up by one from a day to the next, over the ends of months and years, and a
number has one day:

* `Date.IsDay` : whether three numbers name a day, in any year;
* `Date.daysFromCivil_next_day`, `Date.daysFromCivil_next_month`, `Date.daysFromCivil_next_year` :
  the three ways to go on to the next day;
* `Date.daysFromCivil_lt_of_year_lt`, `Date.daysFromCivil_lt_of_month_lt` : a later day has a
  greater number;
* `Date.isDay_civilFromDays`, `Date.daysFromCivil_civilFromDays` : every number has a day;
* `Date.eq_of_daysFromCivil_eq`, `Date.civilFromDays_daysFromCivil` : and no other one;
* `Date.exists_ofDayNumber?_iff` : the numbers of the days that a `Date` can be.
-/

namespace FeatureServing.Date

/-- Whether three numbers name a day, in any year. -/
def IsDay (year : Int) (month day : Nat) : Prop :=
  1 ≤ month ∧ month ≤ 12 ∧ 1 ≤ day ∧ day ≤ daysIn year month

instance (year : Int) (month day : Nat) : Decidable (IsDay year month day) :=
  inferInstanceAs (Decidable (_ ∧ _ ∧ _ ∧ _))

theorem valid_iff {year : Int} {month day : Nat} :
    Valid year month day ↔ (firstYear ≤ year ∧ year ≤ lastYear) ∧ IsDay year month day :=
  and_assoc.symm

theorem isLeapYear_iff {year : Int} :
    isLeapYear year = true ↔ year % 4 = 0 ∧ (year % 100 ≠ 0 ∨ year % 400 = 0) := by
  simp [isLeapYear]

theorem one_le_daysIn (year : Int) (month : Nat) : 1 ≤ daysIn year month := by
  unfold daysIn
  split <;> try split
  all_goals decide

theorem daysIn_le (year : Int) (month : Nat) : daysIn year month ≤ 31 := by
  unfold daysIn
  split <;> try split
  all_goals decide

theorem isDay_start {year : Int} {month : Nat} (h1 : 1 ≤ month) (h12 : month ≤ 12) :
    IsDay year month 1 :=
  ⟨h1, h12, le_rfl, one_le_daysIn year month⟩

theorem IsDay.next {year : Int} {month day : Nat} (h : IsDay year month day)
    (hlt : day < daysIn year month) : IsDay year month (day + 1) :=
  ⟨h.1, h.2.1, Nat.le_add_left 1 day, hlt⟩

theorem isDay_first (year : Int) : IsDay year 1 1 :=
  isDay_start le_rfl (by decide)

theorem isDay_last (year : Int) : IsDay year 12 31 :=
  ⟨by decide, le_rfl, by decide, le_rfl⟩

/-! ## From a day to the next -/

/-- Years from March on, days from the start of a year, and the leap days in front. -/
theorem daysFromCivil_eq (year : Int) (month day : Nat) :
    daysFromCivil year month day =
      (let y := if month ≤ 2 then year - 1 else year
      365 * y + y / 4 - y / 100 + y / 400 + (153 * (((month : Int) + 9) % 12) + 2) / 5 + day -
        719469) := by
  unfold daysFromCivil
  generalize (if month ≤ 2 then year - 1 else year) = y
  simp only []
  omega

theorem daysFromCivil_add (year : Int) (month day k : Nat) :
    daysFromCivil year month (day + k) = daysFromCivil year month day + k := by
  unfold daysFromCivil
  push_cast
  ring

theorem daysFromCivil_next_month {year : Int} {month : Nat} (h1 : 1 ≤ month) (h12 : month < 12) :
    daysFromCivil year (month + 1) 1 = daysFromCivil year month (daysIn year month) + 1 := by
  rw [daysFromCivil_eq, daysFromCivil_eq]
  interval_cases month
  case «2» =>
    -- the only month whose length depends on its year
    have hleap := @isLeapYear_iff year
    unfold daysIn
    cases h : isLeapYear year <;> simp [h] at hleap ⊢ <;> omega
  all_goals simp [daysIn]; try omega

theorem daysFromCivil_next_year (year : Int) :
    daysFromCivil (year + 1) 1 1 = daysFromCivil year 12 31 + 1 := by
  rw [daysFromCivil_eq, daysFromCivil_eq]
  simp
  omega

/-! ## Later days -/

section

variable {year year' : Int} {month month' day day' : Nat}

theorem daysFromCivil_lt_of_day_lt (h : day < day') :
    daysFromCivil year month day < daysFromCivil year month day' := by
  obtain ⟨k, rfl⟩ := Nat.exists_eq_add_of_le (Nat.le_of_lt h)
  rw [daysFromCivil_add]
  omega

theorem daysFromCivil_le_of_day_le (h : day ≤ day') :
    daysFromCivil year month day ≤ daysFromCivil year month day' := by
  rcases Nat.lt_or_eq_of_le h with h | rfl
  · exact (daysFromCivil_lt_of_day_lt h).le
  · exact le_rfl

theorem daysFromCivil_end_lt_start (h1 : 1 ≤ month) (h : month < month') (h12 : month' ≤ 12) :
    daysFromCivil year month (daysIn year month) < daysFromCivil year month' 1 := by
  induction month', h using Nat.le_induction with
  | base =>
    rw [daysFromCivil_next_month h1 (by omega)]
    omega
  | succ m hm ih =>
    have hstart : daysFromCivil year m 1 ≤ daysFromCivil year m (daysIn year m) :=
      daysFromCivil_le_of_day_le (one_le_daysIn year m)
    have hnext : daysFromCivil year (m + 1) 1 = daysFromCivil year m (daysIn year m) + 1 :=
      daysFromCivil_next_month (by omega) (by omega)
    have hbefore := ih (by omega)
    omega

theorem daysFromCivil_lt_of_month_lt (hd : IsDay year month day) (hd' : IsDay year month' day')
    (h : month < month') : daysFromCivil year month day < daysFromCivil year month' day' :=
  calc daysFromCivil year month day
      ≤ daysFromCivil year month (daysIn year month) := daysFromCivil_le_of_day_le hd.2.2.2
    _ < daysFromCivil year month' 1 := daysFromCivil_end_lt_start hd.1 h hd'.2.1
    _ ≤ daysFromCivil year month' day' := daysFromCivil_le_of_day_le hd'.2.2.1

theorem daysFromCivil_year_bounds (hd : IsDay year month day) :
    daysFromCivil year 1 1 ≤ daysFromCivil year month day ∧
      daysFromCivil year month day ≤ daysFromCivil year 12 31 := by
  constructor
  · rcases Nat.lt_or_eq_of_le hd.1 with h | h
    · exact (daysFromCivil_lt_of_month_lt (isDay_first year) hd h).le
    · exact h ▸ daysFromCivil_le_of_day_le hd.2.2.1
  · rcases Nat.lt_or_eq_of_le hd.2.1 with h | rfl
    · exact (daysFromCivil_lt_of_month_lt hd (isDay_last year) h).le
    · exact daysFromCivil_le_of_day_le hd.2.2.2

theorem daysFromCivil_le_of_year_le (h : year ≤ year') :
    daysFromCivil year 1 1 ≤ daysFromCivil year' 1 1 := by
  rw [daysFromCivil_eq, daysFromCivil_eq]
  simp
  omega

theorem daysFromCivil_lt_of_year_lt (hd : IsDay year month day) (hd' : IsDay year' month' day')
    (h : year < year') : daysFromCivil year month day < daysFromCivil year' month' day' :=
  calc daysFromCivil year month day
      ≤ daysFromCivil year 12 31 := (daysFromCivil_year_bounds hd).2
    _ < daysFromCivil (year + 1) 1 1 := by
      rw [daysFromCivil_next_year]
      omega
    _ ≤ daysFromCivil year' 1 1 := daysFromCivil_le_of_year_le h
    _ ≤ daysFromCivil year' month' day' := (daysFromCivil_year_bounds hd').1

theorem le_year_iff (hd : IsDay year month day) :
    year' ≤ year ↔ daysFromCivil year' 1 1 ≤ daysFromCivil year month day := by
  constructor
  · intro h
    exact (daysFromCivil_le_of_year_le h).trans (daysFromCivil_year_bounds hd).1
  · intro h
    by_contra hlt
    exact absurd h (daysFromCivil_lt_of_year_lt hd (isDay_first year') (Int.not_le.1 hlt)).not_ge

theorem year_le_iff (hd : IsDay year month day) :
    year ≤ year' ↔ daysFromCivil year month day ≤ daysFromCivil year' 12 31 := by
  constructor
  · intro h
    rcases Int.lt_or_eq_of_le h with hlt | rfl
    · exact (daysFromCivil_lt_of_year_lt hd (isDay_last year') hlt).le
    · exact (daysFromCivil_year_bounds hd).2
  · intro h
    by_contra hlt
    exact absurd h (daysFromCivil_lt_of_year_lt (isDay_last year') hd (Int.not_le.1 hlt)).not_ge

/-- **A number has one day.** -/
theorem eq_of_daysFromCivil_eq (hd : IsDay year month day) (hd' : IsDay year' month' day')
    (h : daysFromCivil year month day = daysFromCivil year' month' day') :
    (year, month, day) = (year', month', day') := by
  rcases lt_trichotomy year year' with hy | rfl | hy
  · exact absurd h (daysFromCivil_lt_of_year_lt hd hd' hy).ne
  · rcases lt_trichotomy month month' with hm | rfl | hm
    · exact absurd h (daysFromCivil_lt_of_month_lt hd hd' hm).ne
    · rcases lt_trichotomy day day' with hk | rfl | hk
      · exact absurd h (daysFromCivil_lt_of_day_lt hk).ne
      · rfl
      · exact absurd h (daysFromCivil_lt_of_day_lt hk).ne'
    · exact absurd h (daysFromCivil_lt_of_month_lt hd' hd hm).ne'
  · exact absurd h (daysFromCivil_lt_of_year_lt hd' hd hy).ne'

end

/-! ## The day of a number -/

/-- A day of an era of four hundred years, counted from a March: centuries, cycles of four years,
years and days. Only the last year of a cycle has a day 365, and only the last century has one in
its last cycle. -/
structure EraDay where
  century : Int
  cycle : Int
  year : Int
  day : Int
  century_bounds : 0 ≤ century ∧ century ≤ 3
  cycle_bounds : 0 ≤ cycle ∧ cycle ≤ 24
  year_bounds : 0 ≤ year ∧ year ≤ 3
  day_bounds : 0 ≤ day ∧ (day ≤ 364 ∨ day = 365 ∧ year = 3 ∧ (cycle = 24 → century = 3))

namespace EraDay

/-- How many days of the era stand in front. -/
def number (d : EraDay) : Int :=
  36524 * d.century + 1461 * d.cycle + 365 * d.year + d.day

/-- How many years of the era stand in front. -/
def years (d : EraDay) : Int :=
  100 * d.century + 4 * d.cycle + d.year

theorem exists_number_eq {n : Int} (h0 : 0 ≤ n) (h : n < 146097) : ∃ d : EraDay, d.number = n := by
  obtain ⟨c, hc⟩ : ∃ c, c = min (n / 36524) 3 := ⟨_, rfl⟩
  obtain ⟨r, hr⟩ : ∃ r, r = n - 36524 * c := ⟨_, rfl⟩
  obtain ⟨q, hq⟩ : ∃ q, q = r / 1461 := ⟨_, rfl⟩
  obtain ⟨t, ht⟩ : ∃ t, t = min (r % 1461 / 365) 3 := ⟨_, rfl⟩
  have hrest : 0 ≤ r ∧ (r ≤ 36523 ∨ r = 36524 ∧ c = 3) := by omega
  refine ⟨⟨c, q, t, r - 1461 * q - 365 * t, ?_, ?_, ?_, ?_⟩, ?_⟩
  · omega
  · omega
  · omega
  · omega
  · show 36524 * c + 1461 * q + 365 * t + (r - 1461 * q - 365 * t) = n
    omega

/-- The quotient that takes the leap days of an era out gives its years. -/
theorem years_eq (d : EraDay) :
    (d.number - d.number / 1460 + d.number / 36524 - d.number / 146096) / 365 = d.years := by
  obtain ⟨c, q, t, u, hc, hq, ht, hu⟩ := d
  simp only [number, years]
  generalize hn : 36524 * c + 1461 * q + 365 * t + u = n
  have hcentury : n / 36524 - n / 146096 = c := by
    by_cases hlast : n = 146096
    · have hc : c = 3 := by omega
      rw [hlast, hc]
      decide
    · have hrest : 1461 * q + 365 * t + u ≤ 36523 := by omega
      have hfirst : n / 36524 = c := by omega
      omega
  have hcycle : n / 1460 = 25 * c + q + (24 * c + q + 365 * t + u) / 1460 := by omega
  rw [add_sub_assoc, hcentury, hcycle]
  omega

theorem years_bounds (d : EraDay) : 0 ≤ d.years ∧ d.years ≤ 399 := by
  have hc := d.century_bounds
  have hq := d.cycle_bounds
  have ht := d.year_bounds
  unfold years
  omega

theorem leapDays_eq (d : EraDay) (era : Int) :
    (d.years + era * 400) / 4 - (d.years + era * 400) / 100 + (d.years + era * 400) / 400 =
      d.years / 4 - d.years / 100 + 97 * era := by
  have hyears := d.years_bounds
  omega

theorem day_eq (d : EraDay) : d.number - (365 * d.years + d.years / 4 - d.years / 100) = d.day := by
  obtain ⟨c, q, t, u, hc, hq, ht, hu⟩ := d
  simp only [number, years]
  omega

end EraDay

theorem exists_civilFromDays_eq (n : Int) : ∃ (d : EraDay) (era : Int),
    n + 719468 = 146097 * era + d.number ∧ civilFromDays n =
      (let shifted := (5 * d.day + 2) / 153
      let month := if shifted < 10 then shifted + 3 else shifted - 9
      (d.years + era * 400 + if month ≤ 2 then 1 else 0, month.toNat,
        (d.day - (153 * shifted + 2) / 5 + 1).toNat)) := by
  obtain ⟨d, hd⟩ := EraDay.exists_number_eq (n := (n + 719468) % 146097) (by omega) (by omega)
  refine ⟨d, (n + 719468) / 146097, by omega, ?_⟩
  simp only [civilFromDays, ← hd, d.years_eq, d.day_eq]

theorem EraDay.isLeapYear_of_day_eq {d : EraDay} (h : d.day = 365) (era : Int) :
    isLeapYear (d.years + era * 400 + 1) = true := by
  have hc := d.century_bounds
  have hq := d.cycle_bounds
  have hu := d.day_bounds
  rw [isLeapYear_iff, years]
  omega

/-- **Every number has a day.** -/
theorem isDay_civilFromDays (n : Int) :
    IsDay (civilFromDays n).1 (civilFromDays n).2.1 (civilFromDays n).2.2 := by
  obtain ⟨d, era, -, hcivil⟩ := exists_civilFromDays_eq n
  have hday := d.day_bounds
  have hleap (h : d.day = 365) := d.isLeapYear_of_day_eq h era
  rw [hcivil]
  simp only
  generalize hs : (5 * d.day + 2) / 153 = s
  have hs0 : 0 ≤ s := by omega
  have hs11 : s ≤ 11 := by omega
  interval_cases s
  case «11» =>
    by_cases hlast : d.day = 365
    · simp [IsDay, daysIn, hleap hlast, hlast]
    · have h28 : (d.day - 337 + 1).toNat ≤ 28 := by omega
      simp [IsDay, daysIn]
      split <;> omega
  all_goals
    simp [IsDay, daysIn]
    omega

theorem daysFromCivil_civilFromDays (n : Int) :
    daysFromCivil (civilFromDays n).1 (civilFromDays n).2.1 (civilFromDays n).2.2 = n := by
  obtain ⟨d, era, hn, hcivil⟩ := exists_civilFromDays_eq n
  have hday := d.day_bounds
  have hfront := d.day_eq
  have hleaps := d.leapDays_eq era
  rw [hcivil, daysFromCivil_eq]
  simp only
  generalize hs : (5 * d.day + 2) / 153 = s
  have hs0 : 0 ≤ s := by omega
  have hs11 : s ≤ 11 := by omega
  interval_cases s
  all_goals
    simp
    omega

theorem civilFromDays_daysFromCivil {year : Int} {month day : Nat} (hd : IsDay year month day) :
    civilFromDays (daysFromCivil year month day) = (year, month, day) :=
  eq_of_daysFromCivil_eq (isDay_civilFromDays _) hd (daysFromCivil_civilFromDays _)

/-! ## The days of a `Date` -/

theorem isDay (d : Date) : IsDay d.year d.month d.day :=
  (valid_iff.1 d.valid).2

theorem ofDayNumber?_eq_some_iff {n : Int} {d : Date} :
    ofDayNumber? n = some d ↔ d.dayNumber = n := by
  have hof : ofDayNumber? n =
      of? (civilFromDays n).1 (civilFromDays n).2.1 (civilFromDays n).2.2 := rfl
  constructor
  · intro h
    rw [hof, of?] at h
    split at h
    · cases h
      exact daysFromCivil_civilFromDays n
    · cases h
  · rintro rfl
    rw [hof, dayNumber, civilFromDays_daysFromCivil d.isDay]
    exact dif_pos d.valid

theorem exists_ofDayNumber?_iff {n : Int} :
    (∃ d, ofDayNumber? n = some d) ↔
      daysFromCivil firstYear 1 1 ≤ n ∧ n ≤ daysFromCivil lastYear 12 31 := by
  simp only [ofDayNumber?_eq_some_iff]
  constructor
  · rintro ⟨d, rfl⟩
    exact ⟨(le_year_iff d.isDay).1 d.valid.1, (year_le_iff d.isDay).1 d.valid.2.1⟩
  · rintro ⟨hfirst, hlast⟩
    have hday := isDay_civilFromDays n
    have hn := daysFromCivil_civilFromDays n
    rw [← hn, ← le_year_iff hday] at hfirst
    rw [← hn, ← year_le_iff hday] at hlast
    exact ⟨⟨_, _, _, valid_iff.2 ⟨⟨hfirst, hlast⟩, hday⟩⟩, hn⟩

end FeatureServing.Date
