import Mathlib.Data.List.Lex
import FeatureServing.Proofs.CalendarDays
import FeatureServing.Time.Instant

/-!
# Calendar and clock

What a calendar and a clock show one millisecond later is said place by place, without any count
(`CivilTime.tick`). Counted from 1970-01-01 00:00:00 it is the instant of a number of milliseconds:

* `CivilTime.IsAfter` : so many ticks lie between 1970-01-01 00:00:00 and a time;
* `CivilTime.millis_tick`, `CivilTime.isAfter_iff` : one tick adds one to the count of milliseconds,
  so a time is after the number that it is counted as;
* `CivilTime.millis_lt_iff` : later times are greater, the greatest place first.
-/

namespace FeatureServing

open Date

/-- What a calendar and a clock with milliseconds show, in any year. -/
structure CivilTime where
  year : Int
  month : Nat
  day : Nat
  hour : Nat
  minute : Nat
  second : Nat
  milli : Nat
  isDay : IsDay year month day
  inDay : hour < 24 ∧ minute < 60 ∧ second < 60 ∧ milli < 1000

namespace CivilTime

variable {c c' : CivilTime} {m : Int}

/-- The start of a day. -/
def midnight (year : Int) (month day : Nat) (h : IsDay year month day) : CivilTime :=
  ⟨year, month, day, 0, 0, 0, 0, h, by decide⟩

/-- One millisecond later: the last place with room goes up, and those behind it start again. -/
def tick (c : CivilTime) : CivilTime :=
  if h : c.milli + 1 < 1000 then
    { c with milli := c.milli + 1, inDay := ⟨c.inDay.1, c.inDay.2.1, c.inDay.2.2.1, h⟩ }
  else if h : c.second + 1 < 60 then
    { c with
      second := c.second + 1, milli := 0, inDay := ⟨c.inDay.1, c.inDay.2.1, h, by decide⟩ }
  else if h : c.minute + 1 < 60 then
    { c with
      minute := c.minute + 1, second := 0, milli := 0
      inDay := ⟨c.inDay.1, h, by decide, by decide⟩ }
  else if h : c.hour + 1 < 24 then
    { c with
      hour := c.hour + 1, minute := 0, second := 0, milli := 0
      inDay := ⟨h, by decide, by decide, by decide⟩ }
  else if h : c.day < daysIn c.year c.month then
    midnight c.year c.month (c.day + 1) (c.isDay.next h)
  else if h : c.month < 12 then
    midnight c.year (c.month + 1) 1 (isDay_start (Nat.le_add_left 1 _) h)
  else midnight (c.year + 1) 1 1 (isDay_first _)

/-- 1970-01-01 00:00:00. -/
def epoch : CivilTime :=
  midnight 1970 1 1 (by decide)

/-- Whether a time is so many milliseconds after 1970-01-01 00:00:00, before it for a negative
number. -/
def IsAfter (c : CivilTime) (m : Int) : Prop :=
  tick^[m.toNat] epoch = tick^[(-m).toNat] c

/-! ## Counting -/

/-- The count of milliseconds from 1970-01-01 00:00:00. -/
def millis (c : CivilTime) : Int :=
  daysFromCivil c.year c.month c.day * 86400000 +
    (((c.hour * 60 + c.minute) * 60 + c.second) * 1000 + c.milli : Nat)

theorem millis_midnight {year : Int} {month day : Nat} (h : IsDay year month day) :
    (midnight year month day h).millis = daysFromCivil year month day * 86400000 := by
  simp [millis, midnight]

theorem millis_of_last {n : Int} (hmilli : ¬ c.milli + 1 < 1000) (hsecond : ¬ c.second + 1 < 60)
    (hminute : ¬ c.minute + 1 < 60) (hhour : ¬ c.hour + 1 < 24)
    (h : n = daysFromCivil c.year c.month c.day + 1) : n * 86400000 = c.millis + 1 := by
  have htime := c.inDay
  rw [h, millis]
  omega

/-- **One tick adds one.** -/
theorem millis_tick (c : CivilTime) : c.tick.millis = c.millis + 1 := by
  have hday := c.isDay
  have htime := c.inDay
  unfold tick
  split_ifs with hmilli hsecond hminute hhour hnext hmonth
  · simp only [millis]
    omega
  · simp only [millis]
    omega
  · simp only [millis]
    omega
  · simp only [millis]
    omega
  · rw [millis_midnight]
    exact millis_of_last hmilli hsecond hminute hhour (daysFromCivil_add _ _ _ 1)
  · have hlast : c.day = daysIn c.year c.month := by
      have hle := hday.2.2.2
      omega
    rw [millis_midnight]
    refine millis_of_last hmilli hsecond hminute hhour ?_
    rw [daysFromCivil_next_month hday.1 hmonth, hlast]
  · have hdecember : c.month = 12 := by
      have hle := hday.2.1
      omega
    have hlast : c.day = 31 := by
      have hle := hday.2.2.2
      rw [hdecember] at hle hnext
      simp only [daysIn] at hle hnext
      omega
    rw [millis_midnight]
    refine millis_of_last hmilli hsecond hminute hhour ?_
    rw [daysFromCivil_next_year, hdecember, hlast]

theorem millis_ticks (n : Nat) (c : CivilTime) : (tick^[n] c).millis = c.millis + n := by
  induction n with
  | zero => exact (Int.add_zero _).symm
  | succ n ih =>
    rw [Function.iterate_succ_apply', millis_tick, ih]
    omega

theorem millis_epoch : epoch.millis = 0 := by
  decide

/-! ## Order -/

/-- The places, the greatest first. -/
def places (c : CivilTime) : List Int :=
  [c.year, c.month, c.day, c.hour, c.minute, c.second, c.milli]

theorem ext_places (h : c.places = c'.places) : c = c' := by
  obtain ⟨_, _, _, _, _, _, _, _, _⟩ := c
  obtain ⟨_, _, _, _, _, _, _, _, _⟩ := c'
  simpa [places] using h

theorem millis_lt_of_days_lt
    (h : daysFromCivil c.year c.month c.day < daysFromCivil c'.year c'.month c'.day) :
    c.millis < c'.millis := by
  have htime := c.inDay
  rw [millis, millis]
  omega

theorem millis_lt_of_places_lt (h : c.places < c'.places) : c.millis < c'.millis := by
  simp only [places, List.cons_lt_cons_iff, Nat.cast_lt, Nat.cast_inj, List.lt_irrefl,
    and_false, or_false] at h
  rcases h with hyear | ⟨hyear, hmonth | ⟨hmonth, hday | ⟨hday, hclock⟩⟩⟩
  · exact millis_lt_of_days_lt (daysFromCivil_lt_of_year_lt c.isDay c'.isDay hyear)
  · have hday' := c'.isDay
    rw [← hyear] at hday'
    exact millis_lt_of_days_lt (hyear ▸ daysFromCivil_lt_of_month_lt c.isDay hday' hmonth)
  · exact millis_lt_of_days_lt (hyear ▸ hmonth ▸ daysFromCivil_lt_of_day_lt hday)
  · have htime := c.inDay
    have htime' := c'.inDay
    rw [millis, millis, hyear, hmonth, hday]
    omega

/-- **Later times are greater**, the greatest place first. -/
theorem millis_lt_iff : c.millis < c'.millis ↔ c.places < c'.places := by
  refine ⟨fun h => ?_, millis_lt_of_places_lt⟩
  rcases lt_trichotomy c.places c'.places with hlt | heq | hgt
  · exact hlt
  · exact absurd (ext_places heq ▸ h) (lt_irrefl _)
  · exact absurd h (millis_lt_of_places_lt hgt).not_gt

theorem eq_of_millis_eq (h : c.millis = c'.millis) : c = c' := by
  rcases lt_trichotomy c.places c'.places with hlt | heq | hgt
  · exact absurd h (millis_lt_of_places_lt hlt).ne
  · exact ext_places heq
  · exact absurd h (millis_lt_of_places_lt hgt).ne'

/-- **A time is after the number of milliseconds that it is counted as.** -/
theorem isAfter_iff : c.IsAfter m ↔ c.millis = m := by
  have hepoch := millis_epoch
  constructor
  · intro h
    have hcount := congrArg millis h
    rw [millis_ticks, millis_ticks] at hcount
    omega
  · intro h
    refine eq_of_millis_eq ?_
    rw [millis_ticks, millis_ticks]
    omega

end CivilTime

end FeatureServing
