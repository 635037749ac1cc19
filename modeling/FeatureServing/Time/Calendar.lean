/-!
# The proleptic Gregorian calendar

* `daysIn year month` : the length of a month;
* `Date` : a day of the calendar between `Date.firstYear` and `Date.lastYear`;
* `Date.dayNumber`, `Date.ofDayNumber?` : days counted from 1970-01-01.

A civil year is counted from March here, so that the leap day is the last day of its year, and
four hundred of them make a cycle of 146097 days.
-/

namespace FeatureServing

def isLeapYear (year : Int) : Bool :=
  year % 4 == 0 && (year % 100 != 0 || year % 400 == 0)

def daysIn (year : Int) (month : Nat) : Nat :=
  match month with
  | 2 => if isLeapYear year then 29 else 28
  | 4 | 6 | 9 | 11 => 30
  | _ => 31

namespace Date

def firstYear : Int := -262143

def lastYear : Int := 262142

/-- Whether three numbers name a day of the calendar. -/
def Valid (year : Int) (month day : Nat) : Prop :=
  firstYear ≤ year ∧ year ≤ lastYear ∧ 1 ≤ month ∧ month ≤ 12 ∧ 1 ≤ day ∧ day ≤ daysIn year month

instance (year : Int) (month day : Nat) : Decidable (Valid year month day) :=
  inferInstanceAs (Decidable (_ ∧ _ ∧ _ ∧ _ ∧ _ ∧ _))

end Date

/-- A day of the calendar. -/
structure Date where
  year : Int
  month : Nat
  day : Nat
  valid : Date.Valid year month day
deriving DecidableEq

namespace Date

/-- The day that three numbers name, if there is one. -/
def of? (year : Int) (month day : Nat) : Option Date :=
  if h : Valid year month day then some ⟨year, month, day, h⟩ else none

/-- The number of days from 1970-01-01 to the day that three numbers name. -/
def daysFromCivil (year : Int) (month day : Nat) : Int :=
  let y := if month ≤ 2 then year - 1 else year
  let era := y / 400
  let yearOfEra := y % 400
  let shifted : Int := (month + 9) % 12
  let dayOfYear := (153 * shifted + 2) / 5 + day - 1
  let dayOfEra := yearOfEra * 365 + yearOfEra / 4 - yearOfEra / 100 + dayOfYear
  era * 146097 + dayOfEra - 719468

/-- Year, month and day of a number of days from 1970-01-01. -/
def civilFromDays (days : Int) : Int × Nat × Nat :=
  let z := days + 719468
  let era := z / 146097
  let dayOfEra := z % 146097
  let yearOfEra := (dayOfEra - dayOfEra / 1460 + dayOfEra / 36524 - dayOfEra / 146096) / 365
  let dayOfYear := dayOfEra - (365 * yearOfEra + yearOfEra / 4 - yearOfEra / 100)
  let shifted := (5 * dayOfYear + 2) / 153
  let day := dayOfYear - (153 * shifted + 2) / 5 + 1
  let month := if shifted < 10 then shifted + 3 else shifted - 9
  let year := yearOfEra + era * 400 + if month ≤ 2 then 1 else 0
  (year, month.toNat, day.toNat)

def dayNumber (d : Date) : Int :=
  daysFromCivil d.year d.month d.day

def ofDayNumber? (days : Int) : Option Date :=
  let (year, month, day) := civilFromDays days
  of? year month day

end Date

end FeatureServing
