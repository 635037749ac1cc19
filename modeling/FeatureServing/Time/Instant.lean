import FeatureServing.Time.Calendar
import FeatureServing.Text.Digits

/-!
# Instants without a time zone

An `Instant` is a date and a time of day to the nanosecond; second 60 is a leap second.

* `Instant.ofEpochMillis?` : the instant a number of milliseconds after 1970-01-01 00:00:00;
* `Instant.write` : `YYYY-MM-DD`, a separator, `HH:MM:SS` and the fraction in three, six or nine
  digits, the fewest that hold it; a year outside 0 … 9999 has a sign;
* `Instant.read?` : the instant that such a text names.
-/

namespace FeatureServing

/-- Whether four numbers name a time of day. -/
def Clock.Valid (hour minute second nanos : Nat) : Prop :=
  hour < 24 ∧ minute < 60 ∧ second ≤ 60 ∧ nanos < 1000000000

instance (hour minute second nanos : Nat) : Decidable (Clock.Valid hour minute second nanos) :=
  inferInstanceAs (Decidable (_ ∧ _ ∧ _ ∧ _))

/-- A time of day. -/
structure Clock where
  hour : Nat
  minute : Nat
  second : Nat
  nanos : Nat
  valid : Clock.Valid hour minute second nanos
deriving DecidableEq

def Clock.of? (hour minute second nanos : Nat) : Option Clock :=
  if h : Clock.Valid hour minute second nanos then some ⟨hour, minute, second, nanos, h⟩ else none

structure Instant where
  date : Date
  clock : Clock
deriving DecidableEq

namespace Instant

/-- The instant a number of milliseconds after 1970-01-01 00:00:00, before it for a negative
number; none outside the calendar. -/
def ofEpochMillis? (millis : Int) : Option Instant := do
  let rest := (millis % 86400000).toNat
  let date ← Date.ofDayNumber? (millis / 86400000)
  let clock ← Clock.of? (rest / 3600000) (rest / 60000 % 60) (rest / 1000 % 60)
    (rest % 1000 * 1000000)
  some ⟨date, clock⟩

/-- Milliseconds from 1970-01-01 00:00:00, fractions of one dropped. -/
def epochMillis (t : Instant) : Int :=
  t.date.dayNumber * 86400000 +
    ((t.clock.hour * 3600 + t.clock.minute * 60 + t.clock.second) * 1000 +
      t.clock.nanos / 1000000 : Nat)

/-! ## Text -/

/-- Four digits, or a sign and at least four digits for a year outside 0 … 9999. -/
def writeYear (year : Int) : List Char :=
  if 0 ≤ year ∧ year ≤ 9999 then Text.padded 4 year.toNat
  else (if year < 0 then '-' else '+') :: Text.padded 4 year.natAbs

/-- The fraction of a second in the fewest of three, six and nine digits, nothing for none. -/
def writeFraction (nanos : Nat) : List Char :=
  if nanos = 0 then []
  else if nanos % 1000000 = 0 then '.' :: Text.padded 3 (nanos / 1000000)
  else if nanos % 1000 = 0 then '.' :: Text.padded 6 (nanos / 1000)
  else '.' :: Text.padded 9 nanos

def writeDate (d : Date) : List Char :=
  writeYear d.year ++ '-' :: Text.padded 2 d.month ++ '-' :: Text.padded 2 d.day

def writeClock (c : Clock) : List Char :=
  Text.padded 2 c.hour ++ ':' :: Text.padded 2 c.minute ++ ':' :: Text.padded 2 c.second ++
    writeFraction c.nanos

def write (separator : Char) (t : Instant) : String :=
  String.ofList (writeDate t.date ++ separator :: writeClock t.clock)

/-- Takes the digits at the start of a text, at least one. -/
def takeNumber? (cs : List Char) : Option (Nat × List Char) :=
  match cs.takeWhile Text.isDigit with
  | [] => none
  | ds => some (Text.numberOf ds, cs.dropWhile Text.isDigit)

/-- Takes one literal character. -/
def takeChar? (c : Char) : List Char → Option (List Char)
  | [] => none
  | d :: rest => if d = c then some rest else none

/-- The nanoseconds that the digits behind the point of a second spell. -/
def readFraction? : List Char → Option Nat
  | [] => some 0
  | c :: ds =>
    if c = '.' && !ds.isEmpty && ds.length ≤ 9 && ds.all Text.isDigit then
      some (Text.numberOf ds * Text.placeValue (9 - ds.length))
    else none

/-- The instant that a text names in the form that `write` gives. -/
def read? (separator : Char) (s : String) : Option Instant := do
  let (negative, cs) :=
    match s.toList with
    | '-' :: rest => (true, rest)
    | '+' :: rest => (false, rest)
    | cs => (false, cs)
  let (year, cs) ← takeNumber? cs
  let cs ← takeChar? '-' cs
  let (month, cs) ← takeNumber? cs
  let cs ← takeChar? '-' cs
  let (day, cs) ← takeNumber? cs
  let cs ← takeChar? separator cs
  let (hour, cs) ← takeNumber? cs
  let cs ← takeChar? ':' cs
  let (minute, cs) ← takeNumber? cs
  let cs ← takeChar? ':' cs
  let (second, cs) ← takeNumber? cs
  let nanos ← readFraction? cs
  let date ← Date.of? (if negative then -(year : Int) else year) month day
  let clock ← Clock.of? hour minute second nanos
  some ⟨date, clock⟩

end Instant

end FeatureServing
