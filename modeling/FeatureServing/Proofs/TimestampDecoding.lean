import FeatureServing.Proofs.CivilTime
import FeatureServing.Proofs.Fallible
import FeatureServing.Proofs.TimestampText
import FeatureServing.Schema

/-!
# Timestamps in two encodings

A timestamp column holds milliseconds or a text. Both are decoded to the time that the calendar and
the clock show after so many ticks:

* `Instant.Shows` : an instant is a time, without a leap second or a fraction of a millisecond;
* `Instant.ofEpochMillis?_eq_some_iff` : the instant of a number shows the time after it;
* `Instant.exists_ofEpochMillis?_iff` : the numbers that have an instant;
* `Instant.places_lt_iff` : a greater number has a later instant;
* `CivilTime.written`, `readTimestamp_written` : a time in the layout of relational columns is read;
* `timestamps_agree` : both encodings of a time are decoded to the same instant.
-/

namespace FeatureServing

open Date Text

namespace Instant

variable {t u : Instant} {c c' : CivilTime} {m : Int}

/-- The places of an instant, the greatest first. -/
def places (t : Instant) : List Int :=
  [t.date.year, t.date.month, t.date.day, t.clock.hour, t.clock.minute, t.clock.second,
    t.clock.nanos]

/-- Whether an instant is a time, to the nanosecond. -/
def Shows (t : Instant) (c : CivilTime) : Prop :=
  t.places = [c.year, c.month, c.day, c.hour, c.minute, c.second, c.milli * 1000000]

theorem shows_iff : t.Shows c ↔
    (t.date.year = c.year ∧ t.date.month = c.month ∧ t.date.day = c.day) ∧
      t.clock.hour = c.hour ∧ t.clock.minute = c.minute ∧ t.clock.second = c.second ∧
        t.clock.nanos = c.milli * 1000000 := by
  simp only [Shows, places, List.cons.injEq, Nat.cast_inj, and_true, and_assoc]
  norm_cast

theorem eq_of_shows (ht : t.Shows c) (hu : u.Shows c) : t = u := by
  obtain ⟨⟨_, _, _, _⟩, ⟨_, _, _, _, _⟩⟩ := t
  obtain ⟨⟨_, _, _, _⟩, ⟨_, _, _, _, _⟩⟩ := u
  have hplaces := ht.trans hu.symm
  simpa [places, and_assoc] using hplaces

/-- Instants are in the order of the times that they show. -/
theorem places_lt_iff (ht : t.Shows c) (hu : u.Shows c') :
    t.places < u.places ↔ c.millis < c'.millis := by
  rw [CivilTime.millis_lt_iff, ht, hu]
  simp only [CivilTime.places, List.cons_lt_cons_iff]
  have hlt : (c.milli : Int) * 1000000 < c'.milli * 1000000 ↔ (c.milli : Int) < c'.milli := by omega
  have heq : (c.milli : Int) * 1000000 = c'.milli * 1000000 ↔ (c.milli : Int) = c'.milli := by omega
  rw [hlt, heq]

theorem millis_eq_of_shows (h : t.Shows c) (h' : t.Shows c') : c.millis = c'.millis :=
  le_antisymm (not_lt.1 fun hlt => lt_irrefl _ ((places_lt_iff h' h).2 hlt))
    (not_lt.1 fun hlt => lt_irrefl _ ((places_lt_iff h h').2 hlt))

/-! ## Milliseconds -/

theorem ofEpochMillis?_eq_some_iff_parts :
    ofEpochMillis? m = some t ↔ t.date.dayNumber = m / 86400000 ∧
      t.clock.hour = (m % 86400000).toNat / 3600000 ∧
      t.clock.minute = (m % 86400000).toNat / 60000 % 60 ∧
      t.clock.second = (m % 86400000).toNat / 1000 % 60 ∧
      t.clock.nanos = (m % 86400000).toNat % 1000 * 1000000 := by
  simp only [ofEpochMillis?, Option.bind_eq_bind, Option.bind_eq_some_iff,
    Date.ofDayNumber?_eq_some_iff, Clock.of?_eq_some_iff, Option.some.injEq]
  constructor
  · rintro ⟨date, hdate, clock, hclock, rfl⟩
    exact ⟨hdate, hclock⟩
  · rintro ⟨hdate, hclock⟩
    exact ⟨t.date, hdate, t.clock, hclock, rfl⟩

/-- **The instant of a number shows the time after so many milliseconds.** -/
theorem ofEpochMillis?_eq_some_iff :
    ofEpochMillis? m = some t ↔ ∃ c : CivilTime, c.IsAfter m ∧ t.Shows c := by
  simp only [ofEpochMillis?_eq_some_iff_parts, CivilTime.isAfter_iff, shows_iff]
  constructor
  · rintro ⟨hdate, hhour, hminute, hsecond, hnanos⟩
    refine ⟨⟨t.date.year, t.date.month, t.date.day, (m % 86400000).toNat / 3600000,
      (m % 86400000).toNat / 60000 % 60, (m % 86400000).toNat / 1000 % 60,
      (m % 86400000).toNat % 1000, t.date.isDay, by omega⟩, ?_, ⟨rfl, rfl, rfl⟩, hhour, hminute,
      hsecond, hnanos⟩
    rw [Date.dayNumber] at hdate
    rw [CivilTime.millis, hdate]
    simp only
    omega
  · rintro ⟨c, hm, ⟨hyear, hmonth, hday⟩, hhour, hminute, hsecond, hnanos⟩
    have htime := c.inDay
    rw [CivilTime.millis] at hm
    rw [Date.dayNumber, hyear, hmonth, hday, hhour, hminute, hsecond, hnanos]
    omega

theorem exists_ofEpochMillis?_iff :
    (∃ t, ofEpochMillis? m = some t) ↔ -8334601228800000 ≤ m ∧ m ≤ 8210266876799999 := by
  have hfirst : daysFromCivil firstYear 1 1 = -96465292 := by decide
  have hlast : daysFromCivil lastYear 12 31 = 95026236 := by decide
  have hday : (∃ t, ofEpochMillis? m = some t) ↔
      ∃ d, Date.ofDayNumber? (m / 86400000) = some d := by
    simp only [ofEpochMillis?_eq_some_iff_parts, Date.ofDayNumber?_eq_some_iff]
    constructor
    · rintro ⟨t, hdate, -⟩
      exact ⟨t.date, hdate⟩
    · rintro ⟨d, hdate⟩
      exact ⟨⟨d, ⟨_, _, _, _, ⟨by omega, by omega, by omega, by omega⟩⟩⟩, hdate, rfl, rfl, rfl, rfl⟩
  rw [hday, Date.exists_ofDayNumber?_iff, hfirst, hlast]
  omega

end Instant

/-! ## Text -/

/-- The text of a time in the layout of relational columns: `YYYY-MM-DD HH:MM:SS`. -/
def CivilTime.written (c : CivilTime) : String :=
  String.ofList (padded 4 c.year.toNat ++ '-' :: (padded 2 c.month ++ '-' :: (padded 2 c.day ++
    ' ' :: (padded 2 c.hour ++ ':' :: (padded 2 c.minute ++ ':' :: padded 2 c.second)))))

namespace Timestamp

/-- The digits of a number, filled up to a width. -/
def Numeral.ofNat {w n : Nat} (hw : 0 < w) (h : n < 10 ^ w) : Numeral (some w) where
  digits := padded w n
  ne_nil := padded_ne_nil w n
  allDigits := allDigits_padded w n
  fits w' hw' := by
    obtain rfl := Option.some.inj hw'
    exact (length_padded hw h).le

/-- Two digits without white space in front of them. -/
def Field.ofNat {n : Nat} (h : n < 100) : Field :=
  ⟨⟨[], nofun⟩, .ofNat (by decide) h⟩

end Timestamp

open Timestamp in
/-- **A written time is read** as the instant that shows it. -/
theorem readTimestamp_written {c : CivilTime} {t : Instant} (hyear : 0 ≤ c.year ∧ c.year ≤ 9999)
    (hmilli : c.milli = 0) (ht : t.Shows c) : readTimestamp c.written = .ok t := by
  obtain ⟨hdate, hclock⟩ := Instant.shows_iff.1 ht
  obtain ⟨h1, h12, hday, hlast⟩ := c.isDay
  obtain ⟨hhour, hminute, hsecond, -⟩ := c.inDay
  have hmonth : c.day ≤ 31 := hlast.trans (daysIn_le c.year c.month)
  have htwo : c.day < 10 ^ 2 := by omega
  let w : Written :=
    { blanks := ⟨[], nofun⟩
      year := .plain (.ofNat (by decide) (show c.year.toNat < 10 ^ 4 by omega))
      month := .ofNat (show c.month < 100 by omega)
      day := .ofNat htwo
      hour := ⟨⟨[' '], List.forall_mem_singleton.2 rfl⟩,
        .ofNat (by decide) (show c.hour < 10 ^ 2 by omega)⟩
      minute := .ofNat (show c.minute < 100 by omega)
      second := .ofNat (show c.second < 100 by omega)
      apart := .inl (length_padded (by decide) htwo) }
  have htext : c.written.toList = w.text := String.toList_ofList
  have hyearValue : t.date.year = w.year.value := by
    show t.date.year = (numberOf (padded 4 c.year.toNat) : Int)
    rw [numberOf_padded, hdate.1, Int.toNat_of_nonneg hyear.1]
  refine readTimestamp_of_names htext ⟨⟨hyearValue, ?_, ?_⟩, ?_, ?_, ?_, ?_⟩
  · exact hdate.2.1.trans (numberOf_padded 2 _).symm
  · exact hdate.2.2.trans (numberOf_padded 2 _).symm
  · exact hclock.1.trans (numberOf_padded 2 _).symm
  · exact hclock.2.1.trans (numberOf_padded 2 _).symm
  · exact hclock.2.2.1.trans (numberOf_padded 2 _).symm
  · rw [hclock.2.2.2, hmilli]

/-! ## Decoding -/

theorem coerceTimestamp_int_ok_iff {i : Int64} {v : Value} :
    coerceTimestamp (.int i) = .ok v ↔
      ∃ t, Instant.ofEpochMillis? i.toInt = some t ∧ v = .timestamp t := by
  unfold coerceTimestamp
  dsimp only
  cases Instant.ofEpochMillis? i.toInt with
  | none => simp
  | some t => simp [eq_comm]

theorem coerceTimestamp_text_of_readTimestamp {s : String} {t : Instant}
    (h : readTimestamp s = .ok t) : coerceTimestamp (.text s) = .ok (.timestamp t) := by
  have htext : coerceTimestamp (.text s) =
      ((readTimestamp s).map Value.timestamp).mapError (.timestampText s) := rfl
  rw [htext, h]
  rfl

theorem exists_shows {c : CivilTime} (hyear : 0 ≤ c.year ∧ c.year ≤ 9999) (hmilli : c.milli = 0) :
    ∃ t : Instant, t.Shows c := by
  have htime := c.inDay
  have hbounds : firstYear ≤ c.year ∧ c.year ≤ lastYear := by
    unfold firstYear lastYear
    omega
  exact ⟨⟨⟨c.year, c.month, c.day, valid_iff.2 ⟨hbounds, c.isDay⟩⟩,
    ⟨c.hour, c.minute, c.second, 0, by unfold Clock.Valid; omega⟩⟩,
    Instant.shows_iff.2 ⟨⟨rfl, rfl, rfl⟩, rfl, rfl, rfl, by simp [hmilli]⟩⟩

theorem exists_int64_of_shows {c : CivilTime} {t : Instant} (h : t.Shows c) :
    ∃ i : Int64, i.toInt = c.millis ∧ Instant.ofEpochMillis? i.toInt = some t := by
  have hafter : c.IsAfter c.millis := CivilTime.isAfter_iff.2 rfl
  have ht : Instant.ofEpochMillis? c.millis = some t :=
    Instant.ofEpochMillis?_eq_some_iff.2 ⟨c, hafter, h⟩
  obtain ⟨hlow, hhigh⟩ := Instant.exists_ofEpochMillis?_iff.1 ⟨t, ht⟩
  have hword : (Int64.ofInt c.millis).toInt = c.millis :=
    Int64.toInt_ofInt_of_le (by omega) (by omega)
  exact ⟨_, hword, hword.symm ▸ ht⟩

/-- **Timestamps are decoded to one instant from both encodings.** The numbers with an instant are
exactly those of a range; the instant of a number shows the time after so many milliseconds, and
greater numbers have later instants. The text of a time without a fraction of a second is decoded to
the instant of the one number that the time is after. -/
theorem timestamps_agree :
    (∀ i : Int64, (∃ v, coerceTimestamp (.int i) = .ok v) ↔
      -8334601228800000 ≤ i.toInt ∧ i.toInt ≤ 8210266876799999) ∧
    (∀ (i : Int64) (v : Value), coerceTimestamp (.int i) = .ok v ↔
      ∃ (t : Instant) (c : CivilTime), v = .timestamp t ∧ c.IsAfter i.toInt ∧ t.Shows c) ∧
    (∀ (i j : Int64) (t u : Instant), coerceTimestamp (.int i) = .ok (.timestamp t) →
      coerceTimestamp (.int j) = .ok (.timestamp u) →
        (i < j ↔ t.places < u.places) ∧ (i = j ↔ t = u)) ∧
    ∀ c : CivilTime, 0 ≤ c.year → c.year ≤ 9999 → c.milli = 0 →
      ∃ (t : Instant) (i : Int64), t.Shows c ∧ (∀ j : Int64, c.IsAfter j.toInt ↔ j = i) ∧
        coerceTimestamp (.text c.written) = .ok (.timestamp t) ∧
        coerceTimestamp (.int i) = .ok (.timestamp t) := by
  refine ⟨fun i => ?_, fun i v => ?_, fun i j t u hi hj => ?_, fun c h0 h9 hmilli => ?_⟩
  · rw [← Instant.exists_ofEpochMillis?_iff]
    simp only [coerceTimestamp_int_ok_iff]
    exact ⟨fun ⟨_, t, ht, _⟩ => ⟨t, ht⟩, fun ⟨t, ht⟩ => ⟨_, t, ht, rfl⟩⟩
  · simp only [coerceTimestamp_int_ok_iff, Instant.ofEpochMillis?_eq_some_iff]
    exact ⟨fun ⟨t, ⟨c, hc⟩, hv⟩ => ⟨t, c, hv, hc⟩, fun ⟨t, c, hv, hc⟩ => ⟨t, ⟨c, hc⟩, hv⟩⟩
  · simp only [coerceTimestamp_int_ok_iff, Instant.ofEpochMillis?_eq_some_iff,
      Value.timestamp.injEq, exists_eq_right', CivilTime.isAfter_iff] at hi hj
    obtain ⟨c, hc, ht⟩ := hi
    obtain ⟨c', hc', hu⟩ := hj
    constructor
    · rw [Instant.places_lt_iff ht hu, hc, hc', Int64.lt_iff_toInt_lt]
    constructor
    · rintro rfl
      exact Instant.eq_of_shows ht (CivilTime.eq_of_millis_eq (hc.trans hc'.symm) ▸ hu)
    · rintro rfl
      rw [← Int64.toInt_inj, ← hc, ← hc', Instant.millis_eq_of_shows ht hu]
  · obtain ⟨t, ht⟩ := exists_shows ⟨h0, h9⟩ hmilli
    obtain ⟨i, hi, hinstant⟩ := exists_int64_of_shows ht
    refine ⟨t, i, ht, fun j => ?_, ?_, ?_⟩
    · rw [CivilTime.isAfter_iff, ← hi, ← Int64.toInt_inj, eq_comm]
    · exact coerceTimestamp_text_of_readTimestamp (readTimestamp_written ⟨h0, h9⟩ hmilli ht)
    · exact coerceTimestamp_int_ok_iff.2 ⟨t, hinstant, rfl⟩

/-- The last second of a leap day. -/
def leapDay : CivilTime :=
  ⟨2000, 2, 29, 23, 59, 59, 0, by decide, by decide⟩

theorem isAfter_leapDay : leapDay.IsAfter (951868799000 : Int64).toInt :=
  CivilTime.isAfter_iff.2 (by decide)

/-- A leap day has one instant in both encodings, later than the last millisecond before 1970. -/
theorem timestamps_agree_leap_day :
    ∃ t u, coerceTimestamp (.text "2000-02-29 23:59:59") = .ok (.timestamp t) ∧
      coerceTimestamp (.int 951868799000) = .ok (.timestamp t) ∧
      coerceTimestamp (.int (-1)) = .ok (.timestamp u) ∧ u.places < t.places := by
  obtain ⟨t, i, -, hi, htext, hint⟩ :=
    timestamps_agree.2.2.2 leapDay (by decide) (by decide) rfl
  obtain rfl : 951868799000 = i := (hi _).1 isAfter_leapDay
  obtain ⟨v, hv⟩ := (timestamps_agree.1 (-1)).2 (by decide)
  obtain ⟨u, -, rfl, -⟩ := (timestamps_agree.2.1 (-1) v).1 hv
  have horder := timestamps_agree.2.2.1 (-1) 951868799000 u t hv hint
  have hwritten : leapDay.written = "2000-02-29 23:59:59" := by decide +kernel
  exact ⟨t, u, hwritten ▸ htext, hint, hv, horder.1.1 (by decide)⟩

end FeatureServing
