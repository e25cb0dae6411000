import SecondGear.Model.Timestamp

/-!
# `SecondGear.Proofs.Timestamp`: a time can be read back from its text

The text has a sign in front of the seconds, and for a time before the epoch one in front of
the microseconds as well. `microSeconds?` reads both parts, and `toString_round_trip` says
that it finds the time again, for every 64-bit time. The buffer is never too short, so no
two times have the same text.

The formatted text has the date and the time of day in front of the microseconds, with no
separator inside the date. `formattedMicroSeconds?` reads it from behind, and
`toFormattedString_round_trip` is the same for it.
-/

set_option autoImplicit false

namespace SecondGear

open SecondGear.Lib

namespace Timestamp

/-- The time that a text stands for: two integers with a dot between them. -/
def microSeconds? (text : String) : Option Timestamp := do
  let [seconds, microseconds] := text.toList.splitOn '.' | none
  let seconds ← integer? seconds
  let microseconds ← integer? microseconds
  return seconds * kMicroSecondsPerSecond + microseconds

/-- The seconds of 64 bits have thirteen digits: 292278 years in either direction. -/
theorem natAbs_seconds_lt {t : Int} (hlow : -2 ^ 63 ≤ t) (hhigh : t < 2 ^ 63) :
    (t.tdiv kMicroSecondsPerSecond).natAbs < 10 ^ 13 := by
  rw [Int.natAbs_tdiv]
  show t.natAbs / 1000000 < 10 ^ 13
  omega

theorem natAbs_microseconds_lt (t : Int) : (t.tmod kMicroSecondsPerSecond).natAbs < 10 ^ 6 := by
  rw [Int.natAbs_tmod]
  exact Nat.mod_lt _ (by decide)

/-- Twenty-two characters are enough for 64 bits. -/
theorem length_text_le {t : Int} (hlow : -2 ^ 63 ≤ t) (hhigh : t < 2 ^ 63) :
    (signed (t.tdiv kMicroSecondsPerSecond) ++ ['.']
      ++ padded 6 (t.tmod kMicroSecondsPerSecond)).length ≤ 22 := by
  have hseconds := natAbs_seconds_lt hlow hhigh
  have hmicro := natAbs_microseconds_lt t
  have hfirst := length_signed_le (by decide) hseconds
  have hsecond := length_padded_le (by decide) hmicro
  rw [List.length_append, List.length_append, List.length_singleton]
  omega

/-- The text of a 64-bit time is read back as the time, whatever the signs of its parts. -/
theorem microSeconds?_toString {t : Timestamp} (hlow : -2 ^ 63 ≤ t) (hhigh : t < 2 ^ 63) :
    microSeconds? t.toString = some t := by
  have hlen := length_text_le hlow hhigh
  have hdot : ∀ i : Int, '.' ∉ signed i := not_mem_signed (by decide) (by decide)
  have hdot' : ∀ i : Int, '.' ∉ padded 6 i := not_mem_padded (by decide) (by decide) 6
  rw [toString, snprintf_eq (by omega), microSeconds?, String.toList_ofList, List.append_assoc,
    List.singleton_append, List.splitOn_append_cons_self_of_not_mem (hdot _),
    List.splitOn_eq_singleton (hdot' _)]
  show (integer? (signed _) >>= fun _ => _) = _
  rw [integer?_signed]
  show (integer? (padded _ _) >>= fun _ => _) = _
  rw [integer?_padded]
  exact congrArg some (Int.tdiv_mul_add_tmod t kMicroSecondsPerSecond)

/-- For every 64-bit time: the text of the time fits into the part of the buffer that `snprintf`
may use, it is read back as the time, and no other time has the same text. -/
theorem toString_round_trip (t : Timestamp) (hlow : -2 ^ 63 ≤ t) (hhigh : t < 2 ^ 63) :
    (signed (t.tdiv kMicroSecondsPerSecond) ++ ['.']
        ++ padded 6 (t.tmod kMicroSecondsPerSecond)).length < 32 - 1 ∧
      microSeconds? t.toString = some t ∧
      ∀ u : Timestamp, -2 ^ 63 ≤ u → u < 2 ^ 63 → u.toString = t.toString → u = t := by
  refine ⟨lt_of_le_of_lt (length_text_le hlow hhigh) (by decide),
    microSeconds?_toString hlow hhigh, fun u hulow huhigh heq => ?_⟩
  have hread : microSeconds? t.toString = some u := heq ▸ microSeconds?_toString hulow huhigh
  rw [microSeconds?_toString hlow hhigh, Option.some.injEq] at hread
  exact hread.symm

/-- One microsecond before the epoch. -/
theorem toString_round_trip_negative :
    toString (-1) = "0.-00001" ∧ microSeconds? (toString (-1)) = some (-1) :=
  ⟨by decide +kernel, (toString_round_trip (-1) (by decide) (by decide)).2.1⟩

/-! ### The date -/

/-- The day of a date without separators. -/
def dayNumber? (cs : List Char) : Option Int := do
  let year ← integer? (cs.take (cs.length - 4))
  let month ← integer? ((cs.drop (cs.length - 4)).take 2)
  let day ← integer? ((cs.drop (cs.length - 4)).drop 2)
  return Date.daysBeforeYear year + Date.daysBeforeMonth year month + (day - 1)

/-- The second of a day. -/
def secondOfDay? (cs : List Char) : Option Int := do
  let [hour, minute, second] := cs.splitOn ':' | none
  let hour ← integer? hour
  let minute ← integer? minute
  let second ← integer? second
  return hour * 3600 + minute * 60 + second

/-- The time that a formatted text stands for. -/
def formattedMicroSeconds? (text : String) : Option Timestamp := do
  let [date, time] := (text.toList.dropWhile (· = ' ')).splitOn ' ' | none
  let [time, microseconds] := time.splitOn '.' | none
  let days ← dayNumber? date
  let seconds ← secondOfDay? time
  let microseconds ← integer? microseconds
  return (days * 86400 + seconds) * kMicroSecondsPerSecond + microseconds

/-- The last four characters are the month and the day. -/
theorem dayNumber?_date (d : Date) :
    dayNumber? (signed d.year ++ padded 2 d.month ++ padded 2 d.day)
      = some (Date.dayNumber d) := by
  have hm0 := d.month_pos
  have hm := d.month_le
  have hd0 := d.day_pos
  have hd := d.day_le_31
  have hmonth := length_padded_two (i := d.month) (by omega) (by omega)
  have hday := length_padded_two (i := d.day) (by omega) (by omega)
  have hlen : (signed d.year ++ padded 2 d.month ++ padded 2 d.day).length - 4
      = (signed d.year).length := by
    rw [List.length_append, List.length_append, hmonth, hday]
    omega
  rw [dayNumber?, hlen, List.append_assoc, List.take_left, List.drop_left, List.take_left' hmonth,
    List.drop_left' hmonth, integer?_signed, integer?_padded, integer?_padded]
  rfl

theorem secondOfDay?_time (hour minute second : Int) :
    secondOfDay? (padded 2 hour ++ ':' :: (padded 2 minute ++ ':' :: padded 2 second))
      = some (hour * 3600 + minute * 60 + second) := by
  have hcolon : ∀ i : Int, ':' ∉ padded 2 i := not_mem_padded (by decide) (by decide) 2
  rw [secondOfDay?, List.splitOn_append_cons_self_of_not_mem (hcolon _),
    List.splitOn_append_cons_self_of_not_mem (hcolon _), List.splitOn_eq_singleton (hcolon _)]
  show (integer? (padded 2 hour) >>= fun _ => _) = _
  rw [integer?_padded, integer?_padded, integer?_padded]
  rfl

/-- The parts of the text. -/
theorem formatted_eq (seconds microseconds : Int) :
    formatted (gmtime seconds) microseconds =
      spaced 4 (Date.ofDayNumber (seconds / 86400)).year ++
        (padded 2 (Date.ofDayNumber (seconds / 86400)).month ++
          padded 2 (Date.ofDayNumber (seconds / 86400)).day ++ ' ' ::
          ((padded 2 (seconds % 86400 / 3600) ++ ':' :: (padded 2 (seconds % 86400 % 3600 / 60)
            ++ ':' :: padded 2 (seconds % 86400 % 60))) ++ '.' :: padded 6 microseconds)) := by
  simp [formatted, gmtime, tmOf]

/-- The years of 64 bits have six digits. -/
theorem natAbs_year_lt {n : Int} (hlow : -10 ^ 8 * 2 < n) (hhigh : n < 10 ^ 8 * 2) :
    (Date.ofDayNumber n).year.natAbs < 10 ^ 6 := by
  have hlt := Date.dayNumber_lt (Date.ofDayNumber n)
  have hle := Date.le_dayNumber (Date.ofDayNumber n)
  rw [Date.dayNumber_ofDayNumber] at hlt hle
  unfold Date.daysBeforeYear Date.leapsThrough at hlt hle
  omega

/-- Thirty-four characters are enough. -/
theorem length_formatted_le {t : Int} (hlow : -2 ^ 63 ≤ t) (hhigh : t < 2 ^ 63) :
    (formatted (gmtime (t.tdiv kMicroSecondsPerSecond)) (t.tmod kMicroSecondsPerSecond)).length
      ≤ 34 := by
  have hseconds := natAbs_seconds_lt hlow hhigh
  have hmicro := natAbs_microseconds_lt t
  generalize t.tdiv kMicroSecondsPerSecond = seconds at hseconds
  have hyear := natAbs_year_lt (n := seconds / 86400) (by omega) (by omega)
  have hfirst := length_signed_le (by decide) hyear
  have htwo : ∀ i : Int, 0 ≤ i → i < 100 → (padded 2 i).length = 2 := fun i h0 h =>
    length_padded_two h0 h
  have hlast := length_padded_le (by decide) hmicro
  rw [formatted_eq]
  simp only [List.length_append, List.length_cons, length_spaced]
  have hm0 := (Date.ofDayNumber (seconds / 86400)).month_pos
  have hm := (Date.ofDayNumber (seconds / 86400)).month_le
  have hd0 := (Date.ofDayNumber (seconds / 86400)).day_pos
  have hd := (Date.ofDayNumber (seconds / 86400)).day_le_31
  rw [htwo _ (by omega) (by omega), htwo _ (by omega) (by omega), htwo _ (by omega) (by omega),
    htwo _ (by omega) (by omega), htwo _ (by omega) (by omega)]
  omega

/-- The text is read back as the time. -/
theorem formattedMicroSeconds?_text (t : Timestamp) (hlow : -2 ^ 63 ≤ t) (hhigh : t < 2 ^ 63) :
    formattedMicroSeconds? t.toFormattedString = some t := by
  have hlen := length_formatted_le hlow hhigh
  rw [toFormattedString, snprintf_eq (by omega), formattedMicroSeconds?, String.toList_ofList,
    formatted_eq, dropWhile_spaced]
  -- No separator is in a part, so that each is found at its end.
  have hblank : ∀ i : Int, ' ' ∉ padded 2 i := not_mem_padded (by decide) (by decide) 2
  have hblank' : ∀ i : Int, ' ' ∉ padded 6 i := not_mem_padded (by decide) (by decide) 6
  have hsigned : ∀ i : Int, ' ' ∉ signed i := not_mem_signed (by decide) (by decide)
  have hdot : ∀ i : Int, '.' ∉ padded 2 i := not_mem_padded (by decide) (by decide) 2
  have hdot' : ∀ i : Int, '.' ∉ padded 6 i := not_mem_padded (by decide) (by decide) 6
  generalize hseconds : t.tdiv kMicroSecondsPerSecond = seconds
  generalize hmicro : t.tmod kMicroSecondsPerSecond = microseconds
  rw [← List.append_assoc, ← List.append_assoc]
  rw [List.splitOn_append_cons_self_of_not_mem (by simp [hblank, hsigned]),
    List.splitOn_eq_singleton (by simp [hblank, hblank'])]
  dsimp only
  rw [List.splitOn_append_cons_self_of_not_mem (by simp [hdot]),
    List.splitOn_eq_singleton (hdot' _)]
  dsimp only
  rw [dayNumber?_date, secondOfDay?_time, integer?_padded, Date.dayNumber_ofDayNumber]
  -- The day and the time of day, put together again.
  have hday : seconds / 86400 * 86400 + (seconds % 86400 / 3600 * 3600 +
      seconds % 86400 % 3600 / 60 * 60 + seconds % 86400 % 60) = seconds := by omega
  show some ((_ + _) * kMicroSecondsPerSecond + _) = _
  rw [hday, ← hseconds, ← hmicro]
  exact congrArg some (Int.tdiv_mul_add_tmod t kMicroSecondsPerSecond)

/-- For every 64-bit time: the text is read back as the time, so different times have different
texts; and the date in it is the right one, as it starts with 1970-01-01 and is the next one a day
later. -/
theorem toFormattedString_round_trip (t : Timestamp) (hlow : -2 ^ 63 ≤ t) (hhigh : t < 2 ^ 63) :
    formattedMicroSeconds? t.toFormattedString = some t ∧ gmtime 0 = ⟨70, 0, 1, 0, 0, 0⟩ ∧
      ∀ seconds : Int, ∃ (date : Date) (second : Int), gmtime seconds = tmOf date second ∧
        gmtime (seconds + 86400) = tmOf date.next second := by
  refine ⟨formattedMicroSeconds?_text t hlow hhigh, by decide, fun seconds => ⟨_, _, rfl, ?_⟩⟩
  have hday : (seconds + 86400) / 86400 = seconds / 86400 + 1 := by omega
  have hrest : (seconds + 86400) % 86400 = seconds % 86400 := by omega
  rw [gmtime, hday, hrest, Date.ofDayNumber_succ]

/-- The day that a year divisible by 400 has, and others divisible by 100 have not. -/
theorem toFormattedString_round_trip_leap :
    toFormattedString 951868799000001 = "20000229 23:59:59.000001" ∧
      formattedMicroSeconds? (toFormattedString 951868799000001) = some 951868799000001 :=
  ⟨by decide +kernel, (toFormattedString_round_trip _ (by decide) (by decide)).1⟩

end Timestamp

end SecondGear
