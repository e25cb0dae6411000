import Mathlib.Tactic.Ring

/-!
# `SecondGear.Lib.Calendar`: days and dates

The dates of the Gregorian calendar, before its introduction as well, and the days from 1970-01-01.
A `Date` has a month of the year and a day of the month.

* `dayNumber`: how many days a date is from 1970-01-01. `dayNumber_next` shows that it counts the
  dates, and `dayNumber_injective` that each date has a number of its own.
* `ofDayNumber`: the date of a day. It goes through years that begin in March, in which the day that
  comes and goes is the last one: cycles of 400, 100, 4 and 1 years, then the month.
* `dayNumber_ofDayNumber`, `ofDayNumber_succ`: it is the right date, and the next day has the next
  one.
-/

set_option autoImplicit false

namespace SecondGear.Lib

/-- Every fourth year, but of the full centuries only every fourth. -/
def isLeap (year : Int) : Prop := year % 4 = 0 ∧ (year % 100 ≠ 0 ∨ year % 400 = 0)

instance (year : Int) : Decidable (isLeap year) :=
  inferInstanceAs (Decidable (_ ∧ _))

def daysInMonth (year month : Int) : Int :=
  if month = 2 then if isLeap year then 29 else 28
  else if month = 4 ∨ month = 6 ∨ month = 9 ∨ month = 11 then 30 else 31

/-- A date of the Gregorian calendar. -/
@[ext] structure Date where
  year : Int
  month : Int
  day : Int
  month_pos : 1 ≤ month
  month_le : month ≤ 12
  day_pos : 1 ≤ day
  day_le : day ≤ daysInMonth year month

namespace Date

/-- How many leap years there are up to a year. -/
def leapsThrough (year : Int) : Int := year / 4 - year / 100 + year / 400

def daysBeforeYear (year : Int) : Int :=
  365 * (year - 1970) + (leapsThrough (year - 1) - leapsThrough 1969)

def daysBeforeMonth (year month : Int) : Int :=
  if month = 1 then 0 else if month = 2 then 31 else (153 * (month - 3) + 2) / 5 + 59 +
    if isLeap year then 1 else 0

/-- The days from 1970-01-01. -/
def dayNumber (d : Date) : Int :=
  daysBeforeYear d.year + daysBeforeMonth d.year d.month + (d.day - 1)

theorem leapsThrough_succ (year : Int) :
    leapsThrough (year + 1) = leapsThrough year + if isLeap (year + 1) then 1 else 0 := by
  by_cases hleap : isLeap (year + 1)
  · rw [if_pos hleap]
    unfold isLeap at hleap
    unfold leapsThrough
    omega
  · rw [if_neg hleap]
    unfold isLeap at hleap
    unfold leapsThrough
    omega

/-- Each month begins where the one in front of it ends. -/
theorem daysBeforeMonth_succ (year : Int) {month : Int} (hpos : 1 ≤ month) (hlt : month < 12) :
    daysBeforeMonth year (month + 1) = daysBeforeMonth year month + daysInMonth year month := by
  have h : month = 1 ∨ month = 2 ∨ month = 3 ∨ month = 4 ∨ month = 5 ∨ month = 6 ∨ month = 7 ∨
    month = 8 ∨ month = 9 ∨ month = 10 ∨ month = 11 := by omega
  by_cases hleap : isLeap year <;>
    rcases h with rfl | rfl | rfl | rfl | rfl | rfl | rfl | rfl | rfl | rfl | rfl <;>
      simp [daysBeforeMonth, daysInMonth, hleap]

/-- Each year begins where the one in front of it ends. -/
theorem daysBeforeYear_succ (year : Int) :
    daysBeforeYear (year + 1)
      = daysBeforeYear year + (daysBeforeMonth year 12 + daysInMonth year 12) := by
  have h := leapsThrough_succ (year - 1)
  rw [show year - 1 + 1 = year by ring] at h
  unfold daysBeforeYear
  rw [show year + 1 - 1 = year by ring, h]
  by_cases hleap : isLeap year <;> simp [daysBeforeMonth, daysInMonth, hleap] <;> omega

/-- A month ends before the later ones begin. -/
theorem daysBeforeMonth_add_le (year : Int) {m n : Int} (hpos : 1 ≤ m) (hlt : m < n)
    (hle : n ≤ 12) : daysBeforeMonth year m + daysInMonth year m ≤ daysBeforeMonth year n := by
  rw [← daysBeforeMonth_succ year hpos (by omega)]
  unfold daysBeforeMonth
  by_cases hleap : isLeap year <;> simp only [hleap, if_true, if_false] <;> split_ifs <;> omega

/-- A date lies in its year. -/
theorem dayNumber_lt (d : Date) : dayNumber d < daysBeforeYear (d.year + 1) := by
  have hday := d.day_le
  rw [daysBeforeYear_succ, dayNumber]
  rcases Int.lt_or_eq_of_le d.month_le with hlt | heq
  · have hmonth := daysBeforeMonth_add_le d.year d.month_pos hlt (le_refl 12)
    have hlast : 0 < daysInMonth d.year 12 := by
      unfold daysInMonth
      simp
    omega
  · rw [heq] at hday ⊢
    omega

theorem le_dayNumber (d : Date) : daysBeforeYear d.year ≤ dayNumber d := by
  have hday := d.day_pos
  have hmonth : 0 ≤ daysBeforeMonth d.year d.month := by
    have hpos := d.month_pos
    unfold daysBeforeMonth
    split_ifs <;> omega
  rw [dayNumber]
  omega

theorem daysBeforeYear_le {y z : Int} (h : y ≤ z) : daysBeforeYear y ≤ daysBeforeYear z := by
  unfold daysBeforeYear leapsThrough
  omega

/-- Different dates have different numbers. -/
theorem dayNumber_injective {d e : Date} (h : dayNumber d = dayNumber e) : d = e := by
  -- Each year has its days to itself, and in the year each month.
  have hyear : d.year = e.year := by
    have hd := dayNumber_lt d
    have he := dayNumber_lt e
    have hd' := le_dayNumber d
    have he' := le_dayNumber e
    rcases Int.lt_trichotomy d.year e.year with hlt | heq | hlt
    · have hle := daysBeforeYear_le (show d.year + 1 ≤ e.year by omega)
      omega
    · exact heq
    · have hle := daysBeforeYear_le (show e.year + 1 ≤ d.year by omega)
      omega
  rw [dayNumber, dayNumber, hyear] at h
  have hdday := d.day_le
  have heday := e.day_le
  have hdday' := d.day_pos
  have heday' := e.day_pos
  rw [hyear] at hdday
  have hmonth : d.month = e.month := by
    rcases Int.lt_trichotomy d.month e.month with hlt | heq | hlt
    · have hle := daysBeforeMonth_add_le e.year d.month_pos hlt e.month_le
      omega
    · exact heq
    · have hle := daysBeforeMonth_add_le e.year e.month_pos hlt d.month_le
      omega
  rw [hmonth] at h
  exact Date.ext hyear hmonth (by omega)

theorem day_le_31 (d : Date) : d.day ≤ 31 := by
  have hle := d.day_le
  unfold daysInMonth at hle
  split_ifs at hle <;> omega

/-! ### The date of a day -/

/-- The years since 2000 and the day of the year, for years that begin in March. -/
def marchYear (n : Int) : Int × Int :=
  -- 2000-03-01. The last century of a cycle is a day longer, and so is the last of four years.
  let days := n - 11017
  let qc := days / 146097
  let rest := days % 146097
  let c := min (rest / 36524) 3
  let rest := rest - 36524 * c
  let q := min (rest / 1461) 24
  let rest := rest - 1461 * q
  let a := min (rest / 365) 3
  (400 * qc + 100 * c + 4 * q + a, rest - 365 * a)

theorem marchYear_spec (n : Int) :
    n = 11017 + 365 * (marchYear n).1 + leapsThrough (marchYear n).1 + (marchYear n).2 ∧
      0 ≤ (marchYear n).2 ∧ (marchYear n).2 ≤ 365 ∧
      ((marchYear n).2 = 365 → isLeap ((marchYear n).1 + 2001)) := by
  unfold marchYear leapsThrough isLeap
  dsimp only
  -- One place after the other. A place that is full has the ones in front of it full.
  generalize hqc : (n - 11017) / 146097 = qc
  generalize hr : (n - 11017) % 146097 = r
  have hr0 : 0 ≤ r ∧ r < 146097 := by omega
  have hn : n = 11017 + 146097 * qc + r := by omega
  generalize hc : min (r / 36524) 3 = c
  have hc0 : 0 ≤ c ∧ c ≤ 3 ∧ 0 ≤ r - 36524 * c ∧ r - 36524 * c ≤ 36524 ∧
    (r - 36524 * c = 36524 → c = 3) := by omega
  generalize hr' : r - 36524 * c = r' at hc0 ⊢
  generalize hq : min (r' / 1461) 24 = q
  have hq0 : 0 ≤ q ∧ q ≤ 24 ∧ 0 ≤ r' - 1461 * q ∧ r' - 1461 * q ≤ 1460 ∧
    (r' - 1461 * q = 1460 → q = 24 → r' = 36524) := by omega
  generalize hr'' : r' - 1461 * q = r'' at hq0 ⊢
  generalize ha : min (r'' / 365) 3 = a
  have ha0 : 0 ≤ a ∧ a ≤ 3 ∧ 0 ≤ r'' - 365 * a ∧ r'' - 365 * a ≤ 365 ∧
    (r'' - 365 * a = 365 → r'' = 1460 ∧ a = 3) := by omega
  have h4 : (400 * qc + 100 * c + 4 * q + a) / 4 = 100 * qc + 25 * c + q := by omega
  have h100 : (400 * qc + 100 * c + 4 * q + a) / 100 = 4 * qc + c := by omega
  have h400 : (400 * qc + 100 * c + 4 * q + a) / 400 = qc := by omega
  refine ⟨?_, ha0.2.2.1, ha0.2.2.2.1, ?_⟩
  · rw [h4, h100, h400]
    omega
  · intro h
    omega

/-- The month, from March on, of a day of such a year. -/
def marchMonth (day : Int) : Int := (5 * day + 2) / 153

/-- A month of such a year has its place in a year that begins in January. -/
theorem daysBefore_march (years : Int) {month : Int} (h0 : 0 ≤ month) (h11 : month ≤ 11) :
    11017 + 365 * years + leapsThrough years + (153 * month + 2) / 5 =
      if month < 10 then
        daysBeforeYear (years + 2000) + daysBeforeMonth (years + 2000) (month + 3)
      else daysBeforeYear (years + 2001) + daysBeforeMonth (years + 2001) (month - 9) := by
  have hleaps : leapsThrough (years + 2000) = leapsThrough years + 485 := by
    unfold leapsThrough
    omega
  have hsucc := leapsThrough_succ (years + 1999)
  rw [show years + 1999 + 1 = years + 2000 by ring] at hsucc
  have h1969 : leapsThrough 1969 = 477 := by decide
  unfold daysBeforeYear
  rw [show years + 2001 - 1 = years + 2000 by ring, show years + 2000 - 1 = years + 1999 by ring]
  split
  · -- March to December
    unfold daysBeforeMonth
    rw [if_neg (by omega), if_neg (by omega), show month + 3 - 3 = month by ring]
    omega
  · -- January and February of the next year
    have hmonth : month = 10 ∨ month = 11 := by omega
    rcases hmonth with rfl | rfl <;> simp [daysBeforeMonth] <;> omega

theorem marchMonth_spec {day : Int} (h0 : 0 ≤ day) (h365 : day ≤ 365) :
    0 ≤ marchMonth day ∧ marchMonth day ≤ 11 ∧ (153 * marchMonth day + 2) / 5 ≤ day := by
  unfold marchMonth
  omega

/-- The days of such a month are those of its month in a year that begins in January. -/
theorem marchDay_le (years : Int) {day : Int} (h0 : 0 ≤ day) (h365 : day ≤ 365)
    (hleap : day = 365 → isLeap (years + 2001)) :
    day - (153 * marchMonth day + 2) / 5 + 1 ≤
      if marchMonth day < 10 then daysInMonth (years + 2000) (marchMonth day + 3)
      else daysInMonth (years + 2001) (marchMonth day - 9) := by
  have hm : marchMonth day = (5 * day + 2) / 153 := rfl
  -- Only that day may be a 29th of February.
  by_cases hlast : day = 365
  · have hmonth : marchMonth day = 11 := by omega
    rw [hmonth, if_neg (by omega), daysInMonth, if_pos (by omega), if_pos (hleap hlast), hlast]
    decide
  · unfold daysInMonth
    omega

/-- The date of a day, counted from 1970-01-01. -/
def ofDayNumber (n : Int) : Date :=
  have hspec := (marchYear_spec n).2
  have hmonth := marchMonth_spec hspec.1 hspec.2.1
  have hday := marchDay_le (marchYear n).1 hspec.1 hspec.2.1 hspec.2.2
  let month := marchMonth (marchYear n).2
  let day := (marchYear n).2 - (153 * month + 2) / 5 + 1
  if hbefore : month < 10 then
    { year := (marchYear n).1 + 2000
      month := month + 3
      day := day
      month_pos := by omega
      month_le := by omega
      day_pos := by omega
      day_le := by rwa [if_pos hbefore] at hday }
  else
    { year := (marchYear n).1 + 2001
      month := month - 9
      day := day
      month_pos := by omega
      month_le := by omega
      day_pos := by omega
      day_le := by rwa [if_neg hbefore] at hday }

theorem dayNumber_ofDayNumber (n : Int) : dayNumber (ofDayNumber n) = n := by
  obtain ⟨hn, h0, h365, -⟩ := marchYear_spec n
  obtain ⟨hpos, hle, -⟩ := marchMonth_spec h0 h365
  have hbefore := daysBefore_march (marchYear n).1 hpos hle
  unfold ofDayNumber dayNumber
  dsimp only
  split
  · -- Both months begin on the same day.
    rename_i hmonth
    rw [if_pos hmonth] at hbefore
    dsimp only
    omega
  · rename_i hmonth
    rw [if_neg hmonth] at hbefore
    dsimp only
    omega

/-! ### The next date -/

theorem one_le_daysInMonth (year month : Int) : 1 ≤ daysInMonth year month := by
  unfold daysInMonth
  split_ifs <;> omega

/-- The date of the day after. -/
def next (d : Date) : Date :=
  if hday : d.day < daysInMonth d.year d.month then
    { d with
      day := d.day + 1
      day_pos := by
        have hpos := d.day_pos
        omega
      day_le := hday }
  else if hmonth : d.month < 12 then
    { year := d.year
      month := d.month + 1
      day := 1
      month_pos := by
        have hpos := d.month_pos
        omega
      month_le := hmonth
      day_pos := le_refl 1
      day_le := one_le_daysInMonth _ _ }
  else
    { year := d.year + 1
      month := 1
      day := 1
      month_pos := le_refl 1
      month_le := by omega
      day_pos := le_refl 1
      day_le := one_le_daysInMonth _ _ }

/-- The numbers count the dates. -/
theorem dayNumber_next (d : Date) : dayNumber d.next = dayNumber d + 1 := by
  have hle := d.day_le
  unfold next dayNumber
  split
  · dsimp only
    omega
  · split
    · rename_i hmonth
      dsimp only
      rw [daysBeforeMonth_succ d.year d.month_pos hmonth]
      omega
    · have hlast : d.month = 12 := by
        have hmonth := d.month_le
        omega
      dsimp only
      rw [hlast] at hle ⊢
      rename_i hend hmonth
      have hfirst : daysBeforeMonth (d.year + 1) 1 = 0 := rfl
      rw [daysBeforeYear_succ, hfirst]
      rw [hlast] at hend
      omega

theorem ofDayNumber_succ (n : Int) : ofDayNumber (n + 1) = (ofDayNumber n).next := by
  apply dayNumber_injective
  rw [dayNumber_next, dayNumber_ofDayNumber, dayNumber_ofDayNumber]

end Date

end SecondGear.Lib
