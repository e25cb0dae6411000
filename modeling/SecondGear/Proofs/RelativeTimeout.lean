import SecondGear.Proofs.TimerRuns

/-!
# `SecondGear.Proofs.RelativeTimeout`: the relative time that a deadline is armed for

`howMuchTimeFromNow` subtracts the clock from the deadline in 64 bits, raises what is less than
100 microseconds to 100, and splits the result into seconds and nanoseconds. The result always
arms. It is the right one as long as the difference fits: `runAt` takes any deadline, and one
that is more than `2 ^ 63` microseconds ago comes out in the future.

* `howMuchTimeFromNow_eq_int64`: the arithmetic of the model is that of `int64_t`.
* `howMuchTimeFromNow_right_iff`: for which deadlines the relative time is right.
* `not_howMuchTimeFromNow_right`: the earliest deadline there is.
* `rightFor_of_valid`: the deadlines that `reset` arms for are among them, since it tests
  `valid` first.
* `timeout_of_overflow`: what an overflowing deadline does to the timers behind it.
-/

set_option autoImplicit false

namespace SecondGear

open SecondGear.Lib

/-! ### Seconds and nanoseconds -/

namespace Timespec

/-- The microseconds of a relative time. -/
def microseconds (ts : Timespec) : Int := ts.tv_sec * 10 ^ 6 + ts.tv_nsec / 1000

/-- A relative time that `timerfd_settime` takes, and that does not disarm. -/
structure Arms (ts : Timespec) : Prop where
  tv_sec : 0 ≤ ts.tv_sec
  tv_nsec : 0 ≤ ts.tv_nsec ∧ ts.tv_nsec < 10 ^ 9
  ne_zero : ¬ (ts.tv_sec = 0 ∧ ts.tv_nsec = 0)

/-- The relative time for a deadline: what is left of it, and 100 microseconds at least. -/
structure RightFor (ts : Timespec) (when now : Timestamp) : Prop where
  arms : ts.Arms
  microseconds : ts.microseconds = max 100 (when - now)

end Timespec

/-- The truncating division and its remainder give back the microseconds. -/
theorem microseconds_split (us : Int) :
    Timespec.microseconds
      { tv_sec := us.tdiv kMicroSecondsPerSecond
        tv_nsec := us.tmod kMicroSecondsPerSecond * 1000 } = us := by
  have hsplit : kMicroSecondsPerSecond * us.tdiv kMicroSecondsPerSecond
      + us.tmod kMicroSecondsPerSecond = us := Int.mul_tdiv_add_tmod _ _
  have hnano : us.tmod kMicroSecondsPerSecond * 1000 / 1000 = us.tmod kMicroSecondsPerSecond :=
    Int.mul_ediv_cancel _ (by decide)
  show us.tdiv kMicroSecondsPerSecond * 10 ^ 6 + us.tmod kMicroSecondsPerSecond * 1000 / 1000 = us
  rw [hnano]
  rw [kMicroSecondsPerSecond] at hsplit ⊢
  omega

/-- What was less than 100 microseconds is 100. -/
theorem howMuchTimeFromNow_microseconds (when now : Timestamp) :
    (howMuchTimeFromNow when now).microseconds = max 100 ((when - now).bmod (2 ^ 64)) := by
  rw [← clamped_eq_max]
  exact microseconds_split _

/-- Whatever the difference is, the relative time arms. -/
theorem howMuchTimeFromNow_arms (when now : Timestamp) : (howMuchTimeFromNow when now).Arms := by
  have hsplit : ∀ us : Int, 0 ≤ us → 0 ≤ us.tdiv kMicroSecondsPerSecond ∧
      0 ≤ us.tmod kMicroSecondsPerSecond ∧ us.tmod kMicroSecondsPerSecond < 10 ^ 6 := by
    intro us hus
    refine ⟨Int.tdiv_nonneg hus (by decide), Int.tmod_nonneg _ hus, ?_⟩
    exact Int.tmod_lt_of_pos _ (by decide)
  have hus : 0 ≤ if (when - now).bmod (2 ^ 64) < 100 then 100
      else (when - now).bmod (2 ^ 64) := by
    rw [clamped_eq_max]
    exact le_trans (by decide) (le_max_left _ _)
  obtain ⟨hsec, hmicro, hlt⟩ := hsplit _ hus
  refine ⟨hsec, ⟨?_, ?_⟩, howMuchTimeFromNow_ne_zero when now⟩
  · exact Int.mul_nonneg hmicro (by decide)
  · show Int.tmod _ _ * 1000 < 10 ^ 9
    omega

/-! ### 64 bits -/

/-- The model computes what the code does in `int64_t`. The division and the product do not
overflow. -/
theorem howMuchTimeFromNow_eq_int64 (when now : Int64) :
    howMuchTimeFromNow when.toInt now.toInt =
      let us := if when - now < 100 then 100 else when - now
      { tv_sec := (us / 1000000).toInt, tv_nsec := (us % 1000000 * 1000).toInt } := by
  have hus : (if (when.toInt - now.toInt).bmod (2 ^ 64) < 100 then 100
      else (when.toInt - now.toInt).bmod (2 ^ 64))
      = (if when - now < 100 then 100 else when - now).toInt := by
    rw [← Int64.toInt_sub]
    by_cases hlt : when - now < 100
    · have hint : (when - now).toInt < 100 := Int64.lt_iff_toInt_lt.mp hlt
      rw [if_pos hlt, if_pos hint]
      rfl
    · have hint : ¬ (when - now).toInt < 100 := fun h => hlt (Int64.lt_iff_toInt_lt.mpr h)
      rw [if_neg hlt, if_neg hint]
  show Timespec.mk (Int.tdiv (if _ then _ else _) _) (Int.tmod (if _ then _ else _) _ * 1000) = _
  rw [hus]
  generalize (if when - now < 100 then 100 else when - now) = us
  have hdiv : (us / 1000000).toInt = us.toInt.tdiv kMicroSecondsPerSecond :=
    Int64.toInt_div_of_ne_right us 1000000 (by decide)
  have hmod : (us % 1000000).toInt = us.toInt.tmod kMicroSecondsPerSecond :=
    Int64.toInt_mod us 1000000
  -- A remainder is small in both directions.
  have hlt : us.toInt.tmod kMicroSecondsPerSecond < 10 ^ 6 := Int.tmod_lt_of_pos _ (by decide)
  have hgt : -(10 ^ 6) < us.toInt.tmod kMicroSecondsPerSecond := Int.lt_tmod_of_pos _ (by decide)
  have hmul : (us % 1000000 * 1000).toInt = us.toInt.tmod kMicroSecondsPerSecond * 1000 := by
    rw [Int64.toInt_mul, hmod, show Int64.toInt 1000 = 1000 from rfl]
    exact Int.bmod_eq_of_le (by omega) (by omega)
  show _ = Timespec.mk (us / 1000000).toInt (us % 1000000 * 1000).toInt
  rw [hdiv, hmul]

section Difference

variable {when now : Int64}

/-- The difference fits: no deadline is further ahead than that. -/
theorem difference_of_le (hnow : 0 < now) (hle : now.toInt - when.toInt ≤ 2 ^ 63) :
    (when.toInt - now.toInt).bmod (2 ^ 64) = when.toInt - now.toInt := by
  have hpos : 0 < now.toInt := Int64.lt_iff_toInt_lt.mp hnow
  have hwhen := when.toInt_lt
  exact Int.bmod_eq_of_le (by omega) (by omega)

/-- It overflows, once. -/
theorem difference_of_lt (hlt : 2 ^ 63 < now.toInt - when.toInt) :
    (when.toInt - now.toInt).bmod (2 ^ 64) = when.toInt - now.toInt + 2 ^ 64 := by
  have hwhen := when.le_toInt
  have hnow := now.toInt_lt
  have hwrap : (when.toInt - now.toInt).bmod (2 ^ 64)
      = (when.toInt - now.toInt + (2 ^ 64 : Nat)).bmod (2 ^ 64) := (Int.add_bmod_right _ _).symm
  rw [hwrap, Int.bmod_eq_of_le (by omega) (by omega)]
  rfl

/-- The timeout for a deadline that is not too far ago. -/
theorem rightFor_of_le (hnow : 0 < now) (hle : now.toInt - when.toInt ≤ 2 ^ 63) :
    (howMuchTimeFromNow when.toInt now.toInt).RightFor when.toInt now.toInt where
  arms := howMuchTimeFromNow_arms _ _
  microseconds := by rw [howMuchTimeFromNow_microseconds, difference_of_le hnow hle]

/-- The timeout for one that is. -/
theorem microseconds_of_lt (hlt : 2 ^ 63 < now.toInt - when.toInt) :
    (howMuchTimeFromNow when.toInt now.toInt).microseconds
      = max 100 (when.toInt - now.toInt + 2 ^ 64) := by
  rw [howMuchTimeFromNow_microseconds, difference_of_lt hlt]

/-- After the test of `valid` in `reset` the deadline is not before the epoch. -/
theorem rightFor_of_valid (hvalid : Timestamp.valid when.toInt) (hnow : 0 < now) :
    (howMuchTimeFromNow when.toInt now.toInt).RightFor when.toInt now.toInt := by
  have hwhen : 0 < when.toInt := by simpa [Timestamp.valid] using hvalid
  have hlt := now.toInt_lt
  exact rightFor_of_le hnow (by omega)

end Difference

/-- The relative timeout. For every 64-bit deadline and every 64-bit time after the epoch:

- the seconds are not negative, the nanoseconds are less than a second, they are not both zero,
  and they are the microseconds until the deadline or 100 if these are more, exactly if the
  deadline is at most `2 ^ 63` microseconds ago, or so long ago that the difference comes round
  to at most 100;
- all of it but the number of microseconds holds for every deadline, so the timerfd is armed. -/
theorem howMuchTimeFromNow_right_iff (when now : Int64) (hnow : 0 < now) :
    ((howMuchTimeFromNow when.toInt now.toInt).RightFor when.toInt now.toInt ↔
      now.toInt - when.toInt ≤ 2 ^ 63 ∨ 2 ^ 64 - 100 ≤ now.toInt - when.toInt) ∧
    (howMuchTimeFromNow when.toInt now.toInt).Arms ∧
    (TimerFd.resetTimerfd when.toInt now.toInt).armed = some when.toInt := by
  refine ⟨⟨fun hright => ?_, fun hcond => ?_⟩, howMuchTimeFromNow_arms _ _, ?_⟩
  · by_contra hnot
    rw [not_or, not_le, not_le] at hnot
    -- The clamp does not see the true sign.
    have hus := hright.microseconds
    rw [microseconds_of_lt hnot.1] at hus
    omega
  · rcases hcond with hle | hround
    · exact rightFor_of_le hnow hle
    · refine ⟨howMuchTimeFromNow_arms _ _, ?_⟩
      rw [microseconds_of_lt (by omega)]
      omega
  · rw [TimerFd.resetTimerfd_eq]

/-- The theorem at a deadline a second and a half ahead. -/
theorem howMuchTimeFromNow_right_ahead :
    (howMuchTimeFromNow (1600000001500000 : Int64).toInt (1600000000000000 : Int64).toInt).RightFor
      (1600000001500000 : Int64).toInt (1600000000000000 : Int64).toInt :=
  (howMuchTimeFromNow_right_iff 1600000001500000 1600000000000000 (by decide)).1.mpr
    (Or.inl (by decide))

/-- The earliest deadline there is: the timer should fire in 100 microseconds. -/
theorem not_howMuchTimeFromNow_right : ¬ ∀ when now : Int64, 0 < now →
    (howMuchTimeFromNow when.toInt now.toInt).RightFor when.toInt now.toInt := by
  intro hall
  have hus := (hall Int64.minValue 1600000000000000 (by decide)).microseconds
  rw [microseconds_of_lt (by decide)] at hus
  revert hus
  decide

/-! ### The timers behind it -/

namespace TimerRun

variable {s s' t : TimerRun}

/-- A timer that is added for the time of an entry, or for a later one. -/
def AddsBehind (e : TimerEntry) (_ : TimerRun) : TimerAction → Prop
  | .addTimer _ expiration _ _ _ => e.first ≤ expiration
  | _ => False

/-- Timers that are added behind an entry do not set the timerfd again. -/
theorem timerfd_of_addsBehind (h : s.Inv) {e : TimerEntry} (he : e ∈ s.queue.timers.toList)
    {as : List TimerAction} (hrun : (timerMachine.restrict (AddsBehind e)).Run s as s') :
    s'.queue.timerfd = s.queue.timerfd := by
  suffices hkept : s'.Inv ∧ e ∈ s'.queue.timers.toList ∧ s'.queue.timerfd = s.queue.timerfd from
    hkept.2.2
  refine hrun.invariant (I := fun t => t.Inv ∧ e ∈ t.queue.timers.toList ∧
    t.queue.timerfd = s.queue.timerfd) ⟨h, he, rfl⟩ ?_
  rintro t a t' ⟨ht, hmem, hfd⟩ ⟨hlegal, hbehind⟩ hstep
  cases a with
  | addTimer ptr expiration repeats delta clock =>
      obtain ⟨u, hu, hinv, -, -, hperm, -, hset⟩ := addTimer_spec ht hlegal.2
      have hstep' : t.step (.addTimer ptr expiration repeats delta clock) = some t' := hstep
      rw [hstep', Option.some.injEq] at hu
      subst hu
      refine ⟨hinv, hperm.mem_iff.mpr (List.mem_cons_of_mem _ hmem), ?_⟩
      -- The entry is in front of the new timer, so `insert` says that the first one stays.
      have hle : e.first ≤ expiration := hbehind
      rw [hset, if_neg fun hfirst => absurd (hfirst e hmem) (not_lt.mpr hle), hfd]
  | _ => exact hbehind.elim

/-- A deadline that overflows, and is ahead of all timers. The timerfd is set for the time that
is left modulo `2 ^ 64`, and timers that are added behind it do not change that. -/
theorem timeout_of_overflow (h : s.Inv) {when now : Int64}
    (hover : 2 ^ 63 < now.toInt - when.toInt) {ptr : TimerPtr} {repeats : Bool} {delta : Nat}
    (hlegal : s.Legal (.addTimer ptr when.toInt repeats delta now.toInt))
    (hfirst : ∀ e ∈ s.queue.timers.toList, when.toInt < e.first)
    (hstep : s.step (.addTimer ptr when.toInt repeats delta now.toInt) = some t)
    {as : List TimerAction}
    (hrun : (timerMachine.restrict (AddsBehind (toLex (when.toInt, ptr)))).Run t as s') :
    s'.queue.timerfd = .settime (howMuchTimeFromNow when.toInt now.toInt) when.toInt ∧
      (howMuchTimeFromNow when.toInt now.toInt).microseconds
        = max 100 (when.toInt - now.toInt + 2 ^ 64) := by
  obtain ⟨u, hu, hinv, -, -, hperm, -, hset⟩ := addTimer_spec h hlegal.2
  rw [hstep, Option.some.injEq] at hu
  subst hu
  have hmem : toLex (when.toInt, ptr) ∈ t.queue.timers.toList :=
    hperm.mem_iff.mpr List.mem_cons_self
  refine ⟨?_, microseconds_of_lt hover⟩
  rw [timerfd_of_addsBehind hinv hmem hrun, hset, if_pos hfirst]
  exact (TimerFd.resetTimerfd_eq _ _).symm

end TimerRun

end SecondGear
