import SecondGear.Proofs.TimerRuns

/-!
# `SecondGear.Proofs.Timerfd`: the timerfd wakes the loop in time

`insert` and `reset` both decide whether to arm. In between, inside `handleRead`, the timerfd
may be disarmed although timers wait, for `reset` arms it at the end. It does not when the
first entry is at a time that is not valid. `Armed` therefore asks for an armed timerfd
outside `handleRead`, and inside it for the entries at such times: these were added by
callbacks, since `now` is valid and a restarted timer is behind it, unless its sum overflows.

* `timerfd_armed_in_time`: outside `handleRead`, a set with entries has a timerfd that fired
  or that is armed for no later than the first of them, as long as no sum overflows.
* `not_timerfd_armed_in_time`: a restarted timer before the epoch leaves the timerfd disarmed.
-/

set_option autoImplicit false

namespace SecondGear

open SecondGear.Lib

/-- The timerfd fired, or will by this time. -/
def TimerFd.WakesBy (fd : TimerFd) (when : Timestamp) : Prop :=
  fd.readable = true ∨ ∃ e, fd.armed = some e ∧ e ≤ when

/-- A later time is as good. -/
theorem TimerFd.WakesBy.mono {fd : TimerFd} {when later : Timestamp} (h : fd.WakesBy when)
    (hle : when ≤ later) : fd.WakesBy later := by
  rcases h with hfired | ⟨e, harmed, he⟩
  · exact Or.inl hfired
  · exact Or.inr ⟨e, harmed, le_trans he hle⟩

/-- A timerfd that was just armed. -/
theorem TimerFd.wakesBy_armed {expiration when : Timestamp} (hle : expiration ≤ when) :
    TimerFd.WakesBy { armed := some expiration, readable := false } when :=
  Or.inr ⟨expiration, rfl, hle⟩

namespace TimerRun

variable {s s' : TimerRun}

/-- The loop wakes up for every entry. Inside `handleRead` this is asked only of the entries
for which `reset` will not arm. -/
structure Armed (s : TimerRun) : Prop where
  wakes : ∀ e ∈ s.queue.timers.toList, s.phase.isIdle ∨ e.first ≤ 0 →
    s.queue.timerfd.WakesBy e.first
  valid : s.phase.isIdle ∨ 0 < s.phase.now

theorem new_armed (heap : TimerPtr → Timer) : (new heap).Armed where
  wakes := by
    intro e he
    cases he
  valid := Or.inl rfl

/-- `addTimerInLoop`: the timerfd is armed for the new timer, or for an entry that is not
later. -/
theorem addTimer_armed (hinv : s.Inv) (h : s.Armed) {ptr : TimerPtr} {expiration : Timestamp}
    {repeats : Bool} {delta : Nat} {clock : Timestamp}
    (hlegal : s.Legal (.addTimer ptr expiration repeats delta clock))
    (hstep : s.step (.addTimer ptr expiration repeats delta clock) = some s') : s'.Armed := by
  obtain ⟨s₁, hs₁, -, hphase, -, hperm, -, hfd⟩ := addTimer_spec hinv hlegal.2
  rw [hstep, Option.some.injEq] at hs₁
  rw [← hs₁] at hphase hperm hfd
  refine ⟨?_, by rw [hphase]; exact h.valid⟩
  intro e he hasked
  rw [hphase] at hasked
  by_cases hfirst : ∀ d ∈ s.queue.timers.toList, expiration < d.first
  · rw [hfd, if_pos hfirst]
    rcases List.mem_cons.mp (hperm.mem_iff.mp he) with rfl | hold
    · exact TimerFd.wakesBy_armed (le_refl _)
    · exact TimerFd.wakesBy_armed (le_of_lt (hfirst e hold))
  · rw [hfd, if_neg hfirst]
    rcases List.mem_cons.mp (hperm.mem_iff.mp he) with rfl | hold
    · -- An entry that is not later than the new one keeps the loop awake for both.
      obtain ⟨d, hd, hnot⟩ : ∃ d ∈ s.queue.timers.toList, ¬ expiration < d.first := by
        simpa using hfirst
      have hle : d.first ≤ expiration := le_of_not_gt hnot
      have hasked' : s.phase.isIdle ∨ d.first ≤ 0 :=
        hasked.imp_right fun hzero => le_trans hle hzero
      exact (h.wakes d hd hasked').mono hle
    · exact h.wakes e hold hasked

/-- The end of `handleRead`: `reset` arms for the first entry, or every entry for which the
loop would sleep is at a time that is not valid, and was there before. -/
theorem reset_armed (hinv : s.Inv) (h : s.Armed) {done : List TimerEntry} {now : Timestamp}
    (hphase : s.phase = .running done [] now) {clock : Timestamp}
    (hfits : s.RestartsFit (.reset clock)) (hstep : s.step (.reset clock) = some s') :
    s'.Armed := by
  rw [RestartsFit, hphase] at hfits
  obtain ⟨s₁, hs₁, hidle, -, -, -, -, hperm, hfd⟩ := reset_spec hinv hphase clock
  rw [hstep, Option.some.injEq] at hs₁
  rw [← hs₁] at hidle hperm hfd
  have hnow : 0 < now := by
    have hvalid := h.valid
    rw [hphase] at hvalid
    exact hvalid.resolve_left (by simp [TimerPhase.isIdle])
  refine ⟨?_, Or.inl (by rw [hidle]; rfl)⟩
  intro e he _
  rcases hfd with ⟨b, hbegin, -, hfd⟩ | ⟨hpast, hfd⟩
  · rw [hfd]
    exact TimerFd.wakesBy_armed (TimerEntry.first_le (OrderedSet.le_of_begin? hbegin he))
  · rw [hfd]
    -- The first entry is not a restarted one, so it was in the set, with a timerfd for it.
    cases hbegin : s'.queue.timers.begin? with
    | none =>
        rw [OrderedSet.begin?_eq_none.mp hbegin] at he
        cases he
    | some b =>
        have hb : b.first ≤ 0 := hpast b hbegin
        have hle := TimerEntry.first_le (OrderedSet.le_of_begin? hbegin he)
        rcases List.mem_append.mp (hperm.mem_iff.mp (OrderedSet.mem_of_begin? hbegin))
          with hnew | hold
        · obtain ⟨d, hd, rfl⟩ := List.mem_map.mp hnew
          obtain ⟨hd, hrepeats⟩ := List.mem_filter.mp hd
          have hpos : (0 : Int) < now + ((s.queue.timer d.second).delta : Int) :=
            lt_of_lt_of_le hnow (Int.le_add_of_nonneg_right (Int.natCast_nonneg _))
          have hexact := TimerQueue.le_restarted (hfits d hd hrepeats)
          exact absurd hb (not_le.mpr (lt_of_lt_of_le hpos hexact))
        · exact (h.wakes b hold (Or.inr hb)).mono hle

/-- Every legal step that restarts no timer beyond the 64 bits keeps the timerfd armed in time. -/
theorem Armed.step (h : s.Armed) (hinv : s.Inv) {a : TimerAction} (hlegal : s.Legal a)
    (hfits : s.RestartsFit a) (hstep : s.step a = some s') : s'.Armed := by
  cases a with
  | addTimer ptr expiration repeats delta clock => exact addTimer_armed hinv h hlegal hstep
  | expire =>
      cases hstep
      exact ⟨fun e he _ => Or.inl rfl, h.valid⟩
  | handleRead now =>
      obtain ⟨expired, hphase, -, -, -, -, -, hlater, -⟩ := handleRead_spec hinv hlegal.2 hstep
      have hnow : 0 < now := hlegal.1
      refine ⟨?_, Or.inr (by rw [hphase]; exact hnow)⟩
      intro e he hasked
      -- What stays in the set is not asked for.
      rcases hasked with hidle | hzero
      · simp [hphase, TimerPhase.isIdle] at hidle
      · exact absurd hzero (not_le.mpr (lt_of_lt_of_le hnow (hlater e he)))
  | run =>
      obtain ⟨done, it, rest, now, hphase⟩ := TimerPhase.exists_of_hasNext hlegal
      obtain ⟨s₁, hs₁, hphase', hqueue, -⟩ := run_spec hinv hphase
      rw [hstep, Option.some.injEq] at hs₁
      rw [← hs₁] at hphase' hqueue
      have hnow := h.valid
      rw [hphase] at hnow
      refine ⟨?_, by rw [hphase']; exact hnow⟩
      rw [hqueue, hphase']
      intro e he hasked
      exact h.wakes e he (hasked.imp_left fun hidle => by cases hidle)
  | reset clock =>
      obtain ⟨done, now, hphase⟩ := TimerPhase.exists_of_allRan hlegal
      exact reset_armed hinv h hphase hfits hstep

/-- Outside `handleRead`, a set with entries has a timerfd that fired and is unread, or whose
last setting was made for no later than the first entry and did not fire yet. -/
def ArmedInTime (s : TimerRun) : Prop :=
  s.phase.isIdle → ∀ b, s.queue.timers.begin? = some b →
    s.queue.timerfd.readable = true ∨ ∃ e, s.queue.timerfd.armed = some e ∧ e ≤ b.first

/-- The timerfd is armed in time in every run in which no sum in `restart` overflows. -/
theorem timerfd_armed_in_time (heap : TimerPtr → Timer) {as : List TimerAction}
    {s : TimerRun} (hrun : (timerMachine.restrict RestartsFit).Run (new heap) as s) :
    s.ArmedInTime := by
  have hboth : s.Inv ∧ s.Armed := by
    refine hrun.invariant (I := fun s => s.Inv ∧ s.Armed) ⟨new_inv heap, new_armed heap⟩ ?_
    intro t a t' ht hlegal hstep
    exact ⟨ht.1.step hlegal.1 hlegal.2 hstep, ht.2.step ht.1 hlegal.1 hlegal.2 hstep⟩
  intro hidle b hbegin
  exact hboth.2.wakes b (OrderedSet.mem_of_begin? hbegin) (Or.inl hidle)

/-- A callback adds two timers at the same time before the epoch. The second insertion does
not arm, and neither does `reset`. -/
theorem timerfd_armed_in_time_tied :
    ∃ s : TimerRun, s.phase.isIdle ∧
      (s.queue.timerfd.readable = true ∨ ∃ e, s.queue.timerfd.armed = some e ∧ e ≤ -20) := by
  obtain ⟨s, hrun, hidle, hbegin⟩ := Machine.exists_run (M := timerMachine.restrict RestartsFit)
    (P := fun s : TimerRun =>
      s.phase.isIdle = true ∧ s.queue.timers.begin? = some (toLex (-20, 7)))
    (new fun _ => { expiration := 0, delta := 0, repeats := false, serial := 0 })
    [.addTimer 5 100 false 0 1, .expire, .handleRead 200, .run, .addTimer 7 (-20) false 0 3,
      .addTimer 9 (-20) false 0 3, .reset 4]
    (by decide +kernel)
  exact ⟨s, hidle, timerfd_armed_in_time _ hrun hidle _ hbegin⟩

/-- Not so when a sum overflows. The one timer has an interval of 9223372036000 seconds, and comes
back at a time before the epoch, for which `reset` does not arm: it is not called again, and
neither is any that is added behind it. -/
theorem not_timerfd_armed_in_time : ¬ ∀ (heap : TimerPtr → Timer) (as : List TimerAction)
    (s : TimerRun), timerMachine.Run (new heap) as s → s.ArmedInTime := by
  intro hall
  obtain ⟨s, hrun, hidle, hbegin, hreadable, harmed⟩ := Machine.exists_run (M := timerMachine)
    (P := fun s : TimerRun => s.phase.isIdle = true ∧
      s.queue.timers.begin? = some (toLex (-9221772037709551516, 3)) ∧
      s.queue.timerfd.readable = false ∧ s.queue.timerfd.armed = none)
    (new fun _ => { expiration := 0, delta := 0, repeats := false, serial := 0 })
    [.addTimer 3 1600000000000000 true 9223372036000000000 1599999999999000, .expire,
      .handleRead 1600000000000100, .run, .reset 1600000000000300]
    (by decide +kernel)
  rcases hall _ _ s hrun hidle _ hbegin with hfired | ⟨e, he, -⟩
  · rw [hreadable] at hfired
    cases hfired
  · rw [harmed] at he
    cases he

end TimerRun

end SecondGear
