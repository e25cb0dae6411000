import SecondGear.Model.TimedLoop
import SecondGear.Proofs.RelativeTimeout
import SecondGear.Proofs.TimerCalls
import SecondGear.Proofs.Timerfd

/-!
# `SecondGear.Proofs.TimedLoop`: `poll` does not sleep past a timer

`Armed` says which timer the timerfd is armed for. With the clock beside it this becomes a time:
the kernel's deadline is that timer's expiration, or 100 microseconds after the setting, and what is
lost in front of the setting. The clock is never behind the deadline of an armed timerfd.

Two sums of the code can overflow, and then a deadline says nothing about the timers: the difference
of `howMuchTimeFromNow`, for a new timer that expired more than `2 ^ 63` microseconds ago, and the
new expiration of `restart`. `NoOverflow` leaves such steps out.

* `addTimer_sets`, `reset_sets`: what a step of the queue does to the deadline.
* `Inv.step`: every step keeps the deadline in front of the timers.
* `sleeps_past_no_timer`: how long `poll` may sleep, and what one pass calls.
-/

set_option autoImplicit false

namespace SecondGear

open SecondGear.Lib

/-- The timerfd fires when the relative time is over, as far as the difference fits into 64 bits. -/
theorem firesAt_howMuchTimeFromNow {when now : Int} (late : Nat)
    (hfits : -2 ^ 63 ≤ when - now ∧ when - now < 2 ^ 63) :
    TimerFd.firesAt (now + late) (howMuchTimeFromNow when now)
      = now + late + max 100 (when - now) := by
  have hexact : (when - now).bmod (2 ^ 64) = when - now :=
    Int.bmod_eq_of_le (by omega) (by omega)
  have hus := howMuchTimeFromNow_microseconds when now
  rw [hexact, Timespec.microseconds] at hus
  rw [← hus, TimerFd.firesAt, kMicroSecondsPerSecond]
  delta Timestamp at *
  omega

namespace TimedLoop

variable {slack : Nat} {s s' : TimedLoop} {a : TimedLoopAction}

/-- No new timer expired more than `2 ^ 63` microseconds ago, and no sum in `restart` reaches
`2 ^ 63`. -/
def NoOverflow (s : TimedLoop) : TimedLoopAction → Prop
  | .addTimer _ expiration _ _ _ => s.clock - expiration ≤ 2 ^ 63
  | .reset _ => s.timers.RestartsFit (.reset s.clock)
  | .tick _ | .expire | .poll | .wake | .now | .handleRead | .run => True

instance (s : TimedLoop) : (a : TimedLoopAction) → Decidable (NoOverflow s a)
  | .addTimer _ _ _ _ _ => inferInstanceAs (Decidable (_ ≤ _))
  | .reset _ => inferInstanceAs (Decidable (s.timers.RestartsFit (.reset s.clock)))
  | .tick _ | .expire | .poll | .wake | .now | .handleRead | .run => isTrue trivial

/-! ### The timerfd and its deadline -/

/-- `resetTimerfd` was called with this expiration: the timerfd is armed for it and is not readable
any more. It is set `late` after the clock was read, and fires when the relative time is over. -/
structure SetFor (s s' : TimedLoop) (late : Nat) (expiration : Timestamp) : Prop where
  timerfd : s'.timers.queue.timerfd = { armed := some expiration, readable := false }
  clock : s'.clock = s.clock + late
  deadline : s'.deadline = some (s.clock + late + max 100 (expiration - s.clock))

/-- `resetTimerfd` was not called, so the timerfd, the clock and the deadline are as before. -/
structure NotSet (s s' : TimedLoop) : Prop where
  timerfd : s'.timers.queue.timerfd = s.timers.queue.timerfd
  clock : s'.clock = s.clock
  deadline : s'.deadline = s.deadline

/-- The loop thread stays where it is. A step of the queue is part of a handler, and does not go to
`poll` or come out of it. -/
structure SamePlace (s s' : TimedLoop) : Prop where
  pc : s'.pc = s.pc
  since : s'.since = s.since
  readableSince : s'.readableSince = s.readableSince

/-- `resetTimerfd` moves the clock and the deadline only, whatever it is called for. -/
theorem samePlace_resetTimerfd (s : TimedLoop) (timers : TimerRun) (late : Nat)
    (expiration? : Option Timestamp) :
    SamePlace s (resetTimerfd { s with timers } late expiration?) ∧
      (resetTimerfd { s with timers } late expiration?).timers = timers := by
  cases expiration? with
  | none => exact ⟨⟨rfl, rfl, rfl⟩, rfl⟩
  | some expiration => exact ⟨⟨rfl, rfl, rfl⟩, rfl⟩

/-- A step of the queue is one of `timerMachine`, with the deadline set for what `resetsFor` reads
off it. From here on the invariants of the queue apply to its steps in time. -/
theorem onTimers_spec {b : TimerAction} {late : Nat} (hstep : s.onTimers b late = some s') :
    s.timers.step b = some s'.timers ∧ SamePlace s s' ∧
      s' = resetTimerfd { s with timers := s'.timers } late (resetsFor s.timers s'.timers b) := by
  obtain ⟨timers, htimers, hs'⟩ := Option.bind_eq_some_iff.mp hstep
  have hs' : resetTimerfd { s with timers } late (resetsFor s.timers timers b) = s' :=
    Option.some.inj hs'
  obtain ⟨hplace, hsame⟩ := samePlace_resetTimerfd s timers late (resetsFor s.timers timers b)
  rw [hs'] at hplace hsame
  subst hsame
  exact ⟨htimers, hplace, hs'.symm⟩

/-- What the queue knows of a call of `resetTimerfd`, with its deadline. The difference to the clock
fits, or the timerfd would be set for another time. -/
theorem SetFor.of_resetTimerfd {late : Nat} {expiration : Timestamp}
    (hs' : s' = resetTimerfd { s with timers := s'.timers } late (some expiration))
    (hfits : -2 ^ 63 ≤ expiration - s.clock ∧ expiration - s.clock < 2 ^ 63)
    (htimerfd : s'.timers.queue.timerfd = { armed := some expiration, readable := false }) :
    SetFor s s' late expiration := by
  refine ⟨htimerfd, ?_, ?_⟩
  · rw [hs']
    rfl
  · rw [hs', ← firesAt_howMuchTimeFromNow late hfits]
    rfl

/-- What the queue knows when there was no call. -/
theorem NotSet.of_resetTimerfd {late : Nat}
    (hs' : s' = resetTimerfd { s with timers := s'.timers } late none)
    (htimerfd : s'.timers.queue.timerfd = s.timers.queue.timerfd) : NotSet s s' := by
  refine ⟨htimerfd, ?_, ?_⟩ <;> rw [hs'] <;> rfl

/-- `addTimerInLoop` sets the timerfd for a timer that is ahead of all others. Otherwise
there is one that is not later, and nothing is set. -/
theorem addTimer_sets (h : s.timers.Inv) (hclock : 0 < s.clock) {ptr : TimerPtr}
    {expiration : Timestamp} {repeats : Bool} {delta late : Nat}
    (hlegal : s.Legal slack (.addTimer ptr expiration repeats delta late))
    (hfit : s.NoOverflow (.addTimer ptr expiration repeats delta late))
    (hstep : s.step (.addTimer ptr expiration repeats delta late) = some s') :
    s.timers.step (.addTimer ptr expiration repeats delta s.clock) = some s'.timers ∧
      SamePlace s s' ∧
      ((∀ e ∈ s.timers.queue.timers.toList, expiration < e.first) ∧ SetFor s s' late expiration ∨
        (∃ e ∈ s.timers.queue.timers.toList, e.first ≤ expiration) ∧ NotSet s s') := by
  obtain ⟨htimers, hplace, hs'⟩ := onTimers_spec hstep
  obtain ⟨-, hfree, -, hlt, -, -⟩ := hlegal
  obtain ⟨t, ht, -, -, -, -, -, hfd⟩ := TimerRun.addTimer_spec h hfree.2
  rw [htimers, Option.some.injEq] at ht
  subst ht
  refine ⟨htimers, hplace, ?_⟩
  have hiff := TimerQueue.all_begin?_iff s.timers.queue expiration
  by_cases hfirst : ∀ e ∈ s.timers.queue.timers.toList, expiration < e.first
  · rw [resetsFor, if_pos (hiff.mpr hfirst)] at hs'
    rw [if_pos hfirst] at hfd
    have hle : s.clock - expiration ≤ 2 ^ 63 := hfit
    have hfits : -2 ^ 63 ≤ expiration - s.clock ∧ expiration - s.clock < 2 ^ 63 := by grind
    exact Or.inl ⟨hfirst, .of_resetTimerfd hs' hfits hfd⟩
  · rw [resetsFor, if_neg (fun hall => hfirst (hiff.mp hall))] at hs'
    rw [if_neg hfirst] at hfd
    have hbehind : ∃ e ∈ s.timers.queue.timers.toList, e.first ≤ expiration := by
      simpa using hfirst
    exact Or.inr ⟨hbehind, .of_resetTimerfd hs' hfd⟩

/-- The entries of the set are before the end of the 64 bits. With a positive clock the difference
of `howMuchTimeFromNow` then fits on the upper side. -/
def Fits (s : TimedLoop) : Prop := ∀ e ∈ s.timers.queue.timers.toList, e.first < 2 ^ 63

/-- What is in the set after `reset`: a restarted timer, or one of those that were there. -/
theorem reset_entry {done : List TimerEntry} {now : Timestamp} {t : TimerRun}
    (hperm : t.queue.timers.toList.Perm ((s.timers.queue.repeating done).map
      (s.timers.queue.restarted now) ++ s.timers.queue.timers.toList))
    {e : TimerEntry} (he : e ∈ t.queue.timers.toList) :
    (∃ d ∈ done, (s.timers.queue.timer d.second).repeats = true ∧
        e = s.timers.queue.restarted now d) ∨
      e ∈ s.timers.queue.timers.toList := by
  rcases List.mem_append.mp (hperm.mem_iff.mp he) with hnew | hold
  · obtain ⟨d, hd, rfl⟩ := List.mem_map.mp hnew
    obtain ⟨hd, hrepeats⟩ := List.mem_filter.mp hd
    exact Or.inl ⟨d, hd, hrepeats, rfl⟩
  · exact Or.inr hold

/-- `reset` sets the timerfd for the first entry, if that is at a valid time. Otherwise the set is
empty, or an entry at an invalid time is ahead of all others. A restarted timer is not: without an
overflow it is at the `now` of its `handleRead` or later. -/
theorem reset_sets (h : s.timers.Inv) (hclock : 0 < s.clock) (hfits : s.Fits) {late : Nat}
    (hlegal : s.Legal slack (.reset late)) (hfit : s.NoOverflow (.reset late))
    (hstep : s.step (.reset late) = some s') :
    s.timers.step (.reset s.clock) = some s'.timers ∧ SamePlace s s' ∧ s'.Fits ∧
      (∀ e ∈ s'.timers.queue.timers.toList,
        s.timers.phase.now ≤ e.first ∨ e ∈ s.timers.queue.timers.toList) ∧
      ((∃ b, s'.timers.queue.timers.begin? = some b ∧ SetFor s s' late b.first) ∨
        (∀ e ∈ s'.timers.queue.timers.toList, ∃ b ∈ s'.timers.queue.timers.toList,
          b.first ≤ e.first ∧ b.first ≤ 0) ∧ NotSet s s') := by
  obtain ⟨htimers, hplace, hs'⟩ := onTimers_spec hstep
  obtain ⟨hran, -, hlate⟩ := hlegal
  obtain ⟨done, now, hphase⟩ := TimerPhase.exists_of_allRan hran
  obtain ⟨t, ht, -, -, -, -, hinv, hperm, hfd⟩ := TimerRun.reset_spec h hphase s.clock
  rw [htimers, Option.some.injEq] at ht
  subst ht
  have hinv := hinv hfit
  have hrestart : ∀ e ∈ done, (s.timers.queue.timer e.second).repeats = true →
      now + ((s.timers.queue.timer e.second).delta : Int) < 2 ^ 63 := by
    have hfit : s.timers.RestartsFit (.reset s.clock) := hfit
    rw [TimerRun.RestartsFit, hphase] at hfit
    exact hfit
  have hfits' : s'.Fits := by
    intro e he
    rcases reset_entry hperm he with ⟨d, -, -, rfl⟩ | hold
    · exact TimerQueue.restarted_first_lt
    · exact hfits e hold
  refine ⟨htimers, hplace, hfits', ?_, ?_⟩
  · intro e he
    refine (reset_entry hperm he).imp_left ?_
    rintro ⟨d, hd, hrepeats, rfl⟩
    rw [hphase]
    exact le_trans (Int.le_add_of_nonneg_right (Int.natCast_nonneg _))
      (TimerQueue.le_restarted (hrestart d hd hrepeats))
  · rcases hfd with ⟨b, hbegin, hpos, hfd⟩ | ⟨hpast, hfd⟩
    · have hbegin : s'.timers.queue.timers.begin? = some b := hbegin
      have hb := OrderedSet.mem_of_begin? hbegin
      have hkey : (s'.timers.queue.timer b.second).expiration = b.first :=
        (hinv.keyed.key b (List.mem_append_left _ hb)).symm
      have hresets : resetsFor s.timers s'.timers (.reset s.clock) = some b.first := by
        simp [resetsFor, hbegin, hkey, Timestamp.valid, hpos]
      rw [hresets] at hs'
      have hlt : b.first < 2 ^ 63 := hfits' b hb
      have hle : s.clock < 2 ^ 63 := lt_of_le_of_lt (Int.le_add_of_nonneg_right
        (Int.natCast_nonneg late)) hlate
      have hdiff : -2 ^ 63 ≤ b.first - s.clock ∧ b.first - s.clock < 2 ^ 63 := by grind
      exact Or.inl ⟨b, hbegin, .of_resetTimerfd hs' hdiff hfd⟩
    · have hnone : resetsFor s.timers s'.timers (.reset s.clock) = none := by
        rw [resetsFor]
        cases hbegin : s'.timers.queue.timers.begin? with
        | none => rfl
        | some b =>
            have hkey : (s'.timers.queue.timer b.second).expiration = b.first :=
              (hinv.keyed.key b (List.mem_append_left _ (OrderedSet.mem_of_begin? hbegin))).symm
            have hnot : ¬ 0 < b.first := not_lt.mpr (hpast b hbegin)
            simp [hkey, Timestamp.valid, hnot]
      rw [hnone] at hs'
      refine Or.inr ⟨fun e he => ?_, .of_resetTimerfd hs' hfd⟩
      cases hbegin : s'.timers.queue.timers.begin? with
      | none =>
          rw [OrderedSet.begin?_eq_none.mp hbegin] at he
          cases he
      | some b =>
          exact ⟨b, OrderedSet.mem_of_begin? hbegin,
            TimerEntry.first_le (OrderedSet.le_of_begin? hbegin he), hpast b hbegin⟩

/-! ### The deadline is in time -/

/-- When the loop went to sleep: now, if it is awake. A timerfd that is set for the past fires 100
microseconds after the setting, and the bound on the deadline counts these from here. -/
def asleepSince (s : TimedLoop) : Timestamp := if s.pc = .poll then s.since else s.clock

/-- An armed timerfd has a deadline, and no time passed behind it. -/
structure Deadline (slack : Nat) (s : TimedLoop) : Prop where
  armed : ∀ e, s.timers.queue.timerfd.armed = some e → ∃ t, s.deadline = some t ∧ s.clock ≤ t ∧
    t ≤ max e (s.asleepSince + 100) + slack
  unarmed : s.timers.queue.timerfd.armed = none → s.deadline = none

/-- Where everything is when the loop thread is at some point: the invariants of the queue, a
deadline that keeps up with the timerfd, and the times that the thread has read, in their order. -/
structure Inv (slack : Nat) (s : TimedLoop) : Prop where
  timers : s.timers.Inv
  armed : s.timers.Armed
  deadline : s.Deadline slack
  fits : s.Fits
  idle : s.pc ≠ .work false → s.timers.phase.isIdle
  since : 0 < s.since ∧ s.since ≤ s.clock
  now : ∀ now, s.pc = .handleRead now → s.since ≤ now ∧ now ≤ s.clock
  phase : s.timers.phase.isIdle ∨
    s.since ≤ s.timers.phase.now ∧ s.timers.phase.now ≤ s.clock

/-- A new queue has no entry, and its timerfd is not armed. -/
theorem new_inv (heap : TimerPtr → Timer) {clock : Timestamp} (hclock : 0 < clock) :
    (new heap clock).Inv slack where
  timers := TimerRun.new_inv heap
  armed := TimerRun.new_armed heap
  deadline := ⟨fun e he => (by cases he), fun _ => rfl⟩
  fits := by
    intro e he
    cases he
  idle := fun _ => rfl
  since := ⟨hclock, le_refl _⟩
  now := by
    intro now hnow
    cases hnow
  phase := Or.inl rfl

/-- A deadline that was just set is that of the timer, or 100 microseconds away, and what was lost
in front of the setting is at most `slack`. -/
theorem Deadline.of_setFor {late : Nat} {expiration : Timestamp}
    (hset : SetFor s s' late expiration) (hawake : s'.pc ≠ .poll) (hlate : late ≤ slack) :
    s'.Deadline slack := by
  have hasleep : s'.asleepSince = s.clock + late := by
    rw [asleepSince, if_neg hawake, hset.clock]
  refine ⟨fun e he => ⟨_, hset.deadline, ?_, ?_⟩, fun hnone => ?_⟩
  · rw [hset.clock]
    grind
  · rw [hset.timerfd, Option.some.injEq] at he
    rw [hasleep, ← he]
    grind
  · rw [hset.timerfd] at hnone
    cases hnone

/-- A deadline stays good when nothing is set, as long as the loop did not fall asleep before. -/
theorem Deadline.of_same (h : s.Deadline slack)
    (htimerfd : s'.timers.queue.timerfd.armed = s.timers.queue.timerfd.armed)
    (hdeadline : s'.deadline = s.deadline) (hclock : ∀ t ∈ s.deadline, s'.clock ≤ t)
    (hasleep : s.asleepSince ≤ s'.asleepSince) : s'.Deadline slack := by
  refine ⟨fun e he => ?_, fun hnone => ?_⟩
  · rw [htimerfd] at he
    obtain ⟨t, ht, -, hle⟩ := h.armed e he
    refine ⟨t, hdeadline.trans ht, hclock t ht, ?_⟩
    grind
  · rw [htimerfd] at hnone
    rw [hdeadline]
    exact h.unarmed hnone

/-- The timerfd fires: it is readable and not armed, and this is the time from which it is. -/
theorem expire_step (hstep : s.step .expire = some s') :
    s.timers.step .expire = some s'.timers ∧
      s'.timers.queue.timerfd = { armed := none, readable := true } ∧
      s' = { s with timers := s'.timers, deadline := none, readableSince := s.clock } := by
  have hs' := Option.some.inj hstep
  subst hs'
  exact ⟨rfl, rfl, rfl⟩

/-- `handleRead` goes on with the clock that it has read. -/
theorem handleRead_step (hstep : s.step .handleRead = some s') :
    ∃ now, s.pc = .handleRead now ∧ s.timers.step (.handleRead now) = some s'.timers ∧
      s' = { s with timers := s'.timers, pc := .work false } := by
  obtain ⟨now, hnow, hrest⟩ := Option.bind_eq_some_iff.mp hstep
  obtain ⟨t, ht, hs'⟩ := Option.bind_eq_some_iff.mp hrest
  obtain ⟨htimers, -, hsame⟩ := onTimers_spec ht
  have hs' := Option.some.inj hs'
  subst hs'
  refine ⟨now, ?_, htimers, by rw [hsame]; rfl⟩
  cases hpc : s.pc with
  | handleRead now' =>
      rw [hpc] at hnow
      rw [Option.some.inj hnow]
  | poll =>
      rw [hpc] at hnow
      cases hnow
  | work active =>
      rw [hpc] at hnow
      cases hnow

/-- Every step of the loop is one of the queue, or leaves it alone. What the loop may do is what the
queue may do at that point, so the run of the loop is a run of `timerMachine` too. -/
theorem Inv.step_queue (h : s.Inv slack) (hlegal : s.Legal slack a) (hstep : s.step a = some s') :
    s'.timers = s.timers ∨ ∃ b, s.timers.Legal b ∧ (s.NoOverflow a → s.timers.RestartsFit b) ∧
      s.timers.step b = some s'.timers := by
  cases a with
  | tick d =>
      cases hstep
      exact Or.inl rfl
  | poll =>
      cases hstep
      exact Or.inl rfl
  | wake =>
      cases hstep
      exact Or.inl rfl
  | now =>
      cases hstep
      exact Or.inl rfl
  | expire =>
      obtain ⟨t, ht, -⟩ := hlegal
      refine Or.inr ⟨.expire, fun hnone => ?_, fun _ => trivial, (expire_step hstep).1⟩
      rw [h.deadline.unarmed hnone] at ht
      cases ht
  | handleRead =>
      obtain ⟨now, hpc, htimers, -⟩ := handleRead_step hstep
      have hidle := h.idle (by simp [hpc])
      exact Or.inr ⟨.handleRead now, ⟨lt_of_lt_of_le h.since.1 (h.now now hpc).1, hidle⟩,
        fun _ => trivial, htimers⟩
  | addTimer ptr expiration repeats delta late =>
      exact Or.inr ⟨_, hlegal.2.1, fun _ => trivial, (onTimers_spec hstep).1⟩
  | run => exact Or.inr ⟨.run, hlegal, fun _ => trivial, (onTimers_spec hstep).1⟩
  | reset late => exact Or.inr ⟨_, hlegal.1, id, (onTimers_spec hstep).1⟩

/-- The invariants of the queue are those of `timerMachine`. -/
theorem Inv.step_timers (h : s.Inv slack) (hlegal : s.Legal slack a) (hfit : s.NoOverflow a)
    (hstep : s.step a = some s') : s'.timers.Inv ∧ s'.timers.Armed := by
  rcases h.step_queue hlegal hstep with hsame | ⟨b, hb, hfits, htimers⟩
  · rw [hsame]
    exact ⟨h.timers, h.armed⟩
  · exact ⟨h.timers.step hb (hfits hfit) htimers,
      h.armed.step h.timers hb (hfits hfit) htimers⟩

/-- What stays in the set when `handleRead` takes out the others. -/
theorem mem_of_handleRead {q t : TimerRun} {now : Timestamp}
    (hstep : q.step (.handleRead now) = some t) (e : TimerEntry) :
    e ∈ t.queue.timers.toList ↔ e ∈ q.queue.timers.toList ∧ now ≤ e.first := by
  obtain ⟨⟨expired, left⟩, hcall, rfl⟩ := Option.map_eq_some_iff.mp hstep
  exact TimerQueue.getExpired_left hcall e

theorem Inv.clock (h : s.Inv slack) : 0 < s.clock := lt_of_lt_of_le h.since.1 h.since.2

/-- Time passes, or the loop thread goes from one place to the next. Nothing is set, so the deadline
stays good while the clock is not behind it and the loop did not fall asleep earlier. -/
theorem Inv.of_moved (h : s.Inv slack) (hsame : s'.timers = s.timers)
    (hdeadline : s'.deadline = s.deadline) (hclock : s.clock ≤ s'.clock)
    (hontime : ∀ t ∈ s.deadline, s'.clock ≤ t) (hasleep : s.asleepSince ≤ s'.asleepSince)
    (hidle : s'.pc ≠ .work false → s.timers.phase.isIdle)
    (hsince : s'.since = s.since ∨ s'.since = s.clock ∧ s.timers.phase.isIdle)
    (hnow : ∀ now, s'.pc = .handleRead now → s'.since ≤ now ∧ now ≤ s'.clock) : s'.Inv slack where
  timers := hsame ▸ h.timers
  armed := hsame ▸ h.armed
  deadline := h.deadline.of_same (by rw [hsame]) hdeadline hontime hasleep
  fits := by
    rw [Fits, hsame]
    exact h.fits
  idle := by
    rw [hsame]
    exact hidle
  since := by
    rcases hsince with heq | ⟨heq, -⟩
    · rw [heq]
      exact ⟨h.since.1, le_trans h.since.2 hclock⟩
    · rw [heq]
      exact ⟨h.clock, hclock⟩
  now := hnow
  phase := by
    rw [hsame]
    rcases hsince with heq | ⟨-, hphase⟩
    · rw [heq]
      exact h.phase.imp_right fun hphase => ⟨hphase.1, le_trans hphase.2 hclock⟩
    · exact Or.inl hphase

/-- No time passed behind the deadline. -/
theorem Inv.onTime (h : s.Inv slack) : ∀ t ∈ s.deadline, s.clock ≤ t := by
  intro t ht
  cases harmed : s.timers.queue.timerfd.armed with
  | none =>
      rw [h.deadline.unarmed harmed] at ht
      cases ht
  | some e =>
      obtain ⟨t', ht', hle, -⟩ := h.deadline.armed e harmed
      rw [ht'] at ht
      cases ht
      exact hle

/-- Time passes, up to the deadline: the kernel fires there. -/
theorem Inv.step_tick (h : s.Inv slack) {d : Nat} (hlegal : s.Legal slack (.tick d)) :
    ({ s with clock := s.clock + d } : TimedLoop).Inv slack := by
  have hle : s.clock ≤ s.clock + (d : Int) := Int.le_add_of_nonneg_right (Int.natCast_nonneg d)
  refine h.of_moved rfl rfl hle hlegal.2 ?_ h.idle (Or.inl rfl) ?_
  · simp only [asleepSince]
    split
    · exact le_refl _
    · exact hle
  · intro now hnow
    exact ⟨(h.now now hnow).1, le_trans (h.now now hnow).2 hle⟩

/-- `poll` is called. -/
theorem Inv.step_poll (h : s.Inv slack) (hlegal : s.Legal slack .poll) :
    ({ s with pc := .poll, since := s.clock } : TimedLoop).Inv slack := by
  refine h.of_moved rfl rfl (le_refl _) h.onTime ?_ (fun _ => hlegal.2) (Or.inr ⟨rfl, hlegal.2⟩) ?_
  · simp [asleepSince, hlegal.1]
  · intro now hnow
    cases hnow

/-- It returns. -/
theorem Inv.step_wake (h : s.Inv slack) (hlegal : s.Legal slack .wake) :
    ({ s with pc := .work s.timers.queue.timerfd.readable, since := s.clock } : TimedLoop).Inv
      slack := by
  have hpc : s.pc = .poll := hlegal
  have hidle := h.idle (by simp [hpc])
  refine h.of_moved rfl rfl (le_refl _) h.onTime ?_ (fun _ => hidle) (Or.inr ⟨rfl, hidle⟩) ?_
  · simpa [asleepSince, hpc] using h.since.2
  · intro now hnow
    cases hnow

/-- `handleRead` reads the clock. -/
theorem Inv.step_now (h : s.Inv slack) (hlegal : s.Legal slack .now) :
    ({ s with pc := .handleRead s.clock } : TimedLoop).Inv slack := by
  have hpc : s.pc = .work true := hlegal
  have hidle := h.idle (by simp [hpc])
  refine h.of_moved rfl rfl (le_refl _) h.onTime ?_ (fun _ => hidle) (Or.inl rfl) ?_
  · simp [asleepSince, hpc]
  · intro now hnow
    cases hnow
    exact ⟨h.since.2, le_refl _⟩

/-- The timerfd fires. There is no deadline any more, and nothing that has to be in front of it. -/
theorem Inv.step_expire (h : s.Inv slack) (hlegal : s.Legal slack .expire)
    (hstep : s.step .expire = some s') : s'.Inv slack := by
  obtain ⟨htimers, harmed⟩ := h.step_timers hlegal trivial hstep
  obtain ⟨ht, hfd, hs'⟩ := expire_step hstep
  have ht := Option.some.inj ht
  have hphase : s'.timers.phase = s.timers.phase := by rw [← ht]
  refine ⟨htimers, harmed, ⟨?_, ?_⟩, ?_, ?_, ?_, ?_, ?_⟩
  · intro e he
    rw [hfd] at he
    cases he
  · intro _
    rw [hs']
  · rw [Fits, ← ht]
    exact h.fits
  · rw [hphase, hs']
    exact h.idle
  · rw [hs']
    exact h.since
  · rw [hs']
    exact h.now
  · rw [hphase, hs']
    exact h.phase

/-- `handleRead` takes out what has expired. -/
theorem Inv.step_handleRead (h : s.Inv slack) (hlegal : s.Legal slack .handleRead)
    (hstep : s.step .handleRead = some s') : s'.Inv slack := by
  obtain ⟨htimers, harmed⟩ := h.step_timers hlegal trivial hstep
  obtain ⟨now, hpc, ht, hs'⟩ := handleRead_step hstep
  have hidle := h.idle (by simp [hpc])
  obtain ⟨expired, hphase, -, -, -, -, hfd, -, -⟩ := TimerRun.handleRead_spec h.timers hidle ht
  have hclock : s'.clock = s.clock := by rw [hs']
  have hsince : s'.since = s.since := by rw [hs']
  have hpc' : s'.pc = .work false := by rw [hs']
  refine ⟨htimers, harmed, ?_, ?_, fun hne => absurd hpc' hne, ?_, ?_, Or.inr ?_⟩
  · refine h.deadline.of_same (by rw [hfd]; rfl) (by rw [hs']) (hclock ▸ h.onTime) ?_
    simp [asleepSince, hpc, hpc', hclock]
  · exact fun e he => h.fits e ((mem_of_handleRead ht e).mp he).1
  · rw [hsince, hclock]
    exact h.since
  · intro now' hnow'
    rw [hpc'] at hnow'
    cases hnow'
  · rw [hphase, hsince, hclock]
    exact h.now now hpc

/-- A step of the queue while the loop thread runs a handler. The loop is awake, so a deadline that
is set now is counted from now on, and one that is not set is the old one. -/
theorem Inv.of_sets (h : s.Inv slack) (htimers : s'.timers.Inv) (harmed : s'.timers.Armed)
    (hplace : SamePlace s s') (hawake : s.pc.isWork) (hfits : s'.Fits)
    (hsets : (∃ late expiration, late ≤ slack ∧ SetFor s s' late expiration) ∨ NotSet s s')
    (hphase : s'.timers.phase.isIdle ∨ s'.timers.phase.isIdle = s.timers.phase.isIdle ∧
      s'.timers.phase.now = s.timers.phase.now) : s'.Inv slack := by
  have hawake' : s'.pc ≠ .poll := by
    rw [hplace.pc]
    rintro heq
    simp [heq, TimedLoopPc.isWork] at hawake
  have hclock : s.clock ≤ s'.clock := by
    rcases hsets with ⟨late, e, -, hset⟩ | hset
    · rw [hset.clock]
      exact Int.le_add_of_nonneg_right (Int.natCast_nonneg late)
    · exact le_of_eq hset.clock.symm
  refine ⟨htimers, harmed, ?_, hfits, ?_, ?_, ?_, ?_⟩
  · -- A new deadline, or the old one.
    rcases hsets with ⟨late, e, hlate, hset⟩ | hset
    · exact .of_setFor hset hawake' hlate
    · refine h.deadline.of_same (by rw [hset.timerfd]) hset.deadline (hset.clock ▸ h.onTime) ?_
      have hawake : s.pc ≠ .poll := hplace.pc ▸ hawake'
      simp [asleepSince, hawake, hawake', hset.clock]
  · intro hne
    rw [hplace.pc] at hne
    rcases hphase with hidle | ⟨hsame, -⟩
    · exact hidle
    · exact hsame ▸ h.idle hne
  · rw [hplace.since]
    exact ⟨h.since.1, le_trans h.since.2 hclock⟩
  · intro now hnow
    rw [hplace.pc] at hnow
    rw [hnow] at hawake
    cases hawake
  · rcases hphase with hidle | ⟨hsame, hnow⟩
    · exact Or.inl hidle
    · rw [hsame, hnow, hplace.since]
      exact h.phase.imp_right fun hle => ⟨hle.1, le_trans hle.2 hclock⟩

/-- Inside the loop of `handleRead` the thread is at work. -/
theorem Inv.isWork_of_running (h : s.Inv slack) (hrunning : ¬ s.timers.phase.isIdle) :
    s.pc.isWork := by
  by_contra hnot
  refine hrunning (h.idle fun hpc => hnot ?_)
  rw [hpc]
  rfl

/-- A handler or a callback adds a timer. -/
theorem Inv.step_addTimer (h : s.Inv slack) {ptr : TimerPtr} {expiration : Timestamp}
    {repeats : Bool} {delta late : Nat}
    (hlegal : s.Legal slack (.addTimer ptr expiration repeats delta late))
    (hfit : s.NoOverflow (.addTimer ptr expiration repeats delta late))
    (hstep : s.step (.addTimer ptr expiration repeats delta late) = some s') : s'.Inv slack := by
  obtain ⟨htimers, harmed⟩ := h.step_timers hlegal hfit hstep
  obtain ⟨ht, hplace, hsets⟩ := addTimer_sets h.timers h.clock hlegal hfit hstep
  obtain ⟨hwork, hfree, -, hlt, hlate, -⟩ := hlegal
  obtain ⟨t, ht', -, hphase, -, hperm, -, -⟩ := TimerRun.addTimer_spec h.timers hfree.2
  rw [ht, Option.some.injEq] at ht'
  subst ht'
  refine h.of_sets htimers harmed hplace hwork ?_ ?_ (Or.inr (by rw [hphase]; exact ⟨rfl, rfl⟩))
  · intro e he
    rcases List.mem_cons.mp (hperm.mem_iff.mp he) with rfl | hold
    · exact hlt
    · exact h.fits e hold
  · exact hsets.imp (fun hset => ⟨late, expiration, hlate, hset.2⟩) And.right

/-- A timer runs. Its callback sets nothing by itself: what it adds is a step of its own. -/
theorem Inv.step_run (h : s.Inv slack) (hlegal : s.Legal slack .run)
    (hstep : s.step .run = some s') : s'.Inv slack := by
  obtain ⟨htimers, harmed⟩ := h.step_timers hlegal trivial hstep
  obtain ⟨ht, hplace, hs'⟩ := onTimers_spec hstep
  obtain ⟨done, it, rest, now, hphase⟩ := TimerPhase.exists_of_hasNext hlegal
  obtain ⟨t, ht', hphase', hqueue, -⟩ := TimerRun.run_spec h.timers hphase
  rw [ht, Option.some.injEq] at ht'
  subst ht'
  have hnot : NotSet s s' := .of_resetTimerfd hs' (by rw [hqueue])
  have hrunning : ¬ s.timers.phase.isIdle := by simp [hphase, TimerPhase.isIdle]
  have hfits : s'.Fits := by
    rw [Fits, hqueue]
    exact h.fits
  refine h.of_sets htimers harmed hplace (h.isWork_of_running hrunning) hfits (Or.inr hnot)
    (Or.inr ?_)
  rw [hphase, hphase']
  exact ⟨rfl, rfl⟩

/-- `reset` is the end of `handleRead`. The repeating timers are back in the set, and the timerfd is
set for the first one. -/
theorem Inv.step_reset (h : s.Inv slack) {late : Nat} (hlegal : s.Legal slack (.reset late))
    (hfit : s.NoOverflow (.reset late)) (hstep : s.step (.reset late) = some s') :
    s'.Inv slack := by
  obtain ⟨htimers, harmed⟩ := h.step_timers hlegal hfit hstep
  obtain ⟨ht, hplace, hfits, -, hsets⟩ := reset_sets h.timers h.clock h.fits hlegal hfit hstep
  obtain ⟨done, now, hphase⟩ := TimerPhase.exists_of_allRan hlegal.1
  obtain ⟨t, ht', hidle, -⟩ := TimerRun.reset_spec h.timers hphase s.clock
  rw [ht, Option.some.injEq] at ht'
  subst ht'
  have hrunning : ¬ s.timers.phase.isIdle := by simp [hphase, TimerPhase.isIdle]
  refine h.of_sets htimers harmed hplace (h.isWork_of_running hrunning) hfits ?_
    (Or.inl (by rw [hidle]; rfl))
  rcases hsets with hset | hnone
  · obtain ⟨b, hset⟩ := hset
    exact Or.inl ⟨late, b.first, hlegal.2.1, hset.2⟩
  · exact Or.inr hnone.2

/-- Every step without an overflow keeps the deadline in front of the timers. -/
theorem Inv.step (h : s.Inv slack) (hlegal : s.Legal slack a) (hfit : s.NoOverflow a)
    (hstep : s.step a = some s') : s'.Inv slack := by
  cases a with
  | tick d =>
      cases hstep
      exact h.step_tick hlegal
  | expire => exact h.step_expire hlegal hstep
  | poll =>
      cases hstep
      exact h.step_poll hlegal
  | wake =>
      cases hstep
      exact h.step_wake hlegal
  | now =>
      cases hstep
      exact h.step_now hlegal
  | handleRead => exact h.step_handleRead hlegal hstep
  | addTimer ptr expiration repeats delta late => exact h.step_addTimer hlegal hfit hstep
  | run => exact h.step_run hlegal hstep
  | reset late => exact h.step_reset hlegal hfit hstep

/-- So does every run. -/
theorem Inv.of_run (h : s.Inv slack) {as : List TimedLoopAction}
    (hrun : ((timedLoopMachine slack).restrict NoOverflow).Run s as s') : s'.Inv slack := by
  refine hrun.invariant h ?_
  intro s a s' hinv hlegal hstep
  exact hinv.step hlegal.1 hlegal.2 hstep

/-- In `poll`, without a readable timerfd, no timer is due for longer than it takes to notice. -/
theorem Inv.asleep (h : s.Inv slack) (hpoll : s.pc = .poll)
    (hasleep : s.timers.queue.timerfd.readable = false) {e : TimerEntry}
    (he : e ∈ s.timers.queue.timers.toList) :
    s.clock ≤ max e.first (s.since + 100) + slack := by
  rcases h.armed.wakes e he (Or.inl (h.idle (by simp [hpoll]))) with hreadable | ⟨e', harmed, hle⟩
  · rw [hasleep] at hreadable
    cases hreadable
  · -- Armed for a timer that is not behind this one, and not fired yet.
    obtain ⟨t, -, hclock, ht⟩ := h.deadline.armed e' harmed
    rw [asleepSince, if_pos hpoll] at ht
    grind

/-! ### One pass calls what is due -/

/-- Callbacks that ran are not taken back. -/
theorem calls_grow {q t : TimerRun} {b : TimerAction} (hstep : q.step b = some t) :
    q.calls <+: t.calls := by
  cases b with
  | addTimer ptr expiration repeats delta clock =>
      obtain ⟨queue, -, rfl⟩ := Option.map_eq_some_iff.mp hstep
      exact List.prefix_refl _
  | expire =>
      cases hstep
      exact List.prefix_refl _
  | handleRead now =>
      obtain ⟨⟨expired, queue⟩, -, rfl⟩ := Option.map_eq_some_iff.mp hstep
      exact List.prefix_refl _
  | run =>
      simp only [TimerRun.step] at hstep
      split at hstep
      · cases hstep
        exact List.prefix_append _ _
      · cases hstep
  | reset clock =>
      simp only [TimerRun.step] at hstep
      split at hstep
      · obtain ⟨queue, -, rfl⟩ := Option.map_eq_some_iff.mp hstep
        exact List.prefix_refl _
      · cases hstep

/-- How often a timer was called. -/
def callCount (s : TimedLoop) (n : Nat) : Nat := (s.timers.callsOf n).length

/-- Nor does any step of the loop. -/
theorem Inv.callCount_le (h : s.Inv slack) (hlegal : s.Legal slack a) (hstep : s.step a = some s')
    (n : Nat) : s.callCount n ≤ s'.callCount n := by
  rcases h.step_queue hlegal hstep with hsame | ⟨b, -, -, htimers⟩
  · rw [callCount, callCount, hsame]
  · exact ((calls_grow htimers).filter _).length_le

/-- The pass that will call a timer of the set: `handleRead` is still to come, and will read a clock
that is past a time. -/
def ReadsAfter (s : TimedLoop) (due : Timestamp) : Prop :=
  s.pc = .work true ∧ due ≤ s.clock ∨ ∃ now, s.pc = .handleRead now ∧ due ≤ now

/-- A timer that is due, from the return of `poll` on. Before it was called more than `k` times it
is in the set or in the vector of the `handleRead` of this pass. -/
inductive Owed (n k : Nat) (due : Timestamp) (s : TimedLoop) : Prop where
  | called (hcalled : k < s.callCount n)
  | inSet (e : TimerEntry) (he : e ∈ s.timers.queue.timers.toList)
      (hserial : s.timers.queue.serialOf e = n) (hcount : k ≤ s.callCount n) (hdue : e.first < due)
      (hreads : s.ReadsAfter due)
  | taken (e : TimerEntry) (he : e ∈ s.timers.phase.rest)
      (hserial : s.timers.queue.serialOf e = n) (hcount : k ≤ s.callCount n)

section Owed

variable {n k : Nat} {due : Timestamp}

/-- No pass ends with a timer that is owed a call. -/
theorem Owed.at_poll (h : s.Owed n k due) (hinv : s.Inv slack) (hpoll : s.pc = .poll) :
    k < s.callCount n := by
  cases h with
  | called hcalled => exact hcalled
  | inSet e he hserial hcount hdue hreads =>
      rcases hreads with ⟨hpc, -⟩ | ⟨now, hpc, -⟩ <;> rw [hpoll] at hpc <;> cases hpc
  | taken e he hserial hcount =>
      rw [TimerPhase.eq_idle (hinv.idle (by simp [hpoll]))] at he
      cases he

/-- While `handleRead` is to come, the thread is outside its loop. -/
theorem ReadsAfter.idle (h : s.ReadsAfter due) (hinv : s.Inv slack) : s.timers.phase.isIdle := by
  refine hinv.idle fun hpc => ?_
  rcases h with ⟨hpc', -⟩ | ⟨now, hpc', -⟩ <;> rw [hpc] at hpc' <;> cases hpc'

/-- Inside it nothing is owed to the set. -/
theorem Inv.not_idle (h : s.Inv slack) {e : TimerEntry} (he : e ∈ s.timers.phase.rest) :
    s.pc = .work false := by
  by_contra hpc
  rw [TimerPhase.eq_idle (h.idle hpc)] at he
  cases he

/-- A timer of the set stays owed: it stays there until `handleRead` takes it out. -/
theorem Owed.step_inSet (h : s.Inv slack) {e : TimerEntry}
    (he : e ∈ s.timers.queue.timers.toList) (hserial : s.timers.queue.serialOf e = n)
    (hcount : k ≤ s.callCount n) (hdue : e.first < due) (hreads : s.ReadsAfter due)
    (hlegal : s.Legal slack a) (hfit : s.NoOverflow a) (hstep : s.step a = some s') :
    s'.Owed n k due := by
  have hidle := hreads.idle h
  have hcount' : k ≤ s'.callCount n := le_trans hcount (h.callCount_le hlegal hstep n)
  cases a with
  | tick d =>
      cases hstep
      refine .inSet e he hserial hcount hdue ?_
      refine hreads.imp_left fun hpc => ⟨hpc.1, le_trans hpc.2 ?_⟩
      exact Int.le_add_of_nonneg_right (Int.natCast_nonneg d)
  | expire =>
      obtain ⟨ht, -, hs'⟩ := expire_step hstep
      have ht := Option.some.inj ht
      refine .inSet e ?_ ?_ hcount' hdue ?_
      · rw [← ht]
        exact he
      · rw [← ht]
        exact hserial
      · rw [hs']
        exact hreads
  | poll =>
      -- The pass does not end in front of its `handleRead`.
      rcases hreads with ⟨hpc, -⟩ | ⟨now, hpc, -⟩
      · exact absurd (hpc.symm.trans hlegal.1) (by simp)
      · exact absurd (hpc.symm.trans hlegal.1) (by simp)
  | wake =>
      have hpoll : s.pc = .poll := hlegal
      rcases hreads with ⟨hpc, -⟩ | ⟨now, hpc, -⟩ <;> exact absurd (hpc.symm.trans hpoll) (by simp)
  | now =>
      cases hstep
      have hwork : s.pc = .work true := hlegal
      rcases hreads with ⟨-, hclock⟩ | ⟨now, hpc, -⟩
      · exact .inSet e he hserial hcount hdue (Or.inr ⟨s.clock, rfl, hclock⟩)
      · exact absurd (hpc.symm.trans hwork) (by simp)
  | handleRead =>
      obtain ⟨now, hpc, ht, hs'⟩ := handleRead_step hstep
      have hnow : due ≤ now := by
        rcases hreads with ⟨hpc', -⟩ | ⟨now', hpc', hle⟩
        · exact absurd (hpc.symm.trans hpc') (by simp)
        · cases hpc.symm.trans hpc'
          exact hle
      -- So it is among the expired ones.
      obtain ⟨expired, hphase, hexpired, htimer, -⟩ :=
        TimerRun.handleRead_spec h.timers hidle ht
      refine .taken e ?_ ?_ hcount'
      · rw [hphase]
        show e ∈ expired
        rw [hexpired]
        exact List.mem_filter.mpr ⟨he, decide_eq_true (lt_of_lt_of_le hdue hnow)⟩
      · rw [TimerQueue.serialOf, htimer]
        exact hserial
  | addTimer ptr expiration repeats delta late =>
      obtain ⟨ht, hplace, hsets⟩ := addTimer_sets h.timers h.clock hlegal hfit hstep
      obtain ⟨t, ht', -, -, -, hperm, hserials, -⟩ := TimerRun.addTimer_spec h.timers hlegal.2.1.2
      rw [ht, Option.some.injEq] at ht'
      subst ht'
      refine .inSet e (hperm.mem_iff.mpr (List.mem_cons_of_mem _ he)) ?_ hcount' hdue ?_
      · rw [hserials e (List.mem_append_left _ he)]
        exact hserial
      · rw [ReadsAfter, hplace.pc]
        refine hreads.imp_left fun hpc => ⟨hpc.1, le_trans hpc.2 ?_⟩
        rcases hsets with ⟨-, hset⟩ | ⟨-, hset⟩
        · rw [hset.clock]
          exact Int.le_add_of_nonneg_right (Int.natCast_nonneg late)
        · exact le_of_eq hset.clock.symm
  | run =>
      obtain ⟨done, it, rest, now, hphase⟩ := TimerPhase.exists_of_hasNext hlegal
      simp [hphase, TimerPhase.isIdle] at hidle
  | reset late =>
      obtain ⟨done, now, hphase⟩ := TimerPhase.exists_of_allRan hlegal.1
      simp [hphase, TimerPhase.isIdle] at hidle

/-- So does one of the expired vector, until it is called. -/
theorem Owed.step_taken (h : s.Inv slack) {e : TimerEntry} (he : e ∈ s.timers.phase.rest)
    (hserial : s.timers.queue.serialOf e = n) (hcount : k ≤ s.callCount n)
    (hlegal : s.Legal slack a) (hstep : s.step a = some s') : s'.Owed n k due := by
  have hpc := h.not_idle he
  have hcount' : k ≤ s'.callCount n := le_trans hcount (h.callCount_le hlegal hstep n)
  cases a with
  | tick d =>
      cases hstep
      exact .taken e he hserial hcount
  | expire =>
      have ht := Option.some.inj (expire_step hstep).1
      refine .taken e ?_ ?_ hcount'
      · rw [← ht]
        exact he
      · rw [← ht]
        exact hserial
  | poll =>
      -- `handleRead` has not returned yet.
      rw [TimerPhase.eq_idle hlegal.2] at he
      cases he
  | wake => exact absurd (hpc.symm.trans hlegal) (by simp)
  | now => exact absurd (hpc.symm.trans hlegal) (by simp)
  | handleRead =>
      obtain ⟨now, hpc', -, -⟩ := handleRead_step hstep
      exact absurd (hpc.symm.trans hpc') (by simp)
  | addTimer ptr expiration repeats delta late =>
      have ht := (onTimers_spec hstep).1
      obtain ⟨t, ht', -, hphase, -, -, hserials, -⟩ :=
        TimerRun.addTimer_spec h.timers hlegal.2.1.2
      rw [ht, Option.some.injEq] at ht'
      subst ht'
      refine .taken e (hphase ▸ he) ?_ hcount'
      have hmem := TimerRun.mem_entries_of_waiting (List.mem_append_right _ he)
      rw [hserials e hmem]
      exact hserial
  | run =>
      have ht := (onTimers_spec hstep).1
      obtain ⟨done, it, rest, now, hphase⟩ := TimerPhase.exists_of_hasNext hlegal
      obtain ⟨t, ht', hphase', hqueue, -, hcalls, -⟩ := TimerRun.run_spec h.timers hphase
      rw [ht, Option.some.injEq] at ht'
      subst ht'
      rw [hphase] at he
      rcases List.mem_cons.mp he with rfl | hrest
      · -- It is its turn.
        refine .called (lt_of_le_of_lt hcount ?_)
        rw [callCount, callCount, TimerRun.callsOf, TimerRun.callsOf, hcalls, List.filter_append,
          List.length_append]
        simp [hserial]
      · refine .taken e ?_ ?_ hcount'
        · rw [hphase']
          exact hrest
        · rw [hqueue]
          exact hserial
  | reset late =>
      -- `reset` is behind the last call.
      obtain ⟨done, now, hphase⟩ := TimerPhase.exists_of_allRan hlegal.1
      rw [hphase] at he
      cases he

/-- What is owed stays owed until it is called, in every step of the pass. -/
theorem Owed.step (ho : s.Owed n k due) (h : s.Inv slack) (hlegal : s.Legal slack a)
    (hfit : s.NoOverflow a) (hstep : s.step a = some s') : s'.Owed n k due := by
  cases ho with
  | called hcalled => exact .called (lt_of_lt_of_le hcalled (h.callCount_le hlegal hstep n))
  | inSet e he hserial hcount hdue hreads =>
      exact Owed.step_inSet h he hserial hcount hdue hreads hlegal hfit hstep
  | taken e he hserial hcount => exact Owed.step_taken h he hserial hcount hlegal hstep

end Owed

/-- In every run without an overflow, as far as no timer expires exactly at the `now` of a
`handleRead`:

- no timer is called early;
- while the loop is asleep and the timerfd is not readable, each timer of the set is due for at most
  `slack` microseconds, or the loop went to sleep at most `100 + slack` microseconds ago;
- when `poll` returns with a readable timerfd, every timer that is due by then is called before the
  next `poll`, whatever the other handlers and the callbacks add. -/
theorem sleeps_past_no_timer (slack : Nat) (heap : TimerPtr → Timer) {clock : Timestamp}
    (hclock : 0 < clock) {as : List TimedLoopAction} {s : TimedLoop}
    (hrun : ((timedLoopMachine slack).restrict NoOverflow).Run (new heap clock) as s) :
    (∀ done it rest now, s.timers.phase = .running done (it :: rest) now →
      it.first < now ∧ now ≤ s.clock) ∧
    (s.pc = .poll → s.timers.queue.timerfd.readable = false →
      ∀ e ∈ s.timers.queue.timers.toList, s.clock ≤ max e.first (s.since + 100) + slack) ∧
    (s.pc = .poll → s.timers.queue.timerfd.readable = true →
      ∀ bs s', ((timedLoopMachine slack).restrict NoOverflow).Run s (.wake :: bs) s' →
        s'.pc = .poll → ∀ e ∈ s.timers.queue.timers.toList, e.first < s.clock →
          s.callCount (s.timers.queue.serialOf e) < s'.callCount (s.timers.queue.serialOf e)) := by
  have h : s.Inv slack := (new_inv heap hclock).of_run hrun
  refine ⟨?early, fun hpoll hasleep e he => h.asleep hpoll hasleep he, ?called⟩
  case early =>
    intro done it rest now hphase
    have hit : it ∈ s.timers.phase.expired := by simp [hphase, TimerPhase.expired,
      TimerPhase.done, TimerPhase.rest]
    have hpast := h.timers.past it hit
    rw [hphase] at hpast
    rcases h.phase with hidle | ⟨-, hle⟩
    · simp [hphase, TimerPhase.isIdle] at hidle
    · rw [hphase] at hle
      exact ⟨hpast, hle⟩
  case called =>
    intro hpoll hreadable bs s' hrun hpoll' e he hdue
    obtain ⟨t, ⟨hlegal, hwake⟩, hrest⟩ := hrun.cons_inv
    have ht : t.Inv slack := h.step (a := .wake) hlegal.1 hlegal.2 hwake
    have howed : t.Owed (s.timers.queue.serialOf e) (s.callCount (s.timers.queue.serialOf e))
        s.clock := by
      cases hwake
      refine .inSet e he rfl (le_refl _) hdue (Or.inl ⟨?_, le_refl _⟩)
      rw [hreadable]
    have hboth : s'.Inv slack ∧ s'.Owed (s.timers.queue.serialOf e)
        (s.callCount (s.timers.queue.serialOf e)) s.clock := by
      refine hrest.invariant (I := fun u => u.Inv slack ∧ u.Owed (s.timers.queue.serialOf e)
        (s.callCount (s.timers.queue.serialOf e)) s.clock) ⟨ht, howed⟩ ?_
      intro u a u' hu hlegal hstep
      exact ⟨hu.1.step hlegal.1 hlegal.2 hstep, hu.2.step hu.1 hlegal.1 hlegal.2 hstep⟩
    exact hboth.2.at_poll hboth.1 hpoll'

/-- The timerfd is set 3 microseconds after the clock was read, and the loop is asleep until
then. -/
theorem sleeps_past_no_timer_late : ∃ s : TimedLoop, s.clock = 2003 ∧ s.since = 1003 ∧
    s.clock ≤ max 2000 (s.since + 100) + 3 := by
  obtain ⟨s, hrun, hclock, hsince, hpoll, hasleep, hmem⟩ :=
    Machine.exists_run (M := (timedLoopMachine 3).restrict NoOverflow)
    (P := fun s : TimedLoop => s.clock = 2003 ∧ s.since = 1003 ∧ s.pc = .poll ∧
      s.timers.queue.timerfd.readable = false ∧ toLex (2000, 5) ∈ s.timers.queue.timers.toList)
    (new (fun _ => { expiration := 0, delta := 0, repeats := false, serial := 0 }) 1000)
    [.addTimer 5 2000 false 0 3, .poll, .tick 1000] (by decide +kernel)
  exact ⟨s, hclock, hsince,
    (sleeps_past_no_timer 3 _ (by decide) hrun).2.1 hpoll hasleep _ hmem⟩

end TimedLoop

end SecondGear
