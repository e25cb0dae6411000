import SecondGear.Proofs.TimedLoop

/-!
# `SecondGear.Proofs.TimerLatency`: how late a timer can be

How long a timer waits behind its expiration depends on the machine and on the handlers: how long
the thread needs to come out of `poll` when the timerfd is readable (`wake`), and how long one pass
takes from there to the next `poll` (`pass`). `Swift` bounds both. `Prompt` asks in addition that a
new timer does not expire before the pass in which it is added. Then no timer waits longer than a
sum of these bounds, however many timers there are, in every run without an overflow.

The condition on new timers is needed. `addTimerInLoop` sets the timerfd for every timer that is
ahead of the others, and for one that is past this is 100 microseconds from now, whatever the
timerfd was set for before.

* `OnTime`: what the deadline, the readable timerfd and the start of the pass are bounded by.
* `timers_on_time`: the bound.
* `timers_starve`: without the condition there is none.
-/

set_option autoImplicit false

namespace SecondGear

open SecondGear.Lib

namespace TimedLoop

variable {slack wake pass : Nat} {s s' : TimedLoop} {a : TimedLoopAction}

/-- The thread comes out of `poll` and through each pass in time. `wake` counts from the time at
which the timerfd is readable and the thread is in `poll`, `pass` from the return of `poll`. -/
def Swift (wake pass : Nat) (s : TimedLoop) : TimedLoopAction → Prop
  | .tick d =>
      if s.pc = .poll then s.timers.queue.timerfd.readable = true →
        s.clock + (d : Int) ≤ max s.since s.readableSince + wake
      else s.clock + (d : Int) ≤ s.since + pass
  | .addTimer _ _ _ _ late | .reset late => s.clock + (late : Int) ≤ s.since + pass
  | .expire | .poll | .wake | .now | .handleRead | .run => True

instance (wake pass : Nat) (s : TimedLoop) :
    (a : TimedLoopAction) → Decidable (Swift wake pass s a)
  | .tick _ => inferInstanceAs (Decidable (ite _ _ _))
  | .addTimer _ _ _ _ _ | .reset _ => inferInstanceAs (Decidable (_ ≤ _))
  | .expire | .poll | .wake | .now | .handleRead | .run => isTrue trivial

/-- A new timer does not expire before the pass in which it is added. -/
def Ahead (s : TimedLoop) : TimedLoopAction → Prop
  | .addTimer _ expiration _ _ _ => s.since ≤ expiration
  | .tick _ | .expire | .poll | .wake | .now | .handleRead | .run | .reset _ => True

instance (s : TimedLoop) : (a : TimedLoopAction) → Decidable (Ahead s a)
  | .addTimer _ _ _ _ _ => inferInstanceAs (Decidable (_ ≤ _))
  | .tick _ | .expire | .poll | .wake | .now | .handleRead | .run | .reset _ => isTrue trivial

/-- A swift machine, and no new timer that was due before its pass. -/
def Prompt (wake pass : Nat) (s : TimedLoop) (a : TimedLoopAction) : Prop :=
  Swift wake pass s a ∧ Ahead s a

instance (wake pass : Nat) (s : TimedLoop) (a : TimedLoopAction) :
    Decidable (Prompt wake pass s a) :=
  inferInstanceAs (Decidable (_ ∧ _))

/-- How late the timerfd can be for an entry: what the pass that sets it takes, the 100
microseconds of the least relative time, and what is lost in front of the setting. -/
def firesBy (slack pass : Nat) (e : TimerEntry) : Int := e.first + (pass + 100 + slack : Nat)

/-- The bounds at each place of the loop thread. Together they bound how long an entry waits: until
the timerfd fires, until the thread comes out of `poll`, and until the callback. -/
structure OnTime (slack wake pass : Nat) (s : TimedLoop) : Prop where
  work : s.pc ≠ .poll → s.clock ≤ s.since + (pass : Int)
  woken : s.pc = .poll → s.timers.queue.timerfd.readable = true →
    s.clock ≤ max s.since s.readableSince + (wake : Int)
  asleep : s.pc = .poll → s.timers.queue.timerfd.readable = true →
    s.since ≤ s.readableSince + (pass : Int)
  /-- outside `handleRead` and what leads there, the timerfd was not readable when `poll`
  returned -/
  missed : s.pc = .work false → s.timers.queue.timerfd.readable = true →
    s.since ≤ s.readableSince
  deadline : ∀ t, s.deadline = some t → ∀ e ∈ s.timers.queue.timers.toList,
    t ≤ firesBy slack pass e
  fired : s.timers.queue.timerfd.readable = true → ∀ e ∈ s.timers.queue.timers.toList,
    s.readableSince ≤ firesBy slack pass e
  /-- the timers that `handleRead` left in the set, and those that were added since -/
  left : ¬ s.timers.phase.isIdle → ∀ e ∈ s.timers.queue.timers.toList, s.since ≤ e.first
  waiting : s.pc ≠ .poll → ∀ e ∈ s.timers.waiting,
    s.since ≤ firesBy slack pass e + (pass + wake : Nat)

theorem new_onTime (heap : TimerPtr → Timer) (clock : Timestamp) :
    (new heap clock).OnTime slack wake pass where
  work := fun _ => Int.le_add_of_nonneg_right (Int.natCast_nonneg pass)
  woken := by
    intro hpc
    cases hpc
  asleep := by
    intro hpc
    cases hpc
  missed := fun _ _ => le_refl _
  deadline := by
    intro t ht
    cases ht
  fired := by
    intro hreadable
    cases hreadable
  left := fun hnot => absurd rfl hnot
  waiting := by
    intro _ e he
    cases he

/-- The timerfd of a loop that is about to be woken. -/
theorem OnTime.clock_le (h : s.OnTime slack wake pass) (hinv : s.Inv slack) (hpoll : s.pc = .poll)
    {e : TimerEntry} (he : e ∈ s.timers.queue.timers.toList) :
    s.clock ≤ firesBy slack pass e + (pass + wake : Nat) := by
  cases hreadable : s.timers.queue.timerfd.readable with
  | true =>
      have hwoken := h.woken hpoll hreadable
      have hasleep := h.asleep hpoll hreadable
      have hfired := h.fired hreadable e he
      grind
  | false =>
      have hidle := hinv.idle (by simp [hpoll])
      rcases hinv.armed.wakes e he (Or.inl hidle) with hyes | ⟨e', harmed, -⟩
      · rw [hreadable] at hyes
        cases hyes
      · obtain ⟨t, ht, hclock, -⟩ := hinv.deadline.armed e' harmed
        have hle := h.deadline t ht e he
        grind

/-! ### Every step keeps the bounds -/

/-- The bounds on the clock are what `Swift` says, and the others do not speak of it. -/
theorem OnTime.step_tick (h : s.OnTime slack wake pass) {d : Nat}
    (hswift : Swift wake pass s (.tick d)) :
    ({ s with clock := s.clock + d } : TimedLoop).OnTime slack wake pass where
  work := by
    intro hpc
    rw [Swift, if_neg hpc] at hswift
    exact hswift
  woken := by
    intro hpc
    rw [Swift, if_pos hpc] at hswift
    exact hswift
  asleep := h.asleep
  missed := h.missed
  deadline := h.deadline
  fired := h.fired
  left := h.left
  waiting := h.waiting

/-- A pass ends, and the time in `poll` is counted from here. -/
theorem OnTime.step_poll (h : s.OnTime slack wake pass)
    (hlegal : s.Legal slack .poll) :
    ({ s with pc := .poll, since := s.clock } : TimedLoop).OnTime slack wake pass where
  work := fun hpc => absurd rfl hpc
  woken := by
    intro _ _
    exact le_trans (le_max_left _ _) (Int.le_add_of_nonneg_right (Int.natCast_nonneg wake))
  asleep := by
    intro _ hreadable
    have hwork := h.work (by simp [hlegal.1])
    have hmissed := h.missed hlegal.1 hreadable
    show s.clock ≤ s.readableSince + (pass : Int)
    grind
  missed := by
    intro hpc
    cases hpc
  deadline := h.deadline
  fired := h.fired
  left := fun hrunning => absurd hlegal.2 hrunning
  waiting := fun hpc => absurd rfl hpc

/-- A pass starts, not later than the timerfd allows. -/
theorem OnTime.step_wake (h : s.OnTime slack wake pass) (hinv : s.Inv slack)
    (hlegal : s.Legal slack .wake) :
    ({ s with pc := .work s.timers.queue.timerfd.readable, since := s.clock } : TimedLoop).OnTime
      slack wake pass where
  work := fun _ => Int.le_add_of_nonneg_right (Int.natCast_nonneg pass)
  woken := by
    intro hpc
    cases hpc
  asleep := by
    intro hpc
    cases hpc
  missed := by
    intro hpc hreadable
    have hnot : s.timers.queue.timerfd.readable = false := TimedLoopPc.work.inj hpc
    have hyes : s.timers.queue.timerfd.readable = true := hreadable
    rw [hnot] at hyes
    cases hyes
  deadline := h.deadline
  fired := h.fired
  left := by
    have hidle := hinv.idle (by simp [show s.pc = .poll from hlegal])
    exact fun hrunning => absurd hidle hrunning
  waiting := by
    intro _ e he
    have hidle := TimerPhase.eq_idle (hinv.idle (by simp [show s.pc = .poll from hlegal]))
    have he : e ∈ s.timers.queue.timers.toList ++ s.timers.phase.rest := he
    rw [hidle] at he
    exact h.clock_le hinv hlegal (by simpa [TimerPhase.rest] using he)

/-- `handleRead` reads the clock, inside the pass. -/
theorem OnTime.step_now (h : s.OnTime slack wake pass) (hlegal : s.Legal slack .now) :
    ({ s with pc := .handleRead s.clock } : TimedLoop).OnTime slack wake pass where
  work := fun _ => h.work (by simp [show s.pc = .work true from hlegal])
  woken := by
    intro hpc
    cases hpc
  asleep := by
    intro hpc
    cases hpc
  missed := by
    intro hpc
    cases hpc
  deadline := h.deadline
  fired := h.fired
  left := h.left
  waiting := fun _ => h.waiting (by simp [show s.pc = .work true from hlegal])

/-- The timerfd fires at its deadline. -/
theorem OnTime.step_expire (h : s.OnTime slack wake pass) (hinv : s.Inv slack)
    (hlegal : s.Legal slack .expire) (hstep : s.step .expire = some s') :
    s'.OnTime slack wake pass := by
  have hs' := Option.some.inj hstep
  subst hs'
  obtain ⟨t, ht, hle⟩ := hlegal
  exact {
    work := h.work
    woken := fun _ _ => le_trans (le_max_right _ _)
      (Int.le_add_of_nonneg_right (Int.natCast_nonneg wake))
    asleep := fun _ _ => le_trans hinv.since.2
      (Int.le_add_of_nonneg_right (Int.natCast_nonneg pass))
    missed := fun _ _ => hinv.since.2
    deadline := by
      intro t ht
      cases ht
    fired := fun _ e he => le_trans (hinv.onTime t ht) (h.deadline t ht e he)
    left := h.left
    waiting := h.waiting }

/-- `handleRead` leaves what expires later. -/
theorem OnTime.step_handleRead (h : s.OnTime slack wake pass) (hinv : s.Inv slack)
    (hstep : s.step .handleRead = some s') : s'.OnTime slack wake pass := by
  obtain ⟨now, hpc, ht, hs'⟩ := handleRead_step hstep
  have hidle := hinv.idle (by simp [hpc])
  obtain ⟨expired, hphase, hexpired, -, -, -, hfd, -, -⟩ :=
    TimerRun.handleRead_spec hinv.timers hidle ht
  have hmem := mem_of_handleRead ht
  have hreadable : s'.timers.queue.timerfd.readable = false := by rw [hfd]; rfl
  have hpc' : s'.pc = .work false := by rw [hs']
  have hsince : s'.since = s.since := by rw [hs']
  refine ⟨fun _ => ?_, fun hpoll => ?_, fun hpoll => ?_, fun _ hyes => ?_, ?_, fun hyes => ?_, ?_,
    ?_⟩
  · rw [hs']
    exact h.work (by simp [hpc])
  · exact absurd (hpc'.symm.trans hpoll) (by simp)
  · exact absurd (hpc'.symm.trans hpoll) (by simp)
  · rw [hreadable] at hyes
    cases hyes
  · intro t htime e he
    rw [hs'] at htime
    exact h.deadline t htime e ((hmem e).mp he).1
  · rw [hreadable] at hyes
    cases hyes
  · intro _ e he
    rw [hsince]
    exact le_trans (hinv.now now hpc).1 ((hmem e).mp he).2
  · intro _ e he
    rw [hsince]
    refine h.waiting (by simp [hpc]) e (List.mem_append_left _ ?_)
    rw [TimerRun.waiting, hphase] at he
    rcases List.mem_append.mp he with hleft | hrest
    · exact ((hmem e).mp hleft).1
    · have hrest : e ∈ expired := hrest
      rw [hexpired] at hrest
      exact (List.mem_filter.mp hrest).1

/-- The timerfd is set for an entry, in the pass in which that is added or restarted. -/
theorem setFor_firesBy {late : Nat} {b : TimerEntry} (hset : SetFor s s' late b.first)
    (hlate : late ≤ slack) (hwork : s.clock ≤ s.since + (pass : Int)) (hsince : s.since ≤ b.first)
    {e : TimerEntry} (hle : b.first ≤ e.first) {t : Timestamp} (ht : s'.deadline = some t) :
    t ≤ firesBy slack pass e := by
  rw [hset.deadline, Option.some.injEq] at ht
  rw [firesBy, ← ht]
  grind

theorem firesBy_mono {d e : TimerEntry} (hle : d.first ≤ e.first) :
    firesBy slack pass d ≤ firesBy slack pass e :=
  Int.add_le_add_right hle _

/-- A step of the queue. Either the timerfd is set for the first entry, in time, or the entries that
are new to the set have an earlier one in front of them. -/
theorem OnTime.of_sets (h : s.OnTime slack wake pass) (hplace : SamePlace s s')
    (hawake : s.pc.isWork) (hclock : s'.clock ≤ s.since + (pass : Int))
    (hsets : (∃ (late : Nat) (b : TimerEntry), late ≤ slack ∧ SetFor s s' late b.first ∧
        s.since ≤ b.first ∧ ∀ e ∈ s'.timers.queue.timers.toList, b.first ≤ e.first) ∨
      NotSet s s' ∧ ∀ e ∈ s'.timers.queue.timers.toList,
        ∃ d ∈ s.timers.queue.timers.toList, d.first ≤ e.first)
    (hleft : ¬ s'.timers.phase.isIdle → ∀ e ∈ s'.timers.queue.timers.toList, s.since ≤ e.first)
    (hwaiting : ∀ e ∈ s'.timers.waiting, e ∈ s.timers.waiting ∨ s.since ≤ e.first) :
    s'.OnTime slack wake pass := by
  have hnot : s.pc ≠ .poll := by
    rintro hpc
    simp [hpc, TimedLoopPc.isWork] at hawake
  have hwork : s.clock ≤ s.since + (pass : Int) := h.work hnot
  refine ⟨fun _ => ?_, fun hpoll => ?_, fun hpoll => ?_, fun hpc hreadable => ?_,
    fun t ht e he => ?_, fun hreadable e he => ?_, fun hrunning e he => ?_, fun _ e he => ?_⟩
  · rw [hplace.since]
    exact hclock
  · exact absurd (hplace.pc.symm.trans hpoll) hnot
  · exact absurd (hplace.pc.symm.trans hpoll) hnot
  · rcases hsets with ⟨late, b, -, hset, -⟩ | ⟨hset, -⟩
    · rw [hset.timerfd] at hreadable
      cases hreadable
    · rw [hset.timerfd] at hreadable
      rw [hplace.since, hplace.readableSince]
      exact h.missed (hplace.pc.symm.trans hpc) hreadable
  · rcases hsets with ⟨late, b, hlate, hset, hsince, hfirst⟩ | ⟨hset, hbehind⟩
    · exact setFor_firesBy hset hlate hwork hsince (hfirst e he) ht
    · obtain ⟨d, hd, hle⟩ := hbehind e he
      rw [hset.deadline] at ht
      exact le_trans (h.deadline t ht d hd) (firesBy_mono hle)
  · rcases hsets with ⟨late, b, -, hset, -⟩ | ⟨hset, hbehind⟩
    · rw [hset.timerfd] at hreadable
      cases hreadable
    · obtain ⟨d, hd, hle⟩ := hbehind e he
      rw [hset.timerfd] at hreadable
      rw [hplace.readableSince]
      exact le_trans (h.fired hreadable d hd) (firesBy_mono hle)
  · rw [hplace.since]
    exact hleft hrunning e he
  · rw [hplace.since]
    rcases hwaiting e he with hold | hle
    · exact h.waiting hnot e hold
    · rw [firesBy]
      grind

/-- A new timer. -/
theorem OnTime.step_addTimer (h : s.OnTime slack wake pass) (hinv : s.Inv slack) {ptr : TimerPtr}
    {expiration : Timestamp} {repeats : Bool} {delta late : Nat}
    (hlegal : s.Legal slack (.addTimer ptr expiration repeats delta late))
    (hfit : s.NoOverflow (.addTimer ptr expiration repeats delta late))
    (hprompt : Prompt wake pass s (.addTimer ptr expiration repeats delta late))
    (hstep : s.step (.addTimer ptr expiration repeats delta late) = some s') :
    s'.OnTime slack wake pass := by
  obtain ⟨ht, hplace, hsets⟩ := addTimer_sets hinv.timers hinv.clock hlegal hfit hstep
  obtain ⟨hclock, hsince⟩ := hprompt
  obtain ⟨hawake, hfree, -, -, hlate, -⟩ := hlegal
  obtain ⟨t, ht', -, hphase, -, hperm, -, -⟩ := TimerRun.addTimer_spec hinv.timers hfree.2
  rw [ht, Option.some.injEq] at ht'
  subst ht'
  have hcases : ∀ e ∈ s'.timers.queue.timers.toList,
      e = toLex (expiration, ptr) ∨ e ∈ s.timers.queue.timers.toList := fun e he =>
    List.mem_cons.mp (hperm.mem_iff.mp he)
  refine h.of_sets hplace hawake ?_ ?_ ?_ ?_
  · rcases hsets with ⟨-, hset⟩ | ⟨-, hset⟩
    · rw [hset.clock]
      exact hclock
    · rw [hset.clock]
      exact le_trans (Int.le_add_of_nonneg_right (Int.natCast_nonneg late)) hclock
  · rcases hsets with ⟨hfirst, hset⟩ | ⟨⟨d, hd, hle⟩, hset⟩
    · refine Or.inl ⟨late, toLex (expiration, ptr), hlate, hset, hsince, fun e he => ?_⟩
      rcases hcases e he with rfl | hold
      · exact le_refl _
      · exact le_of_lt (hfirst e hold)
    · refine Or.inr ⟨hset, fun e he => ?_⟩
      rcases hcases e he with rfl | hold
      · exact ⟨d, hd, hle⟩
      · exact ⟨e, hold, le_refl _⟩
  · intro hrunning e he
    rw [hphase] at hrunning
    rcases hcases e he with rfl | hold
    · exact hsince
    · exact h.left hrunning e hold
  · intro e he
    rw [TimerRun.waiting, hphase] at he
    rcases List.mem_append.mp he with hset | hrest
    · rcases hcases e hset with rfl | hold
      · exact Or.inr hsince
      · exact Or.inl (List.mem_append_left _ hold)
    · exact Or.inl (List.mem_append_right _ hrest)

/-- A timer runs. -/
theorem OnTime.step_run (h : s.OnTime slack wake pass) (hinv : s.Inv slack)
    (hlegal : s.Legal slack .run) (hstep : s.step .run = some s') : s'.OnTime slack wake pass := by
  obtain ⟨ht, hplace, hs'⟩ := onTimers_spec hstep
  obtain ⟨done, it, rest, now, hphase⟩ := TimerPhase.exists_of_hasNext hlegal
  obtain ⟨t, ht', hphase', hqueue, -⟩ := TimerRun.run_spec hinv.timers hphase
  rw [ht, Option.some.injEq] at ht'
  subst ht'
  have hset : NotSet s s' := .of_resetTimerfd hs' (by rw [hqueue])
  have hrunning : ¬ s.timers.phase.isIdle := by simp [hphase, TimerPhase.isIdle]
  have hawake := hinv.isWork_of_running hrunning
  have hnot : s.pc ≠ .poll := by
    rintro hpc
    simp [hpc, TimedLoopPc.isWork] at hawake
  refine h.of_sets hplace hawake ?_ (Or.inr ⟨hset, fun e he => ?_⟩) ?_ ?_
  · rw [hset.clock]
    exact h.work hnot
  · rw [hqueue] at he
    exact ⟨e, he, le_refl _⟩
  · intro _ e he
    rw [hqueue] at he
    exact h.left hrunning e he
  · intro e he
    rw [TimerRun.waiting, hqueue, hphase'] at he
    rw [TimerRun.waiting, hphase]
    refine Or.inl ?_
    rcases List.mem_append.mp he with hset | hrest
    · exact List.mem_append_left _ hset
    · exact List.mem_append_right _ (List.mem_cons_of_mem _ hrest)

/-- The end of `handleRead`. -/
theorem OnTime.step_reset (h : s.OnTime slack wake pass) (hinv : s.Inv slack) {late : Nat}
    (hlegal : s.Legal slack (.reset late)) (hfit : s.NoOverflow (.reset late))
    (hswift : Swift wake pass s (.reset late))
    (hstep : s.step (.reset late) = some s') : s'.OnTime slack wake pass := by
  obtain ⟨ht, hplace, -, hentries, hsets⟩ :=
    reset_sets hinv.timers hinv.clock hinv.fits hlegal hfit hstep
  obtain ⟨hran, hlate, -⟩ := hlegal
  obtain ⟨done, now, hphase⟩ := TimerPhase.exists_of_allRan hran
  obtain ⟨t, ht', hidle, -⟩ := TimerRun.reset_spec hinv.timers hphase s.clock
  rw [ht, Option.some.injEq] at ht'
  subst ht'
  have hrunning : ¬ s.timers.phase.isIdle := by simp [hphase, TimerPhase.isIdle]
  -- Nothing in the set expires before this pass.
  have hsince : ∀ e ∈ s'.timers.queue.timers.toList, s.since ≤ e.first := by
    intro e he
    rcases hentries e he with hnow | hold
    · exact le_trans (hinv.phase.resolve_left hrunning).1 hnow
    · exact h.left hrunning e hold
  refine h.of_sets hplace (hinv.isWork_of_running hrunning) ?_ ?_ (fun _ => hsince) ?_
  · have hswift : s.clock + (late : Int) ≤ s.since + (pass : Int) := hswift
    rcases hsets with ⟨b, -, hset⟩ | ⟨-, hset⟩
    · rw [hset.clock]
      exact hswift
    · rw [hset.clock]
      exact le_trans (Int.le_add_of_nonneg_right (Int.natCast_nonneg late)) hswift
  · rcases hsets with ⟨b, hbegin, hset⟩ | ⟨hpast, hset⟩
    · exact Or.inl ⟨late, b, hlate, hset, hsince b (OrderedSet.mem_of_begin? hbegin),
        fun e he => TimerEntry.first_le (OrderedSet.le_of_begin? hbegin he)⟩
    · refine Or.inr ⟨hset, fun e he => ?_⟩
      -- The set is empty: its first entry would be at a valid time.
      obtain ⟨b, hb, -, hzero⟩ := hpast e he
      exact absurd (lt_of_lt_of_le hinv.since.1 (hsince b hb)) (not_lt.mpr hzero)
  · intro e he
    rw [TimerRun.waiting, hidle] at he
    exact Or.inr (hsince e (by simpa [TimerPhase.rest] using he))

/-- What a prompt step can do. -/
theorem OnTime.step (h : s.OnTime slack wake pass) (hinv : s.Inv slack)
    (hlegal : s.Legal slack a) (hfit : s.NoOverflow a) (hprompt : Prompt wake pass s a)
    (hstep : s.step a = some s') : s'.OnTime slack wake pass := by
  cases a with
  | tick d =>
      cases hstep
      exact h.step_tick hprompt.1
  | expire => exact h.step_expire hinv hlegal hstep
  | poll =>
      cases hstep
      exact h.step_poll hlegal
  | wake =>
      cases hstep
      exact h.step_wake hinv hlegal
  | now =>
      cases hstep
      exact h.step_now hlegal
  | handleRead => exact h.step_handleRead hinv hstep
  | addTimer ptr expiration repeats delta late =>
      exact h.step_addTimer hinv hlegal hfit hprompt hstep
  | run => exact h.step_run hinv hlegal hstep
  | reset late => exact h.step_reset hinv hlegal hfit hprompt.1 hstep

/-- How long a timer can wait for its call: three passes, the way out of `poll`, the 100
microseconds to which a shorter time is raised, and what is lost when the timerfd is set. -/
def latency (slack wake pass : Nat) : Nat := 3 * pass + wake + 100 + slack

/-- No entry waits longer than that, be it in the set or in the vector of `handleRead`. -/
theorem OnTime.waiting_le (h : s.OnTime slack wake pass) (hinv : s.Inv slack) {e : TimerEntry}
    (he : e ∈ s.timers.waiting) : s.clock ≤ e.first + (latency slack wake pass : Int) := by
  by_cases hpoll : s.pc = .poll
  · have hidle := TimerPhase.eq_idle (hinv.idle (by simp [hpoll]))
    rw [TimerRun.waiting, hidle] at he
    have hle := h.clock_le hinv hpoll (by simpa [TimerPhase.rest] using he)
    rw [firesBy] at hle
    rw [latency]
    grind
  · have hwork := h.work hpoll
    have hle := h.waiting hpoll e he
    rw [firesBy] at hle
    rw [latency]
    grind

/-- Both invariants hold in every prompt run without an overflow. -/
theorem onTime_of_run (heap : TimerPtr → Timer) {clock : Timestamp} (hclock : 0 < clock)
    {as : List TimedLoopAction}
    (hrun : (((timedLoopMachine slack).restrict NoOverflow).restrict (Prompt wake pass)).Run
      (new heap clock) as s) :
    s.Inv slack ∧ s.OnTime slack wake pass := by
  refine hrun.invariant (I := fun s => s.Inv slack ∧ s.OnTime slack wake pass)
    ⟨new_inv heap hclock, new_onTime heap clock⟩ ?_
  intro s a s' hs hlegal hstep
  obtain ⟨⟨hlegal, hfit⟩, hprompt⟩ := hlegal
  exact ⟨hs.1.step hlegal hfit hstep, hs.2.step hs.1 hlegal hfit hprompt hstep⟩

/-- In every prompt run without an overflow no timer waits for its call longer than `latency` behind
its expiration, however many timers there are and whatever else the loop does. -/
theorem timers_on_time (slack wake pass : Nat) (heap : TimerPtr → Timer) {clock : Timestamp}
    (hclock : 0 < clock) {as : List TimedLoopAction} {s : TimedLoop}
    (hrun : (((timedLoopMachine slack).restrict NoOverflow).restrict (Prompt wake pass)).Run
      (new heap clock) as s) :
    ∀ e ∈ s.timers.waiting, s.clock ≤ e.first + (latency slack wake pass : Int) := by
  obtain ⟨hinv, h⟩ := onTime_of_run heap hclock hrun
  exact fun e he => h.waiting_le hinv he

/-- A timer that waits for 109 microseconds: it is added 3 before its time, so the timerfd is set
for 100, and this setting, the way out of `poll` and the next pass take 3, 4 and 5. -/
theorem timers_on_time_late : ∃ s : TimedLoop, s.clock = 1114 ∧
    s.clock ≤ 1005 + (latency 3 4 5 : Int) := by
  obtain ⟨s, hrun, hclock, hmem⟩ :=
    Machine.exists_run (M := ((timedLoopMachine 3).restrict NoOverflow).restrict (Prompt 4 5))
    (P := fun s : TimedLoop => s.clock = 1114 ∧ toLex (1005, 5) ∈ s.timers.waiting)
    (new (fun _ => { expiration := 0, delta := 0, repeats := false, serial := 0 }) 1000)
    [.tick 2, .addTimer 5 1005 false 0 3, .poll, .tick 100, .expire, .tick 4, .wake, .tick 5, .now,
      .handleRead] (by decide +kernel)
  exact ⟨s, hclock, timers_on_time 3 4 5 _ (by decide) hrun _ hmem⟩

/-! ### Timers that are past -/

/-- After `n` passes, each with a new timer that is ahead of the others and past. The timer at 500
waits, and the timerfd is never readable. -/
structure Starved (n : Nat) (s : TimedLoop) : Prop where
  inv : s.Inv 0
  pc : s.pc = .work false
  phase : s.timers.phase = .idle
  clock : s.clock = 1000 + 99 * (n : Int)
  since : s.since = s.clock
  deadline : s.deadline = some (s.clock + 100)
  unreadable : s.timers.queue.timerfd.readable = false
  waits : toLex (500, 1) ∈ s.timers.queue.timers.toList
  entries : ∀ e ∈ s.timers.queue.timers.toList, 500 - (n : Int) ≤ e.first ∧ e.second ≤ n + 1

/-- A timer that is past and ahead of all others: the timerfd is set for 100 microseconds. -/
theorem addTimer_past (hinv : s.Inv 0) (hphase : s.timers.phase = .idle) (hwork : s.pc.isWork)
    (hlt : s.clock < 2 ^ 62) {ptr : TimerPtr} {expiration : Timestamp} (hnew : ptr ≠ 0)
    (hfree : ∀ e ∈ s.timers.queue.timers.toList, e.second ≠ ptr)
    (hfirst : ∀ e ∈ s.timers.queue.timers.toList, expiration < e.first)
    (hpast : expiration ≤ s.clock) (hfar : -2 ^ 62 ≤ expiration) :
    (s.Legal 0 (.addTimer ptr expiration false 0 0) ∧
      s.NoOverflow (.addTimer ptr expiration false 0 0)) ∧
      ∃ s', s.step (.addTimer ptr expiration false 0 0) = some s' ∧ s'.Inv 0 ∧ SamePlace s s' ∧
        s'.timers.phase = .idle ∧ s'.clock = s.clock ∧ s'.deadline = some (s.clock + 100) ∧
        s'.timers.queue.timerfd.readable = false ∧
        s'.timers.queue.timers.toList.Perm
          (toLex (expiration, ptr) :: s.timers.queue.timers.toList) := by
  have hentries : ∀ e ∈ s.timers.entries, e.second ≠ ptr := by
    rw [TimerRun.entries, hphase]
    intro e he
    exact hfree e (by simpa [TimerQueue.entries, TimerPhase.expired, TimerPhase.done,
      TimerPhase.rest] using he)
  have hlegal : s.Legal 0 (.addTimer ptr expiration false 0 0) := by
    refine ⟨hwork, ⟨hnew, hentries⟩, ?_, ?_, le_refl _, ?_⟩ <;> grind
  have hfit : s.NoOverflow (.addTimer ptr expiration false 0 0) := by
    show s.clock - expiration ≤ 2 ^ 63
    grind
  obtain ⟨t, ht, -, hidle, -, hperm, -, -⟩ :=
    @TimerRun.addTimer_spec s.timers hinv.timers ptr expiration false 0 s.clock hentries
  let s₁ := resetTimerfd { s with timers := t } 0
    (resetsFor s.timers t (.addTimer ptr expiration false 0 s.clock))
  have hstep : s.step (.addTimer ptr expiration false 0 0) = some s₁ := by
    show (s.timers.step _).bind _ = _
    rw [ht]
    rfl
  obtain ⟨ht', hplace, hsets⟩ := addTimer_sets hinv.timers hinv.clock hlegal hfit hstep
  rw [ht, Option.some.injEq] at ht'
  rw [ht'] at hidle hperm
  refine ⟨⟨hlegal, hfit⟩, s₁, hstep, hinv.step hlegal hfit hstep, hplace, hidle.trans hphase, ?_⟩
  rcases hsets with ⟨-, hset⟩ | ⟨⟨e, he, hle⟩, -⟩
  · refine ⟨by simpa using hset.clock, ?_, by rw [hset.timerfd], hperm⟩
    rw [hset.deadline]
    have hmax : max 100 (expiration - s.clock) = 100 := by grind
    simp [hmax]
  · exact absurd (hfirst e he) (not_lt.mpr hle)

/-- One more pass: `poll` returns for another descriptor in front of the deadline. -/
theorem Starved.step {n : Nat} (h : s.Starved n) (hn : 99 * n ≤ 2 ^ 61) :
    ∃ as s', (((timedLoopMachine 0).restrict NoOverflow).restrict (Swift 0 0)).Run s as s' ∧
      s'.Starved (n + 1) := by
  let M := ((timedLoopMachine 0).restrict NoOverflow).restrict (Swift 0 0)
  let s₁ : TimedLoop := { s with pc := .poll, since := s.clock }
  let s₂ : TimedLoop := { s₁ with clock := s.clock + (99 : Nat) }
  let s₃ : TimedLoop := { s₂ with pc := .work false, since := s₂.clock }
  have hclock := h.clock
  have hpoll : s.Legal 0 .poll := ⟨h.pc, by rw [h.phase]; rfl⟩
  have htick : s₁.Legal 0 (.tick 99) := by
    refine ⟨?_, fun t ht => ?_⟩
    · show s.clock + ((99 : Nat) : Int) < 2 ^ 63
      grind
    · have ht : s.deadline = some t := ht
      rw [h.deadline, Option.some.injEq] at ht
      show s.clock + ((99 : Nat) : Int) ≤ t
      grind
  have hwake : s₂.step .wake = some s₃ := by
    show some _ = some _
    rw [show s₂.timers.queue.timerfd.readable = false from h.unreadable]
  have hasleep : Swift 0 0 s₁ (.tick 99) := by
    rw [Swift, if_pos rfl]
    intro hreadable
    exact absurd (h.unreadable.symm.trans hreadable) (by simp)
  have hrun₁ : M.Run s [.poll] s₁ := .single ⟨⟨hpoll, trivial⟩, trivial⟩ rfl
  have hrun₂ : M.Run s ([.poll] ++ [.tick 99]) s₂ := hrun₁.next ⟨⟨htick, trivial⟩, hasleep⟩ rfl
  have hrun₃ : M.Run s ([.poll] ++ [.tick 99] ++ [.wake]) s₃ :=
    hrun₂.next ⟨⟨rfl, trivial⟩, trivial⟩ hwake
  have hinv₃ : s₃.Inv 0 := h.inv.of_run hrun₃.of_restrict
  have hclock₃ : s₃.clock = 1000 + 99 * ((n + 1 : Nat) : Int) := by
    show s.clock + ((99 : Nat) : Int) = _
    grind
  have hfirst : ∀ e ∈ s₃.timers.queue.timers.toList, 499 - (n : Int) < e.first := by
    intro e he
    exact lt_of_lt_of_le (by omega) (h.entries e he).1
  have hfree : ∀ e ∈ s₃.timers.queue.timers.toList, e.second ≠ n + 2 := by
    intro e he
    exact Nat.ne_of_lt (Nat.lt_succ_of_le (h.entries e he).2)
  obtain ⟨hlegal, s₄, hadd, hinv₄, hplace, hphase, hclock₄, hdeadline, hunreadable, hperm⟩ :=
    addTimer_past hinv₃ h.phase rfl (by grind) (by simp) hfree hfirst (by grind) (by grind)
  have hlast : M.legal s₃ (.addTimer (n + 2) (499 - (n : Int)) false 0 0) := ⟨hlegal, le_refl _⟩
  refine ⟨_, s₄, hrun₃.next hlast hadd, ?_⟩
  refine ⟨hinv₄, hplace.pc, hphase, hclock₄.trans hclock₃, hplace.since.trans hclock₄.symm, ?_,
    hunreadable, hperm.mem_iff.mpr (List.mem_cons_of_mem _ h.waits), fun e he => ?_⟩
  · rw [hdeadline, hclock₄]
  · rcases List.mem_cons.mp (hperm.mem_iff.mp he) with rfl | hold
    · refine ⟨?_, le_refl _⟩
      show 500 - ((n + 1 : Nat) : Int) ≤ 499 - (n : Int)
      omega
    · obtain ⟨hle, hptr⟩ := h.entries e hold
      exact ⟨le_trans (by omega) hle, Nat.le_succ_of_le hptr⟩

/-- The first of these timers. -/
theorem starved_zero (heap : TimerPtr → Timer) :
    ∃ s, (((timedLoopMachine 0).restrict NoOverflow).restrict (Swift 0 0)).Run (new heap 1000)
      [.addTimer 1 500 false 0 0] s ∧ s.Starved 0 := by
  have hinv : (new heap 1000).Inv 0 := new_inv heap (by decide)
  have hnone : ∀ e : TimerEntry, e ∉ (new heap 1000).timers.queue.timers.toList := by
    intro e he
    cases he
  obtain ⟨hlegal, s, hadd, hinv', hplace, hphase, hclock, hdeadline, hunreadable, hperm⟩ :=
    @addTimer_past (new heap 1000) hinv rfl rfl (show (1000 : Int) < 2 ^ 62 by decide) 1 500
      (by decide) (fun e he => absurd he (hnone e)) (fun e he => absurd he (hnone e))
      (show (500 : Int) ≤ 1000 by decide) (by decide)
  have hfirst : (((timedLoopMachine 0).restrict NoOverflow).restrict (Swift 0 0)).legal
      (new heap 1000) (.addTimer 1 500 false 0 0) := ⟨hlegal, le_refl _⟩
  refine ⟨s, .single hfirst hadd, hinv', hplace.pc, hphase, hclock, ?_, ?_, hunreadable, ?_,
    fun e he => ?_⟩
  · rw [hplace.since, hclock]
    rfl
  · rw [hdeadline, hclock]
  · exact hperm.mem_iff.mpr List.mem_cons_self
  · rcases List.mem_cons.mp (hperm.mem_iff.mp he) with rfl | hold
    · exact ⟨le_refl (500 : Int), le_refl _⟩
    · exact absurd hold (hnone e)

/-- Without the condition on new timers no bound holds, on a machine that loses no time at all: for
every delay there is a run without an overflow in which the timer at 500 waits longer, and still
does. -/
theorem timers_starve (heap : TimerPtr → Timer) (delay : Nat) (hdelay : delay ≤ 2 ^ 54) :
    ∃ as s, (((timedLoopMachine 0).restrict NoOverflow).restrict (Swift 0 0)).Run
      (new heap 1000) as s ∧ ∃ e ∈ s.timers.waiting, e.first + (delay : Int) < s.clock := by
  obtain ⟨s₀, hrun₀, h₀⟩ := starved_zero heap
  have hleads : (((timedLoopMachine 0).restrict NoOverflow).restrict (Swift 0 0)).Leads (Starved 0)
      (Starved delay) := by
    refine Machine.Leads.iterate delay fun i hi s hs => ?_
    exact hs.step (by omega)
  obtain ⟨as, s, hrun, hs⟩ := hleads s₀ h₀
  refine ⟨_, s, hrun₀.append hrun, toLex (500, 1), List.mem_append_left _ hs.waits, ?_⟩
  rw [hs.clock]
  show 500 + (delay : Int) < 1000 + 99 * (delay : Int)
  omega

/-- More than a day. -/
theorem timers_starve_day : ∃ as s,
    (((timedLoopMachine 0).restrict NoOverflow).restrict (Swift 0 0)).Run
      (new (fun _ => { expiration := 0, delta := 0, repeats := false, serial := 0 }) 1000) as s ∧
    ∃ e ∈ s.timers.waiting, e.first + ((86400000000 : Nat) : Int) < s.clock :=
  timers_starve _ 86400000000 (by decide)

end TimedLoop

end SecondGear
