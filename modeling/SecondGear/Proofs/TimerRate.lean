import SecondGear.Proofs.TimerLatency

/-!
# `SecondGear.Proofs.TimerRate`: how often a repeating timer is called

`Timer::restart` adds the interval to the `now` of the `handleRead`, and not to the old expiration.
So a repeating timer never catches up: each call moves the next one by the interval and by how late
the call was. With the bound of `TimerLatency` on the latter, the number of calls up to a time is
known on both sides.

* `Paced`: the expiration of a timer after so many calls.
* `repeating_timer_rate`: the number of calls.
-/

set_option autoImplicit false

namespace SecondGear

open SecondGear.Lib

/-- The expiration after so many calls, each of them at once. -/
def Timer.earliest (t : Timer) (calls : Nat) : Int := t.expiration + (calls * t.delta : Nat)

/-- The same when each of them is late by this much. -/
def Timer.latest (t : Timer) (lag calls : Nat) : Int :=
  t.expiration + (calls * (t.delta + lag) : Nat)

@[simp] theorem Timer.earliest_zero (t : Timer) : t.earliest 0 = t.expiration := by
  simp [Timer.earliest]

@[simp] theorem Timer.latest_zero (t : Timer) (lag : Nat) : t.latest lag 0 = t.expiration := by
  simp [Timer.latest]

theorem Timer.earliest_succ (t : Timer) (calls : Nat) :
    t.earliest (calls + 1) = t.earliest calls + (t.delta : Int) := by
  rw [Timer.earliest, Timer.earliest, Nat.succ_mul]
  grind

theorem Timer.latest_succ (t : Timer) (lag calls : Nat) :
    t.latest lag (calls + 1) = t.latest lag calls + (t.delta : Int) + (lag : Int) := by
  rw [Timer.latest, Timer.latest, Nat.succ_mul]
  grind

namespace TimerRun

variable {s s' : TimerRun}

/-- A new timer has the next number. -/
theorem addTimer_added (h : s.Inv) {ptr : TimerPtr} {expiration clock : Timestamp} {repeats : Bool}
    {delta : Nat} (hfree : ∀ e ∈ s.entries, e.second ≠ ptr)
    (hstep : s.step (.addTimer ptr expiration repeats delta clock) = some s') :
    s'.added = s.added ++ [{ expiration, delta, repeats, serial := s.added.length }] ∧
      s'.queue.serialOf (toLex (expiration, ptr)) = s.added.length := by
  let timer : Timer := { expiration, delta, repeats, serial := s.added.length }
  have hself : (s.queue.setTimer ptr timer).timer ptr = timer := Function.update_self _ _ _
  obtain ⟨q, hcall, rfl⟩ := Option.map_eq_some_iff.mp hstep
  obtain ⟨q', hcall', htimer, -⟩ :=
    TimerQueue.addTimerInLoop_spec (h.keyed.setTimer hfree timer) hfree clock
  rw [hcall, Option.some.injEq] at hcall'
  subst hcall'
  refine ⟨rfl, ?_⟩
  show (q.timer ptr).serial = _
  rw [htimer, hself]

/-- What is in the set after `reset`, and of which timer: an entry that was there, or that of a
timer that ran, an interval after `now` as the sum does not overflow. -/
theorem reset_entries (h : s.Inv) {done : List TimerEntry} {now clock : Timestamp}
    (hphase : s.phase = .running done [] now) (hvalid : 0 < now)
    (hfits : s.RestartsFit (.reset clock)) (hstep : s.step (.reset clock) = some s')
    {e : TimerEntry} (he : e ∈ s'.queue.timers.toList) :
    e ∈ s.queue.timers.toList ∧ s'.queue.serialOf e = s.queue.serialOf e ∨
      ∃ d ∈ done, e.first = now + ((s.queue.timer d.second).delta : Int) ∧
        s'.queue.serialOf e = s.queue.serialOf d := by
  have hkeyed := h.keyed
  rw [show s.phase.expired = done by rw [hphase]; exact List.append_nil done] at hkeyed
  obtain ⟨q, hcall, -, hsame, hperm, -⟩ := TimerQueue.reset_spec hkeyed now clock
  rw [RestartsFit, hphase] at hfits
  rw [step, hphase] at hstep
  obtain ⟨q', hcall', rfl⟩ := Option.map_eq_some_iff.mp hstep
  rw [hcall, Option.some.injEq] at hcall'
  subst hcall'
  rcases List.mem_append.mp (hperm.mem_iff.mp he) with hnew | hold
  · obtain ⟨d, hd, rfl⟩ := List.mem_map.mp hnew
    obtain ⟨hd, hrepeats⟩ := List.mem_filter.mp hd
    exact Or.inr ⟨d, hd, TimerQueue.restarted_first hvalid (hfits d hd hrepeats),
      (hsame.fields d.second).1⟩
  · exact Or.inl ⟨hold, (hsame.fields e.second).1⟩

/-- The timer that is next has no entry in front of the iterator. -/
theorem Inv.done_ne_next (h : s.Inv) {done rest : List TimerEntry} {it : TimerEntry}
    {now : Timestamp} (hphase : s.phase = .running done (it :: rest) now) {e : TimerEntry}
    (he : e ∈ done) : s.queue.serialOf e ≠ s.queue.serialOf it := by
  intro heq
  have hnodup := h.serials
  rw [entries, TimerQueue.entries, hphase] at hnodup
  have hexpired : ((done ++ it :: rest).map s.queue.serialOf).Nodup :=
    hnodup.sublist ((List.sublist_append_right _ _).map _)
  rw [List.map_append] at hexpired
  exact (List.nodup_append.mp hexpired).2.2 _ (List.mem_map.mpr ⟨e, he, rfl⟩) _
    (List.mem_map.mpr ⟨it, List.mem_cons_self, rfl⟩) heq

end TimerRun

namespace TimedLoop

variable {slack wake pass lag n : Nat} {t : Timer} {s s' : TimedLoop} {a : TimedLoopAction}

/-- The entry of a timer is where its calls put it: between the expiration without any delay and
that with the full `lag` at each call. While the timer was called and is not restarted, its old
entry is one call behind. -/
structure Paced (lag n : Nat) (t : Timer) (s : TimedLoop) : Prop where
  waiting : ∀ e ∈ s.timers.waiting, s.timers.queue.serialOf e = n →
    t.earliest (s.callCount n) ≤ e.first ∧ e.first ≤ t.latest lag (s.callCount n)
  /-- a timer that was called and is not restarted yet -/
  done : ∀ e ∈ s.timers.phase.done, s.timers.queue.serialOf e = n →
    s.timers.phase.now ≤ e.first + (lag : Int) ∧ ∃ k, s.callCount n = k + 1 ∧
      t.earliest k ≤ e.first ∧ e.first ≤ t.latest lag k
  called : ∀ k, s.callCount n = k + 1 → t.earliest k < s.clock

/-- A step that neither calls the timer nor gives it an entry. -/
theorem Paced.of_frame (h : s.Paced lag n t) (hcount : s'.callCount n = s.callCount n)
    (hclock : s.clock ≤ s'.clock)
    (hwaiting : ∀ e ∈ s'.timers.waiting, s'.timers.queue.serialOf e = n →
      e ∈ s.timers.waiting ∧ s.timers.queue.serialOf e = n)
    (hdone : ∀ e ∈ s'.timers.phase.done, s'.timers.queue.serialOf e = n →
      e ∈ s.timers.phase.done ∧ s.timers.queue.serialOf e = n ∧
        s'.timers.phase.now = s.timers.phase.now) : s'.Paced lag n t where
  waiting := by
    intro e he heq
    obtain ⟨he, heq⟩ := hwaiting e he heq
    rw [hcount]
    exact h.waiting e he heq
  done := by
    intro e he heq
    obtain ⟨he, heq, hnow⟩ := hdone e he heq
    rw [hcount, hnow]
    exact h.done e he heq
  called := by
    intro k hk
    rw [hcount] at hk
    exact lt_of_lt_of_le (h.called k hk) hclock

/-- The calls of a timer after one more callback. -/
theorem callCount_append {it : TimerEntry} {now : Timestamp}
    (hcalls : s'.timers.calls = s.timers.calls ++ [{ serial := s.timers.queue.serialOf it, now }]) :
    s'.callCount n = s.callCount n + if s.timers.queue.serialOf it = n then 1 else 0 := by
  rw [callCount, callCount, TimerRun.callsOf, TimerRun.callsOf, hcalls, List.filter_append,
    List.length_append]
  by_cases hn : s.timers.queue.serialOf it = n <;> simp [hn]

/-- A callback: the timer's own, or that of another. The own one is counted, and its entry goes from
those that wait to those that are done. -/
theorem Paced.step_run (h : s.Paced lag n t) (hinv : s.Inv slack)
    (hlag : ∀ e ∈ s.timers.waiting, s.clock ≤ e.first + (lag : Int)) (hlegal : s.Legal slack .run)
    (hstep : s.step .run = some s') : s'.Paced lag n t := by
  obtain ⟨ht, -, hs'⟩ := onTimers_spec hstep
  obtain ⟨done, it, rest, now, hphase⟩ := TimerPhase.exists_of_hasNext hlegal
  obtain ⟨u, hu, hphase', hqueue, -, hcalls, -⟩ := TimerRun.run_spec hinv.timers hphase
  rw [ht, Option.some.injEq] at hu
  subst hu
  have hclock : s'.clock = s.clock := by rw [hs']; rfl
  have hcount := callCount_append (n := n) hcalls
  have hit : it ∈ s.timers.waiting := by
    rw [TimerRun.waiting, hphase]
    exact List.mem_append_right _ List.mem_cons_self
  have hwaiting : ∀ e ∈ s'.timers.waiting, e ∈ s.timers.queue.timers.toList ++ rest := by
    intro e he
    rw [TimerRun.waiting, hqueue, hphase'] at he
    exact he
  have hdone : s'.timers.phase.done = done ++ [it] := by rw [hphase']; rfl
  have hnow : s'.timers.phase.now = now := by rw [hphase']; rfl
  have hrunning : ¬ s.timers.phase.isIdle := by simp [hphase, TimerPhase.isIdle]
  have hnowle : now ≤ s.clock := by
    have hle := (hinv.phase.resolve_left hrunning).2
    rw [hphase] at hle
    exact hle
  by_cases hn : s.timers.queue.serialOf it = n
  · rw [if_pos hn] at hcount
    have hpast : it.first < now := by
      have hpast := hinv.timers.past it (by simp [hphase, TimerPhase.expired, TimerPhase.done,
        TimerPhase.rest])
      rw [hphase] at hpast
      exact hpast
    have hbounds := h.waiting it hit hn
    refine ⟨fun e he heq => ?_, fun e he heq => ?_, fun k hk => ?_⟩
    · rw [hqueue] at heq
      exact absurd (heq.trans hn.symm) (hinv.timers.serial_ne_next hphase (hwaiting e he))
    · rw [hqueue] at heq
      rw [hdone] at he
      rcases List.mem_append.mp he with hbefore | hself
      · exact absurd (heq.trans hn.symm) (hinv.timers.done_ne_next hphase hbefore)
      · rw [List.mem_singleton.mp hself, hnow]
        exact ⟨le_trans hnowle (hlag it hit), s.callCount n, hcount, hbounds⟩
    · have hk : k = s.callCount n := by omega
      rw [hk, hclock]
      exact lt_of_le_of_lt hbounds.1 (lt_of_lt_of_le hpast hnowle)
  · rw [if_neg hn, Nat.add_zero] at hcount
    refine h.of_frame hcount (le_of_eq hclock.symm) (fun e he heq => ?_) (fun e he heq => ?_)
    · rw [hqueue] at heq
      refine ⟨?_, heq⟩
      rw [TimerRun.waiting, hphase]
      rcases List.mem_append.mp (hwaiting e he) with hset | hrest
      · exact List.mem_append_left _ hset
      · exact List.mem_append_right _ (List.mem_cons_of_mem _ hrest)
    · rw [hqueue] at heq
      rw [hdone] at he
      rcases List.mem_append.mp he with hbefore | hself
      · rw [hphase, hnow]
        exact ⟨hbefore, heq, rfl⟩
      · rw [List.mem_singleton.mp hself] at heq
        exact absurd heq hn

/-- `reset`: the timer waits for an interval, from the `now` of its call on. This `now` is behind
the old expiration by at most the lag, so both bounds move by the interval and the upper one by the
lag. -/
theorem Paced.step_reset (h : s.Paced lag n t) (hinv : s.Inv slack)
    (hadded : s.timers.added[n]? = some t) {late : Nat} (hlegal : s.Legal slack (.reset late))
    (hfit : s.NoOverflow (.reset late)) (hstep : s.step (.reset late) = some s') :
    s'.Paced lag n t := by
  obtain ⟨ht, -, -, -, hsets⟩ := reset_sets hinv.timers hinv.clock hinv.fits hlegal hfit hstep
  obtain ⟨done, now, hphase⟩ := TimerPhase.exists_of_allRan hlegal.1
  obtain ⟨u, hu, hidle, -, hcalls, -⟩ := TimerRun.reset_spec hinv.timers hphase s.clock
  have hvalid : 0 < now := by
    have hsince := hinv.phase.resolve_left (by simp [hphase, TimerPhase.isIdle])
    rw [hphase] at hsince
    exact lt_of_lt_of_le hinv.since.1 hsince.1
  have hentries := @TimerRun.reset_entries s.timers s'.timers hinv.timers done now s.clock hphase
    hvalid hfit ht
  rw [ht, Option.some.injEq] at hu
  subst hu
  have hcount : s'.callCount n = s.callCount n := by
    rw [callCount, callCount, TimerRun.callsOf, TimerRun.callsOf, hcalls]
  have hclock : s.clock ≤ s'.clock := by
    rcases hsets with ⟨b, -, hset⟩ | ⟨-, hset⟩
    · rw [hset.clock]
      exact Int.le_add_of_nonneg_right (Int.natCast_nonneg late)
    · exact le_of_eq hset.clock.symm
  have hdone : s.timers.phase.done = done := by rw [hphase]; rfl
  refine ⟨fun e he heq => ?_, fun e he => ?_, fun k hk => ?_⟩
  · rw [TimerRun.waiting, hidle] at he
    rw [hcount]
    rcases hentries (by simpa [TimerPhase.rest] using he) with
      ⟨hold, hserial⟩ | ⟨d, hd, hfirst, hserial⟩
    · exact h.waiting e (List.mem_append_left _ hold) (hserial.symm.trans heq)
    · have hn : s.timers.queue.serialOf d = n := hserial.symm.trans heq
      obtain ⟨hle, k, hk, hearliest, hlatest⟩ := h.done d (hdone ▸ hd) hn
      have hmem : d ∈ s.timers.entries := TimerRun.mem_entries_of_done (hdone ▸ hd)
      have hpast := hinv.timers.past d (List.mem_append_left _ (hdone ▸ hd))
      obtain ⟨t', ht', hdelta, -⟩ := hinv.timers.made d hmem
      rw [hn, hadded, Option.some.injEq] at ht'
      rw [← ht'] at hdelta
      rw [hphase] at hle hpast
      have hnow : (TimerPhase.running done [] now).now = now := rfl
      rw [hnow] at hle hpast
      rw [hk, Timer.earliest_succ, Timer.latest_succ, hfirst, ← hdelta]
      constructor <;> grind
  · rw [hidle] at he
    cases he
  · rw [hcount] at hk
    exact lt_of_lt_of_le (h.called k hk) hclock

/-- Another timer is added. -/
theorem Paced.step_addTimer (h : s.Paced lag n t) (hinv : s.Inv slack)
    (hn : n < s.timers.added.length) {ptr : TimerPtr} {expiration : Timestamp} {repeats : Bool}
    {delta late : Nat} (hlegal : s.Legal slack (.addTimer ptr expiration repeats delta late))
    (hfit : s.NoOverflow (.addTimer ptr expiration repeats delta late))
    (hstep : s.step (.addTimer ptr expiration repeats delta late) = some s') :
    s'.Paced lag n t := by
  obtain ⟨ht, -, hsets⟩ := addTimer_sets hinv.timers hinv.clock hlegal hfit hstep
  have hserial := (TimerRun.addTimer_added hinv.timers hlegal.2.1.2 ht).2
  obtain ⟨u, hu, -, hphase, hcalls, hperm, hserials, -⟩ :=
    TimerRun.addTimer_spec hinv.timers hlegal.2.1.2
  rw [ht, Option.some.injEq] at hu
  subst hu
  refine h.of_frame ?_ ?_ (fun e he heq => ?_) (fun e he heq => ?_)
  · rw [callCount, callCount, TimerRun.callsOf, TimerRun.callsOf, hcalls]
  · rcases hsets with ⟨-, hset⟩ | ⟨-, hset⟩
    · rw [hset.clock]
      exact Int.le_add_of_nonneg_right (Int.natCast_nonneg late)
    · exact le_of_eq hset.clock.symm
  · rw [TimerRun.waiting, hphase] at he
    suffices hold : e ∈ s.timers.waiting from
      ⟨hold, (hserials e (TimerRun.mem_entries_of_waiting hold)).symm.trans heq⟩
    rcases List.mem_append.mp he with hset | hrest
    · rcases List.mem_cons.mp (hperm.mem_iff.mp hset) with rfl | hold
      · -- The new entry is of a timer that comes after this one.
        rw [hserial] at heq
        omega
      · exact List.mem_append_left _ hold
    · exact List.mem_append_right _ hrest
  · rw [hphase] at he ⊢
    exact ⟨he, (hserials e (TimerRun.mem_entries_of_done he)).symm.trans heq, rfl⟩

/-- A timer that was just added. -/
theorem Paced.of_added (hinv : s.Inv slack) {ptr : TimerPtr} {expiration : Timestamp}
    {repeats : Bool} {delta late : Nat}
    (hlegal : s.Legal slack (.addTimer ptr expiration repeats delta late))
    (hstep : s.step (.addTimer ptr expiration repeats delta late) = some s') :
    s'.Paced lag s.timers.added.length
      { expiration, delta, repeats, serial := s.timers.added.length } := by
  have ht := (onTimers_spec hstep).1
  obtain ⟨u, hu, -, hphase, hcalls, hperm, hserials, -⟩ :=
    TimerRun.addTimer_spec hinv.timers hlegal.2.1.2
  rw [ht, Option.some.injEq] at hu
  subst hu
  -- An entry that was there is of an earlier timer.
  have hearlier : ∀ e ∈ s.timers.entries,
      s'.timers.queue.serialOf e ≠ s.timers.added.length := by
    intro e he
    rw [hserials e he]
    exact Nat.ne_of_lt (hinv.timers.serial_lt he)
  have hcount : s'.callCount s.timers.added.length = 0 := by
    rw [callCount, TimerRun.callsOf, hcalls, List.length_eq_zero_iff, List.filter_eq_nil_iff]
    intro c hc
    simpa using Nat.ne_of_lt (hinv.timers.called c hc)
  refine ⟨fun e he heq => ?_, fun e he heq => ?_, fun k hk => ?_⟩
  · rw [hcount, Timer.earliest_zero, Timer.latest_zero]
    rw [TimerRun.waiting, hphase] at he
    rcases List.mem_append.mp he with hset | hrest
    · rcases List.mem_cons.mp (hperm.mem_iff.mp hset) with rfl | hold
      · exact ⟨le_refl _, le_refl _⟩
      · exact absurd heq (hearlier e (List.mem_append_left _ hold))
    · exact absurd heq (hearlier e (TimerRun.mem_entries_of_waiting
        (List.mem_append_right _ hrest)))
  · rw [hphase] at he
    exact absurd heq (hearlier e (TimerRun.mem_entries_of_done he))
  · rw [hcount] at hk
    cases hk

/-- Every timer keeps its pace. -/
def AllPaced (lag : Nat) (s : TimedLoop) : Prop :=
  ∀ n t, s.timers.added[n]? = some t → s.Paced lag n t

/-- A timer that is added starts at its own expiration, and a step moves each of the others by at
most one call. The bound on the waiting entries is that of `TimerLatency`. -/
theorem AllPaced.step (h : s.AllPaced lag) (hinv : s.Inv slack)
    (hlag : ∀ e ∈ s.timers.waiting, s.clock ≤ e.first + (lag : Int)) (hlegal : s.Legal slack a)
    (hfit : s.NoOverflow a) (hstep : s.step a = some s') : s'.AllPaced lag := by
  intro n t hadded
  cases a with
  | tick d =>
      cases hstep
      exact (h n t hadded).of_frame rfl (Int.le_add_of_nonneg_right (Int.natCast_nonneg d))
        (fun e he heq => ⟨he, heq⟩) fun e he heq => ⟨he, heq, rfl⟩
  | expire =>
      cases Option.some.inj hstep
      exact (h n t hadded).of_frame rfl (le_refl _) (fun e he heq => ⟨he, heq⟩)
        fun e he heq => ⟨he, heq, rfl⟩
  | poll =>
      cases hstep
      exact (h n t hadded).of_frame rfl (le_refl _) (fun e he heq => ⟨he, heq⟩)
        fun e he heq => ⟨he, heq, rfl⟩
  | wake =>
      cases hstep
      exact (h n t hadded).of_frame rfl (le_refl _) (fun e he heq => ⟨he, heq⟩)
        fun e he heq => ⟨he, heq, rfl⟩
  | now =>
      cases hstep
      exact (h n t hadded).of_frame rfl (le_refl _) (fun e he heq => ⟨he, heq⟩)
        fun e he heq => ⟨he, heq, rfl⟩
  | handleRead =>
      obtain ⟨now, hpc, ht, hs'⟩ := handleRead_step hstep
      have hidle := hinv.idle (by simp [hpc])
      obtain ⟨expired, hphase, hexpired, htimer, hsame, hcalls, -⟩ :=
        TimerRun.handleRead_spec hinv.timers hidle ht
      rw [hsame] at hadded
      refine (h n t hadded).of_frame ?_ ?_ (fun e he heq => ?_) (fun e he => ?_)
      · rw [callCount, callCount, TimerRun.callsOf, TimerRun.callsOf, hcalls]
      · rw [hs']
      · rw [TimerQueue.serialOf, htimer] at heq
        refine ⟨List.mem_append_left _ ?_, heq⟩
        rw [TimerRun.waiting, hphase] at he
        rcases List.mem_append.mp he with hleft | htaken
        · exact ((mem_of_handleRead ht e).mp hleft).1
        · have htaken : e ∈ expired := htaken
          rw [hexpired] at htaken
          exact (List.mem_filter.mp htaken).1
      · rw [hphase] at he
        cases he
  | addTimer ptr expiration repeats delta late =>
      have ht := (onTimers_spec hstep).1
      rw [(TimerRun.addTimer_added hinv.timers hlegal.2.1.2 ht).1] at hadded
      rcases Nat.lt_trichotomy n s.timers.added.length with hold | rfl | hbeyond
      · rw [List.getElem?_append_left hold] at hadded
        exact (h n t hadded).step_addTimer hinv hold hlegal hfit hstep
      · rw [List.getElem?_concat_length, Option.some.injEq] at hadded
        exact hadded ▸ .of_added hinv hlegal hstep
      · rw [List.getElem?_eq_none (by rw [List.length_append]; exact hbeyond)] at hadded
        cases hadded
  | run =>
      have ht := (onTimers_spec hstep).1
      obtain ⟨done, it, rest, now, hphase⟩ := TimerPhase.exists_of_hasNext hlegal
      obtain ⟨u, hu, -, -, hsame, -⟩ := TimerRun.run_spec hinv.timers hphase
      rw [ht, Option.some.injEq] at hu
      rw [← hu] at hsame
      rw [hsame] at hadded
      exact (h n t hadded).step_run hinv hlag hlegal hstep
  | reset late =>
      have ht := (onTimers_spec hstep).1
      obtain ⟨done, now, hphase⟩ := TimerPhase.exists_of_allRan hlegal.1
      obtain ⟨u, hu, -, hsame, -⟩ := TimerRun.reset_spec hinv.timers hphase s.clock
      rw [ht, Option.some.injEq] at hu
      rw [← hu] at hsame
      rw [hsame] at hadded
      exact (h n t hadded).step_reset hinv hadded hlegal hfit hstep

/-- In every prompt run without an overflow, a repeating timer that was called `k` times:

- the `k`-th call was made when `k - 1` intervals had passed since its first expiration;
- no more than `k` intervals have passed since then, each longer by `latency`, and once more
  `latency`.

In between the calls drift: nothing that is lost is made up for. -/
theorem repeating_timer_rate (slack wake pass : Nat) (heap : TimerPtr → Timer) {clock : Timestamp}
    (hclock : 0 < clock) {as : List TimedLoopAction} {s : TimedLoop}
    (hrun : (((timedLoopMachine slack).restrict NoOverflow).restrict (Prompt wake pass)).Run
      (new heap clock) as s)
    {n : Nat} {t : Timer} (hadded : s.timers.added[n]? = some t) (hrepeats : t.repeats = true) :
    (∀ k, s.callCount n = k + 1 → t.earliest k < s.clock) ∧
      s.clock ≤ t.latest (latency slack wake pass) (s.callCount n)
        + (latency slack wake pass : Int) := by
  have hall : (s.Inv slack ∧ s.OnTime slack wake pass) ∧
      s.AllPaced (latency slack wake pass) := by
    refine hrun.invariant (I := fun s => (s.Inv slack ∧ s.OnTime slack wake pass) ∧
      s.AllPaced (latency slack wake pass)) ⟨⟨new_inv heap hclock, new_onTime heap clock⟩, ?_⟩ ?_
    · intro n t ht
      cases ht
    · rintro s a s' ⟨⟨hinv, htime⟩, hpaced⟩ ⟨⟨hlegal, hfit⟩, hprompt⟩ hstep
      exact ⟨⟨hinv.step hlegal hfit hstep, htime.step hinv hlegal hfit hprompt hstep⟩,
        hpaced.step hinv (fun e he => htime.waiting_le hinv he) hlegal hfit hstep⟩
  obtain ⟨⟨hinv, htime⟩, hpaced⟩ := hall
  have h := hpaced n t hadded
  refine ⟨h.called, ?_⟩
  rcases hinv.timers.located n t hadded with ⟨e, he, heq⟩ | ⟨-, e, he, heq⟩ | ⟨honce, -⟩
  · have hle := htime.waiting_le hinv he
    have hlatest := (h.waiting e he heq).2
    grind
  · -- It was called in this pass, which is not over.
    have hrunning : ¬ s.timers.phase.isIdle := fun hidle => by
      rw [TimerPhase.eq_idle hidle] at he
      cases he
    have hawake := hinv.isWork_of_running hrunning
    have hwork := htime.work (by rintro hpc; simp [hpc, TimedLoopPc.isWork] at hawake)
    have hsince := (hinv.phase.resolve_left hrunning).1
    obtain ⟨hnow, k, hk, -, hlatest⟩ := h.done e he heq
    have hpass : pass ≤ latency slack wake pass := by
      rw [latency]
      omega
    rw [hk, Timer.latest_succ]
    grind
  · rw [hrepeats] at honce
    cases honce

/-- A timer for every 500 microseconds, first at 1500, in front of its second restart. The first
call was 2 late, and so is what follows. -/
theorem repeating_timer_rate_twice : ∃ s : TimedLoop, s.callCount 0 = 2 ∧ s.clock = 2003 ∧
    Timer.earliest { expiration := 1500, delta := 500, repeats := true, serial := 0 } 1
      < s.clock := by
  obtain ⟨s, hrun, hcount, hclock, hadded⟩ :=
    Machine.exists_run (M := ((timedLoopMachine 0).restrict NoOverflow).restrict (Prompt 4 5))
    (P := fun s : TimedLoop => s.callCount 0 = 2 ∧ s.clock = 2003 ∧ s.timers.added[0]? =
      some { expiration := 1500, delta := 500, repeats := true, serial := 0 })
    (new (fun _ => { expiration := 0, delta := 0, repeats := false, serial := 0 }) 1000)
    [.addTimer 3 1500 true 500 0, .poll, .tick 500, .expire, .tick 2, .wake, .now, .handleRead,
      .run, .reset 0, .poll, .tick 500, .expire, .tick 1, .wake, .now, .handleRead, .run]
    (by decide +kernel)
  exact ⟨s, hcount, hclock,
    (repeating_timer_rate 0 4 5 _ (by decide) hrun hadded rfl).1 1 hcount⟩

end TimedLoop

end SecondGear
