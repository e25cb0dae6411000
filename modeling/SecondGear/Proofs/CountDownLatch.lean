import SecondGear.Model.CountDownLatch

/-!
# `SecondGear.Proofs.CountDownLatch`: everybody is released, and nobody too soon

`notifyAll` is called at one step only, where the count comes to zero. Nobody needs it before,
and nobody parks behind it, since the test and the parking are one section under the mutex. So
`Latch.Inv` holds in every interleaving: the count is the initial one less the calls of
`countDown`, and a thread that is parked has a positive count in front of it.

`ThreadStart.StartInv` puts the two threads of `Thread::start` over it. The id is stored before
the only call of `countDown`, and the starter comes to its assertion behind that call.

* `released_after_count`: the latch, and `start` on top of it.
-/

set_option autoImplicit false

namespace SecondGear

open SecondGear.Lib

namespace LatchPc

@[simp] theorem notify_ne_parked (pc : LatchPc) : pc.notify ≠ .parked := by
  cases pc <;> simp [notify]

end LatchPc

namespace Latch

variable {n : Int} {s s' : Latch} {a : LatchAction}

/-- What every run of a latch keeps whose count was `n`. -/
structure Inv (n : Int) (s : Latch) : Prop where
  count : s.count = n - s.countDowns
  countDowns : s.countDowns < 2 ^ 31
  parked : ∀ t, s.threads t = .parked → 0 < s.count
  returns : ∀ k ∈ s.returns, n ≤ k

theorem new_inv (n : Int) : (new n).Inv n where
  count := by simp [new]
  countDowns := by simp [new]
  parked := by simp [new]
  returns := by simp [new]

/-- A thread that moves to a place outside of `cond.wait()` strands nobody. -/
theorem Inv.setThread (h : s.Inv n) {t : Nat} {pc : LatchPc} (hpc : pc ≠ .parked) :
    (s.setThread t pc).Inv n := by
  refine ⟨h.count, h.countDowns, fun u hu => ?_, h.returns⟩
  by_cases heq : u = t
  · subst heq
    simp only [Latch.setThread, Function.update_self] at hu
    exact absurd hu hpc
  · simp only [Latch.setThread, Function.update_of_ne heq] at hu
    exact h.parked u hu

/-- The decrement is exact: there are fewer than `2 ^ 31` of them below a count of an `int`. -/
theorem Inv.countDown_count (h : s.Inv n) (hn : 0 ≤ n) (hn' : n < 2 ^ 31)
    (hlegal : s.Legal .countDown) : s.countDown.count = s.count - 1 := by
  have hcount := h.count
  have hmore : s.countDowns + 1 < 2 ^ 31 := hlegal
  exact Int.bmod_eq_of_le (by omega) (by omega)

/-- `countDown`. -/
theorem Inv.countDown (h : s.Inv n) (hn : 0 ≤ n) (hn' : n < 2 ^ 31)
    (hlegal : s.Legal .countDown) : s.countDown.Inv n := by
  have hexact := h.countDown_count hn hn' hlegal
  have hcount := h.count
  have hmore : s.countDowns + 1 < 2 ^ 31 := hlegal
  refine ⟨?_, hmore, fun t ht => ?_, h.returns⟩
  · rw [hexact]
    show s.count - 1 = n - ((s.countDowns + 1 : Nat) : Int)
    omega
  · have hthreads : s.countDown.threads
        = if s.countDown.count = 0 then fun t => (s.threads t).notify else s.threads := rfl
    rw [hthreads] at ht
    split at ht
    · -- The count comes to zero: everybody who was parked has a notification.
      exact absurd ht (LatchPc.notify_ne_parked _)
    · -- It comes to another number, and was positive if somebody is parked.
      rename_i hzero
      have hpos := h.parked t ht
      omega

/-- Every step keeps the invariant. -/
theorem Inv.step (h : s.Inv n) (hn : 0 ≤ n) (hn' : n < 2 ^ 31) (hlegal : s.Legal a) :
    (s.step a).Inv n := by
  cases a with
  | wait t => exact h.setThread (by simp)
  | spurious t => exact h.setThread (by simp)
  | countDown => exact h.countDown hn hn' hlegal
  | test t =>
      rw [Latch.step]
      split
      · rename_i hpos
        exact ⟨h.count, h.countDowns, fun _ _ => hpos, h.returns⟩
      · -- `wait` returns: the count was decremented at least `n` times.
        have hcount := h.count
        have hout : (s.setThread t .outside).Inv n := h.setThread (by simp)
        refine ⟨hout.count, hout.countDowns, hout.parked, fun k hk => ?_⟩
        rcases List.mem_append.mp hk with hbefore | hnow
        · exact h.returns k hbefore
        · rw [List.mem_singleton.mp hnow]
          omega

/-- At a count of zero or less `wait` returns at the next test. -/
theorem test_returns (hcount : s.count ≤ 0) (t : Nat) :
    (s.step (.test t)).threads t = .outside := by
  rw [step, if_neg (by omega)]
  exact Function.update_self ..

end Latch

namespace ThreadStart

variable {s s' : ThreadStart} {a : ThreadStartAction}

/-- How far the new thread is: whether the id is stored, and the latch counted down. -/
def Progress (s : ThreadStart) : RunInThreadPc → Prop
  | .absent | .storeTid => s.latch.countDowns = 0
  | .countDown => 0 < s.tid ∧ s.latch.countDowns = 0
  | .run => 0 < s.tid ∧ s.latch.countDowns = 1

/-- What every run of the two threads keeps. -/
structure StartInv (s : ThreadStart) : Prop where
  latch : s.latch.Inv 1
  started : s.starter ≠ .outside → s.started = true
  absent : s.starter = .outside ∨ s.starter = .create → s.runInThread = .absent
  progress : s.Progress s.runInThread
  released : s.starter = .check ∨ s.starter = .returned → 0 < s.latch.countDowns

theorem new_startInv : new.StartInv where
  latch := Latch.new_inv 1
  started := by simp [new]
  absent := by simp [new]
  progress := rfl
  released := by simp [new]

/-- Only `countDown` counts down. -/
theorem countDowns_step {latch : Latch} {a : LatchAction} (ha : a ≠ .countDown) :
    (latch.step a).countDowns = latch.countDowns := by
  cases a with
  | countDown => exact absurd rfl ha
  | test t =>
      rw [Latch.step]
      split <;> rfl
  | _ => rfl

/-- The progress is a matter of the id and of the latch. -/
theorem Progress.congr {pc : RunInThreadPc} (h : s.Progress pc) (htid : s'.tid = s.tid)
    (hlatch : s'.latch.countDowns = s.latch.countDowns) : s'.Progress pc := by
  unfold Progress at h ⊢
  rwa [htid, hlatch]

/-- A step of the starter inside `wait`. It comes out of it behind the new thread's
`countDown`. -/
theorem StartInv.latch_step (h : s.StartInv) {b : LatchAction} (hlegal : s.Legal (.latch b))
    (hstep : s.step (.latch b) = some s') : s'.StartInv := by
  obtain ⟨hwait, hb, hlegal⟩ := hlegal
  obtain rfl := Option.some.inj hstep
  have hne : b ≠ .countDown := by
    rintro rfl
    simp at hb
  have hsame : (s.latch.step b).countDowns = s.latch.countDowns := countDowns_step hne
  have hstarted : s.started = true := h.started (by simp [hwait])
  refine ⟨h.latch.step (by decide) (by decide) hlegal, fun _ => hstarted, ?_,
    h.progress.congr rfl hsame, ?_⟩
  · rintro (heq | heq) <;> simp only at heq <;> split at heq <;> cases heq
  · intro hout
    -- The starter is outside of `wait`, so its test has found the count down.
    show 0 < (s.latch.step b).countDowns
    have hcount := h.latch.count
    rcases hb with rfl | rfl
    · by_cases hpos : s.latch.count > 0
      · simp [Latch.step, hpos, Latch.setThread] at hout
      · rw [hsame]
        omega
    · simp [Latch.step, Latch.setThread] at hout

/-- Every step keeps the invariant. -/
theorem StartInv.step (h : s.StartInv) (hlegal : s.Legal a) (hstep : s.step a = some s') :
    s'.StartInv := by
  cases a with
  | latch b => exact h.latch_step hlegal hstep
  | start =>
      obtain ⟨hnot, hstep⟩ := assert_bind_eq_some_iff.mp hstep
      obtain rfl := Option.some.inj hstep
      -- Behind a `start` that returned the assertion fails.
      have houtside : s.starter = .outside := by
        by_contra hne
        rw [h.started hne] at hnot
        cases hnot
      have habsent := h.absent (.inl houtside)
      exact ⟨h.latch, fun _ => rfl, fun _ => habsent, h.progress.congr rfl rfl, by simp⟩
  | create ok =>
      have habsent := h.absent (.inr hlegal)
      have hprogress := h.progress
      rw [habsent] at hprogress
      cases ok with
      | false =>
          obtain rfl := Option.some.inj hstep
          exact ⟨h.latch, by simp, fun _ => habsent, h.progress.congr rfl rfl, by simp⟩
      | true =>
          obtain rfl := Option.some.inj hstep
          have hstarted : s.started = true := h.started (by simp [show s.starter = _ from hlegal])
          exact ⟨h.latch.setThread (by simp), fun _ => hstarted, by simp, hprogress, by simp⟩
  | check =>
      obtain ⟨-, hstep⟩ := assert_bind_eq_some_iff.mp hstep
      obtain rfl := Option.some.inj hstep
      have hcheck : s.starter = .check := hlegal
      have hstarted : s.started = true := h.started (by simp [hcheck])
      exact ⟨h.latch, fun _ => hstarted, by simp, h.progress.congr rfl rfl,
        fun _ => h.released (.inl hcheck)⟩
  | storeTid tid =>
      obtain ⟨hpc, hpos⟩ := hlegal
      obtain rfl := Option.some.inj hstep
      have hprogress := h.progress
      rw [hpc] at hprogress
      refine ⟨h.latch, h.started, fun hout => ?_, ⟨hpos, hprogress⟩, h.released⟩
      have habsent := h.absent hout
      rw [hpc] at habsent
      cases habsent
  | countDown =>
      have hpc : s.runInThread = .countDown := hlegal
      obtain rfl := Option.some.inj hstep
      have hprogress := h.progress
      rw [hpc] at hprogress
      obtain ⟨hpos, hzero⟩ := hprogress
      have hfew : s.latch.Legal .countDown := by
        show s.latch.countDowns + 1 < 2 ^ 31
        omega
      refine ⟨h.latch.countDown (by decide) (by decide) hfew, h.started, fun hout => ?_,
        ⟨hpos, ?_⟩, fun _ => Nat.succ_pos _⟩
      · have habsent := h.absent hout
        rw [hpc] at habsent
        cases habsent
      · show s.latch.countDowns + 1 = 1
        omega

/-- Behind `wait` the id is stored, and the new thread is past `countDown`. -/
theorem StartInv.stored (h : s.StartInv) (hout : s.starter = .check ∨ s.starter = .returned) :
    0 < s.tid ∧ s.runInThread = .run := by
  have hdown := h.released hout
  have hprogress := h.progress
  cases hpc : s.runInThread with
  | run =>
      rw [hpc] at hprogress
      exact ⟨hprogress.1, rfl⟩
  | absent | storeTid =>
      rw [hpc] at hprogress
      have hzero : s.latch.countDowns = 0 := hprogress
      omega
  | countDown =>
      rw [hpc] at hprogress
      have hzero := hprogress.2
      omega

end ThreadStart

/-- The latch releases all waiters, and none too soon. For a count `n` and in every run of
threads that wait and count down:

- whenever `wait` returned, `countDown` had decremented the count `n` times;
- in a state with a count of zero or less nobody is parked without a notification, and whoever
  comes to the test returns from `wait`.

So `start`, behind a successful `pthread_create`, comes to its assertion and returns only when
the id is stored. -/
theorem released_after_count (n : Int) (hn : 0 ≤ n) (hn' : n < 2 ^ 31) (as : List LatchAction)
    (s : Latch) (hrun : latchMachine.Run (Latch.new n) as s) :
    (∀ k ∈ s.returns, n ≤ k) ∧
    (s.count ≤ 0 → ∀ t, s.threads t ≠ .parked ∧
      ((s.threads t).canTest = true → (s.step (.test t)).threads t = .outside)) ∧
    (∀ (bs : List ThreadStartAction) (u : ThreadStart),
      threadStartMachine.Run ThreadStart.new bs u →
      u.starter = .check ∨ u.starter = .returned → 0 < u.tid ∧ u.runInThread = .run) := by
  have h : s.Inv n := by
    refine hrun.invariant (Latch.new_inv n) fun s a s' hs hlegal hstep => ?_
    obtain rfl : s.step a = s' := Option.some.inj hstep
    exact hs.step hn hn' hlegal
  refine ⟨h.returns, fun hcount t => ⟨fun hparked => ?_, fun _ => Latch.test_returns hcount t⟩, ?_⟩
  · have hpos := h.parked t hparked
    omega
  · intro bs u hstart hout
    have hinv : u.StartInv := hstart.invariant ThreadStart.new_startInv
      fun s a s' hs hlegal hstep => hs.step hlegal hstep
    exact hinv.stored hout

/-- The theorem at a latch of two with two threads at it, one of them woken for nothing, and a
third `countDown`. -/
theorem released_after_two :
    ∃ s, latchMachine.Run (Latch.new 2)
        [.wait 0, .test 0, .countDown, .wait 1, .spurious 0, .test 0, .test 1, .countDown,
          .test 1, .countDown, .test 0] s ∧
      s.returns = [2, 3] ∧ (∀ k ∈ s.returns, (2 : Int) ≤ k) := by
  obtain ⟨s, hrun, hreturns⟩ := Machine.exists_run (M := latchMachine)
    (P := fun s => s.returns = [2, 3]) (Latch.new 2)
    [.wait 0, .test 0, .countDown, .wait 1, .spurious 0, .test 0, .test 1, .countDown,
      .test 1, .countDown, .test 0]
    (by decide +kernel)
  exact ⟨s, hrun, hreturns,
    (released_after_count 2 (by decide) (by decide) _ s hrun).1⟩

end SecondGear
