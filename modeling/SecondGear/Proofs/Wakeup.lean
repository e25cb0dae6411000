import SecondGear.Proofs.LoopThreadSteps

/-!
# `SecondGear.Proofs.Wakeup`: who wakes the loop up

`queueInLoop` writes to the eventfd after its push, except in the thread of the loop outside
of `doPendingFunctors`: a functor queued by a handler is swapped out in the same iteration.
So a functor that waits while the loop is in `poll` has signalled the eventfd, or the thread
that pushed it is about to (`Signalled`).

`WakeInv` says where in the loop this holds: everywhere but from the handlers to the swap,
where the eventfd may be read before the queue is taken. `no_lost_wakeup` is the result.
-/

set_option autoImplicit false

namespace SecondGear

open SecondGear.Lib

namespace LoopThread

variable {F : Type} {s s' : LoopThread F} {a : LoopThreadAction F}

/-- The eventfd is readable, or another thread is between its push and its `wakeup`. -/
def Signalled (s : LoopThread F) : Prop :=
  0 < s.eventfd ∨ ∃ t, s.calls (.other t) = some .queueInLoop

/-- The thread of the loop queues functors from its handlers and functors only. -/
def FromCallbacks (s : LoopThread F) : LoopThreadAction F → Prop
  | .queueInLoop .loop _ => s.pc.inCallback = true
  | _ => True

instance (s : LoopThread F) : (a : LoopThreadAction F) → Decidable (s.FromCallbacks a)
  | .queueInLoop .loop _ => inferInstanceAs (Decidable (_ = true))
  | .queueInLoop (.other _) _ | .loop _ | .advance | .handleRead | .quit _ | .finish _
  | .startLoop => isTrue trivial

/-- A pending functor has its signal, by the place of the loop thread. Inside a functor the
thread itself may be about to give it. -/
def Covered (s : LoopThread F) : Prop :=
  match s.pc with
  | .dispatch _ | .doPendingFunctors | .swap => True
  | .functor _ _ => s.pendingFunctors ≠ [] → s.Signalled ∨ s.calls .loop = some .queueInLoop
  | _ => s.pendingFunctors ≠ [] → s.Signalled

/-- What runs keep. -/
structure WakeInv (s : LoopThread F) : Prop where
  covered : s.Covered
  calling : s.pc.inPass = true → s.callingPendingFunctors = true
  inCallback : s.calls .loop = some .queueInLoop → s.pc.inCallback = true
  looping : s.pc.inLoop = true → s.looping = true

/-- A signalled queue is covered everywhere. -/
theorem Covered.of_signalled (h : s.pendingFunctors ≠ [] → s.Signalled) : s.Covered := by
  unfold Covered
  cases s.pc with
  | functor fs i => exact fun hpending => Or.inl (h hpending)
  | dispatch wakeup | doPendingFunctors | swap => exact trivial
  | _ => exact h

/-- Inside a handler or a functor it is enough that the thread of the loop will signal before
it leaves the functor. -/
theorem Covered.of_inCallback (hin : s.pc.inCallback = true)
    (hcall : ∀ fs i, s.pc = .functor fs i → s.calls .loop = some .queueInLoop) :
    s.Covered := by
  unfold Covered
  cases hpc : s.pc with
  | dispatch wakeup => exact trivial
  | functor fs i => exact fun _ => Or.inr (hcall fs i hpc)
  | _ =>
      rw [hpc] at hin
      cases hin

/-- `wakeup` makes the eventfd readable. -/
theorem eventfd_wakeup (s : LoopThread F) : 0 < s.wakeup.eventfd := by
  show 0 < min (s.eventfd + 1) maxEventfd
  unfold maxEventfd
  omega

/-- A thread that enters or leaves a call leaves the others where they are. -/
theorem Signalled.of_update (h : s.Signalled) (t : ThreadId) (pc : Option CallPc)
    (hfd : s'.eventfd = s.eventfd)
    (hcalls : s'.calls = Function.update s.calls t pc)
    (hkeep : s.calls t = some .queueInLoop → pc = some .queueInLoop ∨ t = .loop) :
    s'.Signalled := by
  rcases h with hpos | ⟨u, hu⟩
  · left
    rw [hfd]
    exact hpos
  · right
    refine ⟨u, ?_⟩
    rw [hcalls]
    by_cases hut : ThreadId.other u = t
    · subst hut
      rw [Function.update_self]
      exact (hkeep hu).resolve_right (by simp)
    · rw [Function.update_of_ne hut]
      exact hu

/-- The steps of the loop thread in its own code signal nothing and take no signal. -/
theorem advance_signalled (s : LoopThread F) :
    s.advance.eventfd = s.eventfd ∧ s.advance.calls = s.calls := by
  unfold LoopThread.advance
  cases s.pc with
  | test | functors fs i =>
      dsimp only
      split <;> exact ⟨rfl, rfl⟩
  | _ => exact ⟨rfl, rfl⟩

/-- `callingPendingFunctors_` is up inside a pass. -/
theorem advance_calling (h : s.pc.inPass = true → s.callingPendingFunctors = true) :
    s.advance.pc.inPass = true → s.advance.callingPendingFunctors = true := by
  unfold LoopThread.advance
  cases hpc : s.pc with
  | test =>
      dsimp only
      split
      · exact fun hin => by cases hin
      · cases s.threadFunc <;> simp [setPc, LoopThreadPc.inPass]
  | functors fs i =>
      rw [hpc] at h
      dsimp only
      split <;> exact fun _ => h rfl
  | outside | finished => exact h
  | swap | functor fs i =>
      rw [hpc] at h
      exact fun _ => h rfl
  -- the flag goes up here, and down at the end of `clear`
  | doPendingFunctors => exact fun _ => rfl
  | _ => exact fun hin => by cases hin

/-- The next step of the loop thread, which is inside no call. -/
theorem WakeInv.advance (h : s.WakeInv) (hlegal : s.Legal .advance) : s.advance.WakeInv := by
  have hidle : s.calls .loop = none := hlegal.1
  obtain ⟨hfd, hcalls⟩ := advance_signalled s
  refine ⟨?_, advance_calling h.calling, ?_, advance_looping h.looping⟩
  · -- A signal stays, so what is pending is covered wherever the step leads.
    have signalled : (s.pendingFunctors ≠ [] → s.Signalled) →
        s.advance.pendingFunctors = s.pendingFunctors → s.advance.Covered := by
      intro hsignalled hpending
      refine Covered.of_signalled fun hne => ?_
      rw [hpending] at hne
      rw [Signalled, hfd, hcalls]
      exact hsignalled hne
    have hcovered := h.covered
    unfold Covered at hcovered
    cases hpc : s.pc with
    | dispatch wakeup | doPendingFunctors =>
        rw [LoopThread.advance, hpc]
        exact trivial
    | swap =>
        -- The batch is taken: nothing is pending.
        refine Covered.of_signalled fun hne => absurd ?_ hne
        rw [LoopThread.advance, hpc]
    -- a call of `queueInLoop` inside the functor has returned, so it has signalled
    | functor fs i =>
        rw [hpc] at hcovered
        refine signalled (fun hne => (hcovered hne).resolve_right ?_) ?_
        · rw [hidle]
          simp
        · rw [LoopThread.advance, hpc]
          rfl
    | test | functors fs i =>
        rw [hpc] at hcovered
        refine signalled hcovered ?_
        rw [LoopThread.advance, hpc]
        dsimp only
        split <;> rfl
    | construct | publish | reset | poll | clear fs =>
        rw [hpc] at hcovered
        refine signalled hcovered ?_
        rw [LoopThread.advance, hpc]
        rfl
    | outside | finished =>
        rw [hpc] at hcovered
        refine signalled hcovered ?_
        rw [LoopThread.advance, hpc]
  · rw [hcalls, hidle]
    simp

/-! ### All threads -/

/-- A call of `loop()`, which nobody makes inside it. -/
theorem WakeInv.loop (h : s.WakeInv) (hidle : s.looping = false) :
    WakeInv { s.setPc .reset with looping := true, runner := .loop } := by
  have hout := not_inLoop_of_idle h.looping hidle
  -- Outside the loop its thread is inside no call.
  have hnot : s.calls .loop ≠ some .queueInLoop := by
    intro hcall
    rw [LoopThreadPc.inLoop_of_inCallback (h.inCallback hcall)] at hout
    cases hout
  refine ⟨?_, (fun hin => by cases hin), fun hcall => absurd hcall hnot, fun _ => rfl⟩
  have hcovered := h.covered
  unfold Covered at hcovered
  cases hpc : s.pc <;> simp [hpc, LoopThreadPc.inLoop] at hout
  all_goals
    rw [hpc] at hcovered
    exact hcovered

/-- A step that leaves the thread of the loop and the signals alone leaves the queue
covered. -/
theorem Covered.of_same (h : s.Covered) (hpc : s'.pc = s.pc)
    (hpending : s'.pendingFunctors = s.pendingFunctors) (hsignalled : s.Signalled → s'.Signalled)
    (hcall : s.calls .loop = some .queueInLoop → s'.calls .loop = some .queueInLoop) :
    s'.Covered := by
  unfold Covered at h ⊢
  rw [hpc, hpending]
  cases hpos : s.pc with
  | functor fs i =>
      rw [hpos] at h
      exact fun hne => (h hne).imp hsignalled hcall
  | dispatch wakeup | doPendingFunctors | swap => exact trivial
  | _ =>
      rw [hpos] at h
      exact fun hne => hsignalled (h hne)

/-- The end of a call. `queueInLoop` has signalled by then, or need not. -/
theorem WakeInv.finish (h : s.WakeInv) {t : ThreadId} (hstep : s.step (.finish t) = some s') :
    s'.WakeInv := by
  have hsame := sameQueue_finish hstep
  refine ⟨?_, ?_, fun hcall => ?_, ?_⟩
  · rw [LoopThread.step] at hstep
    split at hstep
    · cases hstep
      exact h.covered
    · rename_i hcall
      cases hstep
      by_cases hwakes : t ≠ .loop ∨ s.callingPendingFunctors = true
      · rw [finishQueueInLoop, if_pos hwakes]
        exact Covered.of_signalled fun _ => Or.inl (eventfd_wakeup s)
      · -- In a handler no signal is needed: the swap comes after it.
        obtain ⟨hloop, hflag⟩ := not_or.mp hwakes
        obtain rfl : t = .loop := not_not.mp hloop
        rw [finishQueueInLoop, if_neg hwakes]
        refine Covered.of_inCallback (h.inCallback hcall) fun fs i hpc => ?_
        have hpass : s.pc.inPass = true := by
          rw [show s.pc = _ from hpc]
          rfl
        exact absurd (h.calling hpass) hflag
    -- `quit` leaves the queue alone, and wakes the loop from another thread.
    · rename_i hcall
      cases hstep
      by_cases hother : t ≠ .loop
      · rw [finishQuit, if_pos hother]
        exact Covered.of_signalled fun _ => Or.inl (eventfd_wakeup s)
      · obtain rfl : t = .loop := not_not.mp hother
        rw [finishQuit, if_neg hother]
        refine h.covered.of_same rfl rfl (fun hsig => ?_) (fun hqueue => ?_)
        · exact hsig.of_update .loop none rfl rfl fun _ => Or.inr rfl
        · rw [hcall] at hqueue
          cases hqueue
  · rw [hsame.pc, hsame.callingPendingFunctors]
    exact h.calling
  · rw [hsame.pc]
    exact h.inCallback (calls_of_finish hstep hcall)
  · rw [hsame.pc, hsame.looping]
    exact h.looping

/-- Every step. -/
theorem WakeInv.step (h : s.WakeInv) (hlegal : s.Legal a) (hfrom : s.FromCallbacks a)
    (hstep : s.step a = some s') : s'.WakeInv := by
  cases a with
  | loop t =>
      obtain ⟨hidle, rfl, rfl⟩ := loop_spec hstep
      exact h.loop hidle
  | advance =>
      cases hstep
      exact h.advance hlegal
  | handleRead =>
      cases hstep
      exact ⟨trivial, (fun hpass => by cases hpass), fun _ => rfl,
        looping_step h.looping hlegal rfl⟩
  | queueInLoop t f =>
      cases hstep
      cases t with
      | other u =>
          -- The thread is about to signal.
          refine ⟨Covered.of_signalled fun _ => Or.inr ⟨u, ?_⟩, h.calling, fun hcall => ?_,
            h.looping⟩
          · simp [setCall]
          · exact h.inCallback (by simpa [setCall] using hcall)
      | loop =>
          -- The push comes from a handler, before the swap, or from a functor that will signal.
          have hin : s.pc.inCallback = true := hfrom
          refine ⟨Covered.of_inCallback hin fun _ _ _ => ?_, h.calling, fun _ => hin, h.looping⟩
          simp [setCall]
  | quit t =>
      cases hstep
      have hfree : s.calls t = none := hlegal.1
      refine ⟨h.covered.of_same rfl rfl (fun hsig => ?_) (fun hcall => ?_), h.calling,
        fun hcall => ?_, h.looping⟩
      · refine hsig.of_update t (some .quit) rfl rfl fun hcall => ?_
        rw [hfree] at hcall
        cases hcall
      · have hne : .loop ≠ t := by
          rintro rfl
          rw [hfree] at hcall
          cases hcall
        simpa [setCall, hne] using hcall
      · refine h.inCallback ?_
        by_cases ht : .loop = t
        · subst ht
          simp [setCall] at hcall
        · simpa [setCall, ht] using hcall
  | finish t => exact h.finish hstep
  | startLoop =>
      cases hstep
      exact ⟨h.covered.of_same rfl rfl id id, h.calling, h.inCallback, h.looping⟩

/-- No lost wakeup. In every run of a loop, with calls of `queueInLoop` from other threads at
any time and from the thread of the loop inside its handlers and functors: when the loop is
at or in `poll` and a functor is pending, the eventfd is readable or another thread is
between its push and its `wakeup`. -/
theorem no_lost_wakeup (s₀ : LoopThread F) (hstart : s₀.Unused)
    (as : List (LoopThreadAction F)) (s : LoopThread F)
    (hrun : (loopThreadMachine F).Run s₀ as s)
    (hfrom : (loopThreadMachine F).EveryStep s₀ as FromCallbacks)
    (hpoll : s.pc = .poll) (hpending : s.pendingFunctors ≠ []) :
    0 < s.eventfd ∨ ∃ t, s.calls (.other t) = some .queueInLoop := by
  have hinit : s₀.WakeInv := by
    rcases hstart with rfl | rfl
    all_goals
      refine ⟨fun hne => absurd rfl hne, ?_, ?_, ?_⟩
      all_goals simp [start, new, LoopThreadPc.inPass, LoopThreadPc.inLoop]
  have hinv : s.WakeInv := by
    refine (Machine.run_restrict.mpr ⟨hrun, hfrom⟩).invariant hinit ?_
    intro s a s' h hlegal hstep
    exact h.step hlegal.1 hlegal.2 hstep
  have hcovered := hinv.covered
  unfold Covered at hcovered
  rw [hpoll] at hcovered
  exact hcovered hpending

/-- The theorem at a run with a push while the loop is in `poll`. -/
theorem no_lost_wakeup_pushing :
    ∃ s, (loopThreadMachine Nat).Run new
        [.loop .loop, .advance, .advance, .queueInLoop (.other 0) 7] s ∧ s.eventfd = 0 ∧
      (0 < s.eventfd ∨ ∃ t, s.calls (.other t) = some .queueInLoop) := by
  obtain ⟨s, hrun, hpoll, hfd, hpending⟩ := Machine.exists_run
    (M := (loopThreadMachine Nat).restrict FromCallbacks)
    (P := fun s => s.pc.inPoll = true ∧ s.eventfd = 0 ∧ s.pendingFunctors ≠ []) new
    [.loop .loop, .advance, .advance, .queueInLoop (.other 0) 7] (by decide +kernel)
  obtain ⟨hrun', hfrom⟩ := Machine.run_restrict.mp hrun
  have hpc : s.pc = .poll := by
    cases hpos : s.pc <;> simp [hpos, LoopThreadPc.inPoll] at hpoll
    rfl
  exact ⟨s, hrun', hfd, no_lost_wakeup new (Or.inl rfl) _ s hrun' hfrom hpc hpending⟩

end LoopThread

end SecondGear
