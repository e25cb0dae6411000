import SecondGear.Proofs.Wakeup

/-!
# `SecondGear.Proofs.Quit`: a call of `quit` and the start of `loop()`

`startLoop` returns once `loop_` is published. That is before `loop()` sets `quit_ = false`.
A `quit` in between is undone, and its signal is read in the first iteration:
`not_quit_seen`.

`quit_seen` is about the runs whose calls of `quit` come after `quit_ = false`
(`QuitsInLoop`). There a completed call has `quit_` set for good, and a loop that is in
`poll` has the signal. `QuitInv` says so for every place of the loop thread.
-/

set_option autoImplicit false

namespace SecondGear

open SecondGear.Lib

namespace LoopThread

variable {F : Type} {s s' : LoopThread F} {a : LoopThreadAction F}

/-- The loop keeps running after a completed `quit`: it is at or in `poll`, `quit_` is false
and no signal is left. -/
def QuitLost (s : LoopThread F) : Prop :=
  s.quits ≠ [] ∧ s.pc.inPoll = true ∧ s.quit = false ∧ s.eventfd = 0

instance (s : LoopThread F) : Decidable s.QuitLost := by
  unfold QuitLost
  infer_instance

/-- `quit` is called after `quit_ = false` of `loop()`. -/
def QuitsInLoop (s : LoopThread F) : LoopThreadAction F → Prop
  | .quit _ => s.pc.entered = true
  | _ => True

instance (s : LoopThread F) : (a : LoopThreadAction F) → Decidable (s.QuitsInLoop a)
  | .quit _ => inferInstanceAs (Decidable (_ = true))
  | .loop _ | .advance | .handleRead | .queueInLoop _ _ | .finish _ | .startLoop =>
      isTrue trivial

/-- Somebody has called `quit`. -/
def QuitCalled (s : LoopThread F) : Prop := s.quits ≠ [] ∨ ∃ t, s.calls t = some .quit

/-- What the runs of an `EventLoopThread` keep. -/
structure QuitInv (s : LoopThread F) : Prop where
  threadFunc : s.threadFunc = true
  /-- `loop()` is past `quit_ = false`, or over -/
  entered : s.QuitCalled → s.pc.entered = true ∨ s.pc = .finished
  quit : s.QuitCalled → s.quit = true
  /-- the loop went into `poll` before `quit_` was set, so the signal is still there -/
  signal : s.pc.inPoll = true → s.quits ≠ [] → 0 < s.eventfd
  inCallback : s.calls .loop ≠ none → s.pc.inCallback = true
  looping : s.pc.inLoop = true → s.looping = true

/-- The next step of the loop thread, which is inside no call. -/
theorem QuitInv.advance (h : s.QuitInv) (hlegal : s.Legal .advance) : s.advance.QuitInv := by
  have hidle : s.calls .loop = none := hlegal.1
  obtain ⟨hfd, hcalls⟩ := advance_signalled s
  -- The step changes neither the calls of `quit` nor what the thread runs.
  have hquits : s.advance.quits = s.quits ∧ s.advance.threadFunc = s.threadFunc := by
    unfold LoopThread.advance
    cases s.pc with
    | test | functors fs i =>
        dsimp only
        split <;> exact ⟨rfl, rfl⟩
    | _ => exact ⟨rfl, rfl⟩
  have hcalled : s.advance.QuitCalled ↔ s.QuitCalled := by
    rw [QuitCalled, QuitCalled, hquits.1, hcalls]
  refine ⟨hquits.2.trans h.threadFunc, ?_, ?_, ?_, ?_, advance_looping h.looping⟩
  · -- After a call of `quit` the loop thread goes on inside `loop()` or is done.
    intro hc
    have hin := h.entered (hcalled.mp hc)
    unfold LoopThread.advance
    cases hpc : s.pc with
    | test =>
        dsimp only
        rw [h.quit (hcalled.mp hc), h.threadFunc]
        exact Or.inr rfl
    | functors fs i =>
        dsimp only
        split <;> exact Or.inl rfl
    | construct | publish | outside | reset =>
        rw [hpc] at hin
        simp [LoopThreadPc.entered] at hin
    | finished => exact Or.inr hpc
    | _ => exact Or.inl rfl
  · intro hc
    -- Only the start of `loop()` resets `quit_`, and that is behind.
    have hset := h.quit (hcalled.mp hc)
    have hin := h.entered (hcalled.mp hc)
    unfold LoopThread.advance
    cases hpc : s.pc with
    | reset =>
        rw [hpc] at hin
        simp [LoopThreadPc.entered] at hin
    | test | functors fs i =>
        dsimp only
        split <;> exact hset
    | _ => exact hset
  · -- Only a loop that sees `quit_` false goes into `poll`.
    intro hpoll hne
    have hset := h.quit (Or.inl (hquits.1 ▸ hne))
    unfold LoopThread.advance at hpoll
    cases hpc : s.pc with
    | test =>
        rw [hpc] at hpoll
        dsimp only at hpoll
        rw [hset, h.threadFunc] at hpoll
        cases hpoll
    | functors fs i =>
        rw [hpc] at hpoll
        dsimp only at hpoll
        split at hpoll <;> cases hpoll
    | outside | finished =>
        rw [hpc] at hpoll
        dsimp only at hpoll
        rw [hpc] at hpoll
        cases hpoll
    | _ =>
        rw [hpc] at hpoll
        cases hpoll
  · rw [hcalls, hidle]
    exact fun hne => absurd rfl hne

/-- A step that touches no call of `quit`. -/
theorem QuitInv.of_same (h : s.QuitInv) (hpc : s'.pc = s.pc) (hquit : s'.quit = s.quit)
    (hquits : s'.quits = s.quits) (hfunc : s'.threadFunc = s.threadFunc)
    (hlooping : s'.looping = s.looping) (hfd : 0 < s.eventfd → 0 < s'.eventfd)
    (hcalls : ∀ t, s'.calls t = some .quit → s.calls t = some .quit)
    (hloop : s'.calls .loop ≠ none → s.pc.inCallback = true) : s'.QuitInv := by
  have hcalled : s'.QuitCalled → s.QuitCalled := by
    rintro (hne | ⟨t, ht⟩)
    · exact Or.inl (hquits ▸ hne)
    · exact Or.inr ⟨t, hcalls t ht⟩
  refine ⟨hfunc.trans h.threadFunc, fun hc => ?_, fun hc => ?_, fun hpoll hne => ?_, ?_, ?_⟩
  · rw [hpc]
    exact h.entered (hcalled hc)
  · rw [hquit]
    exact h.quit (hcalled hc)
  · rw [hpc] at hpoll
    rw [hquits] at hne
    exact hfd (h.signal hpoll hne)
  · rw [hpc]
    exact hloop
  · rw [hpc, hlooping]
    exact h.looping

/-- A thread enters a call. The thread of an `EventLoopThread` does so in callbacks. -/
theorem QuitInv.inCallback_of_canCall (h : s.QuitInv) {t : ThreadId} (pc : CallPc)
    (hcan : s.CanCall t) (hcall : (s.setCall t (some pc)).calls .loop ≠ none) :
    s.pc.inCallback = true := by
  cases t with
  | loop =>
      have hin := hcan.2
      rw [if_pos rfl, h.threadFunc] at hin
      exact hin.resolve_right (by simp)
  | other u => exact h.inCallback (by simpa [setCall] using hcall)

/-- The end of a call. `quit` has set `quit_` by then, and a call of another thread has
signalled. -/
theorem QuitInv.finish (h : s.QuitInv) {t : ThreadId} (hstep : s.step (.finish t) = some s') :
    s'.QuitInv := by
  have hback : ∀ u pc, s'.calls u = some pc → s.calls u = some pc :=
    fun u pc hu => calls_of_finish hstep hu
  have callback : s'.calls .loop ≠ none → s.pc.inCallback = true := by
    intro hcall
    obtain ⟨pc, hpc⟩ := Option.ne_none_iff_exists'.mp hcall
    exact h.inCallback (by rw [hback _ pc hpc]; simp)
  rw [LoopThread.step] at hstep
  split at hstep
  · cases hstep
    exact h
  · obtain rfl := Option.some.inj hstep
    revert hback callback
    rw [finishQueueInLoop]
    split
    · exact fun hback callback => h.of_same rfl rfl rfl rfl rfl (fun _ => eventfd_wakeup s)
        (fun u => hback u .quit) callback
    · exact fun hback callback => h.of_same rfl rfl rfl rfl rfl id
        (fun u => hback u .quit) callback
  · rename_i hcall
    have hc : s.QuitCalled := Or.inr ⟨t, hcall⟩
    obtain rfl := Option.some.inj hstep
    revert callback
    rw [finishQuit]
    split
    · exact fun callback => ⟨h.threadFunc, fun _ => h.entered hc, fun _ => h.quit hc,
        fun _ _ => eventfd_wakeup s, callback, h.looping⟩
    · -- The thread of the loop calls `quit` in a handler or a functor, not in `poll`.
      rename_i hloop
      obtain rfl : t = .loop := not_not.mp hloop
      have hin := h.inCallback (by rw [hcall]; simp)
      refine fun callback => ⟨h.threadFunc, fun _ => h.entered hc, fun _ => h.quit hc,
        fun hpoll => ?_, callback, h.looping⟩
      have hpoll' : s.pc.inPoll = true := hpoll
      cases hpc : s.pc <;>
        simp [hpc, LoopThreadPc.inCallback, LoopThreadPc.inPoll] at hin hpoll'

/-- A call of `loop()`. Nobody has called `quit` before it. -/
theorem QuitInv.loop (h : s.QuitInv) (hlegal : s.Legal (.loop .loop))
    (hidle : s.looping = false) :
    QuitInv { s.setPc .reset with looping := true, runner := .loop } := by
  have hout := not_inLoop_of_idle h.looping hidle
  have notIn : ¬ s.pc.inCallback = true := by
    intro hin
    rw [LoopThreadPc.inLoop_of_inCallback hin] at hout
    cases hout
  have hnone : ¬ s.QuitCalled := by
    intro hc
    have hin := h.entered hc
    rcases hlegal with hcan | ⟨-, hpc⟩
    · have hcb := hcan.2
      rw [if_pos rfl, h.threadFunc] at hcb
      exact notIn (hcb.resolve_right (by simp))
    · cases hpos : s.pc <;> simp [hpos, LoopThreadPc.isOutside] at hpc
      rw [hpos] at hin
      simp [LoopThreadPc.entered] at hin
  exact ⟨h.threadFunc, fun hc => absurd hc hnone, fun hc => absurd hc hnone,
    (fun hpoll => by cases hpoll), fun hcall => absurd (h.inCallback hcall) notIn, fun _ => rfl⟩

/-- Every step. -/
theorem QuitInv.step (h : s.QuitInv) (hlegal : s.Legal a) (hquits : s.QuitsInLoop a)
    (hstep : s.step a = some s') : s'.QuitInv := by
  cases a with
  | loop t =>
      obtain ⟨hidle, rfl, rfl⟩ := loop_spec hstep
      exact h.loop hlegal hidle
  | advance =>
      cases hstep
      exact h.advance hlegal
  | handleRead =>
      cases hstep
      exact ⟨h.threadFunc, fun _ => Or.inl rfl, h.quit, (fun hpoll => by cases hpoll),
        fun _ => rfl, looping_step h.looping hlegal rfl⟩
  | queueInLoop t f =>
      cases hstep
      refine h.of_same rfl rfl rfl rfl rfl id (fun u hu => ?_)
        (h.inCallback_of_canCall .queueInLoop hlegal)
      by_cases hut : u = t
      · simp [setCall, hut] at hu
      · simpa [setCall, hut] using hu
  | quit t =>
      cases hstep
      have hentered : s.pc.entered = true := hquits
      exact ⟨h.threadFunc, fun _ => Or.inl hentered, fun _ => rfl, h.signal,
        h.inCallback_of_canCall .quit hlegal, h.looping⟩
  | finish t => exact h.finish hstep
  | startLoop =>
      cases hstep
      exact h.of_same rfl rfl rfl rfl rfl id (fun u hu => hu) h.inCallback

/-- `quit` is seen. In every run of an `EventLoopThread`, with calls of `quit` from the owner
and any other threads at any time after `quit_ = false` of `loop()`: once a call has
returned, `quit_` is set for good, and a loop that is at or in `poll` has the signal. So no
loop keeps running. -/
theorem quit_seen (as : List (LoopThreadAction F)) (s : LoopThread F)
    (hrun : (loopThreadMachine F).Run start as s)
    (hquits : (loopThreadMachine F).EveryStep start as QuitsInLoop) :
    ¬ s.QuitLost ∧
      (s.quits ≠ [] → s.quit = true ∧ (s.pc.inPoll = true → 0 < s.eventfd)) := by
  have hinit : (start : LoopThread F).QuitInv := by
    refine ⟨rfl, ?_, ?_, ?_, ?_, ?_⟩
    all_goals simp [QuitCalled, start, new, LoopThreadPc.inPoll, LoopThreadPc.inLoop]
  have hinv : s.QuitInv := by
    refine (Machine.run_restrict.mpr ⟨hrun, hquits⟩).invariant hinit ?_
    intro s a s' h hlegal hstep
    exact h.step hlegal.1 hlegal.2 hstep
  refine ⟨?_, fun hne => ⟨hinv.quit (Or.inl hne), fun hpoll => hinv.signal hpoll hne⟩⟩
  rintro ⟨hne, -, hquit, -⟩
  rw [hinv.quit (Or.inl hne)] at hquit
  cases hquit

/-- The theorem at a run whose `quit` comes while the loop is in `poll`. -/
theorem quit_seen_polling :
    ∃ s, (loopThreadMachine Nat).Run start
        [.advance, .advance, .startLoop, .loop .loop, .advance, .advance, .quit (.other 0),
          .finish (.other 0)] s ∧ s.quits = [.other 0] ∧ s.quit = true ∧ 0 < s.eventfd := by
  obtain ⟨s, hrun, hquits, hpoll⟩ := Machine.exists_run
    (M := (loopThreadMachine Nat).restrict QuitsInLoop)
    (P := fun s => s.quits = [.other 0] ∧ s.pc.inPoll = true) start
    [.advance, .advance, .startLoop, .loop .loop, .advance, .advance, .quit (.other 0),
      .finish (.other 0)] (by decide +kernel)
  obtain ⟨hrun', hsteps⟩ := Machine.run_restrict.mp hrun
  obtain ⟨hset, hsignal⟩ := (quit_seen _ s hrun' hsteps).2 (by simp [hquits])
  exact ⟨s, hrun', hquits, hset, hsignal hpoll⟩

/-- A `quit` between `startLoop` and the first iteration is lost. -/
theorem not_quit_seen :
    ¬ ∀ (as : List (LoopThreadAction Unit)) (s : LoopThread Unit),
      (loopThreadMachine Unit).Run start as s → ¬ s.QuitLost := by
  intro hall
  obtain ⟨s, hrun, hlost⟩ := Machine.exists_run (M := loopThreadMachine Unit)
    (P := fun s => s.QuitLost) start
    [.advance, .advance, .startLoop, .quit (.other 0), .finish (.other 0), .loop .loop,
      .advance, .advance, .advance, .handleRead, .advance, .advance, .advance, .advance,
      .advance, .advance] (by decide +kernel)
  exact hall _ s hrun hlost

end LoopThread

end SecondGear
