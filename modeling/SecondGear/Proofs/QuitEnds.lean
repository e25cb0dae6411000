import SecondGear.Proofs.EventLoopThread

/-!
# `SecondGear.Proofs.QuitEnds`: how long `loop()` goes on after `quit`

When `quit_` is up inside `loop()`, behind its `quit_ = false`, the loop ends. `stepsToExit` bounds
the steps that the loop thread has before it. Each of its steps makes it smaller, a push makes it
larger by two at most, and nothing else touches it. So the loop ends although other threads and its
own functors go on pushing: the functors of the last swap are the last.

* `Ending.step`: one step.
* `quit_ends_loop`: a whole run with `quit_` up.
-/

set_option autoImplicit false

namespace SecondGear

open SecondGear.Lib

namespace LoopThreadAction

variable {F : Type}

/-- A step of the loop thread in `loop()`, outside of the calls that its callbacks make. -/
def isLoopStep : LoopThreadAction F → Bool
  | .advance | .handleRead => true
  | .loop _ | .queueInLoop _ _ | .quit _ | .finish _ | .startLoop => false

def isPush : LoopThreadAction F → Bool
  | .queueInLoop _ _ => true
  | .loop _ | .advance | .handleRead | .quit _ | .finish _ | .startLoop => false

end LoopThreadAction

namespace LoopThread

variable {F : Type} {s s' : LoopThread F} {a : LoopThreadAction F}

/-- `loop()` is not called again. -/
def NotCalled (_ : LoopThread F) : LoopThreadAction F → Prop
  | .loop _ => False
  | .advance | .handleRead | .queueInLoop _ _ | .quit _ | .finish _ | .startLoop => True

instance (s : LoopThread F) : (a : LoopThreadAction F) → Decidable (s.NotCalled a)
  | .loop _ => isFalse id
  | .advance | .handleRead | .queueInLoop _ _ | .quit _ | .finish _ | .startLoop => isTrue trivial

/-- `quit_` is up, and `loop()` is past its `quit_ = false`, or over. -/
structure Ending (s : LoopThread F) : Prop where
  quit : s.quit = true
  place : s.pc.entered = true ∨ s.pc = .outside ∨ s.pc = .finished

/-- The loop thread goes on towards the end, and not into `poll`. -/
theorem Ending.advance (h : s.Ending) : s.advance.Ending ∧
    (s.pc.inPoll = false → s.advance.pc.inPoll = false) := by
  obtain ⟨hquit, hplace⟩ := h
  unfold LoopThread.advance
  cases hpc : s.pc with
  | construct | publish | reset =>
      -- These are in front of `quit_ = false`.
      rw [hpc] at hplace
      simp [LoopThreadPc.entered] at hplace
  | test =>
      -- `while (!quit_)` is over, in `threadFunc` for good.
      dsimp only
      rw [hquit]
      cases s.threadFunc
      · exact ⟨⟨hquit, .inr (.inl rfl)⟩, fun _ => rfl⟩
      · exact ⟨⟨hquit, .inr (.inr rfl)⟩, fun _ => rfl⟩
  | functors fs i =>
      dsimp only
      split <;> exact ⟨⟨hquit, .inl rfl⟩, fun _ => rfl⟩
  | outside | finished => exact ⟨⟨hquit, hplace⟩, fun _ => by rw [hpc]; rfl⟩
  | _ => exact ⟨⟨hquit, .inl rfl⟩, fun _ => rfl⟩

/-- Each of its steps brings it nearer, whoever runs the loop: the bound does not see the calls of
other threads, and a loop that is not that of `threadFunc` ends in the same step. -/
theorem Ending.stepsToExit_advance (h : s.Ending) (hcan : s.pc.canAdvance = true) :
    s.advance.stepsToExit < s.stepsToExit := by
  let t : LoopThread F := { s with calls := fun _ => none, threadFunc := true }
  have hentered : t.pc.entered = true ∨ t.pc = .finished := by
    rcases h.place with hin | hout | hover
    · exact .inl hin
    · rw [hout] at hcan
      cases hcan
    · exact .inr hover
  have hstopping : t.Stopping := ⟨h.quit, rfl, rfl, hentered⟩
  have hsame : t.advance.stepsToExit = s.advance.stepsToExit := by
    unfold LoopThread.advance
    cases hpc : s.pc with
    | test =>
        simp only [t, hpc, h.quit]
        cases s.threadFunc <;> rfl
    | functors fs i =>
        simp only [t, hpc]
        split <;> rfl
    | outside | finished =>
        simp only [t, hpc]
        rw [LoopThread.stepsToExit, LoopThread.stepsToExit, hpc]
    | _ =>
        simp only [t, hpc]
        rfl
  rw [← hsame]
  exact hstopping.stepsToExit_advance hcan

/-- One more pending functor. -/
theorem stepsToExit_push {f : F} (hpc : s'.pc = s.pc)
    (hpushed : s'.pendingFunctors = s.pendingFunctors ++ [f]) :
    s'.stepsToExit ≤ s.stepsToExit + 2 := by
  rw [stepsToExit, stepsToExit, hpc, hpushed, List.length_append, List.length_singleton]
  cases s.pc with
  | dispatch wakeup =>
      cases wakeup
      all_goals
        dsimp only
        omega
  | _ =>
      dsimp only
      omega

theorem stepsToExit_of_same (h : SameQueue s s') : s'.stepsToExit = s.stepsToExit := by
  rw [stepsToExit, stepsToExit, h.pc, h.pendingFunctors]

/-- What one step does to the steps that are left. -/
theorem Ending.step (h : s.Ending) (hlegal : s.Legal a) (hcall : s.NotCalled a)
    (hstep : s.step a = some s') : s'.Ending ∧
      a.isLoopStep.toNat + s'.stepsToExit ≤ s.stepsToExit + 2 * a.isPush.toNat ∧
      (s.pc.inPoll = false → s'.pc.inPoll = false) := by
  cases a with
  | loop t => exact hcall.elim
  | advance =>
      cases hstep
      obtain ⟨hend, hpoll⟩ := h.advance
      have hless := h.stepsToExit_advance hlegal.2
      refine ⟨hend, ?_, hpoll⟩
      simp only [LoopThreadAction.isLoopStep, LoopThreadAction.isPush, Bool.toNat_true,
        Bool.toNat_false]
      omega
  | handleRead =>
      have hpc : s.pc = .dispatch true := LoopThreadPc.canRead_iff.mp hlegal.2
      cases hstep
      refine ⟨⟨h.quit, .inl rfl⟩, ?_, fun _ => rfl⟩
      simp only [LoopThreadAction.isLoopStep, LoopThreadAction.isPush, stepsToExit, hpc, setPc,
        Bool.toNat_true, Bool.toNat_false]
      omega
  | queueInLoop t f =>
      have hs' := Option.some.inj hstep
      have hpc : s'.pc = s.pc := by rw [← hs']; rfl
      have hle : s'.stepsToExit ≤ s.stepsToExit + 2 :=
        stepsToExit_push (f := f) hpc (by rw [← hs'])
      refine ⟨⟨by rw [← hs']; exact h.quit, hpc ▸ h.place⟩, ?_, hpc ▸ id⟩
      simp only [LoopThreadAction.isLoopStep, LoopThreadAction.isPush, Bool.toNat_true,
        Bool.toNat_false]
      omega
  | quit t =>
      cases hstep
      exact ⟨⟨rfl, h.place⟩, by simp [LoopThreadAction.isLoopStep, LoopThreadAction.isPush,
        stepsToExit, setCall], id⟩
  | startLoop =>
      cases hstep
      exact ⟨⟨h.quit, h.place⟩, by simp [LoopThreadAction.isLoopStep, LoopThreadAction.isPush,
        stepsToExit], id⟩
  | finish t =>
      -- A call of another thread ends. The loop does not see it.
      have hsame := sameQueue_finish hstep
      refine ⟨⟨(finish_keeps hstep).1.trans h.quit, ?_⟩, ?_, ?_⟩
      · rw [hsame.pc]
        exact h.place
      · rw [stepsToExit_of_same hsame]
        simp [LoopThreadAction.isLoopStep, LoopThreadAction.isPush]
      · rw [hsame.pc]
        exact id

/-- The steps of a run, by induction on it. -/
theorem Ending.of_run (h : s.Ending) {as : List (LoopThreadAction F)}
    (hrun : ((loopThreadMachine F).restrict NotCalled).Run s as s') :
    s'.Ending ∧ as.countP (·.isLoopStep) + s'.stepsToExit
      ≤ s.stepsToExit + 2 * as.countP (·.isPush) ∧
      (s.pc.inPoll = false → s'.pc.inPoll = false) := by
  induction hrun with
  | start => exact ⟨h, by simp, id⟩
  | @next as t t' a hrun hlegal hstep ih =>
      obtain ⟨hend, hsteps, hpoll⟩ := ih
      obtain ⟨hend', hstep', hpoll'⟩ := hend.step hlegal.1 hlegal.2 hstep
      refine ⟨hend', ?_, hpoll' ∘ hpoll⟩
      rw [List.countP_append, List.countP_append, List.countP_singleton, List.countP_singleton]
      cases hloop : a.isLoopStep <;> cases hpush : a.isPush <;>
        simp only [hloop, hpush, Bool.toNat_true, Bool.toNat_false] at hstep' <;> simp <;> omega

/-- Inside `loop()` the loop thread is never stuck. -/
theorem canStep_of_entered (hentered : s.pc.entered = true) (hidle : s.calls .loop = none) :
    ∃ a : LoopThreadAction F, a.isLoopStep = true ∧ s.Legal a := by
  by_cases hread : s.pc.canRead = true
  · exact ⟨.handleRead, rfl, hidle, hread⟩
  · refine ⟨.advance, rfl, hidle, ?_⟩
    cases hpc : s.pc with
    | dispatch wakeup => simpa [hpc, LoopThreadPc.canRead, LoopThreadPc.canAdvance] using hread
    | outside | finished => simp [hpc, LoopThreadPc.entered] at hentered
    | _ => rfl

/-- `quit_` is up inside `loop()`. In every run from there, up to the next call of `loop()`, with
any pushes and calls of `quit` of any threads and its own callbacks:

- `quit_` stays up, and `poll` is not called again;
- the loop thread takes at most `stepsToExit` steps, and two for each push;
- until `loop()` is over it can take one, unless it is in a call that a callback makes. -/
theorem quit_ends_loop (hquit : s.quit = true) (hentered : s.pc.entered = true)
    {as : List (LoopThreadAction F)}
    (hrun : ((loopThreadMachine F).restrict NotCalled).Run s as s') :
    (s'.quit = true ∧ (s.pc.inPoll = false → s'.pc.inPoll = false)) ∧
      as.countP (·.isLoopStep) ≤ s.stepsToExit + 2 * as.countP (·.isPush) ∧
      (s'.pc.inLoop = true → s'.calls .loop = none →
        ∃ a : LoopThreadAction F, a.isLoopStep = true ∧ s'.Legal a) := by
  have h : s.Ending := ⟨hquit, .inl hentered⟩
  obtain ⟨hend, hsteps, hpoll⟩ := h.of_run hrun
  refine ⟨⟨hend.quit, hpoll⟩, by omega, fun hin hidle => ?_⟩
  refine canStep_of_entered ?_ hidle
  -- `loop()` is not over, so the thread is inside.
  rcases hend.place with hplace | hout | hover
  · exact hplace
  · rw [hout] at hin
    cases hin
  · rw [hover] at hin
    cases hin

/-- The loop is in `poll` when `quit` comes. One functor is pushed in front of the swap, and one
behind it, which stays in the queue. -/
theorem quit_ends_loop_pushed : ∃ s : LoopThread Nat, s.pc.inLoop = false ∧
    s.pendingFunctors = [9] ∧ s.executed.map Prod.snd = [7] ∧ s.quit = true := by
  let polling : LoopThread Nat :=
    { start with pc := .poll, looping := true, quit := true, published := true, known := true,
                 eventfd := 1 }
  obtain ⟨s, hrun, hpc, hpending, hexecuted⟩ :=
    Machine.exists_run (M := (loopThreadMachine Nat).restrict NotCalled)
    (P := fun s => s.pc.inLoop = false ∧ s.pendingFunctors = [9] ∧ s.executed.map Prod.snd = [7])
    polling
    [.advance, .handleRead, .advance, .advance, .queueInLoop (.other 0) 7, .advance,
      .queueInLoop (.other 1) 9, .advance, .advance, .advance, .advance, .advance]
    (by decide +kernel)
  exact ⟨s, hpc, hpending, hexecuted,
    (quit_ends_loop (s := polling) rfl rfl hrun).1.1⟩

end LoopThread

end SecondGear
