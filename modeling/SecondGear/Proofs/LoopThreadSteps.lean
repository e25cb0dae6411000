import SecondGear.Model.LoopThread

/-!
# `SecondGear.Proofs.LoopThreadSteps`: what one step does to a loop and its queue

`step_effect` is the inversion of `step`. `Effect` has one case for each step that moves the
thread of the loop or the queue. All other steps (`quit`, `startLoop`, the end of a call) are
a `frame`: they touch `quit_`, the eventfd and the calls of the threads, and `SameQueue` says
what they leave alone.

`looping_step` is the first invariant that is read off it: `looping_` is up inside `loop()`,
so nobody calls `loop()` again there.
-/

set_option autoImplicit false

namespace SecondGear

open SecondGear.Lib

/-- The functor that a step pushes. -/
def LoopThreadAction.pushed {F : Type} : LoopThreadAction F → Option F
  | .queueInLoop _ f => some f
  | _ => none

/-- The wakeup channel is handled in the handlers only. -/
theorem LoopThreadPc.canRead_iff {F : Type} {pc : LoopThreadPc F} :
    pc.canRead = true ↔ pc = .dispatch true := by
  cases pc <;> simp [canRead]

/-- Handlers and functors run inside `loop()`. -/
theorem LoopThreadPc.inLoop_of_inCallback {F : Type} {pc : LoopThreadPc F}
    (h : pc.inCallback = true) : pc.inLoop = true := by
  cases pc <;> simp [inCallback, inLoop] at h ⊢

namespace LoopThread

variable {F : Type} {s s' : LoopThread F} {a : LoopThreadAction F}

/-- What a step leaves alone that moves neither the thread of the loop nor the queue. -/
structure SameQueue (s s' : LoopThread F) : Prop where
  pc : s'.pc = s.pc
  looping : s'.looping = s.looping
  callingPendingFunctors : s'.callingPendingFunctors = s.callingPendingFunctors
  pendingFunctors : s'.pendingFunctors = s.pendingFunctors
  runner : s'.runner = s.runner
  pushed : s'.pushed = s.pushed
  executed : s'.executed = s.executed
  executedAtSwap : s'.executedAtSwap = s.executedAtSwap
  passes : s'.passes = s.passes

theorem SameQueue.refl (s : LoopThread F) : SameQueue s s :=
  ⟨rfl, rfl, rfl, rfl, rfl, rfl, rfl, rfl, rfl⟩

/-- What a step does to the queue and to the thread of the loop. -/
inductive Effect (s : LoopThread F) : LoopThreadAction F → LoopThread F → Prop
  /-- both assertions hold -/
  | loop (hidle : s.looping = false) :
      Effect s (.loop .loop) { s.setPc .reset with looping := true, runner := .loop }
  | advance : Effect s .advance s.advance
  | handleRead : Effect s .handleRead { s.setPc (.dispatch false) with eventfd := 0 }
  | push (t : ThreadId) (f : F) :
      Effect s (.queueInLoop t f)
        { s.setCall t (some .queueInLoop) with
          pendingFunctors := s.pendingFunctors ++ [f]
          pushed := s.pushed ++ [f] }
  | frame {a : LoopThreadAction F} {s' : LoopThread F} (ha : a ≠ .advance)
      (hpushed : a.pushed = none) (hsame : SameQueue s s') : Effect s a s'

/-- `loop()` passes both of its assertions. -/
theorem loop_spec {t : ThreadId} (hstep : s.step (.loop t) = some s') :
    s.looping = false ∧ t = .loop ∧
      s' = { s.setPc .reset with looping := true, runner := .loop } := by
  obtain ⟨hidle, hstep⟩ := assert_bind_eq_some_iff.mp hstep
  obtain ⟨rfl, hstep⟩ := assert_bind_eq_some_iff.mp hstep
  cases hstep
  exact ⟨hidle, rfl, rfl⟩

/-- The end of a call moves nothing. -/
theorem sameQueue_finish {t : ThreadId} (hstep : s.step (.finish t) = some s') :
    SameQueue s s' := by
  rw [step] at hstep
  split at hstep
  · cases hstep
    exact .refl s
  · cases hstep
    unfold finishQueueInLoop
    split <;> exact ⟨rfl, rfl, rfl, rfl, rfl, rfl, rfl, rfl, rfl⟩
  · cases hstep
    unfold finishQuit
    split <;> exact ⟨rfl, rfl, rfl, rfl, rfl, rfl, rfl, rfl, rfl⟩

/-- The end of a call: its thread is in no call any more. -/
theorem calls_finish {t : ThreadId} (hstep : s.step (.finish t) = some s') :
    s'.calls = Function.update s.calls t none := by
  rw [step] at hstep
  split at hstep
  · rename_i hnone
    cases hstep
    rw [← hnone, Function.update_eq_self]
  · cases hstep
    unfold finishQueueInLoop
    split <;> rfl
  · cases hstep
    unfold finishQuit
    split <;> rfl

/-- The threads that are in a call after it were in the same one before. -/
theorem calls_of_finish {t u : ThreadId} {pc : CallPc} (hstep : s.step (.finish t) = some s')
    (hcall : s'.calls u = some pc) : s.calls u = some pc := by
  rw [calls_finish hstep] at hcall
  by_cases hut : u = t
  · subst hut
    rw [Function.update_self] at hcall
    cases hcall
  · rwa [Function.update_of_ne hut] at hcall

/-- Every step. -/
theorem step_effect (hstep : s.step a = some s') : s.Effect a s' := by
  cases a with
  | loop t =>
      obtain ⟨hidle, rfl, rfl⟩ := loop_spec hstep
      exact .loop hidle
  | advance =>
      cases hstep
      exact .advance
  | handleRead =>
      cases hstep
      exact .handleRead
  | queueInLoop t f =>
      cases hstep
      exact .push t f
  | quit t | startLoop =>
      cases hstep
      exact .frame (by simp) rfl ⟨rfl, rfl, rfl, rfl, rfl, rfl, rfl, rfl, rfl⟩
  | finish t => exact .frame (by simp) rfl (sameQueue_finish hstep)

/-! ### `looping_` -/

/-- `looping_` is up inside `loop()`. -/
theorem advance_looping (h : s.pc.inLoop = true → s.looping = true) :
    s.advance.pc.inLoop = true → s.advance.looping = true := by
  unfold LoopThread.advance
  cases hpc : s.pc with
  | test =>
      rw [hpc] at h
      dsimp only
      split
      · exact fun _ => h rfl
      · cases s.threadFunc <;> simp [setPc, LoopThreadPc.inLoop]
  | functors fs i =>
      rw [hpc] at h
      dsimp only
      split <;> exact fun _ => h rfl
  | outside | finished => exact h
  | construct | publish => exact fun hin => by cases hin
  | _ =>
      rw [hpc] at h
      exact fun _ => h rfl

/-- Every step keeps it so. -/
theorem looping_step (h : s.pc.inLoop = true → s.looping = true) (hlegal : s.Legal a)
    (hstep : s.step a = some s') : s'.pc.inLoop = true → s'.looping = true := by
  cases step_effect hstep with
  | loop => exact fun _ => rfl
  | advance => exact advance_looping h
  | handleRead =>
      have hpc : s.pc = .dispatch true := LoopThreadPc.canRead_iff.mp hlegal.2
      exact fun _ => h (by rw [hpc]; rfl)
  | push t f => exact h
  | frame _ _ hsame =>
      rw [hsame.pc, hsame.looping]
      exact h

/-- `loop()` is called outside of `loop()` only. -/
theorem not_inLoop_of_idle (h : s.pc.inLoop = true → s.looping = true)
    (hidle : s.looping = false) : s.pc.inLoop = false := by
  by_contra hin
  rw [h (by simpa using hin)] at hidle
  cases hidle

end LoopThread

end SecondGear
