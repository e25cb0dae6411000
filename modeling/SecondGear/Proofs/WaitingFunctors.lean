import SecondGear.Proofs.FunctorQueue
import SecondGear.Proofs.Wakeup

/-!
# `SecondGear.Proofs.WaitingFunctors`: what a loop still has to call

A functor waits from its push to its call. What it captured has to last as long, so the
models of `send` and `addTimer` ask of each step which functor it calls and which ones still
wait after it. `mem_unfinished_step` says it of every step, `waiting_step` as an equation, for
runs whose swaps an `int` counts. `mem_held_step` says when a functor object is destroyed: at
the end of its pass.
-/

set_option autoImplicit false

namespace SecondGear

open SecondGear.Lib

namespace LoopThread

variable {F : Type} {s s' : LoopThread F} {a : LoopThreadAction F} {f : F}

/-- The functors that were not called yet. -/
def waiting (s : LoopThread F) : List F := s.rest ++ s.pendingFunctors

/-- The functor that is called next waits. -/
theorem mem_waiting_of_next (h : s.next = some f) : f ∈ s.waiting := by
  unfold next at h
  split at h
  · rename_i fs i hpc
    split at h
    · rw [waiting, rest, hpc]
      have hi := (List.getElem?_eq_some_iff.mp h).1
      simp [List.drop_eq_getElem_cons hi, (List.getElem?_eq_some_iff.mp h).2]
    · cases h
  · cases h

/-- The functors that wait and the one that runs. -/
def unfinished (s : LoopThread F) : List F := s.running.toList ++ s.waiting

theorem mem_unfinished_of_running (h : s.running = some f) : f ∈ s.unfinished := by
  simp [unfinished, h]

/-- In the middle of a pass what is not finished is the batch from the index on. -/
theorem unfinished_eq (s : LoopThread F) :
    s.unfinished = (match s.pc with
      | .functors fs i | .functor fs i => fs.drop i
      | _ => []) ++ s.pendingFunctors := by
  unfold unfinished waiting rest running
  cases s.pc with
  | functor fs i =>
      dsimp only
      rw [← List.append_assoc]
      congr 1
      by_cases hi : i < fs.length
      · rw [List.drop_eq_getElem_cons hi, List.getElem?_eq_getElem hi]
        rfl
      · rw [List.getElem?_eq_none (by omega), List.drop_eq_nil_of_le (by omega),
          List.drop_eq_nil_of_le (by omega)]
        rfl
  | _ => rfl

/-- The step of the loop thread adds no functor to those that are not finished. -/
theorem mem_unfinished_advance (hf : f ∈ s.advance.unfinished) : f ∈ s.unfinished := by
  rw [unfinished_eq] at hf ⊢
  cases hpc : s.pc with
  | functors fs i =>
      have hadvance : (s.advance.pc = .functor fs i ∨ s.advance.pc = .clear fs) ∧
          s.advance.pendingFunctors = s.pendingFunctors := by
        rw [LoopThread.advance, hpc]
        dsimp only
        split
        · exact ⟨Or.inl rfl, rfl⟩
        · exact ⟨Or.inr rfl, rfl⟩
      rw [hadvance.2] at hf
      rcases hadvance.1 with hpc' | hpc'
      · rw [hpc'] at hf
        exact hf
      · -- The pass ends, whatever its index.
        rw [hpc'] at hf
        exact List.mem_append_right _ hf
  | functor fs i =>
      have hadvance : s.advance.pc = .functors fs (i + 1) ∧
          s.advance.pendingFunctors = s.pendingFunctors := by
        rw [LoopThread.advance, hpc]
        exact ⟨rfl, rfl⟩
      rw [hadvance.1, hadvance.2] at hf
      refine List.mem_append.mpr ((List.mem_append.mp hf).imp_left fun hdrop => ?_)
      dsimp only at hdrop
      -- one more of the batch is finished
      rw [← List.drop_drop] at hdrop
      exact List.mem_of_mem_drop hdrop
  | swap =>
      have hadvance : s.advance.pc = .functors s.pendingFunctors 0 ∧
          s.advance.pendingFunctors = [] := by
        rw [LoopThread.advance, hpc]
        exact ⟨rfl, rfl⟩
      rw [hadvance.1, hadvance.2] at hf
      simpa using hf
  | test =>
      have hadvance : (s.advance.pc = .poll ∨ s.advance.pc = .finished ∨
            s.advance.pc = .outside) ∧ s.advance.pendingFunctors = s.pendingFunctors := by
        rw [LoopThread.advance, hpc]
        cases s.quit <;> cases s.threadFunc <;> simp [setPc]
      rw [hadvance.2] at hf
      rcases hadvance.1 with hpc' | hpc' | hpc'
      all_goals
        rw [hpc'] at hf
        exact hf
  | _ =>
      rw [LoopThread.advance, hpc] at hf
      first
        | exact hf
        | (rw [hpc] at hf; exact hf)

/-- Every step: what is not finished after it was not finished before, or is pushed by it. -/
theorem mem_unfinished_step (hstep : s.step a = some s') (hf : f ∈ s'.unfinished) :
    f ∈ s.unfinished ∨ a.pushed = some f := by
  cases step_effect hstep with
  | loop | handleRead =>
      left
      rw [unfinished_eq] at hf ⊢
      exact List.mem_append_right _ hf
  | advance => exact Or.inl (mem_unfinished_advance hf)
  | push t g =>
      rw [unfinished_eq] at hf ⊢
      have hmem : f ∈ _ ++ (s.pendingFunctors ++ [g]) := hf
      rw [← List.append_assoc, List.mem_append, List.mem_singleton] at hmem
      exact hmem.imp_right fun heq => by rw [heq]; rfl
  | frame _ _ hsame =>
      rw [unfinished_eq, hsame.pc, hsame.pendingFunctors] at hf
      rw [unfinished_eq]
      exact Or.inl hf

/-! ### The end of a functor object -/

/-- A pushed functor exists. -/
theorem mem_held_queueInLoop {t : ThreadId} {g : F} (hstep : s.step (.queueInLoop t g) = some s') :
    s'.held = s.held ++ [g] := by
  cases hstep
  unfold held
  cases hpc : s.pc <;> simp [setCall, hpc]

/-- The vector of a pass is destroyed at its end, and no functor before. -/
theorem mem_held_advance (hf : f ∈ s.held) :
    f ∈ s.advance.held ∨ ∃ fs, s.pc = .clear fs ∧ f ∈ fs ∧ f ∉ s.pendingFunctors := by
  unfold held LoopThread.advance at *
  cases hpc : s.pc with
  | clear fs =>
      rw [hpc] at hf
      -- an equal functor may have been pushed again since the swap
      by_cases hpending : f ∈ s.pendingFunctors
      · exact Or.inl hpending
      · have hmem : f ∈ fs := (List.mem_append.mp hf).resolve_right hpending
        exact Or.inr ⟨fs, rfl, hmem, hpending⟩
  | functors fs i =>
      rw [hpc] at hf
      left
      by_cases hlt : (i : Int) < toInt32 fs.length
      · simpa only [hlt, if_true, setPc] using hf
      · simpa only [hlt, if_false, setPc] using hf
  | test =>
      rw [hpc] at hf
      left
      cases s.quit with
      | false => exact hf
      | true => cases s.threadFunc <;> exact hf
  | outside | finished =>
      left
      rw [hpc] at hf
      simpa [hpc] using hf
  | _ =>
      rw [hpc] at hf
      left
      simpa [setPc] using hf

/-- No other step destroys one. -/
theorem mem_held_step (hlooping : s.pc.inLoop = true → s.looping = true) (hlegal : s.Legal a)
    (hstep : s.step a = some s') (hf : f ∈ s.held) :
    f ∈ s'.held ∨ (a = .advance ∧ ∃ fs, s.pc = .clear fs ∧ f ∈ fs ∧ f ∉ s.pendingFunctors) := by
  cases step_effect hstep with
  | loop hidle =>
      -- Nobody calls `loop()` inside a pass.
      have hout := not_inLoop_of_idle hlooping hidle
      left
      unfold held at hf
      cases hpc : s.pc <;> simp [hpc, LoopThreadPc.inLoop] at hout hf <;> exact hf
  | advance => exact (mem_held_advance hf).imp_right fun hend => ⟨rfl, hend⟩
  | handleRead =>
      have hpc : s.pc = .dispatch true := LoopThreadPc.canRead_iff.mp hlegal.2
      rw [held, hpc] at hf
      exact Or.inl hf
  | push t g =>
      left
      rw [mem_held_queueInLoop hstep]
      exact List.mem_append_left _ hf
  | frame _ _ hsame =>
      left
      rw [held, hsame.pc, hsame.pendingFunctors]
      exact hf

/-- What is not finished exists. -/
theorem mem_held_of_mem_unfinished (hf : f ∈ s.unfinished) : f ∈ s.held := by
  rw [unfinished_eq] at hf
  unfold held
  cases hpc : s.pc <;> simp only [hpc, List.nil_append, List.mem_append] at hf ⊢
  all_goals
    first
      | exact hf
      | exact hf.imp_left List.mem_of_mem_drop
      | exact Or.inr hf

/-! ### The order of the calls -/

/-- The histories of the step of the loop thread: the functor that it calls. -/
theorem histories_advance (s : LoopThread F) :
    s.advance.executed.map Prod.snd = s.executed.map Prod.snd ++ s.next.toList ∧
      s.advance.pushed = s.pushed := by
  unfold next LoopThread.advance
  cases hpc : s.pc with
  | functors fs i =>
      dsimp only
      split
      · cases fs[i]? <;> simp [setPc]
      · simp [setPc]
  | test =>
      dsimp only
      split <;> simp [setPc]
  | _ => simp [setPc]

/-- The histories of a step: the functor that it calls and the one that it pushes. -/
theorem histories_step (hstep : s.step a = some s') :
    s'.executed.map Prod.snd = s.executed.map Prod.snd ++ (s.calledBy a).toList ∧
      s'.pushed = s.pushed ++ a.pushed.toList := by
  cases step_effect hstep with
  | advance =>
      obtain ⟨hexecuted, hpushed⟩ := histories_advance s
      exact ⟨hexecuted, by rw [hpushed]; exact (List.append_nil _).symm⟩
  | push t g => simp [calledBy, LoopThreadAction.pushed, setCall]
  | loop | handleRead => simp [calledBy, LoopThreadAction.pushed, setPc]
  | frame ha hpushed hsame =>
      have hcalled : s.calledBy a = none := by
        cases a with
        | advance => exact absurd rfl ha
        | _ => rfl
      rw [hsame.executed, hsame.pushed, hcalled, hpushed]
      simp

/-- The functor that a step calls was the first to wait, the one that it pushes is the last. -/
theorem waiting_step (h : s.QueueInv) (hlegal : s.Legal a) (hsmall : s.SmallSwap a)
    (hstep : s.step a = some s') :
    (s.calledBy a).toList ++ s'.waiting = s.waiting ++ a.pushed.toList := by
  have horder := h.order
  have horder' := (h.step hlegal hsmall hstep).order
  obtain ⟨hexecuted, hpushed⟩ := histories_step hstep
  -- Executed and waiting functors are the pushed ones before and after the step.
  rw [List.append_assoc, ← waiting] at horder horder'
  rw [hexecuted, hpushed, ← horder, List.append_assoc, List.append_assoc,
    List.append_cancel_left_eq] at horder'
  exact horder'

end LoopThread

end SecondGear
