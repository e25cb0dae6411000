import SecondGear.Lib.Int32
import SecondGear.Proofs.LoopThreadSteps

/-!
# `SecondGear.Proofs.FunctorQueue`: each functor once, in order, one generation a pass

What was executed, what is left of the batch in hand and what is pending are the functors
pushed so far, in the order of the mutex. `QueueInv` has this equation and what a pass of
`doPendingFunctors` has executed since its swap. `QueueInv.advance` goes through the places
of the loop thread, `QueueInv.step` through the steps of all threads.

`doPendingFunctors` casts the size of its batch to `int`. So `functors_once_in_order` is
about the runs whose swaps take fewer than `2 ^ 31` functors (`SmallSwap`), and
`not_functors_once_in_order` loses a larger batch.
-/

set_option autoImplicit false

namespace SecondGear

open SecondGear.Lib

namespace LoopThread

variable {F : Type} {s s' : LoopThread F} {a : LoopThreadAction F}

/-- The part of the batch in hand that was not executed yet. -/
def rest (s : LoopThread F) : List F :=
  match s.pc with
  | .functors fs i => fs.drop i
  | .functor fs i => fs.drop (i + 1)
  | _ => []

/-- What was executed since the last swap. -/
def ran (s : LoopThread F) : List F := (s.executed.drop s.executedAtSwap).map Prod.snd

/-- How many steps of its thread a pass still takes. -/
def passSteps (s : LoopThread F) : Nat :=
  match s.pc with
  | .functors fs i => 2 * (fs.length - i) + 1
  | .functor fs i => 2 * (fs.length - i)
  | _ => 0

/-- A swap takes no more functors than an `int` counts. -/
def SmallSwap (s : LoopThread F) (a : LoopThreadAction F) : Prop :=
  a = .advance → s.pc.atSwap = true → s.pendingFunctors.length < 2 ^ 31

instance (s : LoopThread F) : (a : LoopThreadAction F) → Decidable (s.SmallSwap a)
  | .advance => decidable_of_iff (s.pc.atSwap = true → s.pendingFunctors.length < 2 ^ 31)
      ⟨fun h _ => h, fun h => h rfl⟩
  | .loop _ | .handleRead | .queueInLoop _ _ | .quit _ | .finish _ | .startLoop =>
      isTrue (fun h => by cases h)

/-- A pass has executed its batch up to the index. -/
def PassOk (s : LoopThread F) : Prop :=
  match s.pc with
  | .functors fs i => i ≤ fs.length ∧ fs.length < 2 ^ 31 ∧ s.ran = fs.take i
  | .functor fs i => i < fs.length ∧ fs.length < 2 ^ 31 ∧ s.ran = fs.take (i + 1)
  | .clear fs => s.ran = fs
  | _ => True

/-- What runs with small swaps keep. -/
structure QueueInv (s : LoopThread F) : Prop where
  order : s.executed.map Prod.snd ++ s.rest ++ s.pendingFunctors = s.pushed
  runner : s.runner = .loop
  thread : ∀ x ∈ s.executed, x.1 = .loop
  atSwap : s.executedAtSwap ≤ s.executed.length
  pass : s.PassOk
  passes : ∀ pass ∈ s.passes, pass.2 = pass.1
  looping : s.pc.inLoop = true → s.looping = true

/-- Below `2 ^ 31` the cast keeps the value. -/
theorem toInt32_eq {n : Nat} (h : n < 2 ^ 31) : toInt32 n = n :=
  bmod_natCast_eq h

/-- The loop of `doPendingFunctors` goes on as long as the index is in range. -/
theorem lt_toInt32_iff {n i : Nat} (h : n < 2 ^ 31) : (i : Int) < toInt32 n ↔ i < n := by
  rw [toInt32_eq h]
  omega

/-! ### The loop thread -/

/-- One more functor. -/
theorem ran_append (h : s.executedAtSwap ≤ s.executed.length) (x : ThreadId × F)
    (hexecuted : s'.executed = s.executed ++ [x]) (hswap : s'.executedAtSwap = s.executedAtSwap) :
    s'.ran = s.ran ++ [x.2] := by
  rw [ran, ran, hexecuted, hswap, List.drop_append_of_le_length h, List.map_append]
  rfl

/-- The next functor moves from the batch to the executed ones. -/
theorem QueueInv.call (h : s.QueueInv) {fs : List F} {i : Nat} (hpc : s.pc = .functors fs i)
    (hi : i < fs.length) :
    QueueInv { s.setPc (.functor fs i) with
      executed := s.executed ++ fs[i]?.toList.map fun f => (s.runner, f) } := by
  obtain ⟨horder, hrunner, hthread, hswap, hpass, hpasses, hlooping⟩ := h
  simp only [PassOk, hpc] at hpass
  obtain ⟨-, hlt, hran⟩ := hpass
  have hrest : s.rest = fs.drop i := by simp [rest, hpc]
  have hget : fs[i]?.toList.map (fun f => (s.runner, f)) = [(s.runner, fs[i])] := by
    rw [List.getElem?_eq_getElem hi]
    rfl
  rw [hget]
  refine ⟨?_, hrunner, ?_, ?_, ⟨hi, hlt, ?_⟩, hpasses, fun _ => hlooping (by rw [hpc]; rfl)⟩
  · rw [hrest, List.drop_eq_getElem_cons hi] at horder
    show (s.executed ++ [(s.runner, fs[i])]).map Prod.snd ++ fs.drop (i + 1) ++
      s.pendingFunctors = s.pushed
    rw [← horder]
    simp
  · intro x hx
    rcases List.mem_append.mp hx with hold | hnew
    · exact hthread x hold
    · rw [List.mem_singleton.mp hnew, hrunner]
  · exact hswap.trans (by simp [List.length_append])
  · let t : LoopThread F := { s.setPc (.functor fs i) with
      executed := s.executed ++ [(s.runner, fs[i])] }
    have hexecuted : t.executed = s.executed ++ [(s.runner, fs[i])] := rfl
    have hone : t.ran = s.ran ++ [fs[i]] := ran_append hswap _ hexecuted rfl
    show t.ran = _
    rw [hone, hran]
    exact List.take_append_getElem hi

/-- Outside of a pass the thread of the loop only moves on. -/
theorem QueueInv.of_move (h : s.QueueInv) (hrest : s.rest = []) (hrest' : s'.rest = [])
    (hpass : s'.PassOk) (hlooping : s'.pc.inLoop = true → s'.looping = true)
    (hsame : s'.executed = s.executed ∧ s'.pendingFunctors = s.pendingFunctors ∧
      s'.pushed = s.pushed ∧ s'.runner = s.runner ∧ s'.executedAtSwap = s.executedAtSwap ∧
      s'.passes = s.passes) : s'.QueueInv := by
  obtain ⟨hexecuted, hpending, hpushed, hrunner, hswap, hpasses⟩ := hsame
  refine ⟨?_, ?_, ?_, ?_, hpass, ?_, hlooping⟩
  · rw [hexecuted, hrest', hpending, hpushed, ← h.order, hrest]
  · rw [hrunner]
    exact h.runner
  · rw [hexecuted]
    exact h.thread
  · rw [hswap, hexecuted]
    exact h.atSwap
  · rw [hpasses]
    exact h.passes

/-- The next step of the loop thread. -/
theorem QueueInv.advance (h : s.QueueInv)
    (hsmall : s.SmallSwap .advance) : s.advance.QueueInv := by
  -- Outside a batch a step moves the position alone.
  have move : ∀ pc, s.rest = [] → (s.setPc pc).rest = [] → (s.setPc pc).PassOk →
      (pc.inLoop = true → s.looping = true) → (s.setPc pc).QueueInv :=
    fun pc hrest hrest' hpass hlooping =>
      h.of_move hrest hrest' hpass hlooping ⟨rfl, rfl, rfl, rfl, rfl, rfl⟩
  have horder := h.order
  have hpass := h.pass
  unfold LoopThread.advance
  cases hpc : s.pc with
  | construct =>
      exact move .publish (by simp [rest, hpc]) rfl trivial (by simp [LoopThreadPc.inLoop])
  | publish =>
      exact h.of_move (by simp [rest, hpc]) rfl trivial (by simp [setPc, LoopThreadPc.inLoop])
        ⟨rfl, rfl, rfl, rfl, rfl, rfl⟩
  | outside | finished => exact h
  | reset =>
      exact h.of_move (by simp [rest, hpc]) rfl trivial (fun _ => h.looping (by rw [hpc]; rfl))
        ⟨rfl, rfl, rfl, rfl, rfl, rfl⟩
  | test =>
      dsimp only
      split
      · exact move .poll (by simp [rest, hpc]) rfl trivial fun _ => h.looping (by rw [hpc]; rfl)
      · refine h.of_move (by simp [rest, hpc]) ?_ ?_ ?_ ⟨rfl, rfl, rfl, rfl, rfl, rfl⟩
        all_goals cases s.threadFunc <;> simp [rest, PassOk, setPc, LoopThreadPc.inLoop]
  | poll | dispatch wakeup =>
      exact move _ (by simp [rest, hpc]) rfl trivial fun _ => h.looping (by rw [hpc]; rfl)
  | doPendingFunctors =>
      exact h.of_move (by simp [rest, hpc]) rfl trivial (fun _ => h.looping (by rw [hpc]; rfl))
        ⟨rfl, rfl, rfl, rfl, rfl, rfl⟩
  | swap =>
      -- The pending functors become the batch.
      have hrest : s.rest = [] := by simp [rest, hpc]
      have hlt : s.pendingFunctors.length < 2 ^ 31 := hsmall rfl (by rw [hpc]; rfl)
      refine ⟨?_, h.runner, h.thread, le_refl _, ⟨Nat.zero_le _, hlt, ?_⟩, h.passes,
        fun _ => h.looping (by rw [hpc]; rfl)⟩
      · rw [hrest, List.append_nil] at horder
        show s.executed.map Prod.snd ++ s.pendingFunctors.drop 0 ++ [] = s.pushed
        rw [List.append_nil, List.drop_zero, horder]
      · simp [ran, setPc]
  | functors fs i =>
      simp only [PassOk, hpc] at hpass
      obtain ⟨hi, hlt, hran⟩ := hpass
      have hrest : s.rest = fs.drop i := by simp [rest, hpc]
      dsimp only
      split
      · rename_i hnext
        exact h.call hpc ((lt_toInt32_iff hlt).mp hnext)
      · -- The index is at the end: the batch was executed.
        rename_i hend
        have hlast : i = fs.length := by
          have hge := (lt_toInt32_iff hlt).not.mp hend
          omega
        subst hlast
        refine ⟨?_, h.runner, h.thread, h.atSwap, ?_, h.passes,
          fun _ => h.looping (by rw [hpc]; rfl)⟩
        · rw [hrest, List.drop_length] at horder
          exact horder
        · show s.ran = fs
          rw [hran, List.take_length]
  | functor fs i =>
      simp only [PassOk, hpc] at hpass
      have hrest : s.rest = fs.drop (i + 1) := by simp [rest, hpc]
      refine ⟨?_, h.runner, h.thread, h.atSwap, hpass, h.passes,
        fun _ => h.looping (by rw [hpc]; rfl)⟩
      rw [hrest] at horder
      exact horder
  | clear fs =>
      simp only [PassOk, hpc] at hpass
      have hrest : s.rest = [] := by simp [rest, hpc]
      refine ⟨?_, h.runner, h.thread, h.atSwap, trivial, ?_,
        fun _ => h.looping (by rw [hpc]; rfl)⟩
      · rw [hrest] at horder
        exact horder
      · intro pass hmem
        rcases List.mem_append.mp hmem with hold | hnew
        · exact h.passes pass hold
        · rw [List.mem_singleton.mp hnew]
          exact hpass

/-! ### All threads -/

/-- A step that moves neither the thread of the loop nor the queue. -/
theorem QueueInv.of_same (h : s.QueueInv) (hsame : SameQueue s s') : s'.QueueInv := by
  have hran : s'.ran = s.ran := by rw [ran, ran, hsame.executed, hsame.executedAtSwap]
  refine ⟨?_, ?_, ?_, ?_, ?_, ?_, ?_⟩
  · rw [hsame.executed, rest, hsame.pc, hsame.pendingFunctors, hsame.pushed]
    exact h.order
  · rw [hsame.runner]
    exact h.runner
  · rw [hsame.executed]
    exact h.thread
  · rw [hsame.executedAtSwap, hsame.executed]
    exact h.atSwap
  · rw [PassOk, hsame.pc, hran]
    exact h.pass
  · rw [hsame.passes]
    exact h.passes
  · rw [hsame.pc, hsame.looping]
    exact h.looping

/-- Every step. -/
theorem QueueInv.step (h : s.QueueInv) (hlegal : s.Legal a) (hsmall : s.SmallSwap a)
    (hstep : s.step a = some s') : s'.QueueInv := by
  have horder := h.order
  have hlooping := looping_step h.looping hlegal hstep
  cases step_effect hstep with
  | loop hidle =>
      have hout := not_inLoop_of_idle h.looping hidle
      have hrest : s.rest = [] := by
        cases hpc : s.pc <;> simp [hpc, LoopThreadPc.inLoop] at hout <;> simp [rest, hpc]
      refine ⟨?_, rfl, h.thread, h.atSwap, trivial, h.passes, hlooping⟩
      rw [hrest] at horder
      exact horder
  | advance => exact h.advance hsmall
  | handleRead =>
      have hpc : s.pc = .dispatch true := LoopThreadPc.canRead_iff.mp hlegal.2
      refine ⟨?_, h.runner, h.thread, h.atSwap, trivial, h.passes, hlooping⟩
      rw [rest, hpc] at horder
      exact horder
  | push t f =>
      refine ⟨?_, h.runner, h.thread, h.atSwap, h.pass, h.passes, hlooping⟩
      show s.executed.map Prod.snd ++ s.rest ++ (s.pendingFunctors ++ [f]) = s.pushed ++ [f]
      rw [← horder]
      simp only [List.append_assoc]
  | frame _ _ hsame => exact h.of_same hsame

theorem Unused.queueInv (h : s.Unused) : s.QueueInv := by
  rcases h with rfl | rfl
  all_goals
    refine ⟨rfl, rfl, ?_, le_refl _, trivial, ?_, ?_⟩
    · simp [start, new]
    · simp [start, new]
    · simp [start, new, LoopThreadPc.inLoop]

/-- A step of the loop thread brings the end of its pass closer. -/
theorem QueueInv.passSteps_advance (h : s.QueueInv) (hpass : 0 < s.passSteps) :
    s.advance.passSteps + 1 = s.passSteps := by
  have hinv := h.pass
  unfold LoopThread.advance
  cases hpc : s.pc with
  | functors fs i =>
      simp only [PassOk, hpc] at hinv
      dsimp only
      split
      · rename_i hnext
        have hi := (lt_toInt32_iff hinv.2.1).mp hnext
        simp [passSteps, setPc, hpc]
      · rename_i hend
        have hi := (lt_toInt32_iff hinv.2.1).not.mp hend
        simp [passSteps, setPc, hpc]
        omega
  | functor fs i =>
      simp only [PassOk, hpc] at hinv
      simp [passSteps, setPc, hpc]
      omega
  | _ => simp [passSteps, hpc] at hpass

/-- No other step puts it off. -/
theorem QueueInv.passSteps_step (h : s.QueueInv) (hlegal : s.Legal a)
    (hstep : s.step a = some s') (hpass : 0 < s.passSteps) :
    (a = .advance → s'.passSteps + 1 = s.passSteps) ∧
      (a ≠ .advance → s'.passSteps = s.passSteps) := by
  cases step_effect hstep with
  | loop hidle =>
      -- Nobody calls `loop()` inside a pass.
      have hout := not_inLoop_of_idle h.looping hidle
      cases hpc : s.pc <;> simp [passSteps, hpc] at hpass <;>
        simp [hpc, LoopThreadPc.inLoop] at hout
  | advance => exact ⟨fun _ => h.passSteps_advance hpass, fun hne => absurd rfl hne⟩
  | handleRead =>
      have hpc : s.pc = .dispatch true := LoopThreadPc.canRead_iff.mp hlegal.2
      simp [passSteps, hpc] at hpass
  | push t f => exact ⟨(fun heq => by cases heq), fun _ => rfl⟩
  | frame ha _ hsame =>
      exact ⟨fun heq => absurd heq ha, fun _ => by rw [passSteps, passSteps, hsame.pc]⟩

/-- Each functor once, in order, one generation a pass. In every run of a loop, with pushes
from any threads at any time, whose swaps take fewer than `2 ^ 31` functors:

- what was executed, the rest of the batch and what is pending are the functors pushed so
  far, in the order of the mutex;
- each functor ran in the thread of the loop;
- each finished pass has executed what its swap took, no more and no less;
- a pass ends: each step of its thread brings it closer to its end and no other step,
  pushes included, puts the end off. -/
theorem functors_once_in_order (s₀ : LoopThread F) (hstart : s₀.Unused)
    (as : List (LoopThreadAction F)) (s : LoopThread F)
    (hrun : (loopThreadMachine F).Run s₀ as s)
    (hsmall : (loopThreadMachine F).EveryStep s₀ as SmallSwap) :
    s.executed.map Prod.snd ++ s.rest ++ s.pendingFunctors = s.pushed ∧
    (∀ x ∈ s.executed, x.1 = .loop) ∧
    (∀ pass ∈ s.passes, pass.2 = pass.1) ∧
    (∀ a s', s.Legal a → s.step a = some s' → 0 < s.passSteps →
      (a = .advance → s'.passSteps + 1 = s.passSteps) ∧
        (a ≠ .advance → s'.passSteps = s.passSteps)) := by
  have hinv : s.QueueInv := by
    refine (Machine.run_restrict.mpr ⟨hrun, hsmall⟩).invariant hstart.queueInv ?_
    intro s a s' h hlegal hstep
    exact h.step hlegal.1 hlegal.2 hstep
  exact ⟨hinv.order, hinv.thread, hinv.passes,
    fun a s' hlegal hstep hpass => hinv.passSteps_step hlegal hstep hpass⟩

/-- A step queues at most one functor. -/
theorem pendingFunctors_step (hstep : s.step a = some s') :
    s'.pendingFunctors.length ≤ s.pendingFunctors.length + 1 := by
  cases step_effect hstep with
  | advance =>
      unfold LoopThread.advance
      cases hpc : s.pc with
      | swap => exact Nat.zero_le _
      | test | functors fs i =>
          dsimp only
          split <;> exact Nat.le_succ _
      | _ => exact Nat.le_succ _
  | loop | handleRead => exact Nat.le_succ _
  | push t f => simp
  | frame _ _ hsame =>
      rw [hsame.pendingFunctors]
      exact Nat.le_succ _

/-- A run that is shorter than `2 ^ 31` steps has small swaps. -/
theorem smallSwap_of_length (s₀ : LoopThread F) (hstart : s₀.Unused)
    (as : List (LoopThreadAction F)) (hlen : as.length < 2 ^ 31) :
    (loopThreadMachine F).EveryStep s₀ as SmallSwap := by
  have hpending : ∀ pre s, (loopThreadMachine F).Run s₀ pre s →
      s.pendingFunctors.length ≤ pre.length := by
    intro pre s hrun
    induction hrun with
    | start => rcases hstart with rfl | rfl <;> exact le_refl _
    | next _ _ hstep ih =>
        have hone := pendingFunctors_step hstep
        rw [List.length_append, List.length_singleton]
        omega
  intro pre a s hpre hrun _ _
  have hlen' := hpre.length_le
  have hle := hpending pre s hrun
  rw [List.length_append, List.length_singleton] at hlen'
  omega

/-- The theorem at a run with a functor that queues another one. -/
theorem functors_once_in_order_reentrant :
    ∃ s, (loopThreadMachine Nat).Run new
        [.queueInLoop (.other 0) 7, .finish (.other 0), .loop .loop, .advance, .advance, .advance,
          .handleRead, .advance, .advance, .advance, .advance, .queueInLoop .loop 8,
          .finish .loop, .advance, .advance, .advance] s ∧
      s.executed.map Prod.snd = [7] ∧ s.pendingFunctors = [8] ∧ s.pushed = [7, 8] := by
  obtain ⟨s, hrun, hexecuted, hpending, hpc⟩ := Machine.exists_run (M := loopThreadMachine Nat)
    (P := fun s => s.executed.map Prod.snd = [7] ∧ s.pendingFunctors = [8] ∧ s.rest = []) new
    [.queueInLoop (.other 0) 7, .finish (.other 0), .loop .loop, .advance, .advance, .advance,
      .handleRead, .advance, .advance, .advance, .advance, .queueInLoop .loop 8,
      .finish .loop, .advance, .advance, .advance] (by decide +kernel)
  have horder := (functors_once_in_order new (Or.inl rfl) _ s hrun
    (smallSwap_of_length new (Or.inl rfl) _ (by decide))).1
  rw [hexecuted, hpending, hpc] at horder
  exact ⟨s, hrun, hexecuted, hpending, horder.symm⟩

/-! ### A batch that an `int` does not count -/

/-- A loop whose thread is at a place, with no functor executed and `n` pending. -/
structure Filled (n : Nat) (pos : LoopThreadPc Unit) (s : LoopThread Unit) : Prop where
  pc : s.pc = pos
  idle : ∀ t, s.calls t = none
  known : s.known = true
  looping : s.looping = pos.inLoop
  quit : s.quit = false
  executed : s.executed = []
  pending : s.pendingFunctors.length = n
  pushed : s.pushed.length = n

/-- A thread is between its push and its wakeup. -/
def Pushing (n : Nat) (s : LoopThread Unit) : Prop :=
  ∃ t, Filled n .outside t ∧ s = t.setCall (.other 0) (some .queueInLoop)

/-- One more push. -/
theorem leads_push (n : Nat) :
    (loopThreadMachine Unit).Leads (Filled n .outside) (Filled (n + 1) .outside) := by
  have hpush : (loopThreadMachine Unit).Leads (Filled n .outside) (Pushing (n + 1)) := by
    refine Machine.Leads.of_step fun s h => ⟨.queueInLoop (.other 0) (), _, ?_, rfl, ?_⟩
    · refine ⟨h.idle _, ?_⟩
      rw [if_neg (by simp)]
      exact ⟨h.known, by rw [h.pc]; rfl⟩
    · refine ⟨{ s with pendingFunctors := s.pendingFunctors ++ [()], pushed := s.pushed ++ [()] },
        ⟨h.pc, h.idle, h.known, h.looping, h.quit, h.executed, ?_, ?_⟩, rfl⟩
      · simp [h.pending]
      · simp [h.pushed]
  refine hpush.trans (Machine.Leads.of_step ?_)
  rintro s ⟨t, h, rfl⟩
  have hcall : (t.setCall (.other 0) (some .queueInLoop)).calls (.other 0)
      = some .queueInLoop := by simp [setCall]
  have hstep : (t.setCall (.other 0) (some .queueInLoop)).step (.finish (.other 0))
      = some ((t.setCall (.other 0) (some .queueInLoop)).finishQueueInLoop (.other 0)) := by
    rw [LoopThread.step, hcall]
  refine ⟨.finish (.other 0), _, ?_, hstep, ?_⟩
  · show _ ≠ none
    rw [hcall]
    simp
  · rw [finishQueueInLoop, if_pos (Or.inl (by simp))]
    refine ⟨h.pc, fun u => ?_, h.known, h.looping, h.quit, h.executed, h.pending, h.pushed⟩
    by_cases hu : u = .other 0
    · simp [setCall, hu]
    · simpa [setCall, wakeup, hu] using h.idle u

/-- A loop that has swapped such a batch out. -/
structure Swapped (pos : LoopThreadPc Unit → Prop) (s : LoopThread Unit) : Prop where
  pc : pos s.pc
  idle : s.calls .loop = none
  executed : s.executed = []
  pending : s.pendingFunctors = []
  pushed : s.pushed ≠ []

/-- The cast of `2 ^ 31` is negative: no index is below it. -/
theorem not_lt_toInt32 {n : Nat} (h : n = 2 ^ 31) : ¬ ((0 : Nat) : Int) < toInt32 n := by
  subst h
  decide +kernel

/-- A batch that an `int` does not count is swapped out and dropped. -/
theorem leads_lost :
    (loopThreadMachine Unit).Leads (Filled (2 ^ 31) .outside)
      (Swapped fun pos => ∃ fs, pos = .clear fs) := by
  have move : ∀ (pos pos' : LoopThreadPc Unit), pos.canAdvance = true →
      (∀ s, Filled (2 ^ 31) pos s → Filled (2 ^ 31) pos' s.advance) →
      (loopThreadMachine Unit).Leads (Filled (2 ^ 31) pos) (Filled (2 ^ 31) pos') :=
    fun pos pos' hcan hnext => Machine.Leads.of_step fun s h =>
      ⟨.advance, _, ⟨h.idle _, by rw [h.pc]; exact hcan⟩, rfl, hnext s h⟩
  -- the thread enters `loop()`, past the reset of `quit_`
  have hloop : (loopThreadMachine Unit).Leads (Filled (2 ^ 31) .outside)
      (Filled (2 ^ 31) .reset) := by
    refine Machine.Leads.of_step fun s h =>
      ⟨.loop .loop, { s.setPc .reset with looping := true, runner := .loop }, ?_, ?_, ?_⟩
    · exact Or.inr ⟨rfl, by rw [h.pc]; rfl⟩
    · show LoopThread.step s (.loop .loop) = _
      rw [LoopThread.step, assert_bind_pos (by rw [h.looping]; rfl), assert_bind_pos rfl]
      rfl
    · exact ⟨rfl, h.idle, h.known, rfl, h.quit, h.executed, h.pending, h.pushed⟩
  have htest : (loopThreadMachine Unit).Leads (Filled (2 ^ 31) .reset) (Filled (2 ^ 31) .test) :=
    move _ _ rfl fun s h => by
      rw [LoopThread.advance, h.pc]
      exact ⟨rfl, h.idle, h.known, h.looping, rfl, h.executed, h.pending, h.pushed⟩
  -- `quit_` is false, so it polls, and the eventfd is read at most once
  have hpoll : (loopThreadMachine Unit).Leads (Filled (2 ^ 31) .test) (Filled (2 ^ 31) .poll) :=
    move _ _ rfl fun s h => by
      rw [LoopThread.advance, h.pc, h.quit]
      exact ⟨rfl, h.idle, h.known, h.looping, h.quit, h.executed, h.pending, h.pushed⟩
  have hdispatch : (loopThreadMachine Unit).Leads (Filled (2 ^ 31) .poll)
      (fun s => ∃ wakeup, Filled (2 ^ 31) (.dispatch wakeup) s) :=
    Machine.Leads.of_step fun s h =>
      ⟨.advance, _, ⟨h.idle _, by rw [h.pc]; rfl⟩, rfl, decide (0 < s.eventfd), by
        rw [LoopThread.advance, h.pc]
        exact ⟨rfl, h.idle, h.known, h.looping, h.quit, h.executed, h.pending, h.pushed⟩⟩
  have hread : (loopThreadMachine Unit).Leads
      (fun s => ∃ wakeup, Filled (2 ^ 31) (.dispatch wakeup) s)
      (Filled (2 ^ 31) (.dispatch false)) := by
    rintro s ⟨wakeup, h⟩
    cases wakeup with
    | false => exact ⟨[], s, .start, h⟩
    | true =>
        exact ⟨[.handleRead], _, .single ⟨h.idle _, by rw [h.pc]; rfl⟩ rfl, rfl, h.idle, h.known,
          h.looping, h.quit, h.executed, h.pending, h.pushed⟩
  have hdo : (loopThreadMachine Unit).Leads (Filled (2 ^ 31) (.dispatch false))
      (Filled (2 ^ 31) .doPendingFunctors) :=
    move _ _ rfl fun s h => by
      rw [LoopThread.advance, h.pc]
      exact ⟨rfl, h.idle, h.known, h.looping, h.quit, h.executed, h.pending, h.pushed⟩
  have hswap : (loopThreadMachine Unit).Leads (Filled (2 ^ 31) .doPendingFunctors)
      (Filled (2 ^ 31) .swap) :=
    move _ _ rfl fun s h => by
      rw [LoopThread.advance, h.pc]
      exact ⟨rfl, h.idle, h.known, h.looping, h.quit, h.executed, h.pending, h.pushed⟩
  -- the swap takes all functors into the batch
  have htaken : (loopThreadMachine Unit).Leads (Filled (2 ^ 31) .swap)
      (Swapped fun pos => ∃ fs, pos = .functors fs 0 ∧ fs.length = 2 ^ 31) :=
    Machine.Leads.of_step fun s h =>
      ⟨.advance, _, ⟨h.idle _, by rw [h.pc]; rfl⟩, rfl, by
        rw [LoopThread.advance, h.pc]
        have hpushed : s.pushed ≠ [] := List.ne_nil_of_length_pos (by rw [h.pushed]; omega)
        exact ⟨⟨s.pendingFunctors, rfl, h.pending⟩, h.idle _, h.executed, rfl, hpushed⟩⟩
  -- their number is negative as an `int`, so the loop over the batch ends at once
  have hdropped : (loopThreadMachine Unit).Leads
      (Swapped fun pos => ∃ fs, pos = .functors fs 0 ∧ fs.length = 2 ^ 31)
      (Swapped fun pos => ∃ fs, pos = .clear fs) := by
    refine Machine.Leads.of_step fun s h => ?_
    obtain ⟨fs, hpc, hlen⟩ := h.pc
    refine ⟨.advance, _, ⟨h.idle, by rw [hpc]; rfl⟩, rfl, ?_⟩
    rw [LoopThread.advance, hpc]
    dsimp only
    rw [if_neg (not_lt_toInt32 hlen)]
    exact ⟨⟨fs, rfl⟩, h.idle, h.executed, h.pending, h.pushed⟩
  exact hloop.trans <| htest.trans <| hpoll.trans <| hdispatch.trans <| hread.trans <|
    hdo.trans <| hswap.trans <| htaken.trans hdropped

/-- `2 ^ 31` functors that wait together are lost. -/
theorem not_functors_once_in_order :
    ¬ ∀ (s₀ : LoopThread Unit), s₀.Unused → ∀ as s, (loopThreadMachine Unit).Run s₀ as s →
      s.executed.map Prod.snd ++ s.rest ++ s.pendingFunctors = s.pushed := by
  intro hall
  have hfill : (loopThreadMachine Unit).Leads (Filled 0 .outside) (Filled (2 ^ 31) .outside) :=
    Machine.Leads.iterate (P := fun n => Filled n .outside) (2 ^ 31) fun n _ => leads_push n
  obtain ⟨as, s, hrun, h⟩ := (hfill.trans leads_lost) new
    ⟨rfl, fun _ => rfl, rfl, rfl, rfl, rfl, rfl, rfl⟩
  have horder := hall new (Or.inl rfl) as s hrun
  obtain ⟨fs, hpc⟩ := h.pc
  have hrest : s.rest = [] := by simp [rest, hpc]
  rw [h.executed, hrest, h.pending] at horder
  exact h.pushed horder.symm

end LoopThread

end SecondGear
