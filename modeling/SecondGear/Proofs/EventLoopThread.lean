import SecondGear.Lib.Int32
import SecondGear.Model.EventLoopThread
import SecondGear.Proofs.LoopThreadSteps

/-!
# `SecondGear.Proofs.EventLoopThread`: whether the owner finds the loop

The loop lives on the stack of `threadFunc`, from before `loop_` is set until `loop()` has seen
`quit_`. So the owner finds it (`FindsLoop`) as long as it has waited for `loop_`, nobody has
called `quit` before the destructor does (`Orderly`), and `loop()` does not return while the
destructor is still inside `quit` (`ReturnsLate`). Nothing in `~EventLoopThread` sees to any of
this.

* `owner_finds_loop`: in runs whose steps are all like this the owner dereferences `loop_` on a
  live loop only, and joins a thread that is started and not joined.
* `quit_in_callback_leads`: a callback that calls `quit` can always leave the destructor with a
  loop that is gone.
* `not_owner_finds_loop`: a run with such a callback.
-/

set_option autoImplicit false

namespace SecondGear

open SecondGear.Lib

/-! ### The thread of the loop -/

namespace LoopThreadPc

variable {F : Type}

/-- `while(!quit_)` comes next. -/
def atTest : LoopThreadPc F → Bool
  | .test => true
  | _ => false

/-- Handlers and functors come after `quit_ = false`. -/
theorem entered_of_inCallback {pc : LoopThreadPc F} (h : pc.inCallback = true) :
    pc.entered = true := by
  cases pc <;> simp [inCallback, entered] at h ⊢

end LoopThreadPc

namespace LoopThread

variable {F : Type} {s s' : LoopThread F} {a : LoopThreadAction F}

/-- The loop that `loop_` points to is constructed. -/
def PublishedAlive (s : LoopThread F) : Prop :=
  s.published = true → s.pc.hasLoop = true

/-- The end of a call touches neither `quit_` nor `loop_`. -/
theorem finish_keeps {t : ThreadId} (hstep : s.step (.finish t) = some s') :
    s'.quit = s.quit ∧ s'.published = s.published ∧ s'.threadFunc = s.threadFunc := by
  rw [step] at hstep
  split at hstep
  · cases hstep
    exact ⟨rfl, rfl, rfl⟩
  · cases hstep
    unfold finishQueueInLoop
    split <;> exact ⟨rfl, rfl, rfl⟩
  · cases hstep
    unfold finishQuit
    split <;> exact ⟨rfl, rfl, rfl⟩

/-- What every step keeps of the flags: `loop_` is never set back, and `quit_` stays down. -/
structure FlagsKept (s s' : LoopThread F) : Prop where
  threadFunc : s'.threadFunc = s.threadFunc
  published : s.published = true → s'.published = true
  quit : s.quit = false → s'.quit = false

/-- The thread of the loop sets `loop_`, and sets `quit_` down. -/
theorem advance_flagsKept (s : LoopThread F) : FlagsKept s s.advance := by
  unfold advance
  cases s.pc with
  | test | functors fs i =>
      dsimp only
      split <;> exact ⟨rfl, id, id⟩
  | publish => exact ⟨rfl, fun _ => rfl, id⟩
  -- `loop` itself only sets it down
  | reset => exact ⟨rfl, id, fun _ => rfl⟩
  | _ => exact ⟨rfl, id, id⟩

/-- Every step but a call of `quit` keeps them. -/
theorem step_flagsKept (ha : ∀ t, a ≠ .quit t) (hstep : s.step a = some s') :
    FlagsKept s s' := by
  cases a with
  | advance =>
      cases hstep
      exact s.advance_flagsKept
  | loop t =>
      obtain ⟨-, rfl, rfl⟩ := loop_spec hstep
      exact ⟨rfl, id, id⟩
  | finish t =>
      obtain ⟨hquit, hpublished, hthread⟩ := finish_keeps hstep
      exact ⟨hthread, hpublished.trans, hquit.trans⟩
  | quit t => exact absurd rfl (ha t)
  | _ =>
      cases hstep
      exact ⟨rfl, id, id⟩

/-- So does `quit`, up to `quit_`. -/
theorem step_keeps (hstep : s.step a = some s') :
    s'.threadFunc = s.threadFunc ∧ (s.published = true → s'.published = true) := by
  by_cases ha : ∃ t, a = .quit t
  · obtain ⟨t, rfl⟩ := ha
    cases hstep
    exact ⟨rfl, id⟩
  · have hkept := step_flagsKept (not_exists.mp ha) hstep
    exact ⟨hkept.threadFunc, hkept.published⟩

/-- The next step of the thread of the loop ends the loop only at a test that finds `quit_` up. -/
theorem publishedAlive_advance (h : s.PublishedAlive)
    (hstay : s.pc.atTest = true → s.quit = false) : s.advance.PublishedAlive := by
  unfold PublishedAlive advance at *
  cases hpc : s.pc with
  | test =>
      -- The test goes back to the head of the loop.
      dsimp only
      rw [hstay (by rw [hpc]; rfl)]
      exact fun _ => rfl
  | functors fs i =>
      dsimp only
      split <;> exact fun _ => rfl
  | construct => exact fun _ => rfl
  | outside | finished =>
      dsimp only
      exact h
  | _ => exact fun _ => rfl

/-- So does every step. -/
theorem publishedAlive_step (h : s.PublishedAlive)
    (hstay : a = .advance → s.pc.atTest = true → s.quit = false)
    (hstep : s.step a = some s') : s'.PublishedAlive := by
  cases a with
  | advance =>
      cases hstep
      exact publishedAlive_advance h (hstay rfl)
  | loop t =>
      obtain ⟨-, rfl, rfl⟩ := loop_spec hstep
      exact fun _ => rfl
  | handleRead =>
      cases hstep
      exact fun _ => rfl
  | finish t =>
      have hsame := sameQueue_finish hstep
      intro hpublished
      rw [hsame.pc]
      exact h ((finish_keeps hstep).2.1 ▸ hpublished)
  | _ =>
      cases hstep
      exact h

end LoopThread

/-! ### The owner -/

namespace OwnerPc

/-- `startLoop` has returned. -/
def hasPointer : OwnerPc → Bool
  | .running | .quit | .join | .joined => true
  | .constructed | .startLoop => false

/-- The destructor has not set `quit_` yet. -/
def beforeQuit : OwnerPc → Bool
  | .constructed | .startLoop | .running => true
  | .quit | .join | .joined => false

end OwnerPc

namespace EventLoopThread

variable {F : Type} {s s' : EventLoopThread F} {a : EventLoopThreadAction F}

/-- What the owner does next with `loop_` finds the loop there, and `join` a thread that is
started and not joined. -/
def FindsLoop (s : EventLoopThread F) : EventLoopThreadAction F → Prop
  | .queueInLoop _ | .quit | .finish | .destroy | .finishQuit => s.LoopAlive
  | .join => s.thread.started = true ∧ s.thread.joined = false
  | .startLoop _ | .startLoopReturns | .loop _ => True

instance (s : EventLoopThread F) : (a : EventLoopThreadAction F) → Decidable (s.FindsLoop a)
  | .queueInLoop _ | .quit | .finish | .destroy | .finishQuit =>
      inferInstanceAs (Decidable s.LoopAlive)
  | .join => inferInstanceAs (Decidable (_ ∧ _))
  | .startLoop _ | .startLoopReturns | .loop _ => isTrue trivial

/-- The destructor is called after `startLoop` has returned, and nobody calls `quit` before the
destructor does. -/
def Orderly (s : EventLoopThread F) : EventLoopThreadAction F → Prop
  | .destroy => s.owner = .running
  | .quit => False
  | .loop (.quit _) => s.owner.beforeQuit = false
  | _ => True

instance (s : EventLoopThread F) : (a : EventLoopThreadAction F) → Decidable (s.Orderly a)
  | .destroy | .loop (.quit _) => inferInstanceAs (Decidable (_ = _))
  | .quit => isFalse fun h => h
  | .startLoop _ | .startLoopReturns | .queueInLoop _ | .finish | .finishQuit | .join
  | .loop (.loop _) | .loop .advance | .loop .handleRead | .loop (.queueInLoop _ _)
  | .loop (.finish _) | .loop .startLoop => isTrue trivial

/-- `loop()` does not return while the destructor is inside `quit`. -/
def ReturnsLate (s : EventLoopThread F) : EventLoopThreadAction F → Prop
  | .loop .advance => s.owner = .quit → s.loop.pc.atTest = true → s.loop.quit = false
  | _ => True

instance (s : EventLoopThread F) : (a : EventLoopThreadAction F) → Decidable (s.ReturnsLate a)
  | .loop .advance => inferInstanceAs (Decidable (_ → _ → _))
  | .startLoop _ | .startLoopReturns | .queueInLoop _ | .quit | .finish | .destroy | .finishQuit
  | .join | .loop (.loop _) | .loop .handleRead | .loop (.queueInLoop _ _) | .loop (.quit _)
  | .loop (.finish _) | .loop .startLoop => isTrue trivial

/-- A step after which the owner can rely on `loop_`. -/
def InOrder (s : EventLoopThread F) (a : EventLoopThreadAction F) : Prop :=
  s.Orderly a ∧ s.ReturnsLate a

instance (s : EventLoopThread F) (a : EventLoopThreadAction F) : Decidable (s.InOrder a) :=
  inferInstanceAs (Decidable (_ ∧ _))

/-- What the orderly runs keep. -/
structure OwnerInv (s : EventLoopThread F) : Prop where
  unstarted : s.thread.started = false → s.loop = .start
  constructed : s.owner = .constructed → s.thread.started = false
  pointer : s.owner.hasPointer = true → s.thread.started = true ∧ s.loop.published = true
  joined : s.owner ≠ .joined → s.thread.joined = false
  /-- nobody has called `quit`, so the loop cannot have ended -/
  running : s.owner.beforeQuit = true → s.loop.quit = false ∧ s.loop.PublishedAlive

theorem new_ownerInv : (new : EventLoopThread F).OwnerInv where
  unstarted _ := rfl
  constructed _ := rfl
  pointer h := by cases h
  joined _ := rfl
  running _ := ⟨rfl, fun h => by cases h⟩

/-- A step of the owner on the loop returns when the loop is there. -/
theorem onLoop_spec {b : LoopThreadAction F} (hstep : s.onLoop b = some s') :
    s.LoopAlive ∧ ∃ loop, s.loop.step b = some loop ∧ s' = { s with loop } := by
  obtain ⟨halive, hstep⟩ := assert_bind_eq_some_iff.mp hstep
  obtain ⟨loop, hloop, hstep⟩ := bind_eq_some_iff.mp hstep
  exact ⟨halive, loop, hloop, (Option.some.inj hstep).symm⟩

/-- The loop takes a step, and it is a call of `quit` only behind the destructor's own. -/
theorem OwnerInv.of_loop (h : s.OwnerInv) {b : LoopThreadAction F} {loop : LoopThread F}
    (hstarted : s.thread.started = true)
    (hquit : s.owner.beforeQuit = true → ∀ t, b ≠ .quit t) (hloop : s.loop.step b = some loop) :
    OwnerInv { s with loop } := by
  refine ⟨fun hnot => ?_, h.constructed, fun hpointer => ⟨hstarted, ?_⟩, h.joined, fun hpc => ?_⟩
  · exact absurd (hstarted.symm.trans hnot) (by simp)
  · exact (LoopThread.step_keeps hloop).2 (h.pointer hpointer).2
  · obtain ⟨hdown, halive⟩ := h.running hpc
    exact ⟨(LoopThread.step_flagsKept (hquit hpc) hloop).quit hdown,
      LoopThread.publishedAlive_step halive (fun _ _ => hdown) hloop⟩

/-- The owner goes on, behind `quit_ = true` of the destructor. -/
theorem OwnerInv.of_quit (h : s.OwnerInv) {owner : OwnerPc} {exiting : Bool}
    {loop : LoopThread F} (hpointer : s.owner.hasPointer = true) (hjoined : s.owner ≠ .joined)
    (hafter : owner.beforeQuit = false) (hpublished : loop.published = true) :
    OwnerInv { s with owner, exiting, loop } := by
  obtain ⟨hstarted, -⟩ := h.pointer hpointer
  refine ⟨fun hnot => ?_, fun hpc => ?_, fun _ => ⟨hstarted, hpublished⟩,
    fun _ => h.joined hjoined, fun hpc => ?_⟩
  · exact absurd (hstarted.symm.trans hnot) (by simp)
  · have hconstructed : owner = .constructed := hpc
    rw [hconstructed] at hafter
    cases hafter
  · exact absurd (hafter.symm.trans hpc) (by simp)

/-- Every orderly step keeps it. -/
theorem OwnerInv.step (h : s.OwnerInv) (hlegal : s.Legal a) (horderly : s.Orderly a)
    (hstep : s.step a = some s') : s'.OwnerInv := by
  cases a with
  | startLoop ok =>
      obtain ⟨hnot, hstep⟩ := assert_bind_eq_some_iff.mp hstep
      obtain ⟨thread, hthread, hstep⟩ := bind_eq_some_iff.mp hstep
      obtain ⟨-, hthread⟩ := assert_bind_eq_some_iff.mp hthread
      obtain rfl := Option.some.inj hthread
      obtain rfl := Option.some.inj hstep
      have hpc : s.owner = .constructed := hlegal
      -- Only the thread is new, its loop is not made yet.
      refine ⟨fun _ => h.unstarted hnot, (fun hpc => by cases hpc), (fun hpc => by cases hpc),
        fun _ => h.joined (by simp [hpc]), fun _ => h.running (by rw [hpc]; rfl)⟩
  | startLoopReturns =>
      obtain ⟨hpc, hpublished⟩ := hlegal
      obtain ⟨loop, hloop, hstep⟩ := bind_eq_some_iff.mp hstep
      obtain rfl := Option.some.inj hstep
      -- `startLoop` returns when the pointer is there, so somebody made the loop.
      have hstarted : s.thread.started = true := by
        by_contra hnot
        rw [h.unstarted (by simpa using hnot)] at hpublished
        cases hpublished
      have hinv := h.of_loop hstarted (fun _ t heq => by cases heq) hloop
      have hbefore : s.owner.beforeQuit = true := by rw [hpc]; rfl
      exact ⟨hinv.unstarted, (fun hpc => by cases hpc),
        fun _ => ⟨hstarted, (LoopThread.step_keeps hloop).2 hpublished⟩,
        fun _ => h.joined (by simp [hpc]), fun _ => hinv.running hbefore⟩
  | loop b =>
      obtain ⟨hstarted, -, -⟩ := hlegal
      obtain ⟨loop, hloop, hstep⟩ := bind_eq_some_iff.mp hstep
      obtain rfl := Option.some.inj hstep
      refine h.of_loop hstarted (fun hbefore t heq => ?_) hloop
      -- A `quit` of another thread comes behind the destructor's.
      subst heq
      exact absurd (hbefore.symm.trans horderly) (by simp)
  | queueInLoop f =>
      obtain ⟨-, loop, hloop, rfl⟩ := onLoop_spec hstep
      obtain ⟨hstarted, -⟩ := h.pointer (by rw [hlegal.1]; rfl)
      exact h.of_loop hstarted (fun _ t heq => by cases heq) hloop
  | finish =>
      obtain ⟨-, loop, hloop, rfl⟩ := onLoop_spec hstep
      obtain ⟨hstarted, -⟩ := h.pointer (by rw [hlegal.1]; rfl)
      exact h.of_loop hstarted (fun _ t heq => by cases heq) hloop
  | quit => exact absurd horderly (fun hfalse => hfalse)
  | destroy =>
      have hpc : s.owner = .running := horderly
      obtain ⟨halive, loop, hloop, rfl⟩ := onLoop_spec hstep
      exact h.of_quit (by rw [hpc]; rfl) (by simp [hpc]) rfl
        ((LoopThread.step_keeps hloop).2 halive.1)
  | finishQuit =>
      have hpc : s.owner = .quit := hlegal
      obtain ⟨halive, loop, hloop, rfl⟩ := onLoop_spec hstep
      exact h.of_quit (by rw [hpc]; rfl) (by simp [hpc]) rfl
        ((LoopThread.step_keeps hloop).2 halive.1)
  | join =>
      have hpc : s.owner = .join := hlegal
      obtain ⟨hstarted, hpublished⟩ := h.pointer (by rw [hpc]; rfl)
      obtain ⟨thread, hthread, hstep⟩ := bind_eq_some_iff.mp hstep
      obtain ⟨-, hthread⟩ := assert_bind_eq_some_iff.mp hthread
      obtain ⟨-, hthread⟩ := assert_bind_eq_some_iff.mp hthread
      obtain rfl := Option.some.inj hthread
      obtain rfl := Option.some.inj hstep
      exact ⟨fun hnot => absurd (hstarted.symm.trans hnot) (by simp), (fun hpc => by cases hpc),
        fun _ => ⟨hstarted, hpublished⟩, fun hne => absurd rfl hne, (fun hpc => by cases hpc)⟩

/-- Before the destructor's `quit` the owner finds the loop that it has the pointer to. -/
theorem OwnerInv.alive (h : s.OwnerInv) (hpc : s.owner = .running) : s.LoopAlive := by
  obtain ⟨-, hpublished⟩ := h.pointer (by rw [hpc]; rfl)
  obtain ⟨-, halive⟩ := h.running (by rw [hpc]; rfl)
  exact ⟨hpublished, halive hpublished⟩

/-- Every step of the owner finds the loop. In front of the destructor's `quit` nobody has called
it, and inside it the loop has not returned yet. -/
theorem OwnerInv.findsLoop (h : s.OwnerInv) (hlate : s.owner = .quit → s.loop.PublishedAlive)
    (hlegal : s.Legal a) (horderly : s.Orderly a) : s.FindsLoop a := by
  cases a with
  | queueInLoop f => exact h.alive hlegal.1
  | finish => exact h.alive hlegal.1
  | quit => exact h.alive hlegal.1
  | destroy => exact h.alive horderly
  | finishQuit =>
      have hpc : s.owner = .quit := hlegal
      obtain ⟨-, hpublished⟩ := h.pointer (by rw [hpc]; rfl)
      exact ⟨hpublished, hlate hpc hpublished⟩
  | join =>
      have hpc : s.owner = .join := hlegal
      exact ⟨(h.pointer (by rw [hpc]; rfl)).1, h.joined (by simp [hpc])⟩
  | startLoop ok => trivial
  | startLoopReturns => trivial
  | loop b => trivial

/-- Without `startLoop` the destructor dereferences a null pointer. -/
theorem OwnerInv.not_findsLoop (h : s.OwnerInv) (hpc : s.owner = .constructed) :
    ¬ s.FindsLoop .destroy := by
  rintro ⟨hpublished, -⟩
  rw [h.unstarted (h.constructed hpc)] at hpublished
  cases hpublished

/-- The loop outlives the destructor's `quit` when `loop()` returns late. -/
theorem quit_alive (hquit : s.owner = .quit → s.loop.PublishedAlive)
    (hlegal : s.Legal a) (hlate : s.ReturnsLate a) (hstep : s.step a = some s') :
    s'.owner = .quit → s'.loop.PublishedAlive := by
  cases a with
  | loop b =>
      obtain ⟨loop, hloop, hstep⟩ := bind_eq_some_iff.mp hstep
      obtain rfl := Option.some.inj hstep
      intro hpc
      refine LoopThread.publishedAlive_step (hquit hpc) (fun hb => ?_) hloop
      -- The only step that could end the loop is the test, which `ReturnsLate` is about.
      subst hb
      exact hlate hpc
  | destroy =>
      obtain ⟨halive, loop, hloop, rfl⟩ := onLoop_spec hstep
      intro _
      exact LoopThread.publishedAlive_step (fun _ => halive.2) (fun hb => by cases hb) hloop
  | startLoop ok =>
      obtain ⟨-, hstep⟩ := assert_bind_eq_some_iff.mp hstep
      obtain ⟨thread, -, hstep⟩ := bind_eq_some_iff.mp hstep
      obtain rfl := Option.some.inj hstep
      intro hpc
      cases hpc
  | startLoopReturns =>
      obtain ⟨loop, -, hstep⟩ := bind_eq_some_iff.mp hstep
      obtain rfl := Option.some.inj hstep
      intro hpc
      cases hpc
  | join =>
      obtain ⟨thread, -, hstep⟩ := bind_eq_some_iff.mp hstep
      obtain rfl := Option.some.inj hstep
      intro hpc
      cases hpc
  | finishQuit =>
      obtain ⟨-, loop, -, rfl⟩ := onLoop_spec hstep
      intro hpc
      cases hpc
  | queueInLoop f =>
      obtain ⟨-, loop, -, rfl⟩ := onLoop_spec hstep
      intro hpc
      exact absurd (hlegal.1.symm.trans hpc) (by simp)
  | quit =>
      obtain ⟨-, loop, -, rfl⟩ := onLoop_spec hstep
      intro hpc
      exact absurd (hlegal.1.symm.trans hpc) (by simp)
  | finish =>
      obtain ⟨-, loop, -, rfl⟩ := onLoop_spec hstep
      intro hpc
      exact absurd (hlegal.1.symm.trans hpc) (by simp)

/-- The loop moves by its own steps only. -/
theorem step_loop (hstep : s.step a = some s') :
    s'.loop = s.loop ∨ ∃ b, s.loop.step b = some s'.loop := by
  cases a with
  | startLoop ok =>
      obtain ⟨-, hstep⟩ := assert_bind_eq_some_iff.mp hstep
      obtain ⟨thread, -, hstep⟩ := bind_eq_some_iff.mp hstep
      obtain rfl := Option.some.inj hstep
      exact .inl rfl
  | join =>
      obtain ⟨thread, -, hstep⟩ := bind_eq_some_iff.mp hstep
      obtain rfl := Option.some.inj hstep
      exact .inl rfl
  | startLoopReturns =>
      obtain ⟨loop, hloop, hstep⟩ := bind_eq_some_iff.mp hstep
      obtain rfl := Option.some.inj hstep
      exact .inr ⟨_, hloop⟩
  | loop b =>
      obtain ⟨loop, hloop, hstep⟩ := bind_eq_some_iff.mp hstep
      obtain rfl := Option.some.inj hstep
      exact .inr ⟨b, hloop⟩
  | queueInLoop _ | quit | finish | destroy | finishQuit =>
      obtain ⟨-, loop, hloop, rfl⟩ := onLoop_spec hstep
      exact .inr ⟨_, hloop⟩

/-- A loop that returns while the destructor is inside `quit` is gone when `quit` goes on. -/
theorem not_findsLoop_of_early (hthread : s.loop.threadFunc = true)
    (hearly : ¬ s.ReturnsLate (.loop .advance)) (hstep : s.step (.loop .advance) = some s') :
    ¬ s'.FindsLoop .finishQuit := by
  obtain ⟨loop, hloop, hstep⟩ := bind_eq_some_iff.mp hstep
  obtain rfl := Option.some.inj hstep
  obtain rfl := Option.some.inj hloop
  have htest : s.loop.pc.atTest = true ∧ s.loop.quit ≠ false := by
    by_contra hnot
    exact hearly fun _ htest => not_not.mp fun hquit => hnot ⟨htest, hquit⟩
  rintro ⟨-, halive⟩
  cases hpc : s.loop.pc with
  | test =>
      -- `while(!quit_)` ends `loop()`, and `threadFunc` with it.
      have hquit : s.loop.quit = true := by simpa using htest.2
      simp [LoopThread.advance, LoopThread.setPc, hpc, hquit, hthread,
        LoopThreadPc.hasLoop] at halive
  | _ => simp [hpc, LoopThreadPc.atTest] at htest

/-! ### Runs -/

section Runs

variable {as : List (EventLoopThreadAction F)}

theorem ownerInv_of_run (hrun : (eventLoopThreadMachine F).Run new as s)
    (horderly : (eventLoopThreadMachine F).EveryStep new as Orderly) : s.OwnerInv := by
  refine (Machine.run_restrict.mpr ⟨hrun, horderly⟩).invariant new_ownerInv ?_
  intro s a s' h hlegal hstep
  exact h.step hlegal.1 hlegal.2 hstep

theorem quit_alive_of_run (hrun : (eventLoopThreadMachine F).Run new as s)
    (hlate : (eventLoopThreadMachine F).EveryStep new as ReturnsLate) :
    s.owner = .quit → s.loop.PublishedAlive := by
  refine (Machine.run_restrict.mpr ⟨hrun, hlate⟩).invariant
    (I := fun s => s.owner = .quit → s.loop.PublishedAlive) (fun hpc => by cases hpc) ?_
  intro s a s' h hlegal hstep
  exact quit_alive h hlegal.1 hlegal.2 hstep

/-- `threadFunc` runs the loop in every run. -/
theorem threadFunc_of_run (hrun : (eventLoopThreadMachine F).Run new as s) :
    s.loop.threadFunc = true := by
  refine hrun.invariant (I := fun s => s.loop.threadFunc = true) rfl ?_
  intro s a s' h _ hstep
  rcases step_loop hstep with hsame | ⟨b, hloop⟩
  · rw [hsame]
    exact h
  · exact (LoopThread.step_keeps hloop).1.trans h

/-- The destructor and the caller of `startLoop` touch a live loop only. In every run in which the
destructor is called after `startLoop` has returned, nobody calls `quit` before the destructor
does, and `loop()` does not return while the destructor is inside `quit`:

- whenever the owner dereferences `loop_`, or goes on inside a call on the loop, `loop_` is not
  null and its loop is not destroyed, and `thread_.join()` finds a thread that is started and not
  joined;
- a destructor in front of `startLoop` finds no loop;
- neither does the second half of the destructor's `quit` behind a `loop()` that has returned. -/
theorem owner_finds_loop (as : List (EventLoopThreadAction F)) (s : EventLoopThread F)
    (hrun : (eventLoopThreadMachine F).Run new as s)
    (hsteps : (eventLoopThreadMachine F).EveryStep new as InOrder) :
    (∀ a, s.Legal a → s.InOrder a → s.FindsLoop a) ∧
    (s.owner = .constructed → ¬ s.FindsLoop .destroy) ∧
    (∀ s', ¬ s.ReturnsLate (.loop .advance) → s.step (.loop .advance) = some s' →
      ¬ s'.FindsLoop .finishQuit) := by
  have h : s.OwnerInv := ownerInv_of_run hrun fun pre a t hpre ht => (hsteps pre a t hpre ht).1
  have hlate := quit_alive_of_run hrun fun pre a t hpre ht => (hsteps pre a t hpre ht).2
  refine ⟨fun a hlegal horder => h.findsLoop hlate hlegal horder.1, h.not_findsLoop, ?_⟩
  intro s' hearly hstep
  exact not_findsLoop_of_early (threadFunc_of_run hrun) hearly hstep

end Runs

/-- The theorem at an owner that uses the loop and is inside the `quit` of its destructor, while
the loop goes on. -/
theorem owner_finds_loop_quitting :
    ∃ s : EventLoopThread Nat, (eventLoopThreadMachine Nat).Run new
        [.startLoop true, .loop .advance, .loop .advance, .startLoopReturns, .queueInLoop 1,
          .loop (.loop .loop), .finish, .loop .advance, .loop .advance, .destroy,
          .loop .advance] s ∧
      s.owner = .quit ∧ s.FindsLoop .finishQuit := by
  obtain ⟨s, hrun, hpc⟩ := Machine.exists_run
    (M := (eventLoopThreadMachine Nat).restrict InOrder)
    (P := fun s => s.owner = .quit) new
    [.startLoop true, .loop .advance, .loop .advance, .startLoopReturns, .queueInLoop 1,
      .loop (.loop .loop), .finish, .loop .advance, .loop .advance, .destroy, .loop .advance]
    (by decide +kernel)
  obtain ⟨hrun, hsteps⟩ := Machine.run_restrict.mp hrun
  exact ⟨s, hrun, hpc, (owner_finds_loop _ s hrun hsteps).1 .finishQuit hpc ⟨trivial, trivial⟩⟩

/-! ### A callback that calls `quit` -/

end EventLoopThread

namespace LoopThread

variable {F : Type} {s s' : LoopThread F}

/-- The loop thread has seen its own `quit_ = false`, and `quit_` is up. -/
structure Stopping (s : LoopThread F) : Prop where
  quit : s.quit = true
  threadFunc : s.threadFunc = true
  calls : s.calls .loop = none
  entered : s.pc.entered = true ∨ s.pc = .finished

/-- A bound on the steps to the end of `loop()`. -/
def stepsToExit (s : LoopThread F) : Nat :=
  match s.pc with
  | .poll => 8 + 2 * s.pendingFunctors.length
  | .dispatch true => 7 + 2 * s.pendingFunctors.length
  | .dispatch false => 6 + 2 * s.pendingFunctors.length
  | .doPendingFunctors => 5 + 2 * s.pendingFunctors.length
  | .swap => 4 + 2 * s.pendingFunctors.length
  | .functors fs i => 3 + 2 * (fs.length - i)
  | .functor fs i => 4 + 2 * (fs.length - (i + 1))
  | .clear _ => 2
  | .test => 1
  | .construct | .publish | .outside | .reset | .finished => 0

/-- The `int` of a size is no larger than the size. -/
theorem toInt32_le (n : Nat) : toInt32 n ≤ n := bmod_natCast_le n _

/-- The loop thread goes on towards the end. -/
theorem Stopping.advance (h : s.Stopping) : s.advance.Stopping ∧ s.advance.calls = s.calls := by
  obtain ⟨hquit, hthread, hcalls, hentered⟩ := h
  unfold LoopThread.advance
  cases hpc : s.pc with
  | construct | publish | outside | reset =>
      rw [hpc] at hentered
      simp [LoopThreadPc.entered] at hentered
  | test =>
      dsimp only
      rw [hquit, hthread]
      exact ⟨⟨hquit, hthread, hcalls, .inr rfl⟩, rfl⟩
  | functors fs i =>
      dsimp only
      split <;> exact ⟨⟨hquit, hthread, hcalls, .inl rfl⟩, rfl⟩
  | finished => exact ⟨⟨hquit, hthread, hcalls, hentered⟩, rfl⟩
  | _ => exact ⟨⟨hquit, hthread, hcalls, .inl rfl⟩, rfl⟩

/-- In front of a functor, or behind the last one. -/
theorem advance_functors {fs : List F} {i : Nat} (hpc : s.pc = .functors fs i) :
    (i : Int) < toInt32 fs.length ∧ s.advance.pc = .functor fs i ∨ s.advance.pc = .clear fs := by
  rw [LoopThread.advance, hpc]
  dsimp only
  split
  · rename_i hlt
    exact .inl ⟨hlt, rfl⟩
  · exact .inr rfl

/-- Each of its steps brings it nearer. -/
theorem Stopping.stepsToExit_advance (h : s.Stopping) (hcan : s.pc.canAdvance = true) :
    s.advance.stepsToExit < s.stepsToExit := by
  have hentered := h.entered
  cases hpc : s.pc with
  | construct | publish | outside | reset =>
      rw [hpc] at hentered
      simp [LoopThreadPc.entered] at hentered
  | finished => simp [hpc, LoopThreadPc.canAdvance] at hcan
  | test => simp [LoopThread.advance, stepsToExit, hpc, h.quit, h.threadFunc, setPc]
  | poll =>
      simp only [LoopThread.advance, stepsToExit, hpc, setPc]
      cases decide (0 < s.eventfd) <;> simp
  | dispatch wakeup =>
      cases wakeup with
      | true => simp [hpc, LoopThreadPc.canAdvance] at hcan
      | false => simp [LoopThread.advance, stepsToExit, hpc, setPc]
  | functors fs i =>
      rw [stepsToExit, stepsToExit, hpc]
      rcases advance_functors hpc with ⟨hlt, hnext⟩ | hnext
      · -- A functor is called, so there was one left.
        have hle := toInt32_le fs.length
        rw [hnext]
        dsimp only
        omega
      · rw [hnext]
        dsimp only
        omega
  | _ => simp [LoopThread.advance, stepsToExit, hpc, setPc]

end LoopThread

namespace EventLoopThread

variable {F : Type} {s s' : EventLoopThread F} {as : List (EventLoopThreadAction F)}

/-- The owner has the pointer and makes no call, and the loop is about to end. -/
structure Leaving (s : EventLoopThread F) : Prop where
  started : s.thread.started = true
  owner : s.owner = .running
  idle : s.inCall = false
  stopping : s.loop.Stopping

/-- The loop thread takes its next step. -/
theorem Leaving.progress (h : s.Leaving) : s.loop.pc = .finished ∨
    ∃ a t, s.Legal a ∧ s.step a = some t ∧ t.Leaving ∧ t.loop.stepsToExit < s.loop.stepsToExit := by
  obtain ⟨hstarted, howner, hidle, hstopping⟩ := h
  by_cases hread : s.loop.pc.canRead = true
  · -- The wakeup channel comes first.
    have hpc : s.loop.pc = .dispatch true := LoopThreadPc.canRead_iff.mp hread
    refine .inr ⟨.loop .handleRead, _, ⟨hstarted, trivial, hstopping.calls, hread⟩, rfl,
      ⟨hstarted, howner, hidle, hstopping.quit, hstopping.threadFunc, hstopping.calls,
        .inl rfl⟩, ?_⟩
    simp [LoopThread.stepsToExit, LoopThread.setPc, hpc]
  · by_cases hcan : s.loop.pc.canAdvance = true
    · obtain ⟨hstopping', hcalls⟩ := hstopping.advance
      refine .inr ⟨.loop .advance, _, ⟨hstarted, trivial, hstopping.calls, hcan⟩, rfl,
        ⟨hstarted, howner, ?_, hstopping'⟩, hstopping.stepsToExit_advance hcan⟩
      show (s.loop.advance.calls ownerThread).isSome = false
      rw [hcalls]
      exact hidle
    · -- Only a loop that has ended does neither.
      have hentered := hstopping.entered
      left
      cases hpc : s.loop.pc with
      | dispatch wakeup =>
          rw [hpc] at hread hcan
          cases wakeup <;> simp [LoopThreadPc.canRead, LoopThreadPc.canAdvance] at hread hcan
      | finished => rfl
      | _ =>
          rw [hpc] at hcan hentered
          simp [LoopThreadPc.canAdvance, LoopThreadPc.entered] at hcan hentered

/-- The loop ends, and the destructor finds it gone. -/
theorem leads_destroyed : (eventLoopThreadMachine F).Leads Leaving
    (fun s => s.Legal .destroy ∧ ¬ s.FindsLoop .destroy) := by
  have hend : (eventLoopThreadMachine F).Leads Leaving
      (fun s => s.Leaving ∧ s.loop.pc = .finished) := by
    refine Machine.Leads.of_measure (fun s => s.loop.stepsToExit) fun s h => ?_
    rcases h.progress with hpc | hstep
    · exact .inl ⟨h, hpc⟩
    · exact .inr hstep
  intro s hs
  obtain ⟨as, t, hrun, ht, hpc⟩ := hend s hs
  refine ⟨as, t, hrun, ⟨.inr ht.owner, ht.idle⟩, ?_⟩
  rintro ⟨-, halive⟩
  rw [hpc] at halive
  cases halive

/-- A callback that calls `quit` while the owner makes no call. Whatever the run did before, the
loop can end and the destructor be called after it. -/
theorem quit_in_callback_leads (hrun : (eventLoopThreadMachine F).Run new as s)
    (hpc : s.owner = .running) (hidle : s.inCall = false)
    (hlegal : s.Legal (.loop (.quit .loop))) (hstep : s.step (.loop (.quit .loop)) = some s') :
    ∃ bs t, (eventLoopThreadMachine F).Run s' bs t ∧ t.Legal .destroy ∧
      ¬ t.FindsLoop .destroy := by
  obtain ⟨hstarted, -, -, hin⟩ := hlegal
  have hthread := threadFunc_of_run hrun
  rw [if_pos rfl, hthread] at hin
  have hcallback : s.loop.pc.inCallback = true := hin.resolve_right (by simp)
  obtain ⟨loop, hloop, hstep⟩ := bind_eq_some_iff.mp hstep
  obtain rfl := Option.some.inj hstep
  obtain rfl := Option.some.inj hloop
  -- `quit` returns to the callback.
  let called : LoopThread F := { s.loop.setCall .loop (some .quit) with quit := true }
  have hcall : called.calls .loop = some .quit := by simp [called, LoopThread.setCall]
  let t : EventLoopThread F := { s with loop := called.finishQuit .loop }
  have hfinish :
      EventLoopThread.step { s with loop := called } (.loop (.finish .loop)) = some t := by
    show (called.step (.finish .loop) >>= fun loop => some { s with loop }) = some t
    rw [LoopThread.step, hcall]
    rfl
  have hlegal : EventLoopThread.Legal { s with loop := called } (.loop (.finish .loop)) := by
    refine ⟨hstarted, (fun heq => by cases heq), ?_⟩
    show called.calls .loop ≠ none
    rw [hcall]
    simp
  have hleaving : t.Leaving := by
    refine ⟨hstarted, hpc, ?_, rfl, hthread, ?_,
      .inl (LoopThreadPc.entered_of_inCallback hcallback)⟩
    · simpa [inCall, t, called, LoopThread.finishQuit, LoopThread.setCall, ownerThread] using hidle
    · simp [t, called, LoopThread.finishQuit, LoopThread.setCall]
  have hreturns : (eventLoopThreadMachine F).Run { s with loop := called }
      [.loop (.finish .loop)] t := .single hlegal hfinish
  obtain ⟨bs, u, hrun', hu⟩ := leads_destroyed t hleaving
  exact ⟨_, u, hreturns.append hrun', hu⟩

/-- The owner does not always find the loop: a callback calls `quit`, and the destructor comes
after the end of `threadFunc`. -/
theorem not_owner_finds_loop : ¬ ∀ (as : List (EventLoopThreadAction Unit))
    (s : EventLoopThread Unit), (eventLoopThreadMachine Unit).Run new as s →
      ∀ a, s.Legal a → s.FindsLoop a := by
  intro hall
  obtain ⟨s, hrun, hlegal, hgone⟩ := Machine.exists_run (M := eventLoopThreadMachine Unit)
    (P := fun s => s.Legal .destroy ∧ ¬ s.FindsLoop .destroy) new
    [.startLoop true, .loop .advance, .loop .advance, .startLoopReturns, .loop (.loop .loop),
      .loop .advance, .loop .advance, .loop .advance, .loop (.quit .loop), .loop (.finish .loop),
      .loop .advance, .loop .advance, .loop .advance, .loop .advance, .loop .advance,
      .loop .advance] (by decide +kernel)
  exact hgone (hall _ s hrun .destroy hlegal)

end EventLoopThread

end SecondGear
