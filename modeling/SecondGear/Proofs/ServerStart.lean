import SecondGear.Model.ServerStart
import SecondGear.Proofs.WaitingFunctors

/-!
# `SecondGear.Proofs.ServerStart`: how often the acceptor listens

Each call of `start` that finds `listenning()` false leads to one execution of `listen`, and
until then it is outstanding: its thread comes to `queueInLoop` next, or its functor waits.
`StartInv.balance` is this equation, which every step keeps. So the acceptor listens once
exactly if one call only finds the flag false, and that is so exactly if every such call is
alone (`TestsAlone`, `found_le_one_iff`).

* `listens_once`: the acceptor listens at most once, and once when a call was made and the queue
  is drained, in runs whose tests are alone; and in no others, once the queue is drained.
* `not_listens_once`: two calls before the loop gets to the queue listen twice.
-/

set_option autoImplicit false

namespace SecondGear

open SecondGear.Lib

namespace ServerStart

variable {s s' : ServerStart} {a : ServerStartAction}

/-- A swap takes no more functors than an `int` counts. -/
def SmallSwap (s : ServerStart) : ServerStartAction → Prop
  | .loop a => s.loop.SmallSwap a
  | _ => True

instance (s : ServerStart) : (a : ServerStartAction) → Decidable (s.SmallSwap a)
  | .loop a => inferInstanceAs (Decidable (s.loop.SmallSwap a))
  | .start _ | .queueInLoop _ | .startInThread => isTrue trivial

/-- A call of `start` that finds `listenning()` false is made while no other one is
outstanding. -/
def TestsAlone (s : ServerStart) : ServerStartAction → Prop
  | .start _ | .startInThread =>
      s.listenning = false → s.testing = [] ∧ ServerFunctor.startListenning ∉ s.loop.waiting
  | _ => True

instance (s : ServerStart) : (a : ServerStartAction) → Decidable (s.TestsAlone a)
  | .start _ | .startInThread => inferInstanceAs (Decidable (_ = false → _ ∧ _))
  | .loop _ | .queueInLoop _ => isTrue trivial

/-- The loop has no functor left to call. -/
def Drained (s : ServerStart) : Prop := s.loop.waiting = []

/-- The acceptor listens at most once, and once when a call was made and the queue is
drained. -/
def ListensOnce (s : ServerStart) : Prop :=
  s.listens ≤ 1 ∧ (0 < s.made → s.Drained → s.listens = 1)

/-- The functors of `start` that wait. -/
def queued (s : ServerStart) : Nat := s.loop.waiting.count .startListenning

/-- What every run keeps. -/
structure StartInv (s : ServerStart) : Prop where
  queue : s.loop.QueueInv
  balance : s.listens + s.testing.length + s.queued = s.found
  flag : s.listenning = true ↔ 0 < s.listens
  made : 0 < s.made → 0 < s.listens + s.queued

/-- `listen` returns in the thread of the loop, and raises the flag. -/
theorem listen_spec {thread : ThreadId} (hcall : s.listen thread = some s') :
    ∃ poller, s' = { s with listenning := true, poller, listens := s.listens + 1 } := by
  obtain ⟨-, hcall⟩ := assert_bind_eq_some_iff.mp hcall
  obtain ⟨poller, -, hcall⟩ := bind_eq_some_iff.mp hcall
  exact ⟨poller, (Option.some.inj hcall).symm⟩

/-- A step of the loop executes the functor that it calls. -/
theorem loop_spec {a : LoopThreadAction ServerFunctor} (hstep : s.step (.loop a) = some s') :
    ∃ loop poller, s.loop.step a = some loop ∧
      s' = { s with
        loop, poller
        listenning := s.listenning || decide (s.loop.calledBy a = some .startListenning)
        listens := s.listens + (s.loop.calledBy a).toList.count .startListenning } := by
  obtain ⟨loop, hloop, hstep⟩ := bind_eq_some_iff.mp hstep
  obtain ⟨after, hcall, hstep⟩ := bind_eq_some_iff.mp hstep
  obtain rfl := Option.some.inj hstep
  cases hcalled : s.loop.calledBy a with
  | none =>
      rw [hcalled] at hcall
      obtain rfl := Option.some.inj hcall
      exact ⟨loop, s.poller, hloop, by simp⟩
  | some f =>
      rw [hcalled] at hcall
      cases f with
      | startListenning =>
          obtain ⟨poller, rfl⟩ := listen_spec hcall
          exact ⟨loop, poller, hloop, by simp⟩
      | other =>
          obtain rfl := Option.some.inj hcall
          exact ⟨loop, s.poller, hloop, by simp⟩

/-- A functor that is executed does not wait any more, and nobody else queues one. -/
theorem queued_loop (h : s.StartInv) {a : LoopThreadAction ServerFunctor}
    (hlegal : s.Legal (.loop a)) (hsmall : s.SmallSwap (.loop a)) {loop : LoopThread ServerFunctor}
    (hloop : s.loop.step a = some loop) :
    (s.loop.calledBy a).toList.count .startListenning + loop.waiting.count .startListenning
      = s.queued := by
  have hwaiting := LoopThread.waiting_step h.queue hlegal.1 hsmall hloop
  have hpushed : a.pushed.toList.count ServerFunctor.startListenning = 0 := by
    cases a with
    | queueInLoop t f =>
        have hother : f = .other := hlegal.2.2
        rw [hother]
        rfl
    | _ => rfl
  have hcount := congrArg (List.count ServerFunctor.startListenning) hwaiting
  rw [List.count_append, List.count_append, hpushed] at hcount
  exact hcount

/-- A push of `start`. -/
theorem queueInLoop_spec (h : s.StartInv) {t : Nat} (hlegal : s.Legal (.queueInLoop t))
    (hstep : s.step (.queueInLoop t) = some s') :
    ∃ loop, s' = { s with loop, testing := s.testing.erase t, made := s.made + 1 } ∧
      loop.QueueInv ∧ loop.waiting.count .startListenning = s.queued + 1 := by
  obtain ⟨loop, hloop, hstep⟩ := bind_eq_some_iff.mp hstep
  obtain rfl := Option.some.inj hstep
  have hpush : s.loop.Legal (.queueInLoop (.other t) .startListenning) := hlegal.2
  have hsmall : s.loop.SmallSwap (.queueInLoop (.other t) .startListenning) :=
    fun heq => by cases heq
  refine ⟨loop, rfl, h.queue.step hpush hsmall hloop, ?_⟩
  have hwaiting := LoopThread.waiting_step h.queue hpush hsmall hloop
  have hcount := congrArg (List.count ServerFunctor.startListenning) hwaiting
  rw [List.count_append, List.count_append] at hcount
  simpa [LoopThread.calledBy, LoopThreadAction.pushed, queued] using hcount

/-- The flag is down as long as nothing was executed. -/
theorem StartInv.listens_eq_zero (h : s.StartInv) (hflag : s.listenning = false) :
    s.listens = 0 := by
  have hflag' := h.flag.not.mp (by rw [hflag]; simp)
  omega

/-- Every step keeps the invariant. -/
theorem StartInv.step (h : s.StartInv) (hlegal : s.Legal a) (hsmall : s.SmallSwap a)
    (hstep : s.step a = some s') : s'.StartInv := by
  obtain ⟨hqueue, hbalance, hflag, hmade⟩ := h
  cases a with
  | loop a =>
      obtain ⟨loop, poller, hloop, rfl⟩ := loop_spec hstep
      have hcount := queued_loop ⟨hqueue, hbalance, hflag, hmade⟩ hlegal hsmall hloop
      refine ⟨hqueue.step hlegal.1 hsmall hloop, ?_, ?_, ?_⟩
      · show s.listens + _ + s.testing.length + loop.waiting.count .startListenning = s.found
        omega
      · cases s.loop.calledBy a with
        | none => simpa using hflag
        | some f => cases f <;> simp [hflag]
      · intro hpos
        have hpos' := hmade hpos
        show 0 < s.listens + _ + loop.waiting.count .startListenning
        omega
  | start t =>
      rw [ServerStart.step] at hstep
      split at hstep
      · rename_i hlistens
        obtain rfl := Option.some.inj hstep
        exact ⟨hqueue, hbalance, hflag, fun _ => Nat.lt_add_right _ (hflag.mp hlistens)⟩
      · obtain rfl := Option.some.inj hstep
        refine ⟨hqueue, ?_, hflag, hmade⟩
        show s.listens + (t :: s.testing).length + s.queued = s.found + 1
        rw [List.length_cons]
        omega
  | queueInLoop t =>
      obtain ⟨loop, rfl, hqueue', hcount⟩ :=
        queueInLoop_spec ⟨hqueue, hbalance, hflag, hmade⟩ hlegal hstep
      have hlength := List.length_erase_of_mem hlegal.1
      have hpos := List.length_pos_of_mem hlegal.1
      refine ⟨hqueue', ?_, hflag, fun _ => ?_⟩
      · show s.listens + (s.testing.erase t).length + loop.waiting.count .startListenning
          = s.found
        omega
      · show 0 < s.listens + loop.waiting.count .startListenning
        omega
  | startInThread =>
      rw [ServerStart.step] at hstep
      split at hstep
      · rename_i hlistens
        obtain rfl := Option.some.inj hstep
        exact ⟨hqueue, hbalance, hflag, fun _ => Nat.lt_add_right _ (hflag.mp hlistens)⟩
      · obtain ⟨poller, rfl⟩ := listen_spec hstep
        refine ⟨hqueue, ?_, ?_, fun _ => ?_⟩
        · show s.listens + 1 + s.testing.length + s.queued = s.found + 1
          omega
        · simp [returnFromStart]
        · show 0 < s.listens + 1 + s.queued
          omega

theorem new_startInv {loop : LoopThread ServerFunctor} (hloop : loop.Unused) (poller : Poller)
    (acceptChannel : ChannelPtr) : (new loop poller acceptChannel).StartInv where
  queue := hloop.queueInv
  balance := by
    rcases hloop with rfl | rfl <;> rfl
  flag := by simp [new]
  made := by simp [new]

/-- One more call finds the flag false, or none. Without another one before it is the first
exactly if it is alone. -/
theorem StartInv.found_step (h : s.StartInv) (hstep : s.step a = some s') :
    s'.found ≤ 1 ↔ s.found ≤ 1 ∧ s.TestsAlone a := by
  have hbalance := h.balance
  -- A test that finds the flag false.
  have htest : s.listenning = false → (s.found + 1 ≤ 1 ↔ s.found ≤ 1 ∧
      (s.listenning = false →
        s.testing = [] ∧ ServerFunctor.startListenning ∉ s.loop.waiting)) := by
    intro hflag
    have hzero := h.listens_eq_zero hflag
    rw [← List.length_eq_zero_iff, ← List.count_eq_zero]
    unfold queued at hbalance
    constructor
    · intro hle
      exact ⟨by omega, fun _ => by omega⟩
    · rintro ⟨-, halone⟩
      have halone' := halone hflag
      omega
  cases a with
  | loop a =>
      obtain ⟨loop, poller, -, rfl⟩ := loop_spec hstep
      exact ⟨fun hle => ⟨hle, trivial⟩, fun hle => hle.1⟩
  | queueInLoop t =>
      obtain ⟨loop, -, hstep⟩ := bind_eq_some_iff.mp hstep
      obtain rfl := Option.some.inj hstep
      exact ⟨fun hle => ⟨hle, trivial⟩, fun hle => hle.1⟩
  | start t =>
      rw [ServerStart.step] at hstep
      split at hstep
      · rename_i hlistens
        obtain rfl := Option.some.inj hstep
        exact ⟨fun hle => ⟨hle, fun hflag => by simp [hlistens] at hflag⟩, fun hle => hle.1⟩
      · rename_i hlistens
        obtain rfl := Option.some.inj hstep
        exact htest (by simpa using hlistens)
  | startInThread =>
      rw [ServerStart.step] at hstep
      split at hstep
      · rename_i hlistens
        obtain rfl := Option.some.inj hstep
        exact ⟨fun hle => ⟨hle, fun hflag => by simp [hlistens] at hflag⟩, fun hle => hle.1⟩
      · rename_i hlistens
        obtain ⟨poller, rfl⟩ := listen_spec hstep
        exact htest (by simpa using hlistens)

/-! ### Runs -/

section Runs

variable {loop : LoopThread ServerFunctor} {poller : Poller} {acceptChannel : ChannelPtr}
  {as : List ServerStartAction}

theorem startInv_of_run (hloop : loop.Unused)
    (hrun : serverStartMachine.Run (new loop poller acceptChannel) as s)
    (hsmall : serverStartMachine.EveryStep (new loop poller acceptChannel) as SmallSwap) :
    s.StartInv := by
  refine (Machine.run_restrict.mpr ⟨hrun, hsmall⟩).invariant
    (new_startInv hloop poller acceptChannel) ?_
  intro s a s' h hlegal hstep
  exact h.step hlegal.1 hlegal.2 hstep

/-- At most one call finds the flag false in exactly the runs whose tests are alone, by
induction on the run. -/
theorem found_le_one_iff (hloop : loop.Unused)
    (hrun : serverStartMachine.Run (new loop poller acceptChannel) as s)
    (hsmall : serverStartMachine.EveryStep (new loop poller acceptChannel) as SmallSwap) :
    s.found ≤ 1 ↔
      serverStartMachine.EveryStep (new loop poller acceptChannel) as TestsAlone := by
  induction hrun with
  | start => exact iff_of_true (Nat.zero_le _) Machine.everyStep_nil
  | next hrun hlegal hstep ih =>
      obtain ⟨hinit, -⟩ := (Machine.everyStep_snoc hrun).mp hsmall
      rw [Machine.everyStep_snoc hrun, ← ih hinit]
      exact (startInv_of_run hloop hrun hinit).found_step hstep

/-- The acceptor listens once. In every run whose swaps an `int` counts:

- when every call of `start` that finds `listenning()` false is alone, `listen` is executed at
  most once, and exactly once when a call was made and the queue is drained;
- in a drained state in which no call is at its push, `listen` was executed at most once only
  if they were. -/
theorem listens_once (loop : LoopThread ServerFunctor) (hloop : loop.Unused) (poller : Poller)
    (acceptChannel : ChannelPtr) (as : List ServerStartAction) (s : ServerStart)
    (hrun : serverStartMachine.Run (new loop poller acceptChannel) as s)
    (hsmall : serverStartMachine.EveryStep (new loop poller acceptChannel) as SmallSwap) :
    (serverStartMachine.EveryStep (new loop poller acceptChannel) as TestsAlone →
      s.ListensOnce) ∧
    (s.Drained → s.testing = [] →
      (s.ListensOnce ↔
        serverStartMachine.EveryStep (new loop poller acceptChannel) as TestsAlone)) := by
  have h := startInv_of_run hloop hrun hsmall
  have hbalance := h.balance
  have hfound := found_le_one_iff hloop hrun hsmall
  have honce : s.found ≤ 1 → s.ListensOnce := by
    intro hle
    refine ⟨by omega, fun hmade hdrained => ?_⟩
    have hpos := h.made hmade
    have hqueued : s.queued = 0 := by
      rw [queued, hdrained]
      rfl
    omega
  refine ⟨fun halone => honce (hfound.mpr halone), fun hdrained htesting => ?_⟩
  rw [← hfound]
  refine ⟨fun hlistens => ?_, honce⟩
  -- Nothing is outstanding: every call that found the flag false has listened.
  have hqueued : s.queued = 0 := by
    rw [queued, hdrained]
    rfl
  have hle := hlistens.1
  rw [htesting, List.length_nil] at hbalance
  omega

end Runs

/-- The theorem at a call from another thread and one in the loop after it. -/
theorem listens_once_again :
    ∃ s, serverStartMachine.Run (new LoopThread.new (Poller.new fun _ => Channel.new 3) 0)
        [.start 0, .queueInLoop 0, .loop (.finish (.other 0)), .loop (.loop .loop),
          .loop .advance, .loop .advance, .loop .advance, .loop .handleRead, .loop .advance,
          .loop .advance, .loop .advance, .loop .advance, .startInThread] s ∧
      s.made = 2 ∧ s.listens = 1 := by
  obtain ⟨s, hrun, hmade, hdrained⟩ := Machine.exists_run
    (M := serverStartMachine.restrict fun s a => s.SmallSwap a ∧ s.TestsAlone a)
    (P := fun s => s.made = 2 ∧ s.loop.waiting = [])
    (new LoopThread.new (Poller.new fun _ => Channel.new 3) 0)
    [.start 0, .queueInLoop 0, .loop (.finish (.other 0)), .loop (.loop .loop),
      .loop .advance, .loop .advance, .loop .advance, .loop .handleRead, .loop .advance,
      .loop .advance, .loop .advance, .loop .advance, .startInThread]
    (by decide +kernel)
  obtain ⟨hrun', hsteps⟩ := Machine.run_restrict.mp hrun
  have honce := (listens_once LoopThread.new (Or.inl rfl) _ _ _ s hrun'
    fun pre a t hpre ht => (hsteps pre a t hpre ht).1).1
    fun pre a t hpre ht => (hsteps pre a t hpre ht).2
  exact ⟨s, hrun', hmade, honce.2 (by omega) hdrained⟩

/-- Another thread calls `start` twice before the loop gets to its queue. -/
theorem not_listens_once :
    ¬ ∀ (loop : LoopThread ServerFunctor), loop.Unused → ∀ poller acceptChannel as s,
      serverStartMachine.Run (new loop poller acceptChannel) as s → s.ListensOnce := by
  intro hall
  obtain ⟨s, hrun, hlistens⟩ := Machine.exists_run (M := serverStartMachine)
    (P := fun s => s.listens = 2) (new LoopThread.new (Poller.new fun _ => Channel.new 3) 0)
    [.start 0, .queueInLoop 0, .loop (.finish (.other 0)),
      .start 0, .queueInLoop 0, .loop (.finish (.other 0)), .loop (.loop .loop),
      .loop .advance, .loop .advance, .loop .advance, .loop .handleRead, .loop .advance,
      .loop .advance, .loop .advance, .loop .advance, .loop .advance, .loop .advance]
    (by decide +kernel)
  have hle := (hall _ (Or.inl rfl) _ _ _ s hrun).1
  omega

end ServerStart

end SecondGear
