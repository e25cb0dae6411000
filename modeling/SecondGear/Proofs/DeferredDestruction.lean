import SecondGear.Proofs.LifeCycle

/-!
# `SecondGear.Proofs.DeferredDestruction`: why `removeConnection` queues `connectDestroyed`

A dispatch goes over channels that live inside connections. `removeConnection` takes a
connection out of the map in the middle of it, and the queued functor then holds the last
reference. `BatchSafe` says what that is good for: until the dispatch is over no channel is
removed and no connection is destroyed, and a descriptor is closed only when no channel of it
is registered any more.

* `batch_safe`: it holds in every run in which no connection gets a name that its server's
  map still has, and in which the `int` holds the size of every batch with functors of the user.

`SecondGear.Proofs.NameReuse` has a run with such a connection.
-/

set_option autoImplicit false

namespace SecondGear

open SecondGear.Lib

namespace EventLoop

variable {s₀ s : EventLoop}

/-- Deferred destruction keeps the dispatch safe. -/
structure BatchSafe (s : EventLoop) : Prop where
  /-- no `removeChannel` while the loop dispatches -/
  removeChannel : ∀ k ∈ s.conns, .removeChannel true ∉ k.trace
  /-- no connection of the batch is destroyed before the end of the dispatch -/
  alive : s.pc.isDispatch → ∀ c ∈ s.activeChannels, ∀ id,
    s.owners[c]? = some (.connection id) → s.Alive id
  /-- every `handleEvent` of the batch runs on a registered channel -/
  registered : s.pc.isDispatch → (∀ c ∈ s.pc.todo, c ∈ s.activeChannels) ∧
    ∀ c ∈ s.activeChannels, s.poller.Registered c
  /-- a closed connection waits for `connectDestroyed` -/
  waiting : ∀ (id : Nat) k, s.conns[id]? = some k → .handleClose ∈ k.trace →
    .connectDestroyed ∉ k.trace → .connectDestroyed id ∈ s.pendingFunctors ++ s.pc.rest
  /-- `connectDestroyed` runs in `doPendingFunctors` -/
  functors : ∀ id, s.frame = some (.connectDestroyed id) → ∃ done rest,
    s.pc = .doPendingFunctors done rest
  /-- ... and is over before the next poll -/
  poll : s.pc = .poll → ∀ k ∈ s.conns, .handleClose ∈ k.trace →
    .connectDestroyed ∈ k.trace ∧ .removeChannel false ∈ k.trace
  /-- a registered channel has an open descriptor -/
  openFds : ∀ c, s.poller.Registered c → (s.poller.channel c).fd ∈ s.openFds
  /-- no destructor closes the descriptor of a registered channel -/
  close : ∀ k ∈ s.conns, .close true ∉ k.trace

open ConnectionObject

namespace Inv

/-- A connection of the batch is not destroyed, because its channel is registered. -/
theorem alive_of_registered (h : s.Inv) {c : ChannelPtr} {id : Nat}
    (hc : s.poller.Registered c) (howner : s.owners[c]? = some (.connection id)) :
    s.Alive id := by
  obtain ⟨k, hk, hkc⟩ := h.objects.owner c id howner
  have hstage := (h.wired.conn id k hk).registered.mp (hkc ▸ hc)
  refine ⟨k, hk, ?_⟩
  rw [← Bool.not_eq_true, (h.objects.ok id k hk).destroyed]
  intro hclosed
  rw [hclosed] at hstage
  cases hstage

/-- At the head of the loop every connection that was closed is removed. -/
theorem removed_at_poll (h : s.Inv) (hpc : s.pc = .poll) {id : Nat} {k : ConnectionObject}
    (hk : s.conns[id]? = some k) (hclosed : .handleClose ∈ k.trace) :
    k.stage = .removed ∨ k.stage = .closed := by
  have hnot := (h.objects.ok id k hk).history.established_iff.not.mpr (not_not.mpr hclosed)
  have hout := h.queued.at_poll hpc id
  rw [stageOf_eq hk] at hout
  cases hstage : k.stage with
  | established => exact absurd hstage hnot
  | closing => exact absurd (congrArg some hstage) hout.1
  | destroying => exact absurd (congrArg some hstage) hout.2
  | removed => exact Or.inl rfl
  | closed => exact Or.inr rfl

/-- The invariant keeps a batch safe. -/
theorem batchSafe (h : s.Inv) : s.BatchSafe where
  removeChannel k hk hmem := by
    obtain ⟨id, hid⟩ := List.getElem?_of_mem hk
    have hcases := (h.objects.ok id k hid).history.mem hmem
    simp [ending] at hcases
  alive hpc c hc id howner := h.alive_of_registered (h.dispatched.batch hpc c hc) howner
  registered hpc := ⟨h.dispatched.sub, h.dispatched.batch hpc⟩
  waiting id k hk hclosed hnot := by
    have honce := h.connectDestroyed_once hk hclosed
    rw [List.count_eq_zero.mpr hnot, Nat.zero_add] at honce
    exact List.count_pos_iff.mp (by omega)
  functors id hframe := by
    have hdispatch := h.queued.inFunctors id hframe
    cases hpc : s.pc with
    | poll =>
        rw [h.queued.poll hpc] at hframe
        cases hframe
    | dispatch current rest =>
        rw [hpc] at hdispatch
        cases hdispatch
    | doPendingFunctors done rest => exact ⟨done, rest, rfl⟩
  poll hpc k hk hclosed := by
    obtain ⟨id, hid⟩ := List.getElem?_of_mem hk
    have hhistory := (h.objects.ok id k hid).history
    have hremoved := h.removed_at_poll hpc hid hclosed
    refine ⟨hhistory.mem_connectDestroyed.mpr ?_, hhistory.mem_removeChannel hremoved⟩
    rcases hremoved with hstage | hstage <;> rw [hstage] <;> simp
  openFds c hc := h.registered_open hc
  close k hk hmem := by
    obtain ⟨id, hid⟩ := List.getElem?_of_mem hk
    have hcases := (h.objects.ok id k hid).history.mem hmem
    simp [ending] at hcases

end Inv

/-- Deferred destruction keeps every dispatch safe, as long as no connection is accepted
under a name that its server's map still has. -/
theorem batch_safe {timerfd wakeupFd : Int} {as : List LoopAction}
    (hnew : new timerfd wakeupFd = some s₀) (htimerfd : 0 ≤ timerfd) (hwakeupFd : 0 ≤ wakeupFd)
    (hne : timerfd ≠ wakeupFd)
    (hrun : ((loopMachine.restrict FunctorsFit).restrict FreshName).Run s₀ as s) :
    s.BatchSafe :=
  ((new_inv hnew htimerfd hwakeupFd hne).inv_of_run hrun).batchSafe

/-- Two connections are closed in one batch, while a third one is accepted. -/
theorem batch_safe_closing :
    ∃ s : EventLoop, s.pc.isDispatch = true ∧ s.activeChannels.length = 3 ∧ s.BatchSafe := by
  obtain ⟨s₀, s, hnew, hrun, hdispatch, hlen⟩ := Machine.exists_run_from
    (M := (loopMachine.restrict FunctorsFit).restrict FreshName)
    (P := fun s : EventLoop => s.pc.isDispatch = true ∧ s.activeChannels.length = 3) (new 3 4)
    [.startServer "s" 5, .poll [0, 0, 1] 1, .handleEvent, .runHandler 7 (.error 0) (.ok 0),
      .callbackReturns, .doPendingFunctors, .endFunctors, .poll [0, 0, 1, 0] 1, .handleEvent,
      .runHandler 8 (.error 0) (.ok 0), .callbackReturns, .doPendingFunctors, .endFunctors,
      .poll [0, 0, 1, 1, 1] 3, .handleEvent, .runHandler 9 (.error 0) (.ok 0), .send 1 [1] (.ok 1),
      .callbackReturns, .handleEvent, .runHandler 0 (.bytes []) (.ok 0), .handleEvent,
      .runHandler 0 (.bytes []) (.ok 0)]
    (by decide +kernel)
  exact ⟨s, hdispatch, hlen, batch_safe hnew (by decide) (by decide) (by decide) hrun⟩

end EventLoop

end SecondGear
