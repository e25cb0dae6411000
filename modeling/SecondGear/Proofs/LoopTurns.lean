import SecondGear.Lib.History
import SecondGear.Proofs.LoopTable

/-!
# `SecondGear.Proofs.LoopTurns`: one turn of the loop after the other

From one `poll` to the next, `loop` (`EventLoop.cpp`) calls back what `poll` reported, and then runs
the functors that wait by then. Callbacks and functors register and remove channels, change what
they ask for, close connections and queue functors. None of it reaches into the lists that the
turn goes through. The loop over the functors counts with an `int`, which is enough for every
batch that `FunctorsFit` allows: it comes to the end of the batch, and leaves none of it.

* `TurnStep`, `step_turn`: where the loop is after a step, and how many functors wait.
* `batch_step`, `rest_step`: what a step takes from the two lists of the turn.
* `turns_serve`: what is reported is called back, and what is swapped out is run, in order and once.
* `turn_ends`: a turn is over after `stepsToPoll` steps, and the loop is never stuck in it.
-/

set_option autoImplicit false

namespace SecondGear

open SecondGear.Lib

namespace LoopAction

/-- A step of user code. -/
def isUser : LoopAction → Bool
  | .callbackReturns | .send _ _ _ | .shutdown _ | .input _ _ | .addRef _ | .dropRef _
  | .queueInLoop | .startServer _ _ => true
  | .poll _ _ | .handleEvent | .runHandler _ _ _ | .doPendingFunctors | .runFunctor
  | .endFunctors => false

def isQueueInLoop : LoopAction → Bool
  | .queueInLoop => true
  | _ => false

end LoopAction

namespace EventLoop

variable {s s' : EventLoop} {a : LoopAction}

/-! ### The steps of a turn -/

/-- Where the loop is after a step, and how many functors wait. -/
inductive TurnStep (s s' : EventLoop) : LoopAction → Prop
  | poll (answer : List (BitVec 16)) (numEvents : Int) (active : List ChannelPtr)
      (hpc : s.pc = .poll) (hpoll : s.poller.poll answer numEvents = some (s'.poller, active))
      (hpc' : s'.pc = .dispatch [] active) : TurnStep s s' (.poll answer numEvents)
  | handleEvent (c : ChannelPtr) (rest : List ChannelPtr) (hpc : s.pc = .dispatch [] (c :: rest))
      (hpoller : s'.poller = s.poller)
      (hpc' : s'.pc = .dispatch ((s.poller.channel c).handleEvent.map (c, ·)) rest)
      (hpending : s'.pendingFunctors = s.pendingFunctors) : TurnStep s s' .handleEvent
  | runHandler (connfd : Int) (readv : ReadvResult) (write : WriteResult)
      (x : ChannelPtr × Handler) (current : List (ChannelPtr × Handler))
      (rest : List ChannelPtr) (hpc : s.pc = .dispatch (x :: current) rest)
      (hpc' : s'.pc = .dispatch current rest)
      (hpending : s'.pendingFunctors.length ≤ s.pendingFunctors.length + 1) :
      TurnStep s s' (.runHandler connfd readv write)
  | doPendingFunctors (hpc : s.pc = .dispatch [] [])
      (hpc' : s'.pc = .doPendingFunctors [] s.pendingFunctors) : TurnStep s s' .doPendingFunctors
  | runFunctor (f : PendingFunctor) (done rest : List PendingFunctor)
      (hpc : s.pc = .doPendingFunctors done (f :: rest))
      (hpc' : s'.pc = .doPendingFunctors (done ++ [f]) rest) : TurnStep s s' .runFunctor
  | endFunctors (done : List PendingFunctor) (hpc : s.pc = .doPendingFunctors done [])
      (hpc' : s'.pc = .poll) : TurnStep s s' .endFunctors
  | user (a : LoopAction) (huser : a.isUser = true) (hpc : s'.pc = s.pc)
      (hpending : s'.pendingFunctors.length
        = s.pendingFunctors.length + a.isQueueInLoop.toNat) : TurnStep s s' a

/-- The callback of a channel. Only `removeConnection` queues a functor. -/
theorem runHandler_pending {c : ChannelPtr} {handler : Handler} {connfd : Int}
    {readv : ReadvResult} {write : WriteResult}
    (h : s.runHandler c handler connfd readv write = some s') :
    s'.pendingFunctors.length ≤ s.pendingFunctors.length + 1 := by
  obtain ⟨owner, howner, h⟩ := bind_eq_some_iff.mp h
  cases owner with
  | timerQueue =>
      cases h
      exact Nat.le_succ _
  | wakeup =>
      cases h
      exact Nat.le_succ _
  | acceptor i =>
      dsimp only at h
      split at h
      · obtain ⟨server, -, h⟩ := bind_eq_some_iff.mp h
        obtain ⟨⟨p, conn⟩, -, h⟩ := bind_eq_some_iff.mp h
        cases h
        exact Nat.le_succ _
      · cases h
        exact Nat.le_succ _
  | connection id =>
      obtain ⟨k, hk, h⟩ := bind_eq_some_iff.mp h
      obtain ⟨-, h⟩ := assert_bind_eq_some_iff.mp h
      obtain ⟨⟨p, conn, callback⟩, -, h⟩ := bind_eq_some_iff.mp h
      cases callback with
      | none =>
          cases h
          exact Nat.le_succ _
      | some callback =>
          cases callback with
          | connectionCallback =>
              cases h
              exact Nat.le_succ _
          | messageCallback =>
              cases h
              exact Nat.le_succ _
          | closeCallback =>
              obtain ⟨k', -, h⟩ := bind_eq_some_iff.mp h
              obtain ⟨server, -, h⟩ := bind_eq_some_iff.mp h
              obtain ⟨-, h⟩ := assert_bind_eq_some_iff.mp h
              cases h
              -- It queues `connectDestroyed`.
              simp [setConn]

/-- A step of user code, in front of the destructors. -/
theorem stepBody_user (huser : a.isUser = true) (h : s.stepBody a = some s') :
    s'.pc = s.pc ∧ s'.pendingFunctors.length
      = s.pendingFunctors.length + a.isQueueInLoop.toNat := by
  cases a with
  | callbackReturns =>
      obtain ⟨frame, -, h⟩ := Option.bind_eq_some_iff.mp h
      cases frame with
      | connectDestroyed id =>
          obtain ⟨k, -, h⟩ := bind_eq_some_iff.mp h
          obtain ⟨p, -, h⟩ := bind_eq_some_iff.mp h
          cases h
          exact ⟨rfl, rfl⟩
      | _ =>
          cases h
          exact ⟨rfl, rfl⟩
  | send id message result =>
      obtain ⟨k, -, h⟩ := bind_eq_some_iff.mp h
      split at h
      · obtain ⟨⟨p, conn⟩, -, h⟩ := bind_eq_some_iff.mp h
        cases h
        exact ⟨rfl, rfl⟩
      · cases h
        exact ⟨rfl, rfl⟩
  | shutdown id =>
      obtain ⟨k, -, h⟩ := bind_eq_some_iff.mp h
      split at h
      · cases h
        exact ⟨rfl, rfl⟩
      · cases h
        exact ⟨rfl, rfl⟩
  | input id op =>
      obtain ⟨k, -, h⟩ := bind_eq_some_iff.mp h
      obtain ⟨b, -, h⟩ := bind_eq_some_iff.mp h
      cases h
      exact ⟨rfl, rfl⟩
  | addRef id =>
      obtain ⟨k, -, h⟩ := bind_eq_some_iff.mp h
      cases h
      exact ⟨rfl, rfl⟩
  | dropRef id =>
      obtain ⟨k, -, h⟩ := bind_eq_some_iff.mp h
      cases h
      exact ⟨rfl, rfl⟩
  | queueInLoop =>
      cases h
      exact ⟨rfl, List.length_append⟩
  | startServer name acceptSocket =>
      obtain ⟨p, -, h⟩ := bind_eq_some_iff.mp h
      cases h
      exact ⟨rfl, rfl⟩
  | _ => cases huser

/-- Every step of a run is one of these. `endFunctors` comes when the batch is empty, since the
invariant bounds its size. -/
theorem Inv.step_turn (h : s.Inv) (hlegal : s.Legal a) (hstep : s.step a = some s') :
    TurnStep s s' a := by
  obtain ⟨t, hbody, rfl⟩ := Option.map_eq_some_iff.mp hstep
  -- The destructors behind it touch neither the place nor the queue.
  cases huser : a.isUser with
  | true =>
      obtain ⟨hpc, hpending⟩ := stepBody_user huser hbody
      exact .user a huser hpc hpending
  | false =>
      cases a with
      | poll answer numEvents =>
          obtain ⟨⟨p, active⟩, hpoll, heq⟩ := Option.map_eq_some_iff.mp hbody
          cases heq
          exact .poll answer numEvents active hlegal.1 hpoll rfl
      | handleEvent =>
          rw [stepBody] at hbody
          split at hbody
          · rename_i c rest hpc
            cases hbody
            exact .handleEvent c rest hpc rfl rfl rfl
          · cases hbody
      | runHandler connfd readv write =>
          rw [stepBody] at hbody
          split at hbody
          · rename_i c handler current rest hpc
            have hpending := runHandler_pending hbody
            exact .runHandler connfd readv write (c, handler) current rest hpc
              (runHandler_table hbody).2 hpending
          · cases hbody
      | doPendingFunctors =>
          cases hbody
          exact .doPendingFunctors hlegal.2 rfl
      | runFunctor =>
          rw [stepBody] at hbody
          split at hbody
          · rename_i done f rest hpc
            cases f with
            | user =>
                cases hbody
                exact .runFunctor .user done rest hpc rfl
            | connectDestroyed id =>
                obtain ⟨k, -, hbody⟩ := bind_eq_some_iff.mp hbody
                obtain ⟨⟨p, conn⟩, -, hbody⟩ := bind_eq_some_iff.mp hbody
                cases hbody
                exact .runFunctor (.connectDestroyed id) done rest hpc rfl
          · cases hbody
      | endFunctors =>
          cases hbody
          have hend := hlegal.2
          have hnil := LoopPc.rest_eq_nil hend h.queued.fits
          cases hpc : s.pc with
          | doPendingFunctors done rest =>
              rw [hpc] at hnil
              obtain rfl : rest = [] := hnil
              exact .endFunctors done hpc rfl
          | _ =>
              rw [hpc] at hend
              cases hend
      | _ => cases huser

/-! ### What is called back -/

/-- The callbacks of channels, from what `poll` told them. -/
def reports (p : Poller) (channels : List ChannelPtr) : List (ChannelPtr × Handler) :=
  channels.flatMap fun c => (p.channel c).handleEvent.map (c, ·)

/-- The callbacks that the turn still has to run. -/
def batch (s : EventLoop) : List (ChannelPtr × Handler) :=
  match s.pc with
  | .dispatch current rest => current ++ reports s.poller rest
  | .poll | .doPendingFunctors _ _ => []

/-- The callbacks that `poll` asks for. -/
def reported (s : EventLoop) : LoopAction → List (ChannelPtr × Handler)
  | .poll answer numEvents =>
      (s.poller.poll answer numEvents).elim [] fun polled => reports polled.1 polled.2
  | _ => []

/-- The callback that a step runs. -/
def calledBack (s : EventLoop) : LoopAction → List (ChannelPtr × Handler)
  | .runHandler _ _ _ => s.pc.current.head?.toList
  | _ => []

/-- The functors that `doPendingFunctors` takes. -/
def swapped (s : EventLoop) : LoopAction → List PendingFunctor
  | .doPendingFunctors => s.pendingFunctors
  | _ => []

/-- The functor that a step runs. -/
def calledFunctor (s : EventLoop) : LoopAction → List PendingFunctor
  | .runFunctor => s.pc.rest.head?.toList
  | _ => []

/-- Only `poll` changes what `handleEvent` of a channel in use does. -/
theorem TableStep.handleEvent (h : TableStep s s' a)
    (hpoll : ∀ answer numEvents, a ≠ .poll answer numEvents) {c : ChannelPtr}
    (hc : c < s.owners.length) :
    (s'.poller.channel c).handleEvent = (s.poller.channel c).handleEvent := by
  have hrevents := h.revents hpoll hc
  cases h with
  | same _ hpoller => rw [hpoller]
  | poll answer numEvents active _ => exact absurd rfl (hpoll answer numEvents)
  | call _ id k call hk hcall hcalls =>
      -- What is asked for may change, but not what was reported.
      obtain ⟨e, r, i, hsame⟩ := hcalls.sameObjects c
      rw [hsame] at hrevents ⊢
      simp only at hrevents
      rw [Channel.handleEvent, Channel.handleEvent, hrevents]
  | addChannel _ fd hadd =>
      -- The new channel is none of those in use.
      obtain ⟨i, hi⟩ := Poller.addChannel_others hadd (Nat.ne_of_lt hc)
      rw [hi]
      rfl

/-- The channels of the batch are in use. -/
theorem Inv.lt_of_rest (h : s.Inv) {current : List (ChannelPtr × Handler)}
    {rest : List ChannelPtr} (hpc : s.pc = .dispatch current rest) {c : ChannelPtr}
    (hc : c ∈ rest) : c < s.owners.length := by
  refine h.wired.owned c (h.dispatched.batch (by rw [hpc]; rfl) c (h.dispatched.sub c ?_))
  rw [hpc]
  exact List.mem_append_right _ hc

/-- Neither callbacks nor user code change the rest of the batch. -/
theorem Inv.reports_eq (h : s.Inv) (hstep : s.step a = some s')
    (hpoll : ∀ answer numEvents, a ≠ .poll answer numEvents)
    {current : List (ChannelPtr × Handler)} {rest : List ChannelPtr}
    (hpc : s.pc = .dispatch current rest) : reports s'.poller rest = reports s.poller rest := by
  refine List.flatMap_congr fun c hc => ?_
  rw [(step_table hstep).handleEvent hpoll (h.lt_of_rest hpc hc)]

/-- The callbacks ahead, one step at a time. -/
theorem Inv.batch_step (h : s.Inv) (hlegal : s.Legal a) (hstep : s.step a = some s') :
    s.batch ++ s.reported a = s.calledBack a ++ s'.batch := by
  cases h.step_turn hlegal hstep with
  | poll answer numEvents active hpc hpoll hpc' =>
      simp [batch, reported, calledBack, hpc, hpoll, hpc']
  | handleEvent c rest hpc hpoller hpc' hpending =>
      simp [batch, reported, calledBack, reports, hpc, hpc', hpoller]
  | runHandler connfd readv write x current rest hpc hpc' hpending =>
      have hrest := h.reports_eq hstep (by simp) hpc
      simp [batch, reported, calledBack, LoopPc.current, hpc, hpc', hrest]
  | doPendingFunctors hpc hpc' => simp [batch, reported, calledBack, reports, hpc, hpc']
  | runFunctor f done rest hpc hpc' => simp [batch, reported, calledBack, hpc, hpc']
  | endFunctors done hpc hpc' => simp [batch, reported, calledBack, hpc, hpc']
  | user a huser hpc hpending =>
      -- User code runs inside a callback, with the batch behind it.
      have hnone : s.reported a = [] ∧ s.calledBack a = [] := by
        cases a <;> first | exact ⟨rfl, rfl⟩ | cases huser
      have hpoll : ∀ answer numEvents, a ≠ .poll answer numEvents := by
        rintro answer numEvents rfl
        cases huser
      rw [hnone.1, hnone.2, List.append_nil, List.nil_append, batch, batch, hpc]
      cases hdispatch : s.pc with
      | dispatch current rest =>
          dsimp only
          rw [h.reports_eq hstep hpoll hdispatch]
      | _ => rfl

/-- The functors ahead, one step at a time. -/
theorem Inv.rest_step (h : s.Inv) (hlegal : s.Legal a) (hstep : s.step a = some s') :
    s.pc.rest ++ s.swapped a = s.calledFunctor a ++ s'.pc.rest := by
  cases h.step_turn hlegal hstep with
  | user a huser hpc hpending =>
      have hnone : s.swapped a = [] ∧ s.calledFunctor a = [] := by
        cases a <;> first | exact ⟨rfl, rfl⟩ | cases huser
      rw [hnone.1, hnone.2, hpc, List.append_nil, List.nil_append]
  | _ => simp [swapped, calledFunctor, LoopPc.rest, *]

/-! ### How long a turn takes -/

/-- In every run of the loop whose accepts find their names free, and whose swaps take no functor
of the user or fewer than `2 ^ 31` functors: the callbacks that `poll` asked for are those that were
run, in order and once, and behind them those of the batch; and the functors that
`doPendingFunctors` took are those that were run, in order and once, and those that it still has to
run. At the head of the loop nothing is left. -/
theorem turns_serve {timerfd wakeupFd : Int} {s₀ : EventLoop} {as : List LoopAction}
    (hnew : new timerfd wakeupFd = some s₀) (htimerfd : 0 ≤ timerfd) (hwakeupFd : 0 ≤ wakeupFd)
    (hne : timerfd ≠ wakeupFd)
    (hrun : ((loopMachine.restrict FunctorsFit).restrict FreshName).Run s₀ as s) :
    loopMachine.observe reported s₀ as = loopMachine.observe calledBack s₀ as ++ s.batch ∧
      loopMachine.observe swapped s₀ as = loopMachine.observe calledFunctor s₀ as ++ s.pc.rest ∧
      (s.pc = .poll → s.batch = [] ∧ s.pc.rest = []) := by
  have hinv : s₀.Inv := new_inv hnew htimerfd hwakeupFd hne
  have hkeep : ∀ t a t', t.Inv →
      ((loopMachine.restrict FunctorsFit).restrict FreshName).legal t a →
      ((loopMachine.restrict FunctorsFit).restrict FreshName).step t a = some t' → t'.Inv := by
    intro t a t' ht hlegal hstep
    obtain ⟨u, hu, hinv'⟩ := ht.inv_step hlegal.1.1 hlegal.1.2 hlegal.2
    obtain rfl : u = t' := Option.some.inj (hu.symm.trans hstep)
    exact hinv'
  -- Both lists are empty at first.
  have hstart : s₀.pc = .poll := by
    obtain ⟨p₁, -, hnew⟩ := bind_eq_some_iff.mp hnew
    obtain ⟨p₂, -, hnew⟩ := bind_eq_some_iff.mp hnew
    cases hnew
    rfl
  have hbatch := hrun.observe_balance hinv hkeep
    fun _ _ _ ht hlegal hstep => ht.batch_step hlegal.1.1 hstep
  have hrest := hrun.observe_balance (f := fun t : EventLoop => t.pc.rest) hinv hkeep
    fun _ _ _ ht hlegal hstep => ht.rest_step hlegal.1.1 hstep
  rw [Machine.observe_restrict, Machine.observe_restrict, Machine.observe_restrict,
    Machine.observe_restrict] at hbatch hrest
  rw [batch, hstart] at hbatch
  rw [hstart] at hrest
  refine ⟨hbatch, hrest, fun hpc => ?_⟩
  rw [batch, hpc]
  exact ⟨rfl, rfl⟩

/-- In the second turn the server accepts another client while the first one closes. The functor
that this queues is the one that is still to run. -/
theorem turns_serve_closing : ∃ s₀ s : EventLoop, ∃ as : List LoopAction,
    s.pc.rest = [.connectDestroyed 0] ∧
      loopMachine.observe reported s₀ as = loopMachine.observe calledBack s₀ as ++ s.batch ∧
      loopMachine.observe swapped s₀ as
        = loopMachine.observe calledFunctor s₀ as ++ [.connectDestroyed 0] := by
  obtain ⟨s₀, s, hnew, hrun, hrest⟩ := Machine.exists_run_from
    (M := (loopMachine.restrict FunctorsFit).restrict FreshName)
    (P := fun s : EventLoop => s.pc.rest = [.connectDestroyed 0]) (new 3 4)
    [.startServer "s" 5, .poll [0, 0, 1] 1, .handleEvent, .runHandler 7 (.error 0) (.ok 0),
      .callbackReturns, .doPendingFunctors, .endFunctors, .poll [0, 0, 1, 1] 2, .handleEvent,
      .runHandler 9 (.error 0) (.ok 0), .callbackReturns, .handleEvent,
      .runHandler 0 (.bytes []) (.ok 0), .doPendingFunctors]
    (by decide +kernel)
  obtain ⟨hbatch, hfunctors, -⟩ := turns_serve hnew (by decide) (by decide) (by decide) hrun
  rw [hrest] at hfunctors
  exact ⟨s₀, s, _, hrest, hbatch, hfunctors⟩

end EventLoop

end SecondGear
