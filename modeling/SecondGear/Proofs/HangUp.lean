import SecondGear.Proofs.DeferredDestruction
import SecondGear.Proofs.LoopObjects

/-!
# `SecondGear.Proofs.HangUp`: hang-ups and errors of a connection

`Channel::handleEvent` has a close callback for `POLLHUP` without `POLLIN` and an error
callback for `POLLERR`. The constructor of a connection installs neither, only the read
callback. So a hang-up and an error come through to the connection only when `poll` reports
something to read with them. Then it is `readv` that tells `handleRead` which one it is.

* `Inv.closePath_iff`, `callsHandleError_iff`: which reports close the connection, and which
  ones reach `handleError`.
* `hang_up_handled_iff`: in every run, a dispatch handles hang-ups and errors exactly if
  `ReadTells` says so.
* `not_hang_up_handled`: a hang-up alone is dropped.
-/

set_option autoImplicit false

namespace SecondGear

open SecondGear.Lib

/-! ### What `poll` reports -/

namespace Channel

/-- `POLLHUP` without `POLLIN`. -/
def HangsUp (ch : Channel) : Prop := ch.revents &&& POLLHUP ≠ 0#32 ∧ ch.revents &&& POLLIN = 0#32

/-- `POLLERR` -/
def HasError (ch : Channel) : Prop := ch.revents &&& POLLERR ≠ 0#32

/-- The events that `handleEvent` calls the read callback for. -/
def HasInput (ch : Channel) : Prop :=
  ch.revents &&& (POLLIN ||| POLLPRI ||| POLLRDHUP) ≠ 0#32

instance (ch : Channel) : Decidable ch.HangsUp := inferInstanceAs (Decidable (_ ∧ _))
instance (ch : Channel) : Decidable ch.HasError := inferInstanceAs (Decidable (_ ≠ _))
instance (ch : Channel) : Decidable ch.HasInput := inferInstanceAs (Decidable (_ ≠ _))

/-- The read callback comes with a hang-up and finds the end of the stream, and it comes with
an error and finds that one. -/
def ReadTells (ch : Channel) (readv : ReadvResult) : Prop :=
  (ch.HangsUp → ch.HasInput ∧ readv = .bytes []) ∧
    (ch.HasError → ch.HasInput ∧ ∃ errno, readv = .error errno)

/-- A channel with the read callback only. -/
theorem ReadsOnly.mem_handleEvent {ch : Channel} (h : ch.ReadsOnly) {handler : Handler} :
    handler ∈ ch.handleEvent ↔ handler = .handleRead ∧ ch.HasInput := by
  rw [h.handleEvent_eq, HasInput]
  split <;> simp_all

end Channel

namespace TcpConnection

/-- A callback of the channel calls `handleError`: its own one, and `handleRead` after a read
that failed. -/
def CallsHandleError (conn : TcpConnection) (readv : ReadvResult) : Handler → Prop
  | .handleError => True
  | .handleRead => ∃ b n errno, conn.inputBuffer.readFd 0 readv = some (b, n, errno) ∧ n < 0
  | .handleWrite | .handleClose => False

end TcpConnection

/-- What `readFd` returns says what `readv` returned. -/
theorem readFd_value {b b' : Buffer} (h : b.Wf) {readv : ReadvResult} {n errno : Int}
    (hread : b.readFd 0 readv = some (b', n, errno)) :
    (n = 0 ↔ readv = .bytes []) ∧ (n < 0 ↔ ∃ e, readv = .error e) := by
  cases readv with
  | error e =>
      cases hread
      simp
  | bytes bs =>
      obtain ⟨b₁, hcall, -⟩ := Buffer.readFd_spec h 0 bs
      rw [hcall, Option.some.injEq, Prod.mk.injEq, Prod.mk.injEq] at hread
      rw [← hread.2.1]
      constructor
      · simp
      · simp

/-! ### Dispatching -/

namespace EventLoop

open ConnectionObject Channel

variable {s₀ s s' t : EventLoop} {id : TcpConnectionPtr} {k : ConnectionObject}
  {c : ChannelPtr} {rest : List ChannelPtr}

/-- What the loop does for one `handleEvent`, with what the kernel returns to the callbacks. -/
def handleEventActions (s : EventLoop) (c : ChannelPtr) (readv : ReadvResult)
    (write : WriteResult) : List LoopAction :=
  .handleEvent :: (s.poller.channel c).handleEvent.map fun _ => .runHandler (-1) readv write

/-- Neither a server's map nor the table has the connection. -/
structure Gone (s : EventLoop) (id : TcpConnectionPtr) : Prop where
  unlisted : ∀ server ∈ s.servers, ∀ e ∈ server.connections.entries, e.2 ≠ id
  unregistered : ∀ c, s.owners[c]? = some (.connection id) → ¬ s.poller.Registered c

/-- From `s` to `s'` a connection was closed. -/
structure ClosePath (s s' : EventLoop) (id : TcpConnectionPtr) : Prop where
  /-- `handleClose` ran once, and `removeConnection` found the connection -/
  trace : ∃ k k', s.conns[id]? = some k ∧ s'.conns[id]? = some k' ∧
    k'.trace = k.trace ++ [.handleClose, .closeCallback, .erase 1]
  queued : .connectDestroyed id ∈ s'.pendingFunctors
  /-- nothing is erased for it a second time -/
  once : ∀ as t, ((loopMachine.restrict FunctorsFit).restrict FreshName).Run s' as t →
    ∀ k ∈ t.conns[id]?, k.trace.count (.erase 1) = 1
  /-- it is gone when the loop polls again -/
  gone : ∀ as t, ((loopMachine.restrict FunctorsFit).restrict FreshName).Run s' as t →
    t.pc = .poll → t.Gone id

/-- One `handleEvent` of a connection's channel does what `poll` reported. -/
def HangUpHandled (s : EventLoop) (c : ChannelPtr) (id : TcpConnectionPtr)
    (readv : ReadvResult) (write : WriteResult) : Prop :=
  ∃ s', loopMachine.Run s (s.handleEventActions c readv write) s' ∧
    ((s.poller.channel c).HangsUp → s.ClosePath s' id) ∧
    ((s.poller.channel c).HasError → ∃ handler ∈ (s.poller.channel c).handleEvent,
      ∃ k ∈ s.conns[id]?, k.conn.CallsHandleError readv handler)

/-! ### A connection that was closed -/

/-- A closed connection was erased once. -/
theorem count_erase (h : k.History) (hclosed : .handleClose ∈ k.trace) :
    k.trace.count (.erase 1) = 1 := by
  have hstage : k.stage ≠ .established := fun heq => h.established_iff.mp heq hclosed
  obtain ⟨n, hn⟩ := h
  have herase : ConnectionEvent.erase 1 ∉ opening n := fun hmem => by simpa using mem_opening hmem
  rw [count_history hn herase]
  cases hs : k.stage with
  | established => exact absurd hs hstage
  | _ => decide

namespace Inv

/-- The maps have only established connections. -/
theorem unlisted (h : s.Inv) (hstage : s.stageOf id ≠ some .established) :
    ∀ server ∈ s.servers, ∀ e ∈ server.connections.entries, e.2 ≠ id := by
  rintro server hserver e he rfl
  obtain ⟨i, hi⟩ := List.getElem?_of_mem hserver
  have hlookup : server.connections.lookup e.1 = some e.2 := AList.mem_lookup_iff.mpr he
  exact hstage ((h.listed.listed i server e.1 e.2 hi).mp hlookup).2

/-- When the loop polls, a connection that was closed is gone. -/
theorem gone (h : s.Inv) (hpc : s.pc = .poll) (hk : s.conns[id]? = some k)
    (hclosed : .handleClose ∈ k.trace) : s.Gone id where
  unlisted := by
    refine h.unlisted ?_
    rw [stageOf_eq hk, Ne, Option.some.injEq]
    exact fun heq => (h.objects.ok id k hk).history.established_iff.mp heq hclosed
  unregistered c howner hreg := by
    obtain ⟨d, hd, hdc⟩ := h.objects.owner c id howner
    rw [hk, Option.some.injEq] at hd
    rw [← hdc, ← hd] at hreg
    have hregistered := (h.wired.conn id k hk).registered.mp hreg
    rcases h.removed_at_poll hpc hk hclosed with hstage | hstage <;>
      rw [hstage] at hregistered <;> cases hregistered

/-- After `handleClose` and `removeConnection` the rest of the close path follows. -/
theorem closePath (h : s'.Inv) {k' : ConnectionObject} (hk : s.conns[id]? = some k)
    (hk' : s'.conns[id]? = some k')
    (htrace : k'.trace = k.trace ++ [.handleClose, .closeCallback, .erase 1])
    (hqueued : .connectDestroyed id ∈ s'.pendingFunctors) : s.ClosePath s' id := by
  -- Histories only grow, so the connection is a closed one in every later state.
  have hlater : ∀ as t, ((loopMachine.restrict FunctorsFit).restrict FreshName).Run s' as t →
      t.Inv ∧ ∃ d, t.conns[id]? = some d ∧ .handleClose ∈ d.trace := by
    intro as t hrun
    obtain ⟨d, hd, hlater⟩ := later_of_run rfl hrun hk'
    refine ⟨h.inv_of_run hrun, d, hd, hlater.trace.subset ?_⟩
    rw [htrace]
    simp
  refine ⟨⟨k, k', hk, hk', htrace⟩, hqueued, fun as t hrun d hd => ?_, fun as t hrun hpc => ?_⟩
  · obtain ⟨hinv, d', hd', hclosed⟩ := hlater as t hrun
    rw [show t.conns[id]? = some d from hd, Option.some.injEq] at hd'
    exact count_erase (hinv.objects.ok id d hd).history (hd' ▸ hclosed)
  · obtain ⟨hinv, d, hd, hclosed⟩ := hlater as t hrun
    exact hinv.gone hpc hd hclosed

/-! ### The steps of a dispatch -/

/-- The destructors leave a connection alone whose channel is registered. -/
theorem getElem?_release_of_registered (h : s.Inv) (hk : s.conns[id]? = some k)
    (hstage : k.stage.isRegistered) : s.release.conns[id]? = some k := by
  rw [getElem?_release, hk, Option.map_some]
  rcases h.releaseObject_cases hk with hsame | ⟨hremoved, -⟩
  · rw [hsame]
  · rw [hremoved] at hstage
    cases hstage

/-- The channel's turn: its callbacks are next, and nothing else happened. -/
theorem run_handleEvent (h : s.Inv) (hpc : s.pc = .dispatch [] (c :: rest))
    (hframe : s.frame = none) (hk : s.conns[id]? = some k) (hstage : k.stage.isRegistered) :
    ∃ s', loopMachine.Run s [.handleEvent] s' ∧ s'.Inv ∧
      s'.pc = .dispatch ((s.poller.channel c).handleEvent.map (c, ·)) rest ∧ s'.frame = none ∧
      s'.owners = s.owners ∧ s'.conns[id]? = some k := by
  obtain ⟨t, hbody, hinv⟩ := h.inv_handleEvent hpc
  have hlegal : s.Legal .handleEvent := ⟨hframe, by rw [hpc]; rfl⟩
  have hstep : s.step .handleEvent = some t.release := by
    rw [step, hbody]
    rfl
  rw [stepBody, hpc] at hbody
  cases hbody
  exact ⟨_, .single hlegal hstep, hinv.inv_release, rfl, hframe, rfl,
    hinv.getElem?_release_of_registered hk hstage⟩

end Inv

/-- `handleRead` in front of the end of the stream leaves the history of the connection
open. -/
theorem connectionHandler_trace {readv : ReadvResult} {write : WriteResult} {b : Buffer}
    {n errno : Int} (hk : s.conns[id]? = some k)
    (hread : k.conn.inputBuffer.readFd 0 readv = some (b, n, errno)) (hn : n ≠ 0)
    (hcall : s.connectionHandler id .handleRead readv write = some s') :
    ∃ k', s'.conns[id]? = some k' ∧
      (k'.trace = k.trace ++ [.messageCallback] ∨ k'.trace = k.trace) := by
  obtain ⟨k₁, hk₁, hcall⟩ := bind_eq_some_iff.mp hcall
  obtain ⟨-, hcall⟩ := assert_bind_eq_some_iff.mp hcall
  obtain ⟨⟨p, conn, callback⟩, hrun, hcall⟩ := bind_eq_some_iff.mp hcall
  rw [hk, Option.some.injEq] at hk₁
  subst hk₁
  obtain ⟨b₁, n₁, errno₁, hread₁, rfl, hcases⟩ := TcpConnection.handleRead_spec hrun
  rw [hread, Option.some.injEq, Prod.mk.injEq, Prod.mk.injEq] at hread₁
  obtain ⟨rfl, rfl, rfl⟩ := hread₁
  rcases hcases with ⟨-, rfl, -⟩ | ⟨hzero, -⟩ | ⟨-, rfl, -⟩
  · -- data
    cases hcall
    exact ⟨_, conns_set_self hk _, Or.inl rfl⟩
  · exact absurd hzero hn
  · -- an error
    cases hcall
    exact ⟨_, conns_set_self hk _, Or.inr rfl⟩

namespace Inv

/-- `handleRead` closes the connection exactly at the end of the stream. -/
theorem run_handleRead (h : s.Inv) (hpc : s.pc = .dispatch [(c, .handleRead)] rest)
    (hframe : s.frame = none) (howner : s.owners[c]? = some (.connection id))
    (hk : s.conns[id]? = some k) (readv : ReadvResult) (write : WriteResult) :
    ∃ s', loopMachine.Run s [.runHandler (-1) readv write] s' ∧
      (s.ClosePath s' id ↔ readv = .bytes []) := by
  have htodo : s.pc.todo = c :: rest := by
    rw [hpc]
    rfl
  have hmem : c ∈ s.pc.todo := by
    rw [htodo]
    exact List.mem_cons_self
  have hok := h.objects.ok id k hk
  have hstage : k.stage = .established := h.dispatched.stage_eq hmem howner hk
  -- No channel comes twice in a batch.
  have hdone : k.conn.channel ∉ rest := by
    have hnodup := h.dispatched.nodup
    obtain ⟨d, hd, hdc⟩ := h.objects.owner c id howner
    rw [hk, Option.some.injEq] at hd
    rw [htodo] at hnodup
    rw [hd, hdc]
    exact (List.nodup_cons.mp hnodup).1
  have htail := h.of_dispatch_tail hpc
  have hlegal : s.Legal (.runHandler (-1) readv write) :=
    ⟨hframe, by rw [hpc]; rfl, fun hneg => absurd hneg (by decide)⟩
  have hstep : ∀ t, ({ s with pc := .dispatch [] rest } : EventLoop).connectionHandler id
      .handleRead readv write = some t →
      s.step (.runHandler (-1) readv write) = some t.release := by
    intro t hcall
    have hbody : s.stepBody (.runHandler (-1) readv write) = some t := by
      rw [stepBody, hpc]
      show EventLoop.runHandler _ c .handleRead (-1) readv write = some t
      rw [runHandler, show EventLoop.owners _ = s.owners from rfl, howner]
      exact hcall
    rw [step, hbody]
    rfl
  obtain ⟨b, n, errno, hread, hb⟩ := readFd_returns hok.input readv
  have hvalue := (readFd_value hok.input hread).1
  by_cases hzero : n = 0
  · -- The end of the stream.
    obtain ⟨p', server, -, hcall, hinv⟩ :=
      htail.inv_readClose rfl hk hstage hdone (hzero ▸ hread) hb write
    have hnew := closingObject_stage k b
    have hget := conns_set_self hk (closingObject k b)
    refine ⟨_, .single hlegal (hstep _ hcall), iff_of_true ?_ (hvalue.mp hzero)⟩
    refine hinv.inv_release.closePath hk
      (hinv.getElem?_release_of_registered hget (by rw [hnew]; rfl)) ?_ ?_
    · show k.trace ++ [.handleClose, .closeCallback] ++ [.erase 1] = _
      rw [List.append_assoc]
      rfl
    · exact List.mem_append_right _ List.mem_cons_self
  -- Data or an error: the connection stays established, and its history open.
  · obtain ⟨t, hcall, hinv⟩ :=
      htail.inv_connectionHandler hframe rfl hk hstage hdone readv write
    obtain ⟨k', hk', htrace⟩ := connectionHandler_trace (s := { s with pc := .dispatch [] rest })
      hk hread hzero hcall
    have hopen : .handleClose ∉ k'.trace := by
      have hold := hok.history.established_iff.mp hstage
      rcases htrace with htrace | htrace <;> rw [htrace] <;> simpa using hold
    have hstage' := (hinv.objects.ok id k' hk').history.established_iff.mpr hopen
    refine ⟨_, .single hlegal (hstep _ hcall), iff_of_false ?_ (hvalue.not.mp hzero)⟩
    rintro ⟨⟨k₁, k₂, -, hk₂, hclosed⟩, -⟩
    rw [hinv.getElem?_release_of_registered hk' (by rw [hstage']; rfl), Option.some.injEq] at hk₂
    rw [hk₂, hclosed] at hopen
    simp at hopen

/-! ### A whole dispatch -/

/-- A channel of the batch has the read callback only. -/
theorem readsOnly_of_next (h : s.Inv) (hpc : s.pc = .dispatch [] (c :: rest)) :
    (s.poller.channel c).ReadsOnly := by
  have hmem : c ∈ s.activeChannels := by
    refine h.dispatched.sub c ?_
    rw [hpc]
    exact List.mem_cons_self
  have hreg := h.dispatched.batch (by rw [hpc]; rfl) c hmem
  exact h.wired.reads c (h.wired.owned c hreg)

/-- One `handleEvent` returns. It closes the connection if it reads the end of the stream,
and otherwise it does not. -/
theorem closePath_iff (h : s.Inv) (hpc : s.pc = .dispatch [] (c :: rest))
    (hframe : s.frame = none) (howner : s.owners[c]? = some (.connection id))
    (readv : ReadvResult) (write : WriteResult) :
    ∃ s', loopMachine.Run s (s.handleEventActions c readv write) s' ∧
      (s.ClosePath s' id ↔ (s.poller.channel c).HasInput ∧ readv = .bytes []) := by
  have hreads := h.readsOnly_of_next hpc
  obtain ⟨k, hk, hkc⟩ := h.objects.owner c id howner
  have hstage : k.stage = .established :=
    h.dispatched.stage_eq (by rw [hpc]; exact List.mem_cons_self) howner hk
  obtain ⟨s₁, hrun, hinv, hpc₁, hframe₁, howners₁, hk₁⟩ :=
    h.run_handleEvent hpc hframe hk (by rw [hstage]; rfl)
  rw [handleEventActions]
  by_cases hinput : (s.poller.channel c).HasInput
  · -- The read callback runs.
    have hhandlers : (s.poller.channel c).handleEvent = [.handleRead] := by
      rw [hreads.handleEvent_eq, if_pos (by simpa [HasInput] using hinput)]
    rw [hhandlers] at hpc₁ ⊢
    rw [← howners₁] at howner
    obtain ⟨s₂, hrun₂, hiff⟩ := hinv.run_handleRead hpc₁ hframe₁ howner hk₁ readv write
    refine ⟨s₂, hrun.append hrun₂, Iff.trans ?_ (hiff.trans (by simp [hinput]))⟩
    -- The connection is the same in front of the callback.
    exact ⟨fun hclose =>
        ⟨by rw [hk₁, ← hk]; exact hclose.trace, hclose.queued, hclose.once, hclose.gone⟩,
      fun hclose =>
        ⟨by rw [hk, ← hk₁]; exact hclose.trace, hclose.queued, hclose.once, hclose.gone⟩⟩
  · -- No callback runs.
    have hhandlers : (s.poller.channel c).handleEvent = [] := by
      rw [hreads.handleEvent_eq, if_neg (by simpa [HasInput] using hinput)]
    rw [hhandlers]
    refine ⟨s₁, hrun, iff_of_false ?_ fun hboth => hinput hboth.1⟩
    rintro ⟨⟨k₂, k₃, hk₂, hk₃, htrace⟩, -⟩
    rw [hk, Option.some.injEq] at hk₂
    rw [hk₁, Option.some.injEq] at hk₃
    rw [← hk₂, ← hk₃] at htrace
    -- the history would have to be longer than it is
    have hlength := congrArg List.length htrace
    simp at hlength

/-- One `handleEvent` calls `handleError` if it reads and `readv` fails. -/
theorem callsHandleError_iff (h : s.Inv) (hpc : s.pc = .dispatch [] (c :: rest))
    (howner : s.owners[c]? = some (.connection id)) (readv : ReadvResult) :
    (∃ handler ∈ (s.poller.channel c).handleEvent,
        ∃ k ∈ s.conns[id]?, k.conn.CallsHandleError readv handler)
      ↔ (s.poller.channel c).HasInput ∧ ∃ errno, readv = .error errno := by
  obtain ⟨k, hk, -⟩ := h.objects.owner c id howner
  have hwf := (h.objects.ok id k hk).input
  simp only [(h.readsOnly_of_next hpc).mem_handleEvent]
  constructor
  · rintro ⟨handler, ⟨rfl, hinput⟩, d, hd, b, n, errno, hread, hneg⟩
    rw [hk] at hd
    cases hd
    exact ⟨hinput, (readFd_value hwf hread).2.mp hneg⟩
  · rintro ⟨hinput, hfails⟩
    obtain ⟨b, n, errno, hread, -⟩ := readFd_returns hwf readv
    exact ⟨_, ⟨rfl, hinput⟩, k, hk, b, n, errno, hread, (readFd_value hwf hread).2.mpr hfails⟩

/-- Under the invariant a dispatch handles hang-ups and errors if the read tells them. -/
theorem hangUpHandled_iff (h : s.Inv) (hpc : s.pc = .dispatch [] (c :: rest))
    (hframe : s.frame = none) (howner : s.owners[c]? = some (.connection id))
    (readv : ReadvResult) (write : WriteResult) :
    s.HangUpHandled c id readv write ↔ (s.poller.channel c).ReadTells readv := by
  obtain ⟨s', hrun, hclose⟩ := h.closePath_iff hpc hframe howner readv write
  have herror := h.callsHandleError_iff hpc howner readv
  constructor
  · rintro ⟨t, ht, hhangUp, hfails⟩
    -- Both runs make the same actions, so they end in the same state.
    rw [ht.deterministic hrun] at hhangUp
    exact ⟨fun hup => hclose.mp (hhangUp hup), fun herr => herror.mp (hfails herr)⟩
  · rintro ⟨hhangUp, hfails⟩
    exact ⟨s', hrun, fun hup => hclose.mpr (hhangUp hup), fun herr => herror.mpr (hfails herr)⟩

end Inv

/-! ### Runs -/

/-- In every run, one `handleEvent` of a connection handles the hang-up and the error that
`poll` reported exactly if they come with something to read, and the read returns the one or
the other. -/
theorem hang_up_handled_iff {timerfd wakeupFd : Int} {as : List LoopAction}
    (hnew : new timerfd wakeupFd = some s₀) (htimerfd : 0 ≤ timerfd) (hwakeupFd : 0 ≤ wakeupFd)
    (hne : timerfd ≠ wakeupFd)
    (hrun : ((loopMachine.restrict FunctorsFit).restrict FreshName).Run s₀ as s)
    (hpc : s.pc = .dispatch [] (c :: rest)) (hframe : s.frame = none)
    (howner : s.owners[c]? = some (.connection id)) (readv : ReadvResult)
    (write : WriteResult) :
    s.HangUpHandled c id readv write ↔ (s.poller.channel c).ReadTells readv :=
  ((new_inv hnew htimerfd hwakeupFd hne).inv_of_run hrun).hangUpHandled_iff hpc hframe howner
    readv write

/-- A hang-up comes with `POLLPRI`, and the read finds the end of the stream. -/
theorem hang_up_handled_priority : ∃ (s : EventLoop) (c : ChannelPtr),
    (s.poller.channel c).HangsUp ∧ s.HangUpHandled c 0 (.bytes []) (.ok 0) := by
  obtain ⟨s₀, s, hnew, hrun, hpc, hframe, howner, hup, hinput, herr⟩ := Machine.exists_run_from
    (M := (loopMachine.restrict FunctorsFit).restrict FreshName)
    (P := fun s : EventLoop => s.pc = .dispatch [] [3] ∧ s.frame = none ∧
      s.owners[3]? = some (.connection 0) ∧ (s.poller.channel 3).HangsUp ∧
      (s.poller.channel 3).HasInput ∧ ¬ (s.poller.channel 3).HasError) (new 3 4)
    [.startServer "s" 5, .poll [0, 0, 1] 1, .handleEvent, .runHandler 7 (.error 0) (.ok 0),
      .callbackReturns, .doPendingFunctors, .endFunctors, .poll [0, 0, 0, 18] 1]
    (by decide +kernel)
  exact ⟨s, 3, hup, (hang_up_handled_iff hnew (by decide) (by decide) (by decide) hrun hpc hframe
    howner (.bytes []) (.ok 0)).mpr ⟨fun _ => ⟨hinput, rfl⟩, fun hfails => absurd hfails herr⟩⟩

/-- Not every dispatch handles what it was told: a connection with pending output hangs up,
and no callback runs. -/
theorem not_hang_up_handled : ¬ ∀ (timerfd wakeupFd : Int) (s₀ s : EventLoop)
    (as : List LoopAction), new timerfd wakeupFd = some s₀ → 0 ≤ timerfd → 0 ≤ wakeupFd →
      timerfd ≠ wakeupFd → loopMachine.Run s₀ as s → ∀ (c : ChannelPtr) (rest : List ChannelPtr)
        (id : TcpConnectionPtr), s.pc = .dispatch [] (c :: rest) → s.frame = none →
        s.owners[c]? = some (.connection id) → ∀ readv write,
          s.HangUpHandled c id readv write := by
  intro hall
  obtain ⟨s₀, s, hnew, hrun, hpc, hframe, howner, hup, hinput⟩ := Machine.exists_run_from
    (M := (loopMachine.restrict FunctorsFit).restrict FreshName)
    (P := fun s : EventLoop => s.pc = .dispatch [] [3] ∧ s.frame = none ∧
      s.owners[3]? = some (.connection 0) ∧ (s.poller.channel 3).HangsUp ∧
      ¬ (s.poller.channel 3).HasInput) (new 3 4)
    [.startServer "s" 5, .poll [0, 0, 1] 1, .handleEvent, .runHandler 7 (.error 0) (.ok 0),
      .send 0 [1, 2] (.ok 1), .callbackReturns, .doPendingFunctors, .endFunctors,
      -- `POLLOUT` and `POLLHUP`
      .poll [0, 0, 0, 20] 1]
    (by decide +kernel)
  have hinv := (new_inv hnew (by decide) (by decide) (by decide)).inv_of_run hrun
  have hhandled := hall 3 4 s₀ s _ hnew (by decide) (by decide) (by decide)
    hrun.of_restrict.of_restrict 3 [] 0 hpc hframe howner (.bytes []) (.ok 0)
  have htells := (hinv.hangUpHandled_iff hpc hframe howner _ _).mp hhandled
  exact hinput (htells.1 hup).1

end EventLoop

end SecondGear
