import SecondGear.Proofs.LoopConnections

/-!
# `SecondGear.Proofs.LoopTable`: what a step of the loop does to the table

* `CallsOn`: at most one call on the table, for one channel. Every method of a connection is that
  for the connection's own channel (`ConnectionCall.run_calls`).
* `step_table`: a step polls, adds one channel, or calls the table once, for the connection
  whose method it calls.
* `step_pc`: where the loop is after a step.
* `Readers`, `step_readers`: no channel ever gets another callback than the read callback, so no
  other one is ever in front of the loop.

## Why there are two inversions

`TableStep` and `PcStep` say all that a step can do to the table and to the place of the loop. Later
files split on these few cases, where the actions themselves are fourteen and a callback of a
channel is four more. `PcStep` keeps what the batch needs to know (who filled it, and which callback
comes off it) and lumps the rest together as `same` and `functors`.

None of this needs the invariant. The theorems hold also of runs in which a name is given again or a
batch of functors is dropped, and of steps that no legality allows.
-/

set_option autoImplicit false

namespace SecondGear

open SecondGear.Lib

/-- The channel has the read callback or none at all. It is weaker than `ReadsOnly`, and it holds of
channels that are not made yet as well, so it can be said of all of them at once. -/
structure Channel.ReadsAtMost (ch : Channel) : Prop where
  read : ch.readCallback = none ∨ ch.readCallback = some .handleRead
  write : ch.writeCallback = none
  error : ch.errorCallback = none
  close : ch.closeCallback = none

/-- Such a channel calls nothing but `handleRead`, whatever `poll` reported: `handleEvent` tests
each callback before it calls it. -/
theorem Channel.ReadsAtMost.handleEvent {ch : Channel} (h : ch.ReadsAtMost) :
    ∀ x ∈ ch.handleEvent, x = .handleRead := by
  intro x hx
  rcases h.read with hread | hread
  · simp [Channel.handleEvent, hread, h.write, h.error, h.close] at hx
  · simp [Channel.handleEvent, hread, h.write, h.error, h.close] at hx
    exact hx.2

/-! ### Calls on one channel -/

namespace Poller

variable {p p' : Poller} {c d : ChannelPtr}

/-- An index is all that `setIndex` writes. `removeChannel` writes one for the channel whose entry
it moves into the gap, so a channel's index may change in a call on another one. -/
theorem setIndex_channel (p : Poller) (c : ChannelPtr) (index : Int) (d : ChannelPtr) :
    ∃ i, (p.setIndex c index).channel d = { p.channel d with index := i } := by
  by_cases hd : d = c
  · rw [hd, setIndex, setChannel_self]
    exact ⟨index, rfl⟩
  · rw [setIndex, setChannel_ne _ _ hd]
    exact ⟨_, rfl⟩

/-- At most one call on the channel `c`. The methods of a connection are calls of this kind; which
of the calls it is, and whether there is one, depends on their arguments. -/
def CallsOn (c : ChannelPtr) (p p' : Poller) : Prop :=
  p' = p ∨ ∃ op : PollerOp, op.target = c ∧ op.apply p = some p'

namespace CallsOn

/-- No call. -/
theorem refl (c : ChannelPtr) (p : Poller) : CallsOn c p p := Or.inl rfl

/-- One call. -/
theorem of_op {op : PollerOp} (h : op.apply p = some p') : CallsOn op.target p p' :=
  Or.inr ⟨op, rfl, h⟩

/-- A call on the table installs no callback and gives no channel another descriptor. -/
theorem sameObjects (h : CallsOn c p p') : SameObjects p p' := by
  rcases h with rfl | ⟨op, -, hcall⟩
  · exact .refl p'
  · exact .of_apply hcall

/-- The other channels may get a new index, and nothing else. Removal is the case where one does. An
update writes the entry and the index of its own channel. -/
theorem others (h : CallsOn c p p') (hd : d ≠ c) :
    ∃ i, p'.channel d = { p.channel d with index := i } := by
  rcases h with rfl | ⟨op, rfl, hcall⟩
  · exact ⟨_, rfl⟩
  · by_cases hop : ∃ e, op = .removeChannel e
    · obtain ⟨e, rfl⟩ := hop
      -- The entry was the last one, or the last one moves to where it was.
      obtain ⟨channels, pollfds, rfl | ⟨moved, index, rfl⟩⟩ := removeChannel_cases hcall
      · exact ⟨_, rfl⟩
      · exact setIndex_channel _ moved index d
    · -- The other calls set the interest of their own channel, and then update.
      rw [apply_eq_updateChannel (not_exists.mp hop)] at hcall
      rw [← setEvents_ne p (op.newEvents (p.channel op.target)) hd]
      rcases updateChannel_cases hcall with rfl | ⟨pollfds, rfl⟩
      · exact setIndex_channel _ op.target _ d
      · exact ⟨_, rfl⟩

/-- What `poll` reported last stays, for the channel itself as well. So in a batch the callbacks of
a channel are decided by its report, however the callbacks in front of it change the table. -/
theorem revents (h : CallsOn c p p') (d : ChannelPtr) :
    (p'.channel d).revents = (p.channel d).revents := by
  by_cases hd : d = c
  · rcases h with rfl | ⟨op, rfl, hcall⟩
    · rfl
    · -- Neither the index nor the interest is the report.
      have hindex : ∀ (q : Poller) (e : ChannelPtr) (index : Int),
          ((q.setIndex e index).channel d).revents = (q.channel d).revents := by
        intro q e index
        obtain ⟨i, hi⟩ := setIndex_channel q e index d
        rw [hi]
      by_cases hop : ∃ e, op = .removeChannel e
      · obtain ⟨e, rfl⟩ := hop
        obtain ⟨channels, pollfds, rfl | ⟨moved, index, rfl⟩⟩ := removeChannel_cases hcall
        · rfl
        · exact hindex _ moved index
      · rw [apply_eq_updateChannel (not_exists.mp hop)] at hcall
        have hset : ((p.setEvents op.target (op.newEvents (p.channel op.target))).channel d).revents
            = (p.channel d).revents := by
          rw [hd, setEvents_self]
        rcases updateChannel_cases hcall with rfl | ⟨pollfds, rfl⟩
        · exact (hindex _ op.target _).trans hset
        · exact hset
  · obtain ⟨i, hi⟩ := h.others hd
    rw [hi]

end CallsOn

/-- A new channel leaves the channels in use. The constructor writes its own object, and
`enableReading` is one call on it. -/
theorem addChannel_others {fd : Int} (h : EventLoop.addChannel p c fd = some p') (hd : d ≠ c) :
    ∃ i, p'.channel d = { p.channel d with index := i } := by
  obtain ⟨i, hi⟩ := CallsOn.others (CallsOn.of_op
    (show (PollerOp.enableReading c).apply _ = some p' from h)) hd
  rw [setChannel_ne _ _ hd] at hi
  exact ⟨i, hi⟩

end Poller

namespace TcpConnection

variable {p p' : Poller} {conn conn' : TcpConnection}

open Poller

/-- `handleClose` switches the channel off. -/
theorem handleClose_calls (h : conn.handleClose p = some (p', conn')) :
    CallsOn conn.channel p p' :=
  .of_op (show (PollerOp.disableAll _).apply p = some p' from (handleClose_spec h).2.2)

/-- `handleWrite` switches writing off when the backlog is gone, and calls nothing before. -/
theorem handleWrite_calls {result : WriteResult}
    (h : conn.handleWrite p result = some (p', conn')) : CallsOn conn.channel p p' := by
  rw [handleWrite] at h
  dsimp only at h
  split at h
  · split at h
    · obtain ⟨b, -, h⟩ := bind_eq_some_iff.mp h
      split at h
      · obtain ⟨p₁, hoff, h⟩ := bind_eq_some_iff.mp h
        cases h
        exact .of_op (show (PollerOp.disableWriting _).apply p = some p' from hoff)
      · cases h
        exact .refl _ p
    · cases h
      exact .refl _ p
  · cases h
    exact .refl _ p

/-- Whichever callback it is. `handleRead` makes a call only at the end of the stream, where it is
that of `handleClose`. -/
theorem runHandler_calls {handler : Handler} {readv : ReadvResult} {write : WriteResult}
    {callback : Option Callback}
    (h : conn.runHandler p readv write handler = some (p', conn', callback)) :
    CallsOn conn.channel p p' := by
  cases handler with
  | handleRead =>
      obtain ⟨b, n, errno, -, -, hcases⟩ := handleRead_spec h
      -- data, the end of the stream, an error
      rcases hcases with ⟨-, -, rfl⟩ | ⟨-, -, hclose⟩ | ⟨-, -, rfl⟩
      · exact .refl _ _
      · have hcalls := handleClose_calls hclose
        exact hcalls
      · exact .refl _ _
  | handleWrite =>
      obtain ⟨⟨p₁, conn₁⟩, hwrite, heq⟩ := Option.map_eq_some_iff.mp h
      cases heq
      exact handleWrite_calls hwrite
  | handleClose =>
      obtain ⟨⟨p₁, conn₁⟩, hclose, heq⟩ := Option.map_eq_some_iff.mp h
      cases heq
      exact handleClose_calls hclose
  | handleError =>
      cases h
      exact .refl _ _

/-- `sendInLoop` switches writing on when a rest waits and writing is off. What it writes itself is
a call on the socket, not on the table, so the branches of the direct write are put aside first. -/
theorem sendInLoop_calls {message : List Byte} {result : WriteResult}
    (h : conn.sendInLoop p message result = some (p', conn')) : CallsOn conn.channel p p' := by
  rw [sendInLoop] at h
  dsimp only at h
  -- What was written directly, and the socket behind it, do not matter here.
  generalize (!isWriting p conn && conn.outputBuffer.readableBytes == 0) = direct at h
  generalize (if direct then conn.socket.write message result else conn.socket) = socket at h
  generalize (if direct then result.taken else 0) = nwrote at h
  split at h
  · obtain ⟨b, -, h⟩ := bind_eq_some_iff.mp h
    split at h
    · obtain ⟨p₁, hon, h⟩ := bind_eq_some_iff.mp h
      cases h
      exact .of_op (show (PollerOp.enableWriting _).apply p = some p' from hon)
    · cases h
      exact .refl _ _
  · cases h
    exact .refl _ _

end TcpConnection

/-- A method calls the table at most once, for its own channel. No method of a connection touches
the entry of another one; what reaches another channel does so through the index
(`CallsOn.others`). -/
theorem ConnectionCall.run_calls {p p' : Poller} {conn conn' : TcpConnection}
    {call : ConnectionCall} {events : List ConnectionEvent}
    (h : call.run p conn = some (p', conn', events)) : Poller.CallsOn conn.channel p p' := by
  cases call with
  | handler handler readv write =>
      obtain ⟨⟨p₁, conn₁, callback⟩, hrun, heq⟩ := Option.map_eq_some_iff.mp h
      cases heq
      exact TcpConnection.runHandler_calls hrun
  | connectDestroyed =>
      obtain ⟨⟨p₁, conn₁⟩, hconn, heq⟩ := Option.map_eq_some_iff.mp h
      cases heq
      exact .of_op (show (PollerOp.disableAll _).apply p = some p' from
        (TcpConnection.connectDestroyed_spec hconn).2.2)
  | connectDestroyedRemove dispatching =>
      obtain ⟨p₁, hremove, heq⟩ := Option.map_eq_some_iff.mp h
      cases heq
      exact .of_op (show (PollerOp.removeChannel _).apply p = some p' from hremove)
  | send message result =>
      obtain ⟨⟨p₁, conn₁⟩, hsend, heq⟩ := Option.map_eq_some_iff.mp h
      cases heq
      exact TcpConnection.sendInLoop_calls hsend
  | shutdown =>
      cases h
      exact .refl _ _
  | input op =>
      obtain ⟨b, -, heq⟩ := Option.map_eq_some_iff.mp h
      cases heq
      exact .refl _ _

namespace EventLoop

open Poller

variable {s s' : EventLoop} {a : LoopAction}

/-! ### The table -/

/-- What a step does to the table. In the case of a call it names the connection and the method, as
`callOf` has them, so that a user can go on with `step_call` for what the method did besides. -/
inductive TableStep (s s' : EventLoop) : LoopAction → Prop
  | same (a : LoopAction) (hpoller : s'.poller = s.poller) : TableStep s s' a
  | poll (answer : List (BitVec 16)) (numEvents : Int) (active : List ChannelPtr)
      (hpoll : s.poller.poll answer numEvents = some (s'.poller, active)) :
      TableStep s s' (.poll answer numEvents)
  /-- a method of the connection `id` -/
  | call (a : LoopAction) (id : TcpConnectionPtr) (k : ConnectionObject) (call : ConnectionCall)
      (hk : s.conns[id]? = some k) (hcall : s.callOf id a = some call)
      (hcalls : CallsOn k.conn.channel s.poller s'.poller) : TableStep s s' a
  | addChannel (a : LoopAction) (fd : Int)
      (hadd : addChannel s.poller s.owners.length fd = some s'.poller) : TableStep s s' a

/-- A method that a step calls does to the table what `stepBody_called` says. This closes every case
of `stepBody_table` in which a method is called. -/
theorem TableStep.of_call {id : TcpConnectionPtr} {k : ConnectionObject} {call : ConnectionCall}
    (hbody : s.stepBody a = some s') (hk : s.conns[id]? = some k)
    (hcall : s.callOf id a = some call) : TableStep s s' a := by
  obtain ⟨k', -, hfollows⟩ := stepBody_called hbody id k hk
  rw [hcall] at hfollows
  obtain ⟨events, hrun, -⟩ := hfollows
  exact .call a id k call hk hcall (ConnectionCall.run_calls hrun)

/-- The callback of a channel. It leaves the table, adds the channel of a new connection, or is one
of a connection, for which the calls are found elsewhere. In every case the loop stays where it is:
user code that it starts is a frame, and not a place. -/
theorem runHandler_table {c : ChannelPtr} {handler : Handler} {connfd : Int}
    {readv : ReadvResult} {write : WriteResult}
    (h : s.runHandler c handler connfd readv write = some s') :
    (s'.poller = s.poller ∨ (∃ fd, addChannel s.poller s.owners.length fd = some s'.poller) ∨
      ∃ id k, s.conns[id]? = some k ∧ s.owners[c]? = some (.connection id)) ∧ s'.pc = s.pc := by
  obtain ⟨owner, howner, h⟩ := bind_eq_some_iff.mp h
  cases owner with
  | timerQueue =>
      cases h
      exact ⟨Or.inl rfl, rfl⟩
  | wakeup =>
      cases h
      exact ⟨Or.inl rfl, rfl⟩
  | acceptor i =>
      dsimp only at h
      split at h
      · -- `connectEstablished` of the new connection is the call that adds its channel.
        obtain ⟨server, -, h⟩ := bind_eq_some_iff.mp h
        obtain ⟨⟨p, conn⟩, hconnect, h⟩ := bind_eq_some_iff.mp h
        obtain ⟨-, -, hon⟩ := TcpConnection.connectEstablished_spec hconnect
        cases h
        exact ⟨Or.inr (Or.inl ⟨connfd, hon⟩), rfl⟩
      · cases h
        exact ⟨Or.inl rfl, rfl⟩
  | connection id =>
      obtain ⟨k, hk, h⟩ := bind_eq_some_iff.mp h
      refine ⟨Or.inr (Or.inr ⟨id, k, hk, howner⟩), ?_⟩
      -- Whatever the handler does, the place of the loop stays.
      obtain ⟨-, h⟩ := assert_bind_eq_some_iff.mp h
      obtain ⟨⟨p, conn, callback⟩, -, h⟩ := bind_eq_some_iff.mp h
      cases callback with
      | none =>
          cases h
          rfl
      | some callback =>
          cases callback with
          | connectionCallback =>
              cases h
              rfl
          | messageCallback =>
              cases h
              rfl
          | closeCallback =>
              obtain ⟨k', -, h⟩ := bind_eq_some_iff.mp h
              obtain ⟨server, -, h⟩ := bind_eq_some_iff.mp h
              obtain ⟨-, h⟩ := assert_bind_eq_some_iff.mp h
              cases h
              rfl

/-- The table after a step in front of the destructors. `shutdown` half-closes the socket, and
`input` and the references are no business of the table. -/
theorem stepBody_table (h : s.stepBody a = some s') : TableStep s s' a := by
  have hbody := h
  cases a with
  | poll answer numEvents =>
      obtain ⟨⟨p, active⟩, hpoll, heq⟩ := Option.map_eq_some_iff.mp h
      cases heq
      exact .poll answer numEvents active hpoll
  | handleEvent =>
      rw [stepBody] at h
      split at h
      · cases h
        exact .same _ rfl
      · cases h
  | runHandler connfd readv write =>
      rw [stepBody] at h
      split at h
      · rename_i c handler current rest hpc
        rcases (runHandler_table h).1 with hsame | ⟨fd, hadd⟩ | ⟨id, k, hk, howner⟩
        · exact .same _ hsame
        · exact .addChannel _ fd hadd
        · -- The callback is in front of the loop, so it is the call that `callOf` names.
          have hcall : s.callOf id (.runHandler connfd readv write)
              = some (.handler handler readv write) := by
            rw [callOf_runHandler hpc]
            exact if_pos howner
          exact .of_call hbody hk hcall
      · cases h
  | doPendingFunctors =>
      cases h
      exact .same _ rfl
  | runFunctor =>
      rw [stepBody] at h
      split at h
      · rename_i done f rest hpc
        cases f with
        | user =>
            cases h
            exact .same _ rfl
        | connectDestroyed id =>
            obtain ⟨k, hk, -⟩ := bind_eq_some_iff.mp h
            have hcall : s.callOf id .runFunctor = some .connectDestroyed := by
              rw [callOf, hpc]
              exact if_pos rfl
            exact .of_call hbody hk hcall
      · cases h
  | endFunctors =>
      cases h
      exact .same _ rfl
  | callbackReturns =>
      -- The second half of `connectDestroyed` is a call. No other callback has one behind it.
      obtain ⟨frame, hframe, h⟩ := Option.bind_eq_some_iff.mp h
      cases frame with
      | connectDestroyed id =>
          obtain ⟨k, hk, -⟩ := bind_eq_some_iff.mp h
          exact .of_call hbody hk (if_pos hframe)
      | _ =>
          cases h
          exact .same _ rfl
  | send id message result =>
      -- On a connection that is not up, `send` does nothing.
      obtain ⟨k, hk, h⟩ := bind_eq_some_iff.mp h
      split at h
      · rename_i hstate
        exact .of_call hbody hk (if_pos ⟨rfl, k, hk, hstate⟩)
      · cases h
        exact .same _ rfl
  | shutdown id =>
      obtain ⟨k, -, h⟩ := bind_eq_some_iff.mp h
      split at h
      · cases h
        exact .same _ rfl
      · cases h
        exact .same _ rfl
  | input id op =>
      obtain ⟨k, -, h⟩ := bind_eq_some_iff.mp h
      obtain ⟨b, -, h⟩ := bind_eq_some_iff.mp h
      cases h
      exact .same _ rfl
  | addRef id =>
      obtain ⟨k, -, h⟩ := bind_eq_some_iff.mp h
      cases h
      exact .same _ rfl
  | dropRef id =>
      obtain ⟨k, -, h⟩ := bind_eq_some_iff.mp h
      cases h
      exact .same _ rfl
  | queueInLoop =>
      cases h
      exact .same _ rfl
  | startServer name acceptSocket =>
      obtain ⟨p, hadd, h⟩ := bind_eq_some_iff.mp h
      cases h
      exact .addChannel _ acceptSocket hadd

/-- The table after a step. The destructors leave it, whether or not the channel is still
registered. -/
theorem step_table (h : s.step a = some s') : TableStep s s' a := by
  obtain ⟨t, hbody, rfl⟩ := Option.map_eq_some_iff.mp h
  cases stepBody_table hbody with
  | same _ hpoller => exact .same _ hpoller
  | poll answer numEvents active hpoll => exact .poll answer numEvents active hpoll
  | call _ id k call hk hcall hcalls => exact .call _ id k call hk hcall hcalls
  | addChannel _ fd hadd => exact .addChannel _ fd hadd

/-! ### The place of the loop -/

/-- Where the loop is after a step. The cases are those that matter for the batch of channels. The
last one is the rest of the turn, where there is no batch. -/
inductive PcStep (s s' : EventLoop) : LoopAction → Prop
  | same (a : LoopAction) (hpc : s'.pc = s.pc) : PcStep s s' a
  | poll (answer : List (BitVec 16)) (numEvents : Int) (active : List ChannelPtr)
      (hpoll : s.poller.poll answer numEvents = some (s'.poller, active))
      (hpc : s'.pc = .dispatch [] active) : PcStep s s' (.poll answer numEvents)
  | handleEvent (c : ChannelPtr) (rest : List ChannelPtr) (hpc : s.pc = .dispatch [] (c :: rest))
      (hpoller : s'.poller = s.poller)
      (hpc' : s'.pc = .dispatch ((s.poller.channel c).handleEvent.map (c, ·)) rest) :
      PcStep s s' .handleEvent
  | runHandler (connfd : Int) (readv : ReadvResult) (write : WriteResult)
      (x : ChannelPtr × Handler) (current : List (ChannelPtr × Handler))
      (rest : List ChannelPtr) (hpc : s.pc = .dispatch (x :: current) rest)
      (hpc' : s'.pc = .dispatch current rest) : PcStep s s' (.runHandler connfd readv write)
  /-- behind the dispatch -/
  | functors (a : LoopAction) (hpc : s'.pc.isDispatch = false) : PcStep s s' a

/-- Every step is one of these. User code does not move the loop, and neither does the return of a
callback: the callback was called from where the loop is. -/
theorem step_pc (h : s.step a = some s') : PcStep s s' a := by
  obtain ⟨t, hbody, rfl⟩ := Option.map_eq_some_iff.mp h
  cases a with
  | poll answer numEvents =>
      obtain ⟨⟨p, active⟩, hpoll, heq⟩ := Option.map_eq_some_iff.mp hbody
      cases heq
      exact .poll answer numEvents active hpoll rfl
  | handleEvent =>
      rw [stepBody] at hbody
      split at hbody
      · rename_i c rest hpc
        cases hbody
        exact .handleEvent c rest hpc rfl rfl
      · cases hbody
  | runHandler connfd readv write =>
      rw [stepBody] at hbody
      split at hbody
      · rename_i c handler current rest hpc
        exact .runHandler connfd readv write (c, handler) current rest hpc
          (runHandler_table hbody).2
      · cases hbody
  | doPendingFunctors =>
      cases hbody
      exact .functors _ rfl
  | runFunctor =>
      rw [stepBody] at hbody
      split at hbody
      · rename_i done f rest hpc
        cases f with
        | user =>
            cases hbody
            exact .functors _ rfl
        | connectDestroyed id =>
            obtain ⟨k, -, hbody⟩ := bind_eq_some_iff.mp hbody
            obtain ⟨⟨p, conn⟩, -, hbody⟩ := bind_eq_some_iff.mp hbody
            cases hbody
            exact .functors _ rfl
      · cases hbody
  | endFunctors =>
      cases hbody
      exact .functors _ rfl
  | callbackReturns =>
      obtain ⟨frame, -, hbody⟩ := Option.bind_eq_some_iff.mp hbody
      cases frame with
      | connectDestroyed id =>
          obtain ⟨k, -, hbody⟩ := bind_eq_some_iff.mp hbody
          obtain ⟨p, -, hbody⟩ := bind_eq_some_iff.mp hbody
          cases hbody
          exact .same _ rfl
      | _ =>
          cases hbody
          exact .same _ rfl
  | send id message result =>
      obtain ⟨k, -, hbody⟩ := bind_eq_some_iff.mp hbody
      split at hbody
      · obtain ⟨⟨p, conn⟩, -, hbody⟩ := bind_eq_some_iff.mp hbody
        cases hbody
        exact .same _ rfl
      · cases hbody
        exact .same _ rfl
  | shutdown id =>
      obtain ⟨k, -, hbody⟩ := bind_eq_some_iff.mp hbody
      split at hbody
      · cases hbody
        exact .same _ rfl
      · cases hbody
        exact .same _ rfl
  | input id op =>
      obtain ⟨k, -, hbody⟩ := bind_eq_some_iff.mp hbody
      obtain ⟨b, -, hbody⟩ := bind_eq_some_iff.mp hbody
      cases hbody
      exact .same _ rfl
  | addRef id =>
      obtain ⟨k, -, hbody⟩ := bind_eq_some_iff.mp hbody
      cases hbody
      exact .same _ rfl
  | dropRef id =>
      obtain ⟨k, -, hbody⟩ := bind_eq_some_iff.mp hbody
      cases hbody
      exact .same _ rfl
  | queueInLoop =>
      cases hbody
      exact .same _ rfl
  | startServer name acceptSocket =>
      obtain ⟨p, -, hbody⟩ := bind_eq_some_iff.mp hbody
      cases hbody
      exact .same _ rfl

/-- A callback in front of the loop was there, or belongs to the channel whose `handleEvent`
starts. In the second case it is one that `handleEvent` has for the channel as the table is then, so
what is true of the channels is true of the callbacks. -/
theorem PcStep.current (h : PcStep s s' a) {x : ChannelPtr × Handler} (hx : x ∈ s'.pc.current) :
    x ∈ s.pc.current ∨
      (∃ rest, s.pc = .dispatch [] (x.1 :: rest)) ∧ x.2 ∈ (s.poller.channel x.1).handleEvent := by
  cases h with
  | same _ hpc => exact Or.inl (hpc ▸ hx)
  | poll answer numEvents active hpoll hpc =>
      rw [hpc] at hx
      exact absurd hx List.not_mem_nil
  | handleEvent c rest hpc hpoller hpc' =>
      rw [hpc'] at hx
      obtain ⟨handler, hhandler, rfl⟩ := List.mem_map.mp hx
      exact Or.inr ⟨⟨rest, hpc⟩, hhandler⟩
  | runHandler connfd readv write y current rest hpc hpc' =>
      rw [hpc'] at hx
      rw [hpc]
      exact Or.inl (List.mem_cons_of_mem _ hx)
  | functors _ hpc =>
      -- no callbacks there
      cases hpc' : s'.pc with
      | dispatch current rest =>
          rw [hpc'] at hpc
          cases hpc
      | poll =>
          rw [hpc'] at hx
          exact absurd hx List.not_mem_nil
      | doPendingFunctors done rest =>
          rw [hpc'] at hx
          exact absurd hx List.not_mem_nil

/-- Only `poll` fills the batch. A channel that is made or updated later in the turn is not in it,
and one that is in it stays until its turn comes. -/
theorem PcStep.todo (h : PcStep s s' a) (hpoll : ∀ answer numEvents, a ≠ .poll answer numEvents) :
    ∀ c ∈ s'.pc.todo, c ∈ s.pc.todo := by
  cases h with
  | same _ hpc =>
      rw [hpc]
      exact fun c hc => hc
  | poll answer numEvents active _ hpc => exact absurd rfl (hpoll answer numEvents)
  | handleEvent d rest hpc hpoller hpc' =>
      -- The channel moves from the rest to the callbacks, one entry for each of them.
      intro c hc
      rw [hpc'] at hc
      rw [hpc]
      rcases List.mem_append.mp hc with hcurrent | hrest
      · obtain ⟨x, hx, rfl⟩ := List.mem_map.mp hcurrent
        obtain ⟨handler, -, rfl⟩ := List.mem_map.mp hx
        exact List.mem_cons_self
      · exact List.mem_cons_of_mem _ hrest
  | runHandler connfd readv write x current rest hpc hpc' =>
      rw [hpc', hpc]
      exact fun c hc => List.mem_cons_of_mem _ hc
  | functors _ hpc =>
      intro c hc
      cases hpc' : s'.pc with
      | dispatch current rest =>
          rw [hpc'] at hpc
          cases hpc
      | poll =>
          rw [hpc'] at hc
          exact absurd hc List.not_mem_nil
      | doPendingFunctors done rest =>
          rw [hpc'] at hc
          exact absurd hc List.not_mem_nil

/-- Only `poll` tells the channels in use what happened. The bound on `c` is for the step that makes
a channel: the new one starts with no report. -/
theorem TableStep.revents (h : TableStep s s' a)
    (hpoll : ∀ answer numEvents, a ≠ .poll answer numEvents) {c : ChannelPtr}
    (hc : c < s.owners.length) :
    (s'.poller.channel c).revents = (s.poller.channel c).revents := by
  cases h with
  | same _ hpoller => rw [hpoller]
  | poll answer numEvents active _ => exact absurd rfl (hpoll answer numEvents)
  | call _ id k call hk hcall hcalls => exact hcalls.revents c
  | addChannel _ fd hadd =>
      obtain ⟨i, hi⟩ := addChannel_others hadd (Nat.ne_of_lt hc)
      rw [hi]

/-! ### The callbacks of the channels -/

/-- What `getActiveChannels` tells the channels is no callback. By induction on the entries. The
number that `::poll` returned goes down with each entry that has a report, and the loop over them
ends at zero; where it ends does not matter here. -/
theorem sameObjects_of_active (pfds : List PollFd) {p p' : Poller} {numEvents : Int}
    {active : List ChannelPtr} (h : p.getActiveChannelsFrom pfds numEvents = some (p', active)) :
    SameObjects p p' := by
  induction pfds generalizing p numEvents active with
  | nil =>
      cases h
      exact .refl _
  | cons pfd pfds ih =>
      rw [getActiveChannelsFrom] at h
      split at h
      · split at h
        · -- an entry with a report: its channel is told, which is a `setChannel`
          obtain ⟨ch, -, h⟩ := bind_eq_some_iff.mp h
          obtain ⟨⟨p₁, chs⟩, hrest, h⟩ := bind_eq_some_iff.mp h
          cases h
          exact SameObjects.of_setChannel.trans (ih hrest)
        · exact ih h
      · cases h
        exact .refl _

/-- Neither does the whole of `poll`, with the answer of the kernel written into the entries. -/
theorem sameObjects_of_poll {p p' : Poller} {answer : List (BitVec 16)} {numEvents : Int}
    {active : List ChannelPtr} (h : p.poll answer numEvents = some (p', active)) :
    SameObjects p p' := by
  -- The answer is written into the entries, and no channel sees it yet.
  have hanswer : SameObjects p (p.setAnswer answer) := fun _ => ⟨_, _, _, rfl⟩
  rw [Poller.poll] at h
  split at h
  · exact hanswer.trans (sameObjects_of_active _ h)
  · cases h
    exact hanswer

/-- Callbacks are not among what may change. -/
theorem readsAtMost_of_same {p p' : Poller} (h : SameObjects p p')
    (hreads : ∀ c, (p.channel c).ReadsAtMost) (c : ChannelPtr) :
    (p'.channel c).ReadsAtMost := by
  obtain ⟨e, r, i, hc⟩ := h c
  rw [hc]
  exact ⟨(hreads c).read, (hreads c).write, (hreads c).error, (hreads c).close⟩

/-- A new channel has the read callback. The source sets no other one anywhere. -/
theorem readsAtMost_of_addChannel {p p' : Poller} {c : ChannelPtr} {fd : Int}
    (h : addChannel p c fd = some p') (hreads : ∀ d, (p.channel d).ReadsAtMost)
    (d : ChannelPtr) : (p'.channel d).ReadsAtMost := by
  refine readsAtMost_of_same
    (SameObjects.of_apply (show (PollerOp.enableReading c).apply _ = some p' from h))
    (fun d => ?_) d
  by_cases hd : d = c
  · rw [hd, setChannel_self]
    exact ⟨Or.inr rfl, rfl, rfl, rfl⟩
  · rw [setChannel_ne _ _ hd]
    exact hreads d

/-- Only read callbacks are installed, and only they wait to run. This is why a backlog and a
hang-up go unnoticed (`Proofs/LoopBacklog.lean`, `Proofs/HangUp.lean`), and it holds of every run,
whatever the user and the kernel do. -/
structure Readers (s : EventLoop) : Prop where
  channels : ∀ c, (s.poller.channel c).ReadsAtMost
  current : ∀ x ∈ s.pc.current, x.2 = .handleRead

/-- No step installs another callback than the read callback. The channels are a matter of the
table, and the callbacks in front of the loop come from the channels. -/
theorem step_readers (h : s.Readers) (hstep : s.step a = some s') : s'.Readers where
  channels := by
    cases step_table hstep with
    | same _ hpoller =>
        rw [hpoller]
        exact h.channels
    | poll answer numEvents active hpoll =>
        exact readsAtMost_of_same (sameObjects_of_poll hpoll) h.channels
    | call _ id k call hk hcall hcalls =>
        exact readsAtMost_of_same hcalls.sameObjects h.channels
    | addChannel _ fd hadd => exact readsAtMost_of_addChannel hadd h.channels
  current x hx := by
    rcases (step_pc hstep).current hx with hold | ⟨-, hnew⟩
    · exact h.current x hold
    · exact (h.channels x.1).handleEvent x.2 hnew

/-- It holds of a new loop, where two channels are made and nothing waits. -/
theorem new_readers {timerfd wakeupFd : Int} (h : new timerfd wakeupFd = some s) :
    s.Readers := by
  obtain ⟨p₁, hfirst, h⟩ := bind_eq_some_iff.mp h
  obtain ⟨p₂, hsecond, h⟩ := bind_eq_some_iff.mp h
  have hnew : ∀ c, ((Poller.new fun _ => Channel.new (-1)).channel c).ReadsAtMost :=
    fun _ => ⟨Or.inl rfl, rfl, rfl, rfl⟩
  cases h
  exact ⟨readsAtMost_of_addChannel hsecond (readsAtMost_of_addChannel hfirst hnew),
    fun x hx => absurd hx List.not_mem_nil⟩

end EventLoop

end SecondGear
