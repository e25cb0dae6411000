import SecondGear.Model.Main
import SecondGear.Proofs.LoopStreams

/-!
# `SecondGear.Proofs.Main`: what the program of `main.cpp` does for its clients

Every client gets the two messages, in order and once, and nothing it sends is kept. The proof
has two parts:

* `step_frames`: which user callback a step of the loop starts. `connectEstablished` starts
  the one of a connection that was just made, `connectDestroyed` the one of a connection that
  is down, and a delivery of bytes the one of the connection that got them.
* `Serves`: what holds between the steps, with the calls that the running callback still has
  to make.

`main_serves` is the result: `main_start`, and `Serves.step` along the run.

## What it rests on

`onConnection` runs twice for a connection, when it comes up and when it goes down, and tests
`connected()`. So a connection gets the messages twice unless the second call finds it down, which
is `Frames.destroyed`. In between, the streams of `Proofs/LoopStreams.lean` account for every byte:
a step of the loop itself sends nothing (`own_quiet`), and a `send` of the callback moves its
message from `unsent` to the output stream (`Serves.of_send`).

Nothing here needs the invariant of the loop. That a client is served as it should does not depend
on how many there are, or on whether names repeat.
-/

set_option autoImplicit false

namespace SecondGear

open SecondGear.Lib

namespace EventLoop

variable {s s' : EventLoop}

/-- A step of the loop itself, not of user code. Only such a step starts a callback, and only while
none is running. -/
def isOwn : LoopAction → Bool
  | .poll _ _ | .handleEvent | .runHandler _ _ _ | .doPendingFunctors | .runFunctor
  | .endFunctors => true
  | .callbackReturns | .send _ _ _ | .shutdown _ | .input _ _ | .addRef _ | .dropRef _
  | .queueInLoop | .startServer _ _ => false

/-! ### The callback that a step starts -/

/-- The user callback that a step starts, and why. The first two fields are about `onConnection`: it
runs for a connection that the step made, or for one whose state is down. The last says that bytes
are not delivered without `onMessage` running next, on the connection that got them. -/
structure Frames (s s' : EventLoop) (a : LoopAction) : Prop where
  established : ∀ id, s'.frame = some (.connectEstablished id) → s.conns[id]? = none
  destroyed : ∀ id, s'.frame = some (.connectDestroyed id) → ∀ k, s'.conns[id]? = some k →
    k.conn.state = .kDisconnected
  received : ∀ id, receivedBy id s a ≠ [] → s'.frame = some (.message id)

/-- Nothing is delivered without a call. -/
theorem receivedBy_of_callOf {id : TcpConnectionPtr} {a : LoopAction}
    (h : s.callOf id a = none) : receivedBy id s a = [] := by
  rw [receivedBy, h]
  rfl

/-- A step that starts no callback and calls no connection. This is `poll`, `handleEvent` and the
two ends of `doPendingFunctors`. -/
theorem Frames.of_none {a : LoopAction} (hframe : s'.frame = none)
    (hcall : ∀ id, s.callOf id a = none) : Frames s s' a where
  established id h := by
    rw [hframe] at h
    cases h
  destroyed id h := by
    rw [hframe] at h
    cases h
  received id h := absurd (receivedBy_of_callOf (hcall id)) h

/-- The callback of a connection's channel. Only a delivery starts user code: at the end of the
stream and behind an error `handleRead` calls nobody outside the library, and the server's
`removeConnection` only queues. -/
theorem connectionHandler_frame {j : TcpConnectionPtr} {h : Handler} {readv : ReadvResult}
    {write : WriteResult} (hframe : s.frame = none)
    (hstep : s.connectionHandler j h readv write = some s') :
    (s'.frame = none ∨ s'.frame = some (.message j)) ∧
      ((ConnectionCall.handler h readv write).received ≠ [] → s'.frame = some (.message j)) := by
  obtain ⟨k, hk, hstep⟩ := bind_eq_some_iff.mp hstep
  obtain ⟨-, hstep⟩ := assert_bind_eq_some_iff.mp hstep
  obtain ⟨⟨p, conn, callback⟩, hrun, hstep⟩ := bind_eq_some_iff.mp hstep
  -- Bytes end in the message callback.
  have hbytes : (ConnectionCall.handler h readv write).received ≠ [] →
      callback = some .messageCallback := by
    intro hne
    cases h with
    | handleRead =>
        cases readv with
        | error e => exact absurd rfl hne
        | bytes bs =>
            -- `handleRead` looks at `n` alone, which is how many bytes there are.
            have hlen : 0 < bs.length := List.length_pos_iff.mpr hne
            obtain ⟨b, n, errno, hread, -, hcases⟩ := TcpConnection.handleRead_spec hrun
            have hn : n = bs.length := by
              rw [Buffer.readFd] at hread
              split at hread
              · cases hread
                rfl
              · obtain ⟨b', -, hread⟩ := bind_eq_some_iff.mp hread
                cases hread
                rfl
            rcases hcases with ⟨-, hcallback, -⟩ | ⟨hzero, -, -⟩ | ⟨hneg, -, -⟩
            · exact hcallback
            · omega
            · omega
    | _ => exact absurd rfl hne
  -- The message callback is a frame. `closeCallback_` is none: it is the server's own.
  cases callback with
  | none =>
      cases hstep
      exact ⟨Or.inl hframe, fun hne => absurd (hbytes hne) (by simp)⟩
  | some callback =>
      cases callback with
      | connectionCallback =>
          cases hstep
          exact ⟨Or.inl hframe, fun hne => absurd (hbytes hne) (by simp)⟩
      | messageCallback =>
          cases hstep
          exact ⟨Or.inr rfl, fun _ => rfl⟩
      | closeCallback =>
          obtain ⟨k', -, hstep⟩ := bind_eq_some_iff.mp hstep
          obtain ⟨server, -, hstep⟩ := bind_eq_some_iff.mp hstep
          obtain ⟨-, hstep⟩ := assert_bind_eq_some_iff.mp hstep
          cases hstep
          exact ⟨Or.inl hframe, fun hne => absurd (hbytes hne) (by simp)⟩

/-- The callback of a channel. An acceptor starts `onConnection` for the object that it made behind
the others, so it was not there before. No callback of a channel is in front of `connectDestroyed`:
that is a functor. -/
theorem runHandler_frame {c : ChannelPtr} {h : Handler} {connfd : Int} {readv : ReadvResult}
    {write : WriteResult} (hframe : s.frame = none)
    (hstep : s.runHandler c h connfd readv write = some s') :
    (∀ id, s'.frame = some (.connectEstablished id) → s.conns[id]? = none) ∧
      (∀ id, s'.frame ≠ some (.connectDestroyed id)) ∧
      ∀ id, s.owners[c]? = some (.connection id) →
        (ConnectionCall.handler h readv write).received ≠ [] →
        s'.frame = some (.message id) := by
  obtain ⟨owner, howner, hstep⟩ := bind_eq_some_iff.mp hstep
  rw [howner]
  cases owner with
  | timerQueue =>
      -- a frame, but of a timer's callback
      cases hstep
      exact ⟨fun id h => (by cases h), fun id h => (by cases h), fun id h => (by cases h)⟩
  | wakeup =>
      cases hstep
      rw [hframe]
      exact ⟨fun id h => (by cases h), fun id h => (by cases h), fun id h => (by cases h)⟩
  | acceptor i =>
      dsimp only at hstep
      split at hstep
      · obtain ⟨server, -, hstep⟩ := bind_eq_some_iff.mp hstep
        obtain ⟨⟨p, conn⟩, -, hstep⟩ := bind_eq_some_iff.mp hstep
        cases hstep
        refine ⟨fun id h => ?_, fun id h => (by cases h), fun id h => (by cases h)⟩
        -- The new object's number is the length of the list in front of the step.
        cases h
        exact List.getElem?_eq_none_iff.mpr (Nat.le_refl _)
      · cases hstep
        rw [hframe]
        exact ⟨fun id h => (by cases h), fun id h => (by cases h), fun id h => (by cases h)⟩
  | connection j =>
      obtain ⟨hframe', hreceived⟩ := connectionHandler_frame hframe hstep
      refine ⟨fun id h => ?_, fun id h => ?_, fun id hid hne => ?_⟩
      · rcases hframe' with hnone | hmessage
        · exact absurd (hnone.symm.trans h) (by simp)
        · exact absurd (hmessage.symm.trans h) (by simp)
      · rcases hframe' with hnone | hmessage
        · exact absurd (hnone.symm.trans h) (by simp)
        · exact absurd (hmessage.symm.trans h) (by simp)
      · cases hid
        exact hreceived hne

/-- The callback that a step of the loop starts. By cases on the action: `runHandler` is the lemma
above, `runFunctor` starts the callback of `connectDestroyed`, which has just set the state down,
and the others start none. -/
theorem step_frames (hframe : s.frame = none) {a : LoopAction} (ha : isOwn a)
    (hstep : s.step a = some s') : Frames s s' a := by
  obtain ⟨t, hbody, rfl⟩ := Option.map_eq_some_iff.mp hstep
  -- The destructors start nothing and leave the states.
  suffices h : Frames s t a by
    refine ⟨h.established, fun id hid k' hk' => ?_, h.received⟩
    rw [getElem?_release] at hk'
    obtain ⟨k, hk, rfl⟩ := Option.map_eq_some_iff.mp hk'
    rw [releaseObject_conn]
    exact h.destroyed id hid k hk
  cases a with
  | poll answer numEvents =>
      obtain ⟨⟨p, active⟩, -, heq⟩ := Option.map_eq_some_iff.mp hbody
      cases heq
      exact .of_none hframe fun _ => rfl
  | handleEvent =>
      rw [stepBody] at hbody
      split at hbody
      · cases hbody
        exact .of_none hframe fun _ => rfl
      · cases hbody
  | runHandler connfd readv write =>
      rw [stepBody] at hbody
      split at hbody
      · rename_i c handler current rest hpc
        have hframe' : ({ s with pc := .dispatch current rest } : EventLoop).frame = none := hframe
        obtain ⟨hestablished, hdestroyed, hreceived⟩ := runHandler_frame hframe' hbody
        refine ⟨hestablished, fun id hid => absurd hid (hdestroyed id), fun id hne => ?_⟩
        by_cases howner : s.owners[c]? = some (.connection id)
        · refine hreceived id howner ?_
          rwa [receivedBy, callOf_runHandler hpc, if_pos howner] at hne
        · rw [receivedBy, callOf_runHandler hpc, if_neg howner] at hne
          exact absurd rfl hne
      · cases hbody
  | doPendingFunctors =>
      cases hbody
      exact .of_none hframe fun _ => rfl
  | runFunctor =>
      have hreceived : ∀ id, receivedBy id s .runFunctor = [] := by
        intro id
        rw [receivedBy, callOf]
        split <;> rfl
      rw [stepBody] at hbody
      split at hbody
      · rename_i done f rest hpc
        cases f with
        | user =>
            cases hbody
            exact ⟨fun id h => (by cases h), fun id h => (by cases h),
              fun id hne => absurd (hreceived id) hne⟩
        | connectDestroyed j =>
            obtain ⟨k, hk, hbody⟩ := bind_eq_some_iff.mp hbody
            obtain ⟨⟨p, conn⟩, hconn, hbody⟩ := bind_eq_some_iff.mp hbody
            obtain ⟨-, hstate, -⟩ := TcpConnection.connectDestroyed_spec hconn
            cases hbody
            refine ⟨fun id h => (by cases h), fun id h k' hk' => ?_,
              fun id hne => absurd (hreceived id) hne⟩
            cases h
            have hself := conns_set_self hk
              ((k.setConn conn).record [.connectDestroyed, .connectionCallback conn.connected])
            cases hself.symm.trans hk'
            rw [ConnectionObject.record_conn, ConnectionObject.setConn_conn, hstate]
            rfl
      · cases hbody
  | endFunctors =>
      cases hbody
      exact .of_none hframe fun _ => rfl
  | _ => cases ha

/-- Only the callbacks of channels make connections. So behind any other step a connection is one
that was there, and what held of it can be used. -/
theorem conns_of_not_runHandler {a : LoopAction} (hstep : s.step a = some s')
    (ha : acceptedBy a = none) {id : TcpConnectionPtr} {k' : ConnectionObject}
    (hk' : s'.conns[id]? = some k') : ∃ k, s.conns[id]? = some k := by
  cases hk : s.conns[id]? with
  | some k => exact ⟨k, rfl⟩
  | none =>
      have hadded := (step_kept hstep).added id k' hk' hk
      rw [ha] at hadded
      cases hadded

/-- User code runs until it returns: a `send` does not end the callback that makes it. -/
theorem step_frame_send {id : TcpConnectionPtr} {message : List Byte} {result : WriteResult}
    (hstep : s.step (.send id message result) = some s') : s'.frame = s.frame := by
  obtain ⟨t, hbody, rfl⟩ := Option.map_eq_some_iff.mp hstep
  obtain ⟨k, -, hbody⟩ := bind_eq_some_iff.mp hbody
  split at hbody
  · obtain ⟨⟨p, conn⟩, -, hbody⟩ := bind_eq_some_iff.mp hbody
    cases hbody
    rfl
  · cases hbody
    rfl

/-- Neither does a call on an input buffer. -/
theorem step_frame_input {id : TcpConnectionPtr} {op : Buffer.Op}
    (hstep : s.step (.input id op) = some s') : s'.frame = s.frame := by
  obtain ⟨t, hbody, rfl⟩ := Option.map_eq_some_iff.mp hstep
  obtain ⟨k, -, hbody⟩ := bind_eq_some_iff.mp hbody
  obtain ⟨b, -, hbody⟩ := bind_eq_some_iff.mp hbody
  cases hbody
  rfl

/-- When the callback returns, no other one runs. Behind that of `connectDestroyed` the rest of the
method is no user code. -/
theorem step_frame_callbackReturns (hstep : s.step .callbackReturns = some s') :
    s'.frame = none := by
  obtain ⟨t, hbody, rfl⟩ := Option.map_eq_some_iff.mp hstep
  obtain ⟨frame, -, hbody⟩ := Option.bind_eq_some_iff.mp hbody
  cases frame with
  | connectDestroyed id =>
      obtain ⟨k, -, hbody⟩ := bind_eq_some_iff.mp hbody
      obtain ⟨p, -, hbody⟩ := bind_eq_some_iff.mp hbody
      cases hbody
      rfl
  | _ =>
      cases hbody
      rfl

end EventLoop

open EventLoop

/-! ### The connections of the program -/

/-- A connection that nobody shuts down: it is not half-closed on the way, by its state or on its
socket. -/
structure TcpConnection.NotShut (conn : TcpConnection) : Prop where
  state : conn.state = .kConnected ∨ conn.state = .kDisconnected
  calls : .shutdownWrite ∉ conn.socket.calls

/-- Only `shutdown` leads to a shutdown. `handleWrite` half-closes too, when the state asks for it
and the backlog is gone; but no channel has it as a callback (`hfits`), and the state is never
`kDisconnecting` here. -/
theorem ConnectionCall.run_notShut {p p' : Poller} {conn conn' : TcpConnection}
    {call : ConnectionCall} {events : List ConnectionEvent}
    (h : call.run p conn = some (p', conn', events)) (hfits : call.Fits conn)
    (hcall : call ≠ .shutdown) (hwf : conn.outputBuffer.Wf) (hconn : conn.NotShut) :
    conn'.NotShut := by
  cases call with
  | handler handler readv write =>
      obtain ⟨⟨p₁, conn₁, callback⟩, hrun, heq⟩ := Option.map_eq_some_iff.mp h
      cases heq
      -- `handleRead` leaves the state and the socket, at the end of the stream too.
      rw [show handler = .handleRead from hfits] at hrun
      obtain ⟨b, n, errno, -, rfl, -⟩ := TcpConnection.handleRead_spec hrun
      exact ⟨hconn.state, hconn.calls⟩
  | connectDestroyed =>
      obtain ⟨⟨p₁, conn₁⟩, hdestroyed, heq⟩ := Option.map_eq_some_iff.mp h
      cases heq
      obtain ⟨-, rfl, -⟩ := TcpConnection.connectDestroyed_spec hdestroyed
      exact ⟨Or.inr rfl, hconn.calls⟩
  | connectDestroyedRemove dispatching =>
      obtain ⟨p₁, -, heq⟩ := Option.map_eq_some_iff.mp h
      cases heq
      exact hconn
  | send message result =>
      obtain ⟨⟨p₁, conn₁⟩, hsend, heq⟩ := Option.map_eq_some_iff.mp h
      cases heq
      obtain ⟨b, -, -, rfl, -⟩ := TcpConnection.sendInLoop_spec hwf hsend
      refine ⟨hconn.state, ?_⟩
      -- A direct `::write` is one more call on the socket, and not that one.
      show .shutdownWrite ∉ Socket.calls (if _ then _ else _)
      split
      · simpa [Socket.write] using hconn.calls
      · exact hconn.calls
  | shutdown => exact absurd rfl hcall
  | input op =>
      obtain ⟨b, -, heq⟩ := Option.map_eq_some_iff.mp h
      cases heq
      exact ⟨hconn.state, hconn.calls⟩

namespace Program

variable {message1 message2 : List Byte} {s s' : Program}

/-- The messages that the callback still sends on a connection, one behind the other. They are not
with the library yet, and they are not lost: what was sent and this make up the two messages. -/
def unsent (id : TcpConnectionPtr) (todo : List UserCall) : List Byte :=
  todo.flatMap fun
    | .send conn message => if conn = id then message else []
    | .retrieveAll _ => []

/-- What holds between the steps of the program.

* `stores` is what `Proofs/LoopStreams.lean` needs of the loop: sound buffers, and read callbacks
  only.
* `idle` and `todo` tie the calls that are left to the callback that runs. The calls end with it,
  and whoever is sent to is up, so that `send` does not drop the message.
* `output` is the account of the two messages.
* `input` says that bytes wait in an input buffer only in front of the `retrieveAll` that takes
  them. -/
structure Serves (message1 message2 : List Byte) (s : Program) : Prop where
  stores : s.loop.Stores
  idle : s.loop.frame = none → s.todo = []
  todo : ∀ id message, .send id message ∈ s.todo → s.loop.Connected id
  output : ∀ (id : Nat) k, s.loop.conns[id]? = some k →
    k.conn.outputStream ++ unsent id s.todo = message1 ++ message2
  input : ∀ (id : Nat) k, s.loop.conns[id]? = some k →
    k.conn.inputBuffer.content ≠ [] → s.todo = [.retrieveAll id]
  notShut : ∀ (id : Nat) k, s.loop.conns[id]? = some k → k.conn.NotShut

/-- No step of the program shuts a connection down: `main.cpp` has no such call. -/
theorem callOf_ne_shutdown {a : LoopAction} (hfollows : s.Follows a) (id : TcpConnectionPtr) :
    s.loop.callOf id a ≠ some .shutdown := by
  intro hcall
  cases calls_of_callOf hcall with
  | shutdown => exact hfollows

/-- A connection before and after a step of the program: the two accounts of `LoopStreams.lean`, for
bytes out and bytes in, and that nobody shut it down. -/
theorem Serves.conn (h : s.Serves message1 message2) {a : LoopAction}
    (hlegal : (mainMachine message1 message2).legal s a) {loop : EventLoop}
    (hstep : s.loop.step a = some loop) {id : Nat} {k : ConnectionObject}
    (hk : s.loop.conns[id]? = some k) :
    ∃ k', loop.conns[id]? = some k' ∧ k'.conn.NotShut ∧
      k'.conn.outputStream = k.conn.outputStream ++ sentTo id s.loop a ∧
      k.conn.inputBuffer.content ++ receivedBy id s.loop a
        = retrievedFrom id s.loop a ++ k'.conn.inputBuffer.content := by
  obtain ⟨k', hk', hfollows⟩ := step_call hstep id k hk
  have houtput := output_step h.stores hlegal.1 hstep id
  -- The account of the input needs that user code only takes bytes out, which `retrieveAll` does.
  have hretrieves : s.loop.Retrieves a := by
    cases a with
    | input j op =>
        rw [hlegal.2.2]
        exact rfl
    | _ => exact trivial
  have hinput := input_step h.stores hlegal.1 hretrieves hstep id
  rw [EventLoop.output, EventLoop.output, hk, hk'] at houtput
  rw [inputContent, inputContent, hk, hk'] at hinput
  refine ⟨k', hk', ?_, houtput, hinput⟩
  cases hcall : s.loop.callOf id a with
  | none =>
      rw [hcall] at hfollows
      rw [hfollows.1]
      exact h.notShut id k hk
  | some call =>
      rw [hcall] at hfollows
      obtain ⟨events, hrun, -⟩ := hfollows
      refine ConnectionCall.run_notShut hrun (h.stores.fits hlegal.1 hcall hk) ?_
        (h.stores.output id k hk) (h.notShut id k hk)
      rintro rfl
      exact callOf_ne_shutdown hlegal.2 id hcall

/-- Only `send` sends, and only a call on the input buffer takes bytes from it. Every other action
leaves both accounts where they are. -/
theorem quiet_of_ne {loop : EventLoop} {a : LoopAction}
    (hsend : ∀ j message result, a ≠ .send j message result) (hinput : ∀ j op, a ≠ .input j op)
    (id : TcpConnectionPtr) : sentTo id loop a = [] ∧ retrievedFrom id loop a = [] := by
  rw [sentTo, retrievedFrom]
  cases hcall : loop.callOf id a with
  | none =>
      refine ⟨rfl, ?_⟩
      cases loop.conns[id]? <;> rfl
  | some call =>
      cases calls_of_callOf hcall with
      | send message result hconnected => exact absurd rfl (hsend id message result)
      | input op => exact absurd rfl (hinput id op)
      | _ =>
          refine ⟨rfl, ?_⟩
          cases loop.conns[id]? <;> rfl

/-- A step of the loop itself sends nothing and takes nothing. -/
theorem own_quiet {loop : EventLoop} {a : LoopAction} (ha : isOwn a) (id : TcpConnectionPtr) :
    sentTo id loop a = [] ∧ retrievedFrom id loop a = [] := by
  refine quiet_of_ne (fun j message result heq => ?_) (fun j op heq => ?_) id
  · rw [heq] at ha
    cases ha
  · rw [heq] at ha
    cases ha

/-- The calls of the callback that starts, for one connection. There are three bodies: nothing, the
two messages to a connection that is up, and `retrieveAll` of the connection that got bytes. -/
theorem callbackBody_cases (message1 message2 : List Byte) (loop : EventLoop) :
    callbackBody message1 message2 loop = [] ∨
      (∃ id, (loop.frame = some (.connectEstablished id) ∨
          loop.frame = some (.connectDestroyed id)) ∧ loop.Connected id ∧
        callbackBody message1 message2 loop = [.send id message1, .send id message2]) ∨
      ∃ id, loop.frame = some (.message id) ∧
        callbackBody message1 message2 loop = [.retrieveAll id] := by
  have hup : ∀ id, onConnection message1 message2 loop id = [] ∨ (loop.Connected id ∧
      onConnection message1 message2 loop id = [.send id message1, .send id message2]) := by
    intro id
    rw [onConnection]
    split
    · rename_i hany
      obtain ⟨k, hk, hconnected⟩ := (Option.any_eq_true _ _).mp hany
      exact Or.inr ⟨⟨k, hk, by simpa [TcpConnection.connected] using hconnected⟩, rfl⟩
    · exact Or.inl rfl
  rw [callbackBody]
  cases hframe : loop.frame with
  | none => exact Or.inl rfl
  | some frame =>
      cases frame with
      | connectEstablished id =>
          rcases hup id with hnil | ⟨hconnected, heq⟩
          · exact Or.inl hnil
          · exact Or.inr (Or.inl ⟨id, Or.inl rfl, hconnected, heq⟩)
      | connectDestroyed id =>
          rcases hup id with hnil | ⟨hconnected, heq⟩
          · exact Or.inl hnil
          · exact Or.inr (Or.inl ⟨id, Or.inr rfl, hconnected, heq⟩)
      | message id => exact Or.inr (Or.inr ⟨id, rfl, rfl⟩)
      | timer => exact Or.inl rfl
      | functor => exact Or.inl rfl

/-- A step of the loop itself, and the callback that it starts. The account of an old connection
does not change, since the callback sends on none of them (`hold`). A new one has everything unsent
and nothing sent (`hnew`). What a step delivers is in the input buffer when `onMessage` starts. -/
theorem Serves.own (h : s.Serves message1 message2) {a : LoopAction}
    (hlegal : (mainMachine message1 message2).legal s a) (ha : isOwn a)
    (hframe : s.loop.frame = none) {loop : EventLoop} (hstep : s.loop.step a = some loop) :
    Serves message1 message2 { loop, todo := callbackBody message1 message2 loop } := by
  have hnil : s.todo = [] := h.idle hframe
  have hframes := step_frames hframe ha hstep
  -- The callback that starts sends on a connection that was just made, and on no other one.
  have hold : ∀ (id : Nat) k, s.loop.conns[id]? = some k →
      unsent id (callbackBody message1 message2 loop) = [] := by
    intro id k hk
    rcases callbackBody_cases message1 message2 loop with
      hbody | ⟨j, hup, ⟨k', hk', hstate⟩, hbody⟩ | ⟨j, -, hbody⟩
    · rw [hbody]
      rfl
    · have hne : j ≠ id := by
        rintro rfl
        rcases hup with hmade | hdown
        · exact absurd (hk.symm.trans (hframes.established j hmade)) (by simp)
        · rw [hframes.destroyed j hdown k' hk'] at hstate
          cases hstate
      rw [hbody]
      simp [unsent, hne]
    · rw [hbody]
      rfl
  -- And on that one it sends everything: it finds the connection up.
  have hnew : ∀ (id : Nat) k', s.loop.conns[id]? = none → loop.conns[id]? = some k' →
      unsent id (callbackBody message1 message2 loop) = message1 ++ message2 := by
    intro id k' hnone hk'
    have hmade := step_made hstep hnone hk'
    have hbody : callbackBody message1 message2 loop = [.send id message1, .send id message2] := by
      rw [callbackBody, hmade.frame]
      show onConnection message1 message2 loop id = _
      rw [onConnection, hk', Option.any_some, TcpConnection.connected, hmade.state]
      rfl
    rw [hbody]
    simp [unsent]
  refine ⟨h.stores.step hlegal.1 hstep, fun hnone => ?_, fun id message hmem => ?_,
    fun id k' hk' => ?_, fun id k' hk' hne => ?_, fun id k' hk' => ?_⟩
  · show callbackBody message1 message2 loop = []
    rw [callbackBody, show loop.frame = none from hnone]
  -- `todo`: whom the callback sends to is the connection that it was given
  · rcases callbackBody_cases message1 message2 loop with
      hbody | ⟨j, -, hconnected, hbody⟩ | ⟨j, -, hbody⟩
    · rw [hbody] at hmem
      cases hmem
    · rw [hbody] at hmem
      have hid : id = j ∧ message = message1 ∨ id = j ∧ message = message2 := by
        simpa using hmem
      rcases hid with ⟨rfl, -⟩ | ⟨rfl, -⟩
      · exact hconnected
      · exact hconnected
    · rw [hbody] at hmem
      simp at hmem
  -- `output`
  · cases hk : s.loop.conns[id]? with
    | none =>
        have hmade := step_made hstep hk hk'
        rw [hnew id k' hk hk', TcpConnection.outputStream, Socket.accepted, hmade.calls,
          hmade.output, Buffer.new_content]
        rfl
    | some k =>
        obtain ⟨k'', hk'', -, houtput, -⟩ := h.conn hlegal hstep hk
        cases hk''.symm.trans hk'
        have hbefore := h.output id k hk
        rw [hnil] at hbefore
        rw [hold id k hk, houtput, (own_quiet ha id).1, List.append_nil]
        exact hbefore
  -- `input`
  · cases hk : s.loop.conns[id]? with
    | none =>
        rw [(step_made hstep hk hk').input, Buffer.new_content] at hne
        exact absurd rfl hne
    | some k =>
        -- The input buffer was empty, so there is in it what the step delivered.
        obtain ⟨k'', hk'', -, -, hinput⟩ := h.conn hlegal hstep hk
        cases hk''.symm.trans hk'
        have hempty : k.conn.inputBuffer.content = [] := by
          by_contra hcontent
          have htodo := h.input id k hk hcontent
          rw [hnil] at htodo
          cases htodo
        rw [hempty, (own_quiet ha id).2, List.nil_append, List.nil_append] at hinput
        have hmessage := hframes.received id (hinput ▸ hne)
        show callbackBody message1 message2 loop = _
        rw [callbackBody, hmessage]
        rfl
  -- `notShut`
  · cases hk : s.loop.conns[id]? with
    | none =>
        have hmade := step_made hstep hk hk'
        refine ⟨Or.inl hmade.state, ?_⟩
        rw [hmade.calls]
        exact List.not_mem_nil
    | some k =>
        obtain ⟨k'', hk'', hnotShut, -⟩ := h.conn hlegal hstep hk
        cases hk''.symm.trans hk'
        exact hnotShut

/-- User code takes no connection down, so whom the callback found up is still up at its next call.
Connections go down in functors and in callbacks of channels, and none of these runs in between. -/
theorem connected_of_user (h : s.Serves message1 message2) {a : LoopAction}
    (hlegal : (mainMachine message1 message2).legal s a) (ha : isOwn a = false)
    {loop : EventLoop} (hstep : s.loop.step a = some loop) {id : TcpConnectionPtr}
    (hconnected : s.loop.Connected id) : loop.Connected id := by
  obtain ⟨k, hk, hstate⟩ := hconnected
  obtain ⟨k', hk', hfollows⟩ := step_call hstep id k hk
  refine ⟨k', hk', ?_⟩
  cases hcall : s.loop.callOf id a with
  | none =>
      rw [hcall] at hfollows
      rw [hfollows.1]
      exact hstate
  | some call =>
      rw [hcall] at hfollows
      obtain ⟨events, hrun, -⟩ := hfollows
      -- The calls that could set the state down are calls of the loop itself.
      cases calls_of_callOf hcall with
      | handler connfd readv write handler hnext => cases ha
      | connectDestroyed hnext => cases ha
      | connectDestroyedRemove hframe =>
          obtain ⟨p₁, -, heq⟩ := Option.map_eq_some_iff.mp hrun
          have hconn := (Prod.mk.inj (Prod.mk.inj heq).2).1
          rw [← hconn]
          exact hstate
      | send message result hup =>
          obtain ⟨⟨p₁, conn₁⟩, hsend, heq⟩ := Option.map_eq_some_iff.mp hrun
          have hconn₁ := (Prod.mk.inj (Prod.mk.inj heq).2).1
          obtain ⟨b, -, -, hconn, -⟩ :=
            TcpConnection.sendInLoop_spec (h.stores.output id k hk) hsend
          rw [← hconn₁, hconn]
          exact hstate
      | shutdown hup => exact hlegal.2.elim
      | input op =>
          obtain ⟨b, -, heq⟩ := Option.map_eq_some_iff.mp hrun
          have hconn := (Prod.mk.inj (Prod.mk.inj heq).2).1
          rw [← hconn]
          exact hstate

/-- User code receives nothing: bytes come in `handleRead`, which the loop calls. -/
theorem receivedBy_user {loop : EventLoop} {a : LoopAction} (ha : isOwn a = false)
    (id : TcpConnectionPtr) : receivedBy id loop a = [] := by
  rw [receivedBy]
  cases hcall : loop.callOf id a with
  | none => rfl
  | some call =>
      cases calls_of_callOf hcall with
      | handler connfd readv write handler hnext => cases ha
      | _ => rfl

/-- A step of the user code. The three calls of the callbacks share this: the calls that are left
are among those that were (`htodo`), what is not unsent any more was sent (`hunsent`), and what was
in an input buffer was taken (`hinput`). -/
theorem Serves.user (h : s.Serves message1 message2) {a : LoopAction}
    (hlegal : (mainMachine message1 message2).legal s a) (ha : isOwn a = false)
    {loop : EventLoop} (hstep : s.loop.step a = some loop) {todo : List UserCall}
    (hidle : loop.frame = none → todo = []) (htodo : ∀ call ∈ todo, call ∈ s.todo)
    (hunsent : ∀ id, unsent id s.todo = sentTo id s.loop a ++ unsent id todo)
    (hinput : ∀ (id : Nat) k, s.loop.conns[id]? = some k →
      k.conn.inputBuffer.content = retrievedFrom id s.loop a) :
    Serves message1 message2 { loop, todo } := by
  -- The connections behind the step are those in front of it.
  have haccept : acceptedBy a = none := by
    cases a with
    | runHandler connfd readv write => cases ha
    | _ => rfl
  refine ⟨h.stores.step hlegal.1 hstep, hidle, fun id message hmem => ?_, fun id k' hk' => ?_,
    fun id k' hk' hne => ?_, fun id k' hk' => ?_⟩
  · exact connected_of_user h hlegal ha hstep (h.todo id message (htodo _ hmem))
  · obtain ⟨k, hk⟩ := conns_of_not_runHandler hstep haccept hk'
    obtain ⟨k'', hk'', -, houtput, -⟩ := h.conn hlegal hstep hk
    cases hk''.symm.trans hk'
    rw [houtput, List.append_assoc]
    exact hunsent id ▸ h.output id k hk
  · -- What was in the input buffer is what the user took.
    obtain ⟨k, hk⟩ := conns_of_not_runHandler hstep haccept hk'
    obtain ⟨k'', hk'', -, -, hbalance⟩ := h.conn hlegal hstep hk
    cases hk''.symm.trans hk'
    rw [receivedBy_user ha, List.append_nil, hinput id k hk] at hbalance
    exact absurd (List.self_eq_append_right.mp hbalance) hne
  · obtain ⟨k, hk⟩ := conns_of_not_runHandler hstep haccept hk'
    obtain ⟨k'', hk'', hnotShut, -⟩ := h.conn hlegal hstep hk
    cases hk''.symm.trans hk'
    exact hnotShut

/-- The input buffers are empty, unless the message callback runs for this connection. -/
theorem Serves.input_nil (h : s.Serves message1 message2) {id : Nat} {k : ConnectionObject}
    (hk : s.loop.conns[id]? = some k) (hne : s.todo ≠ [.retrieveAll id]) :
    k.conn.inputBuffer.content = [] := by
  by_contra hcontent
  exact hne (h.input id k hk hcontent)

/-- The callback has made its calls and returns. It starts no other one, so the loop goes on with
nothing to do for user code. -/
theorem Serves.of_callbackReturns (h : s.Serves message1 message2)
    (hlegal : (mainMachine message1 message2).legal s .callbackReturns) {loop : EventLoop}
    (hstep : s.loop.step .callbackReturns = some loop) :
    Serves message1 message2
      { loop, todo := s.nextTodo message1 message2 loop .callbackReturns } := by
  have hnil : s.todo = [] := hlegal.2
  have hframe : loop.frame = none := step_frame_callbackReturns hstep
  have hnext : s.nextTodo message1 message2 loop .callbackReturns = [] := by
    show callbackBody message1 message2 loop = []
    rw [callbackBody, hframe]
  rw [hnext]
  have hquiet : ∀ id, sentTo id s.loop .callbackReturns = [] ∧
      retrievedFrom id s.loop .callbackReturns = [] :=
    quiet_of_ne (by simp) (by simp)
  refine h.user hlegal rfl hstep (fun _ => rfl) ?_ ?_ ?_
  · exact fun call hcall => absurd hcall List.not_mem_nil
  · intro id
    rw [hnil, (hquiet id).1]
    rfl
  · intro id k hk
    rw [h.input_nil hk (by rw [hnil]; simp), (hquiet id).2]

/-- `onConnection` sends its next message. The message leaves what is unsent and enters the stream
of its connection, which is up because the callback tested it and nothing happened since. -/
theorem Serves.of_send (h : s.Serves message1 message2) {j : TcpConnectionPtr} {message : List Byte}
    {result : WriteResult}
    (hlegal : (mainMachine message1 message2).legal s (.send j message result))
    {loop : EventLoop} (hstep : s.loop.step (.send j message result) = some loop) :
    Serves message1 message2
      { loop, todo := s.nextTodo message1 message2 loop (.send j message result) } := by
  obtain ⟨rest, hrest⟩ := List.head?_eq_some_iff.mp (show s.todo.head? = _ from hlegal.2)
  have hnext : s.nextTodo message1 message2 loop (.send j message result) = rest := by
    rw [nextTodo, hrest]
    rfl
  have hconnected : s.loop.Connected j := h.todo j message (by rw [hrest]; simp)
  rw [hnext]
  refine h.user hlegal rfl hstep (fun hnone => ?_) ?_ ?_ ?_
  · rw [step_frame_send hstep] at hnone
    exact absurd hnone hlegal.1.1
  · intro call hcall
    rw [hrest]
    exact List.mem_cons_of_mem _ hcall
  · intro id
    rw [hrest, sentTo, callOf]
    by_cases hid : j = id
    · rw [if_pos ⟨hid, hid ▸ hconnected⟩]
      simp [unsent, hid, ConnectionCall.sent]
    · rw [if_neg fun hand => hid hand.1]
      simp [unsent, hid]
  · intro id k hk
    rw [h.input_nil hk (by rw [hrest]; simp), retrievedFrom, hk, callOf]
    split <;> rfl

/-- `onMessage` throws away what it was given: the input buffer of its connection is empty again,
and the others were. -/
theorem Serves.of_input (h : s.Serves message1 message2) {j : TcpConnectionPtr} {op : Buffer.Op}
    (hlegal : (mainMachine message1 message2).legal s (.input j op)) {loop : EventLoop}
    (hstep : s.loop.step (.input j op) = some loop) :
    Serves message1 message2
      { loop, todo := s.nextTodo message1 message2 loop (.input j op) } := by
  obtain ⟨hhead, rfl⟩ := hlegal.2
  obtain ⟨rest, hrest⟩ := List.head?_eq_some_iff.mp hhead
  have hnext : s.nextTodo message1 message2 loop (.input j .retrieveAll) = rest := by
    rw [nextTodo, hrest]
    rfl
  rw [hnext]
  refine h.user hlegal rfl hstep (fun hnone => ?_) ?_ ?_ ?_
  · rw [step_frame_input hstep] at hnone
    exact absurd hnone hlegal.1.1
  · intro call hcall
    rw [hrest]
    exact List.mem_cons_of_mem _ hcall
  · intro id
    rw [hrest, sentTo, callOf]
    split <;> rfl
  · intro id k hk
    rw [retrievedFrom, hk, callOf]
    by_cases hid : j = id
    · rw [if_pos hid]
      rfl
    · rw [if_neg hid]
      refine h.input_nil hk ?_
      rw [hrest]
      simp [hid]

/-- The step lemma of the program. The actions of the loop itself start callbacks (`Serves.own`),
and those of user code are the calls that `main.cpp` makes; it makes no others. -/
theorem Serves.step (h : s.Serves message1 message2) {a : LoopAction}
    (hlegal : (mainMachine message1 message2).legal s a)
    (hstep : s.step message1 message2 a = some s') : s'.Serves message1 message2 := by
  obtain ⟨loop, hloop, rfl⟩ := Option.map_eq_some_iff.mp hstep
  cases a with
  | poll answer numEvents => exact h.own hlegal rfl hlegal.1.2.1 hloop
  | handleEvent => exact h.own hlegal rfl hlegal.1.1 hloop
  | runHandler connfd readv write => exact h.own hlegal rfl hlegal.1.1 hloop
  | doPendingFunctors => exact h.own hlegal rfl hlegal.1.1 hloop
  | runFunctor => exact h.own hlegal rfl hlegal.1.1 hloop
  | endFunctors => exact h.own hlegal rfl hlegal.1.1 hloop
  | callbackReturns => exact h.of_callbackReturns hlegal hloop
  | send j message result => exact h.of_send hlegal hloop
  | input j op => exact h.of_input hlegal hloop
  | shutdown j => exact absurd hlegal.2 id
  | addRef j => exact absurd hlegal.2 id
  | dropRef j => exact absurd hlegal.2 id
  | queueInLoop => exact absurd hlegal.2 id
  | startServer name acceptSocket => exact absurd hlegal.2 id

/-- The start of the program: no connection, and no callback. The server listens, which is one
channel more in the table, with the read callback alone. -/
theorem main_start {timerfd wakeupFd acceptSocket : Int}
    (h : main timerfd wakeupFd acceptSocket = some s) : s.Serves message1 message2 := by
  obtain ⟨loop, hnew, h⟩ := bind_eq_some_iff.mp h
  obtain ⟨loop', hserver, h⟩ := bind_eq_some_iff.mp h
  obtain ⟨p, hadd, hserver⟩ := bind_eq_some_iff.mp hserver
  have hstores := new_stores hnew
  have hconns := new_conns hnew
  cases hserver
  cases h
  have hnone : ∀ (id : Nat) k, loop.conns[id]? ≠ some k := by
    intro id k hk
    rw [hconns] at hk
    cases hk
  refine ⟨⟨⟨readsAtMost_of_addChannel hadd hstores.readers.channels,
    hstores.readers.current⟩, hstores.input, hstores.output⟩, fun _ => rfl, ?_, ?_, ?_, ?_⟩
  · exact fun id message hmem => absurd hmem List.not_mem_nil
  · exact fun id k hk => absurd hk (hnone id k)
  · exact fun id k hk => absurd hk (hnone id k)
  · exact fun id k hk => absurd hk (hnone id k)

/-- In every run of the program, for every client: what the kernel took, what waits in the output
buffer and what `onConnection` still has to send are the two messages. What the client sent is gone
when `onMessage` is through, and nobody shuts the connection down. The clients may close whenever
they like: the account goes on for a connection that is gone, and says what it got. -/
theorem main_serves {timerfd wakeupFd acceptSocket : Int} {s₀ : Program}
    (hmain : main timerfd wakeupFd acceptSocket = some s₀) {as : List LoopAction}
    (h : (mainMachine message1 message2).Run s₀ as s) {id : Nat} {k : ConnectionObject}
    (hk : s.loop.conns[id]? = some k) :
    k.conn.socket.accepted ++ k.conn.outputBuffer.content ++ unsent id s.todo
        = message1 ++ message2 ∧
      (k.conn.inputBuffer.content ≠ [] → s.todo = [.retrieveAll id]) ∧
      k.conn.NotShut := by
  have hserves : s.Serves message1 message2 :=
    h.invariant (main_start hmain) fun _ _ _ hs hlegal hstep => hs.step hlegal hstep
  exact ⟨hserves.output id k hk, hserves.input id k hk, hserves.notShut id k hk⟩

/-- A client whose first message does not fit into the kernel's buffer. The rest of it waits in
front of the second message. -/
theorem main_serves_backlog :
    ∃ s : Program, ∃ k ∈ s.loop.conns[0]?, k.conn.outputBuffer.content ≠ [] ∧
      k.conn.socket.accepted ++ k.conn.outputBuffer.content ++ unsent 0 s.todo
        = [65, 65] ++ [66] := by
  obtain ⟨s₀, s, hmain, hrun, k, hk, hcontent⟩ := Machine.exists_run_from
    (M := mainMachine [65, 65] [66])
    (P := fun s : Program => ∃ k ∈ s.loop.conns[0]?, k.conn.outputBuffer.content ≠ [])
    (main 3 4 5)
    [.poll [0, 0, 1] 1, .handleEvent, .runHandler 7 (.error 0) (.ok 0), .send 0 [65, 65] (.ok 1),
      .send 0 [66] (.ok 0), .callbackReturns]
    (by decide +kernel)
  exact ⟨s, k, hk, hcontent, (main_serves hmain hrun hk).1⟩

end Program

end SecondGear
