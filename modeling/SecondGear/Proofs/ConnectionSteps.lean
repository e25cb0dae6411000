import SecondGear.Proofs.TcpConnection

/-!
# `SecondGear.Proofs.ConnectionSteps`: what one step runs on the connection

`step_effect` is the inversion of `step`. `Effect` has one case for each method that a step
can run, with the call as it returned, and two for the steps that run none. What a step does
to one part of the connection is then read off the spec lemmas of the methods: no other
proof unfolds `step` for it.

The callbacks come in through `Channel.ReadsOnly`: a dispatched result of `poll` runs
`handleRead` or nothing.
-/

set_option autoImplicit false

namespace SecondGear

open SecondGear.Lib

namespace ConnectionRun

variable {s s' : ConnectionRun} {a : ConnectionAction}

/-- The message that a step passes to `sendInLoop`, with the result of `::write`. -/
def executes (s : ConnectionRun) : ConnectionAction → Option (List Byte × WriteResult)
  | .send message result =>
      if s.conn.state = .kConnected then some (message, result) else none
  | .runFunctor result =>
      match s.pendingFunctors with
      | .sendInLoop call :: _ => some (call.message, result)
      | _ => none
  | _ => none

/-- The step runs `shutdownInLoop`, from `shutdown` or from the queue. -/
def shutsDown (s : ConnectionRun) : ConnectionAction → Bool
  | .shutdown => s.conn.state == .kConnected
  | .runFunctor _ => s.pendingFunctors.head? == some .shutdownInLoop
  | .shutdownInLoop => true
  | _ => false

/-- What a step runs on the connection. -/
inductive Effect (s : ConnectionRun) : ConnectionAction → ConnectionRun → Prop
  /-- nothing: the calls of the threads and the queue move on, or `state_` was tested and the
  call is dropped -/
  | calls {a : ConnectionAction} {s' : ConnectionRun} (hexec : s.executes a = none)
      (hshut : s.shutsDown a = false) (hwrite : ∀ result, a ≠ .handleWrite result)
      (hp : s'.poller = s.poller) (hconn : s'.conn = s.conn) : Effect s a s'
  /-- `setState(kDisconnecting)` in another thread -/
  | disconnecting {t : Nat} {s' : ConnectionRun} (hp : s'.poller = s.poller)
      (hconn : s'.conn = s.conn.setState .kDisconnecting) : Effect s (.resume t) s'
  | sendInLoop {a : ConnectionAction} {s' : ConnectionRun} {message : List Byte}
      {result : WriteResult} (hexec : s.executes a = some (message, result))
      (hshut : s.shutsDown a = false) (hclosed : s'.closed = s.closed)
      (hcall : s.conn.sendInLoop s.poller message result = some (s'.poller, s'.conn)) :
      Effect s a s'
  /-- `shutdown` sets the state before -/
  | shutdownInLoop {a : ConnectionAction} {s' : ConnectionRun} {conn : TcpConnection}
      (hexec : s.executes a = none) (hshut : s.shutsDown a = true)
      (hfrom : conn = s.conn ∨ conn = s.conn.setState .kDisconnecting)
      (hp : s'.poller = s.poller) (hconn : s'.conn = conn.shutdownInLoop s.poller) :
      Effect s a s'
  | handleRead {readv : ReadvResult} {after : Poller × TcpConnection × Option Callback}
      (hcall : s.conn.handleRead s.poller readv = some after) :
      Effect s (.handleRead readv) (s.afterHandler after)
  /-- `poll` reported nothing to read -/
  | event {revents : Events} {readv : ReadvResult} {write : WriteResult} :
      Effect s (.handleEvent revents readv write)
        { s with poller := s.poller.setRevents s.conn.channel revents }
  | dispatch {revents : Events} {readv : ReadvResult} {write : WriteResult}
      {after : Poller × TcpConnection × Option Callback}
      (hcall : s.conn.handleRead (s.poller.setRevents s.conn.channel revents) readv
        = some after) :
      Effect s (.handleEvent revents readv write)
        (ConnectionRun.afterHandler
          { s with poller := s.poller.setRevents s.conn.channel revents } after)
  | handleWrite {result : WriteResult} {p : Poller} {conn : TcpConnection}
      (hcall : s.conn.handleWrite s.poller result = some (p, conn)) :
      Effect s (.handleWrite result) { s with poller := p, conn := conn }
  | connectEstablished {p : Poller} {conn : TcpConnection}
      (hcall : s.conn.connectEstablished s.poller = some (p, conn)) :
      Effect s .connectEstablished { s with poller := p, conn := conn }
  | handleClose {p : Poller} {conn : TcpConnection}
      (hcall : s.conn.handleClose s.poller = some (p, conn)) :
      Effect s .handleClose { s with poller := p, conn := conn, closed := true }
  | connectDestroyed {p : Poller} {conn : TcpConnection}
      (hcall : s.conn.connectDestroyed s.poller = some (p, conn)) :
      Effect s .connectDestroyed { s with poller := p, conn := conn, closed := true }
  | connectDestroyedRemove {p : Poller}
      (hcall : s.poller.removeChannel s.conn.channel = some p) :
      Effect s .connectDestroyedRemove { s with poller := p, closed := true }
  | input {op : Buffer.Op} {b : Buffer} (hcall : s.conn.inputBuffer.apply op = some b) :
      Effect s (.input op) { s with conn := { s.conn with inputBuffer := b } }
  | other {op : PollerOp} {p : Poller} (hcall : op.apply s.poller = some p) :
      Effect s (.other op) { s with poller := p }

/-- Every step runs one of the methods, or none. -/
theorem step_effect (hreads : (s.poller.channel s.conn.channel).ReadsOnly)
    (hstep : s.step a = some s') : s.Effect a s' := by
  cases a with
  | send message result =>
      rw [step] at hstep
      split at hstep
      · rename_i hstate
        obtain ⟨⟨p, conn⟩, hcall, rfl⟩ := Option.map_eq_some_iff.mp hstep
        exact .sendInLoop (if_pos hstate) rfl rfl hcall
      · -- The message is dropped.
        rename_i hstate
        cases hstep
        exact .calls (if_neg hstate) rfl (by simp) rfl rfl
  | runFunctor result =>
      rw [step] at hstep
      split at hstep
      · -- An empty queue: nothing runs.
        rename_i hpending
        cases hstep
        exact .calls (by simp [executes, hpending]) (by simp [shutsDown, hpending]) (by simp)
          rfl rfl
      · rename_i call rest hpending
        obtain ⟨⟨p, conn⟩, hcall, rfl⟩ := Option.map_eq_some_iff.mp hstep
        exact .sendInLoop (by simp [executes, hpending]) (by simp [shutsDown, hpending]) rfl hcall
      · rename_i rest hpending
        cases hstep
        exact .shutdownInLoop (by simp [executes, hpending]) (by simp [shutsDown, hpending])
          (Or.inl rfl) rfl rfl
  | shutdown =>
      rw [step] at hstep
      split at hstep
      · rename_i hstate
        cases hstep
        exact .shutdownInLoop rfl (by simp [shutsDown, hstate]) (Or.inr rfl) rfl rfl
      · rename_i hstate
        cases hstep
        exact .calls rfl (by simp [shutsDown, hstate]) (by simp) rfl rfl
  | sendFrom t message | shutdownFrom t =>
      rw [step] at hstep
      split at hstep <;> cases hstep <;> exact .calls rfl rfl (by simp) rfl rfl
  | resume t =>
      rw [step] at hstep
      split at hstep
      · cases hstep
        exact .calls rfl rfl (by simp) rfl rfl
      · cases hstep
        exact .disconnecting rfl rfl
      · cases hstep
        exact .calls rfl rfl (by simp) rfl rfl
  | shutdownInLoop =>
      cases hstep
      exact .shutdownInLoop rfl rfl (Or.inl rfl) rfl rfl
  | handleEvent revents readv write =>
      -- The callbacks are those of the constructor, whatever `poll` reported.
      have hobjects : Poller.SameObjects s.poller
          (s.poller.setRevents s.conn.channel revents) := .of_setChannel
      rw [step, (hobjects.readsOnly hreads).handleEvent_eq] at hstep
      split at hstep
      · obtain ⟨after, hcall, hstep⟩ := bind_eq_some_iff.mp hstep
        cases hstep
        exact .dispatch hcall
      · cases hstep
        exact .event
  | handleRead result =>
      obtain ⟨after, hcall, rfl⟩ := Option.map_eq_some_iff.mp hstep
      exact .handleRead hcall
  | handleWrite result =>
      obtain ⟨⟨p, conn⟩, hcall, rfl⟩ := Option.map_eq_some_iff.mp hstep
      exact .handleWrite hcall
  | connectEstablished =>
      obtain ⟨⟨p, conn⟩, hcall, rfl⟩ := Option.map_eq_some_iff.mp hstep
      exact .connectEstablished hcall
  | handleClose =>
      obtain ⟨⟨p, conn⟩, hcall, rfl⟩ := Option.map_eq_some_iff.mp hstep
      exact .handleClose hcall
  | connectDestroyed =>
      obtain ⟨⟨p, conn⟩, hcall, rfl⟩ := Option.map_eq_some_iff.mp hstep
      exact .connectDestroyed hcall
  | connectDestroyedRemove =>
      obtain ⟨p, hcall, rfl⟩ := Option.map_eq_some_iff.mp hstep
      exact .connectDestroyedRemove hcall
  | input op =>
      obtain ⟨b, hcall, rfl⟩ := Option.map_eq_some_iff.mp hstep
      exact .input hcall
  | other op =>
      obtain ⟨p, hcall, rfl⟩ := Option.map_eq_some_iff.mp hstep
      exact .other hcall

end ConnectionRun

end SecondGear
