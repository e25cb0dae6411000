import SecondGear.Proofs.LoopObjects

/-!
# `SecondGear.Proofs.LoopConnections`: the loop as it looks to one connection

A step of the loop does many things. For one connection it is the call of one method, or no
call at all. `callOf` says which, from the state in front of the step, and `step_call` says
that nothing else happens to the connection.

* `callOf`, `ConnectionCall.run`: the method that a step calls, and what it does.
* `Called.of_call`, `Called.of_connected`: a step that changes one object, by a call on it. Each
  action that calls a method has a lemma that ends in one of these (`send_called`,
  `runFunctor_called` and so on), and `stepBody_called` puts them together.
* `step_call`: a step does to the connection what the method does.
* `step_made`: a connection that a step makes has sent and received nothing.

None of this needs the invariant. Results about one connection in a whole program go through
`step_call`: the bytes in and out (`Proofs/LoopStreams.lean`), the backlog
(`Proofs/LoopBacklog.lean`), and what a hang-up leads to (`Proofs/HangUp.lean`).
-/

set_option autoImplicit false

namespace SecondGear

open SecondGear.Lib

/-- A call of a method of a connection, with what the kernel returns to it. -/
inductive ConnectionCall where
  | handler (h : Handler) (readv : ReadvResult) (write : WriteResult)
  | connectDestroyed
  /-- the rest of `connectDestroyed`, and whether the loop is dispatching -/
  | connectDestroyedRemove (dispatching : Bool)
  | send (message : List Byte) (result : WriteResult)
  | shutdown
  | input (op : Buffer.Op)

/-- The events that a callback is recorded with. `closeCallback_` is `removeConnection`. -/
def Callback.events : Callback → List ConnectionEvent
  | .connectionCallback => []
  | .messageCallback => [.messageCallback]
  | .closeCallback => [.handleClose, .closeCallback, .erase 1]

/-- What the method does, and what the history says about it. The close of a connection is one call,
`handleClose` with the `removeConnection` of the server inside, and its events are those of both. -/
def ConnectionCall.run (p : Poller) (conn : TcpConnection) :
    ConnectionCall → Option (Poller × TcpConnection × List ConnectionEvent)
  | .handler h readv write => (conn.runHandler p readv write h).map fun (p, conn, callback) =>
      (p, conn, callback.elim [] Callback.events)
  | .connectDestroyed => (conn.connectDestroyed p).map fun (p, conn) =>
      (p, conn, [.connectDestroyed, .connectionCallback conn.connected])
  | .connectDestroyedRemove dispatching => (conn.connectDestroyedRemove p).map fun p =>
      (p, conn, [.removeChannel dispatching])
  | .send message result => (conn.sendInLoop p message result).map fun (p, conn) => (p, conn, [])
  | .shutdown => some (p, (conn.setState .kDisconnecting).shutdownInLoop p, [])
  | .input op => (conn.inputBuffer.apply op).map fun inputBuffer =>
      (p, { conn with inputBuffer }, [])

namespace EventLoop

variable {s s' : EventLoop}

/-- `connected()` says yes. User code can ask this, and `send` and `shutdown` do. -/
def Connected (s : EventLoop) (id : TcpConnectionPtr) : Prop :=
  ∃ k ∈ s.conns[id]?, k.conn.state = .kConnected

instance (s : EventLoop) (id : TcpConnectionPtr) : Decidable (s.Connected id) :=
  inferInstanceAs (Decidable (∃ k ∈ s.conns[id]?, _))

/-- The callback that comes next, when it is one of the connection: it is in front of the loop, and
its channel belongs to the connection. -/
def nextHandler (s : EventLoop) (id : TcpConnectionPtr) : Option Handler :=
  match s.pc.current with
  | [] => none
  | (c, h) :: _ => if s.owners[c]? = some (.connection id) then some h else none

/-- The method of the connection that an action calls. `send` and `shutdown` test `state_`
first. -/
def callOf (s : EventLoop) (id : TcpConnectionPtr) : LoopAction → Option ConnectionCall
  | .runHandler _ readv write => (s.nextHandler id).map (.handler · readv write)
  | .runFunctor =>
      if s.pc.rest.head? = some (.connectDestroyed id) then some .connectDestroyed else none
  | .callbackReturns =>
      if s.frame = some (.connectDestroyed id) then
        some (.connectDestroyedRemove s.pc.isDispatch)
      else none
  | .send j message result =>
      if j = id ∧ s.Connected id then some (.send message result) else none
  | .shutdown j => if j = id ∧ s.Connected id then some .shutdown else none
  | .input j op => if j = id then some (.input op) else none
  | _ => none

/-- When an action calls a method of the connection. The same as `callOf`, as an inductive, so that
a proof about a call can split on what was called and have the reason for it at hand. -/
inductive Calls (s : EventLoop) (id : TcpConnectionPtr) : LoopAction → ConnectionCall → Prop
  | handler (connfd : Int) (readv : ReadvResult) (write : WriteResult) (h : Handler)
      (hnext : s.nextHandler id = some h) :
      Calls s id (.runHandler connfd readv write) (.handler h readv write)
  | connectDestroyed (hnext : s.pc.rest.head? = some (.connectDestroyed id)) :
      Calls s id .runFunctor .connectDestroyed
  | connectDestroyedRemove (hframe : s.frame = some (.connectDestroyed id)) :
      Calls s id .callbackReturns (.connectDestroyedRemove s.pc.isDispatch)
  | send (message : List Byte) (result : WriteResult) (hconnected : s.Connected id) :
      Calls s id (.send id message result) (.send message result)
  | shutdown (hconnected : s.Connected id) : Calls s id (.shutdown id) .shutdown
  | input (op : Buffer.Op) : Calls s id (.input id op) (.input op)

/-- The method that an action calls, in cases. -/
theorem calls_of_callOf {id : TcpConnectionPtr} {a : LoopAction} {call : ConnectionCall}
    (h : s.callOf id a = some call) : Calls s id a call := by
  cases a with
  | runHandler connfd readv write =>
      obtain ⟨handler, hnext, rfl⟩ := Option.map_eq_some_iff.mp h
      exact .handler connfd readv write handler hnext
  | runFunctor =>
      obtain ⟨hnext, ⟨⟩⟩ := Option.ite_none_right_eq_some.mp h
      exact .connectDestroyed hnext
  | callbackReturns =>
      obtain ⟨hframe, ⟨⟩⟩ := Option.ite_none_right_eq_some.mp h
      exact .connectDestroyedRemove hframe
  | send j message result =>
      obtain ⟨⟨rfl, hconnected⟩, ⟨⟩⟩ := Option.ite_none_right_eq_some.mp h
      exact .send message result hconnected
  | shutdown j =>
      obtain ⟨⟨rfl, hconnected⟩, ⟨⟩⟩ := Option.ite_none_right_eq_some.mp h
      exact .shutdown hconnected
  | input j op =>
      obtain ⟨rfl, ⟨⟩⟩ := Option.ite_none_right_eq_some.mp h
      exact .input op
  | _ => cases h

/-- The callback in front of the loop is a call on the connection that its channel belongs
to. -/
theorem callOf_runHandler {id : TcpConnectionPtr} {c : ChannelPtr} {h : Handler}
    {current : List (ChannelPtr × Handler)} {rest : List ChannelPtr}
    (hpc : s.pc = .dispatch ((c, h) :: current) rest) {connfd : Int} {readv : ReadvResult}
    {write : WriteResult} :
    s.callOf id (.runHandler connfd readv write)
      = if s.owners[c]? = some (.connection id) then some (.handler h readv write) else none := by
  rw [callOf, nextHandler, hpc]
  show Option.map _ (if _ then _ else _) = _
  split <;> rfl

/-- The callback that comes next is in front of the loop, on some channel. With `Readers.current`
(`Proofs/LoopTable.lean`) it is `handleRead`. -/
theorem mem_current_of_nextHandler {id : TcpConnectionPtr} {handler : Handler}
    (h : s.nextHandler id = some handler) : ∃ c, (c, handler) ∈ s.pc.current := by
  rw [nextHandler] at h
  split at h
  · cases h
  · rename_i c handler' current hcurrent
    obtain ⟨-, ⟨⟩⟩ := Option.ite_none_right_eq_some.mp h
    exact ⟨c, by rw [hcurrent]; exact List.mem_cons_self⟩

/-- The history grows by the events, and by the end of the object if it dies. The end is not part of
a call: a destructor runs when the last reference goes, in whatever step that is. -/
def Records (k k' : ConnectionObject) (events : List ConnectionEvent) : Prop :=
  ∃ closing, k'.trace = k.trace ++ events ++ closing ∧ ∀ e ∈ closing, ∃ r, e = .close r

/-- In front of the destructors there is no end yet. -/
theorem Records.of_trace {k k' : ConnectionObject} {events : List ConnectionEvent}
    (h : k'.trace = k.trace ++ events) : Records k k' events :=
  ⟨[], h.trans (List.append_nil _).symm, fun _ he => absurd he List.not_mem_nil⟩

/-- What a call, or none, does to the connection of an object. A call takes the table of the loop in
front of the step and leaves the one behind it, so it is the only call on the table in the step. -/
def Follows (s s' : EventLoop) (k k' : ConnectionObject) : Option ConnectionCall → Prop
  | none => k'.conn = k.conn ∧ Records k k' []
  | some call => ∃ events, call.run s.poller k.conn = some (s'.poller, k'.conn, events) ∧
      Records k k' events

/-- No call, and no event. -/
theorem Follows.none {k k' : ConnectionObject} (hconn : k'.conn = k.conn)
    (htrace : k'.trace = k.trace) : Follows s s' k k' none :=
  ⟨hconn, .of_trace (htrace.trans (List.append_nil _).symm)⟩

/-- A call with its events. -/
theorem Follows.some {k k' : ConnectionObject} {call : ConnectionCall}
    {events : List ConnectionEvent}
    (hrun : call.run s.poller k.conn = .some (s'.poller, k'.conn, events))
    (htrace : k'.trace = k.trace ++ events) : Follows s s' k k' (.some call) :=
  ⟨events, hrun, .of_trace htrace⟩

/-- The connection afterwards: what the call made of it. It says nothing about a connection that was
not there; see `Made` for one that the step makes. -/
def Called (s s' : EventLoop) (id : TcpConnectionPtr) (call : Option ConnectionCall) : Prop :=
  ∀ k, s.conns[id]? = some k → ∃ k', s'.conns[id]? = some k' ∧ Follows s s' k k' call

/-! ### One step -/

/-- No connection changes. -/
theorem Called.of_eq {id : TcpConnectionPtr} (hconns : s'.conns = s.conns) :
    Called s s' id none :=
  fun k hk => ⟨k, hconns ▸ hk, .none rfl rfl⟩

/-- The connections stay, and one is made behind them. For those that were there this is no call. -/
theorem Called.of_append {id : TcpConnectionPtr} {k₀ : ConnectionObject}
    (hconns : s'.conns = s.conns ++ [k₀]) : Called s s' id none := by
  intro k hk
  refine ⟨k, ?_, .none rfl rfl⟩
  rw [hconns, List.getElem?_append_left (List.getElem?_eq_some_iff.mp hk).1, hk]

/-- One object changes. It is the one of the call, or there is no call. -/
theorem Called.of_set {id j : TcpConnectionPtr} {k₀ k₀' : ConnectionObject}
    {call : Option ConnectionCall} (hk₀ : s.conns[j]? = some k₀)
    (hconns : s'.conns = s.conns.set j k₀') (hself : j = id → Follows s s' k₀ k₀' call)
    (hother : j ≠ id → call = none) : Called s s' id call := by
  intro k hk
  rw [conns_set hk₀ hconns]
  by_cases hid : id = j
  · rw [hid, hk₀, Option.some.injEq] at hk
    rw [if_pos hid, ← hk]
    exact ⟨k₀', rfl, hself hid.symm⟩
  · rw [if_neg hid, hother (Ne.symm hid)]
    exact ⟨k, hk, .none rfl rfl⟩

/-- One object changes, by a call on its connection. The other connections see no call. -/
theorem Called.of_call {id j : TcpConnectionPtr} {k k' : ConnectionObject} {call : ConnectionCall}
    {events : List ConnectionEvent} (hk : s.conns[j]? = some k)
    (hconns : s'.conns = s.conns.set j k')
    (hrun : call.run s.poller k.conn = some (s'.poller, k'.conn, events))
    (htrace : k'.trace = k.trace ++ events) :
    Called s s' id (if j = id then some call else none) := by
  refine .of_set hk hconns (fun hid => ?_) fun hid => if_neg hid
  rw [if_pos hid]
  exact .some hrun htrace

/-- The same for `send` and `shutdown`, whose test of `state_` went well. -/
theorem Called.of_connected {id j : TcpConnectionPtr} {k k' : ConnectionObject}
    {call : ConnectionCall} {events : List ConnectionEvent} (hk : s.conns[j]? = some k)
    (hstate : k.conn.state = .kConnected) (hconns : s'.conns = s.conns.set j k')
    (hrun : call.run s.poller k.conn = some (s'.poller, k'.conn, events))
    (htrace : k'.trace = k.trace ++ events) :
    Called s s' id (if j = id ∧ s.Connected id then some call else none) := by
  have hiff : j = id ∧ s.Connected id ↔ j = id :=
    and_iff_left_of_imp fun hid => ⟨k, hid ▸ hk, hstate⟩
  simp only [hiff]
  exact .of_call hk hconns hrun htrace

/-- When the test of `state_` fails, `send` and `shutdown` do nothing, and are no call. -/
theorem Called.of_not_connected {id j : TcpConnectionPtr} {k : ConnectionObject}
    {call : ConnectionCall} (hk : s.conns[j]? = some k) (hstate : ¬ k.conn.state = .kConnected) :
    Called s s id (if j = id ∧ s.Connected id then some call else none) := by
  rw [if_neg]
  · exact .of_eq rfl
  · rintro ⟨rfl, k', hk', hstate'⟩
    rw [Option.mem_def, hk, Option.some.injEq] at hk'
    exact hstate (hk' ▸ hstate')

/-- The callback of a connection's channel. Behind the handler the loop calls what the handler asked
for: nothing, the user's message callback, which is a frame, or the server's `removeConnection`,
which touches the history of the object and not the connection. -/
theorem connectionHandler_called {j : TcpConnectionPtr} {h : Handler} {readv : ReadvResult}
    {write : WriteResult} (hstep : s.connectionHandler j h readv write = some s') :
    Called s s' j (some (.handler h readv write)) ∧
      ∀ id, id ≠ j → Called s s' id none := by
  obtain ⟨k, hk, hstep⟩ := bind_eq_some_iff.mp hstep
  obtain ⟨-, hstep⟩ := assert_bind_eq_some_iff.mp hstep
  obtain ⟨⟨p, conn, callback⟩, hrun, hstep⟩ := bind_eq_some_iff.mp hstep
  -- Whatever the callback is, the object ends with the connection that the handler left.
  suffices hset : ∃ k', s'.conns = s.conns.set j k' ∧ k'.conn = conn ∧ s'.poller = p ∧
      k'.trace = k.trace ++ callback.elim [] Callback.events by
    obtain ⟨k', hconns, hconn, hpoller, htrace⟩ := hset
    refine ⟨.of_set hk hconns (fun _ => .some ?_ htrace) (absurd rfl), fun id hid => ?_⟩
    · show (k.conn.runHandler s.poller readv write h).map _ = _
      rw [hrun, hconn, hpoller]
      rfl
    · exact .of_set hk hconns (fun heq => absurd heq.symm hid) fun _ => rfl
  cases callback with
  | none =>
      cases hstep
      exact ⟨_, rfl, rfl, rfl, (List.append_nil _).symm⟩
  | some callback =>
      cases callback with
      | connectionCallback =>
          cases hstep
          exact ⟨_, rfl, rfl, rfl, (List.append_nil _).symm⟩
      | messageCallback =>
          cases hstep
          exact ⟨_, rfl, rfl, rfl, rfl⟩
      | closeCallback =>
          obtain ⟨k', hk', hstep⟩ := bind_eq_some_iff.mp hstep
          obtain ⟨server, -, hstep⟩ := bind_eq_some_iff.mp hstep
          obtain ⟨hone, hstep⟩ := assert_bind_eq_some_iff.mp hstep
          cases hstep
          have hself := conns_set_self hk
            ((k.setConn conn).record [.handleClose, .closeCallback])
          have heq : (k.setConn conn).record [.handleClose, .closeCallback] = k' :=
            Option.some.inj (hself.symm.trans hk')
          refine ⟨k'.record [.erase _], List.set_set .., by rw [← heq]; rfl, rfl, ?_⟩
          rw [hone, ← heq]
          exact List.append_assoc _ _ _

/-- The callback of a channel is a call on the connection that owns it, and on no other. The
acceptor's makes a connection, which is not one that was there. -/
theorem runHandler_called {c : ChannelPtr} {h : Handler} {connfd : Int} {readv : ReadvResult}
    {write : WriteResult} (hstep : s.runHandler c h connfd readv write = some s')
    (id : TcpConnectionPtr) :
    Called s s' id
      (if s.owners[c]? = some (.connection id) then some (.handler h readv write) else none) := by
  obtain ⟨owner, howner, hstep⟩ := bind_eq_some_iff.mp hstep
  rw [howner]
  cases owner with
  | timerQueue =>
      cases hstep
      exact .of_eq rfl
  | wakeup =>
      cases hstep
      exact .of_eq rfl
  | acceptor i =>
      rw [if_neg (by simp)]
      dsimp only at hstep
      split at hstep
      · obtain ⟨server, -, hstep⟩ := bind_eq_some_iff.mp hstep
        obtain ⟨⟨p, conn⟩, -, hstep⟩ := bind_eq_some_iff.mp hstep
        cases hstep
        exact .of_append rfl
      · cases hstep
        exact .of_eq rfl
  | connection j =>
      obtain ⟨hself, hothers⟩ := connectionHandler_called hstep
      by_cases hid : j = id
      · rw [if_pos (by rw [hid]), ← hid]
        exact hself
      · rw [if_neg (by simpa using hid)]
        exact hothers id (Ne.symm hid)

/-- `functors[i]()` calls `connectDestroyed` of the connection that the functor was queued for. It
stops in front of `connectionCallback_`, so what the call records ends with that callback. -/
theorem runFunctor_called (hstep : s.stepBody .runFunctor = some s') (id : TcpConnectionPtr) :
    Called s s' id (s.callOf id .runFunctor) := by
  rw [stepBody] at hstep
  split at hstep
  · rename_i done f rest hpc
    have hcall : s.callOf id .runFunctor
        = if f = .connectDestroyed id then some .connectDestroyed else none := by
      rw [callOf, hpc]
      simp [LoopPc.rest]
    rw [hcall]
    cases f with
    | user =>
        cases hstep
        exact .of_eq rfl
    | connectDestroyed j =>
        obtain ⟨k, hk, hstep⟩ := bind_eq_some_iff.mp hstep
        obtain ⟨⟨p, conn⟩, hconn, hstep⟩ := bind_eq_some_iff.mp hstep
        cases hstep
        simp only [PendingFunctor.connectDestroyed.injEq]
        refine .of_call hk rfl ?_ rfl
        show (k.conn.connectDestroyed s.poller).map _ = _
        rw [show k.conn.connectDestroyed s.poller = _ from hconn]
        rfl
  · cases hstep

/-- The return of a user callback is a call in one case alone: behind `connectionCallback_` of
`connectDestroyed` the method goes on, with `removeChannel`. -/
theorem callbackReturns_called (hstep : s.stepBody .callbackReturns = some s')
    (id : TcpConnectionPtr) : Called s s' id (s.callOf id .callbackReturns) := by
  obtain ⟨frame, hframe, hstep⟩ := Option.bind_eq_some_iff.mp hstep
  rw [callOf, hframe]
  cases frame with
  | connectDestroyed j =>
      obtain ⟨k, hk, hstep⟩ := bind_eq_some_iff.mp hstep
      obtain ⟨p, hremove, hstep⟩ := bind_eq_some_iff.mp hstep
      cases hstep
      simp only [Option.some.injEq, UserFrame.connectDestroyed.injEq]
      refine .of_call hk rfl ?_ rfl
      show (k.conn.connectDestroyedRemove s.poller).map _ = _
      rw [hremove]
      rfl
  | _ =>
      rw [if_neg (by simp)]
      cases hstep
      exact .of_eq rfl

/-- `send` tests `state_`, and in the loop thread goes on with `sendInLoop` at once. -/
theorem send_called {j : TcpConnectionPtr} {message : List Byte} {result : WriteResult}
    (hstep : s.stepBody (.send j message result) = some s') (id : TcpConnectionPtr) :
    Called s s' id (s.callOf id (.send j message result)) := by
  obtain ⟨k, hk, hstep⟩ := bind_eq_some_iff.mp hstep
  split at hstep
  · rename_i hstate
    obtain ⟨⟨p, conn⟩, hcall, hstep⟩ := bind_eq_some_iff.mp hstep
    cases hstep
    refine .of_connected hk hstate rfl ?_ (List.append_nil _).symm
    show (k.conn.sendInLoop s.poller message result).map _ = _
    rw [hcall]
    rfl
  · rename_i hstate
    cases hstep
    exact .of_not_connected hk hstate

/-- `shutdown` tests `state_`, and in the loop thread goes on with `shutdownInLoop` at once. -/
theorem shutdown_called {j : TcpConnectionPtr} (hstep : s.stepBody (.shutdown j) = some s')
    (id : TcpConnectionPtr) : Called s s' id (s.callOf id (.shutdown j)) := by
  obtain ⟨k, hk, hstep⟩ := bind_eq_some_iff.mp hstep
  split at hstep
  · rename_i hstate
    cases hstep
    exact .of_connected hk hstate rfl rfl (List.append_nil _).symm
  · rename_i hstate
    cases hstep
    exact .of_not_connected hk hstate

/-- User code takes bytes out of an input buffer, or swaps it. That is one operation of `Buffer`
on the connection that it was given. -/
theorem input_called {j : TcpConnectionPtr} {op : Buffer.Op}
    (hstep : s.stepBody (.input j op) = some s') (id : TcpConnectionPtr) :
    Called s s' id (s.callOf id (.input j op)) := by
  obtain ⟨k, hk, hstep⟩ := bind_eq_some_iff.mp hstep
  obtain ⟨b, hb, hstep⟩ := bind_eq_some_iff.mp hstep
  cases hstep
  refine .of_call hk rfl ?_ (List.append_nil _).symm
  show (k.conn.inputBuffer.apply op).map _ = _
  rw [hb]
  rfl

/-- A step in front of the destructors. The actions that call a method of a connection have their
lemmas above. The others leave every connection alone: they change the table, the place of the loop,
the queue, or how many references the user holds. -/
theorem stepBody_called {a : LoopAction} (h : s.stepBody a = some s') (id : TcpConnectionPtr) :
    Called s s' id (s.callOf id a) := by
  cases a with
  | poll answer numEvents =>
      obtain ⟨⟨p, active⟩, -, heq⟩ := Option.map_eq_some_iff.mp h
      cases heq
      exact .of_eq rfl
  | handleEvent =>
      rw [stepBody] at h
      split at h
      · cases h
        exact .of_eq rfl
      · cases h
  | runHandler connfd readv write =>
      rw [stepBody] at h
      split at h
      · rename_i c handler current rest hpc
        rw [callOf_runHandler hpc]
        -- The callback does not see which channels come after it.
        exact runHandler_called h id
      · cases h
  | doPendingFunctors =>
      cases h
      exact .of_eq rfl
  | runFunctor => exact runFunctor_called h id
  | endFunctors =>
      cases h
      exact .of_eq rfl
  | callbackReturns => exact callbackReturns_called h id
  | send j message result => exact send_called h id
  | shutdown j => exact shutdown_called h id
  | input j op => exact input_called h id
  | addRef j =>
      obtain ⟨k, hk, h⟩ := bind_eq_some_iff.mp h
      cases h
      exact .of_set hk rfl (fun _ => .none rfl rfl) fun _ => rfl
  | dropRef j =>
      obtain ⟨k, hk, h⟩ := bind_eq_some_iff.mp h
      cases h
      exact .of_set hk rfl (fun _ => .none rfl rfl) fun _ => rfl
  | queueInLoop =>
      cases h
      exact .of_eq rfl
  | startServer name acceptSocket =>
      obtain ⟨p, -, h⟩ := bind_eq_some_iff.mp h
      cases h
      exact .of_eq rfl

/-- The end of an object is recorded behind what the step recorded. An object ends at most once, but
nothing here depends on that. -/
theorem Records.release {k k' : ConnectionObject} {events : List ConnectionEvent}
    (h : Records k k' events) (t : EventLoop) (id : TcpConnectionPtr) :
    Records k (t.releaseObject id k') events := by
  obtain ⟨closing, htrace, hclosing⟩ := h
  rw [releaseObject]
  split
  · exact ⟨closing, htrace, hclosing⟩
  · refine ⟨closing ++ [.close (t.poller.channels.lookup k'.conn.socket.sockfd).isSome],
      ?_, fun e he => ?_⟩
    · rw [← List.append_assoc, ← htrace]
      rfl
    · rcases List.mem_append.mp he with hold | hnew
      · exact hclosing e hold
      · exact ⟨_, List.mem_singleton.mp hnew⟩

/-- A step of the loop does to a connection what the method that it calls does, and nothing else.
This is the lemma that the rest of the development uses; the actions do not appear in it. -/
theorem step_call {a : LoopAction} (h : s.step a = some s') (id : TcpConnectionPtr) :
    Called s s' id (s.callOf id a) := by
  intro k hk
  obtain ⟨t, hbody, rfl⟩ := Option.map_eq_some_iff.mp h
  obtain ⟨k', hk', hfollows⟩ := stepBody_called hbody id k hk
  refine ⟨t.releaseObject id k', by rw [getElem?_release, hk']; rfl, ?_⟩
  -- The destructors close sockets and leave the rest of the object.
  cases hcall : s.callOf id a with
  | none =>
      rw [hcall] at hfollows
      exact ⟨(t.releaseObject_conn id k').trans hfollows.1, .release hfollows.2 t id⟩
  | some call =>
      rw [hcall] at hfollows
      obtain ⟨events, hrun, htrace⟩ := hfollows
      refine ⟨events, ?_, .release htrace t id⟩
      show call.run _ _ = some (t.poller, (t.releaseObject id k').conn, events)
      rw [releaseObject_conn]
      exact hrun

/-- A call needs its connection: a step that returned has not called a method of one that was not
there. -/
theorem callOf_eq_none {a : LoopAction} (h : s.step a = some s') {id : TcpConnectionPtr}
    (hnone : s.conns[id]? = none) : s.callOf id a = none := by
  obtain ⟨t, hbody, -⟩ := Option.map_eq_some_iff.mp h
  have hconnected : ¬ s.Connected id := by
    rintro ⟨k, hk, -⟩
    rw [hnone] at hk
    cases hk
  cases a with
  | runHandler connfd readv write =>
      rw [stepBody] at hbody
      split at hbody
      · rename_i c handler current rest hpc
        rw [callOf_runHandler hpc, if_neg]
        · -- The handler of a connection looks it up.
          intro howner
          obtain ⟨owner, howner', hbody⟩ := bind_eq_some_iff.mp hbody
          cases howner.symm.trans howner'
          obtain ⟨k, hk, -⟩ := bind_eq_some_iff.mp hbody
          exact absurd (hnone.symm.trans hk) (by simp)
      · cases hbody
  | runFunctor =>
      rw [stepBody] at hbody
      split at hbody
      · rename_i done f rest hpc
        refine if_neg fun heq => ?_
        rw [hpc] at heq
        cases heq
        obtain ⟨k, hk, -⟩ := bind_eq_some_iff.mp hbody
        exact absurd (hnone.symm.trans hk) (by simp)
      · cases hbody
  | callbackReturns =>
      refine if_neg fun hframe => ?_
      obtain ⟨frame, hframe', hbody⟩ := Option.bind_eq_some_iff.mp hbody
      cases hframe.symm.trans hframe'
      obtain ⟨k, hk, -⟩ := bind_eq_some_iff.mp hbody
      exact absurd (hnone.symm.trans hk) (by simp)
  | send j message result => exact if_neg fun hand => hconnected hand.2
  | shutdown j => exact if_neg fun hand => hconnected hand.2
  | input j op =>
      refine if_neg fun hid => ?_
      obtain ⟨k, hk, -⟩ := bind_eq_some_iff.mp hbody
      rw [hid] at hk
      exact absurd (hnone.symm.trans hk) (by simp)
  | _ => rfl

/-- A connection right after `connectEstablished`: up, with nothing sent and nothing received, and
its channel asking for `POLLIN`. -/
structure Made (s' : EventLoop) (id : TcpConnectionPtr) (conn : TcpConnection) : Prop where
  state : conn.state = .kConnected
  calls : conn.socket.calls = []
  input : conn.inputBuffer = Buffer.new
  output : conn.outputBuffer = Buffer.new
  events : (s'.poller.channel conn.channel).events = Channel.kReadEvent
  /-- its connection callback comes next -/
  frame : s'.frame = some (.connectEstablished id)

/-- The object of a connection that was not there before was made in between. -/
theorem Same.not_made (h : Same s s') {id : TcpConnectionPtr} {k' : ConnectionObject}
    (hnone : s.conns[id]? = none) (hk' : s'.conns[id]? = some k') : False := by
  have hrel := h.conns id
  rw [hnone, hk'] at hrel
  cases hrel

/-- The object that `newConnection` puts behind the others is such a connection. -/
theorem newConnection_made {i : Nat} {connSockfd : Int}
    (h : s.newConnection i connSockfd = some s') {id : TcpConnectionPtr} {k' : ConnectionObject}
    (hnone : s.conns[id]? = none) (hk' : s'.conns[id]? = some k') : Made s' id k'.conn := by
  obtain ⟨server, hserver, h⟩ := bind_eq_some_iff.mp h
  obtain ⟨⟨p, conn⟩, hconnect, h⟩ := bind_eq_some_iff.mp h
  obtain ⟨-, hconn, hon⟩ := TcpConnection.connectEstablished_spec hconnect
  have hevents := Poller.apply_events
    (show (PollerOp.enableReading s.owners.length).apply _ = some p from hon) s.owners.length
  rw [show PollerOp.target (.enableReading s.owners.length) = s.owners.length from rfl,
    if_pos rfl] at hevents
  cases h
  have hlen : s.conns.length ≤ id := List.getElem?_eq_none_iff.mp hnone
  have hid : id = s.conns.length := by
    have hlt : id < (s.conns ++ [_]).length := (List.getElem?_eq_some_iff.mp hk').1
    rw [List.length_append, List.length_singleton] at hlt
    exact Nat.le_antisymm (Nat.le_of_lt_succ hlt) hlen
  rw [hid, List.getElem?_concat_length, Option.some.injEq] at hk'
  have hsame : k'.conn = conn := by rw [← hk']
  rw [hsame, hconn]
  exact ⟨rfl, rfl, rfl, rfl, hevents, by rw [hid]⟩

theorem runHandler_made {c : ChannelPtr} {handler : Handler} {connfd : Int}
    {readv : ReadvResult} {write : WriteResult}
    (h : s.runHandler c handler connfd readv write = some s') {id : TcpConnectionPtr}
    {k' : ConnectionObject} (hnone : s.conns[id]? = none) (hk' : s'.conns[id]? = some k') :
    Made s' id k'.conn := by
  obtain ⟨owner, -, h⟩ := bind_eq_some_iff.mp h
  cases owner with
  | timerQueue =>
      cases h
      exact absurd (hnone.symm.trans hk') (by simp)
  | wakeup =>
      cases h
      exact absurd (hnone.symm.trans hk') (by simp)
  | acceptor i =>
      dsimp only at h
      split at h
      · exact newConnection_made h hnone hk'
      · cases h
        exact absurd (hnone.symm.trans hk') (by simp)
  | connection j => exact ((connectionHandler_same h).not_made hnone hk').elim

/-- A connection that a step makes. -/
theorem step_made {a : LoopAction} (h : s.step a = some s') {id : TcpConnectionPtr}
    {k' : ConnectionObject} (hnone : s.conns[id]? = none) (hk' : s'.conns[id]? = some k') :
    Made s' id k'.conn := by
  obtain ⟨t, hbody, rfl⟩ := Option.map_eq_some_iff.mp h
  rw [getElem?_release] at hk'
  obtain ⟨k, hk, rfl⟩ := Option.map_eq_some_iff.mp hk'
  rw [releaseObject_conn]
  suffices hmade : Made t id k.conn by
    exact ⟨hmade.state, hmade.calls, hmade.input, hmade.output, hmade.events, hmade.frame⟩
  cases stepBody_change hbody with
  | same _ _ hsame => exact (hsame.not_made hnone hk).elim
  | newConnection connfd readv write =>
      rw [stepBody] at hbody
      split at hbody
      · exact runHandler_made hbody hnone hk
      · cases hbody
  | startServer name acceptSocket _ _ _ _ hconns =>
      rw [hconns, hnone] at hk
      cases hk

/-- A new loop has no connections. -/
theorem new_conns {timerfd wakeupFd : Int} (h : new timerfd wakeupFd = some s) :
    s.conns = [] := by
  obtain ⟨p₁, -, h⟩ := bind_eq_some_iff.mp h
  obtain ⟨p₂, -, h⟩ := bind_eq_some_iff.mp h
  cases h
  rfl

end EventLoop

end SecondGear
