import SecondGear.Lib.History
import SecondGear.Proofs.LoopTable

/-!
# `SecondGear.Proofs.LoopStreams`: what goes through a connection of the loop

The loop serves many connections at once, and their names, channels and descriptors come and
go. For each of them the bytes stay in order, in both directions:

* `output_of_run`: what the kernel took and what waits in the output buffer are the messages
  that the user sent while the connection was connected.
* `input_of_run`: what `readv` delivered is what the user took out of the input buffer and
  what is still in it.

Both are about every run of the loop, also about runs in which names collide. The invariant is
`Stores`: the buffers are well formed, and no callback but `handleRead` can come.
-/

set_option autoImplicit false

namespace SecondGear

open SecondGear.Lib

/-- The user only takes bytes out. -/
def Buffer.Op.isRetrieval : Buffer.Op → Bool
  | .retrieve _ | .retrieveUntil _ | .retrieveAll | .retrieveAsString
  | .ensureWritableBytes _ => true
  | .append _ | .prepend _ | .hasWritten _ | .readFd _ _ => false

namespace ByteQueue

/-- What a call takes out of the queue. -/
def retrieved (q : List Byte) : Buffer.Op → List Byte
  | .retrieve len | .retrieveUntil len => q.take len
  | .retrieveAll | .retrieveAsString => q
  | _ => []

/-- A retrieval cuts the queue in two. -/
theorem retrieved_append_apply (q : List Byte) {op : Buffer.Op} (hop : op.isRetrieval) :
    retrieved q op ++ apply q op = q := by
  cases op with
  | retrieve len => exact List.take_append_drop len q
  | retrieveUntil len => exact List.take_append_drop len q
  | retrieveAll => exact List.append_nil q
  | retrieveAsString => exact List.append_nil q
  | ensureWritableBytes len => rfl
  | append data => cases hop
  | prepend data => cases hop
  | hasWritten data => cases hop
  | readFd savedErrno result => cases hop

end ByteQueue

/-! ### What a call moves -/

namespace ConnectionCall

/-- The message that a call was given. -/
def sent : ConnectionCall → List Byte
  | .send message _ => message
  | _ => []

/-- The bytes that `readv` delivered. -/
def received : ConnectionCall → List Byte
  | .handler .handleRead (.bytes bs) _ => bs
  | _ => []

/-- The bytes that the user took out of the input buffer. -/
def retrieved (conn : TcpConnection) : ConnectionCall → List Byte
  | .input op => ByteQueue.retrieved conn.inputBuffer.content op
  | _ => []

/-- What the caller promises. -/
def Fits (conn : TcpConnection) : ConnectionCall → Prop
  | .handler h _ _ => h = .handleRead
  | .input op => conn.inputBuffer.Legal op
  | _ => True

/-- A call of the user on the input buffer takes bytes out. -/
def Retrieves : ConnectionCall → Prop
  | .input op => op.isRetrieval
  | _ => True

variable {p p' : Poller} {conn conn' : TcpConnection} {call : ConnectionCall}
  {events : List ConnectionEvent}

/-- A call adds its message to the output, and does nothing else to it. -/
theorem run_output (h : call.run p conn = some (p', conn', events)) (hfits : call.Fits conn)
    (hwf : conn.outputBuffer.Wf) :
    conn'.outputBuffer.Wf ∧ conn'.outputStream = conn.outputStream ++ call.sent := by
  cases call with
  | handler handler readv write =>
      obtain ⟨⟨p₁, conn₁, callback⟩, hrun, heq⟩ := Option.map_eq_some_iff.mp h
      cases heq
      rw [show handler = .handleRead from hfits] at hrun
      obtain ⟨b, n, errno, -, rfl, -⟩ := TcpConnection.handleRead_spec hrun
      exact ⟨hwf, (List.append_nil _).symm⟩
  | connectDestroyed =>
      obtain ⟨⟨p₁, conn₁⟩, hconn, heq⟩ := Option.map_eq_some_iff.mp h
      cases heq
      obtain ⟨-, rfl, -⟩ := TcpConnection.connectDestroyed_spec hconn
      exact ⟨hwf, (List.append_nil _).symm⟩
  | connectDestroyedRemove dispatching =>
      obtain ⟨p₁, -, heq⟩ := Option.map_eq_some_iff.mp h
      cases heq
      exact ⟨hwf, (List.append_nil _).symm⟩
  | send message result =>
      obtain ⟨⟨p₁, conn₁⟩, hsend, heq⟩ := Option.map_eq_some_iff.mp h
      cases heq
      obtain ⟨hwf', hstream, -, -⟩ := TcpConnection.sendInLoop_stream hwf hsend
      exact ⟨hwf', hstream⟩
  | shutdown =>
      cases h
      rw [TcpConnection.shutdownInLoop_eq]
      refine ⟨hwf, ?_⟩
      -- The end of the stream is no byte of it.
      show Socket.accepted (if _ then _ else _) ++ _ = conn.outputStream ++ []
      rw [List.append_nil, TcpConnection.outputStream]
      congr 1
      split
      · rfl
      · exact Socket.accepted_shutdownWrite _
  | input op =>
      obtain ⟨b, -, heq⟩ := Option.map_eq_some_iff.mp h
      cases heq
      exact ⟨hwf, (List.append_nil _).symm⟩

/-- The account of the input buffer. -/
theorem run_input (h : call.run p conn = some (p', conn', events)) (hfits : call.Fits conn)
    (hwf : conn.inputBuffer.Wf) (houtput : conn.outputBuffer.Wf) :
    conn'.inputBuffer.Wf ∧ (call.Retrieves →
      conn.inputBuffer.content ++ call.received
        = call.retrieved conn ++ conn'.inputBuffer.content) := by
  cases call with
  | handler handler readv write =>
      obtain ⟨⟨p₁, conn₁, callback⟩, hrun, heq⟩ := Option.map_eq_some_iff.mp h
      cases heq
      rw [show handler = .handleRead from hfits] at hrun ⊢
      obtain ⟨b, n, errno, hread, rfl, -⟩ := TcpConnection.handleRead_spec hrun
      cases readv with
      | error e =>
          cases hread
          exact ⟨hwf, fun _ => List.append_nil _⟩
      | bytes bs =>
          obtain ⟨b', hcall, hwf', hcontent⟩ := Buffer.readFd_spec hwf 0 bs
          cases hcall.symm.trans hread
          exact ⟨hwf', fun _ => hcontent.symm⟩
  | connectDestroyed =>
      obtain ⟨⟨p₁, conn₁⟩, hconn, heq⟩ := Option.map_eq_some_iff.mp h
      cases heq
      obtain ⟨-, rfl, -⟩ := TcpConnection.connectDestroyed_spec hconn
      exact ⟨hwf, fun _ => List.append_nil _⟩
  | connectDestroyedRemove dispatching =>
      obtain ⟨p₁, -, heq⟩ := Option.map_eq_some_iff.mp h
      cases heq
      exact ⟨hwf, fun _ => List.append_nil _⟩
  | send message result =>
      obtain ⟨⟨p₁, conn₁⟩, hsend, heq⟩ := Option.map_eq_some_iff.mp h
      cases heq
      obtain ⟨b, -, -, rfl, -⟩ := TcpConnection.sendInLoop_spec houtput hsend
      exact ⟨hwf, fun _ => List.append_nil _⟩
  | shutdown =>
      cases h
      rw [TcpConnection.shutdownInLoop_eq]
      exact ⟨hwf, fun _ => List.append_nil _⟩
  | input op =>
      obtain ⟨b, hb, heq⟩ := Option.map_eq_some_iff.mp h
      cases heq
      obtain ⟨b', hcall, hwf', hcontent⟩ := Buffer.apply_spec hwf hfits
      cases hcall.symm.trans hb
      refine ⟨hwf', fun hop => ?_⟩
      rw [hcontent]
      exact (List.append_nil _).trans (ByteQueue.retrieved_append_apply _ hop).symm

end ConnectionCall

namespace EventLoop

variable {s s' : EventLoop} {id : TcpConnectionPtr}

/-- The message that the connection is given. -/
def sentTo (id : TcpConnectionPtr) (s : EventLoop) (a : LoopAction) : List Byte :=
  (s.callOf id a).elim [] ConnectionCall.sent

/-- The bytes that the connection receives. -/
def receivedBy (id : TcpConnectionPtr) (s : EventLoop) (a : LoopAction) : List Byte :=
  (s.callOf id a).elim [] ConnectionCall.received

/-- The bytes that the user takes from the connection. -/
def retrievedFrom (id : TcpConnectionPtr) (s : EventLoop) (a : LoopAction) : List Byte :=
  (s.conns[id]?).elim [] fun k => (s.callOf id a).elim [] (·.retrieved k.conn)

/-- The user only takes bytes out of the input buffers. -/
def Retrieves (_ : EventLoop) : LoopAction → Prop
  | .input _ op => op.isRetrieval
  | _ => True

instance (s : EventLoop) : (a : LoopAction) → Decidable (s.Retrieves a)
  | .input _ op => inferInstanceAs (Decidable (op.isRetrieval = true))
  | .poll _ _ | .handleEvent | .runHandler _ _ _ | .doPendingFunctors | .runFunctor
  | .endFunctors | .callbackReturns | .send _ _ _ | .shutdown _ | .addRef _ | .dropRef _
  | .queueInLoop | .startServer _ _ => isTrue trivial

/-- What the kernel took of the connection's output, and what waits. -/
def output (id : TcpConnectionPtr) (s : EventLoop) : List Byte :=
  (s.conns[id]?).elim [] fun k => k.conn.outputStream

/-- The readable bytes of the connection. -/
def inputContent (id : TcpConnectionPtr) (s : EventLoop) : List Byte :=
  (s.conns[id]?).elim [] fun k => k.conn.inputBuffer.content

/-- The buffers are in order, and only `handleRead` can come. -/
structure Stores (s : EventLoop) : Prop where
  readers : s.Readers
  input : ∀ (id : Nat) k, s.conns[id]? = some k → k.conn.inputBuffer.Wf
  output : ∀ (id : Nat) k, s.conns[id]? = some k → k.conn.outputBuffer.Wf

/-- What the callers of the methods promise. -/
theorem Stores.fits (h : s.Stores) {a : LoopAction} (hlegal : s.Legal a) {call : ConnectionCall}
    (hcall : s.callOf id a = some call) {k : ConnectionObject} (hk : s.conns[id]? = some k) :
    call.Fits k.conn := by
  cases calls_of_callOf hcall with
  | handler connfd readv write handler hnext =>
      obtain ⟨c, hmem⟩ := mem_current_of_nextHandler hnext
      exact h.readers.current (c, handler) hmem
  | input op => exact hlegal.2.2 k hk
  | _ => exact trivial

/-- The buffers after a step, with what the step did to them. -/
theorem Stores.step (h : s.Stores) {a : LoopAction} (hlegal : s.Legal a)
    (hstep : s.step a = some s') : s'.Stores := by
  have hconn : ∀ (id : Nat) k', s'.conns[id]? = some k' →
      k'.conn.inputBuffer.Wf ∧ k'.conn.outputBuffer.Wf := by
    intro id k' hk'
    cases hk : s.conns[id]? with
    | none =>
        have hmade := step_made hstep hk hk'
        rw [hmade.input, hmade.output]
        exact ⟨Buffer.new_wf, Buffer.new_wf⟩
    | some k =>
        obtain ⟨k'', hk'', hfollows⟩ := step_call hstep id k hk
        rw [hk', Option.some.injEq] at hk''
        subst hk''
        cases hcall : s.callOf id a with
        | none =>
            rw [hcall] at hfollows
            rw [hfollows.1]
            exact ⟨h.input id k hk, h.output id k hk⟩
        | some call =>
            rw [hcall] at hfollows
            obtain ⟨events, hrun, -⟩ := hfollows
            have hfits := h.fits hlegal hcall hk
            have hinput := h.input id k hk
            have houtput := h.output id k hk
            exact ⟨(ConnectionCall.run_input hrun hfits hinput houtput).1,
              (ConnectionCall.run_output hrun hfits houtput).1⟩
  exact ⟨step_readers h.readers hstep, fun id k' hk' => (hconn id k' hk').1,
    fun id k' hk' => (hconn id k' hk').2⟩

theorem new_stores {timerfd wakeupFd : Int} (h : new timerfd wakeupFd = some s) :
    s.Stores := by
  refine ⟨new_readers h, fun id k hk => ?_, fun id k hk => ?_⟩
  all_goals
    rw [new_conns h] at hk
    cases hk

/-- One step of the output. -/
theorem output_step (h : s.Stores) {a : LoopAction} (hlegal : s.Legal a)
    (hstep : s.step a = some s') (id : TcpConnectionPtr) :
    s'.output id = s.output id ++ sentTo id s a := by
  cases hk : s.conns[id]? with
  | none =>
      rw [output, output, sentTo, hk, callOf_eq_none hstep hk]
      cases hk' : s'.conns[id]? with
      | none => rfl
      | some k' =>
          have hmade := step_made hstep hk hk'
          show k'.conn.outputStream = []
          rw [TcpConnection.outputStream, Socket.accepted, hmade.calls, hmade.output,
            Buffer.new_content]
          rfl
  | some k =>
      obtain ⟨k', hk', hfollows⟩ := step_call hstep id k hk
      rw [output, output, sentTo, hk, hk']
      cases hcall : s.callOf id a with
      | none =>
          rw [hcall] at hfollows
          show k'.conn.outputStream = k.conn.outputStream ++ []
          rw [hfollows.1, List.append_nil]
      | some call =>
          rw [hcall] at hfollows
          obtain ⟨events, hrun, -⟩ := hfollows
          exact (ConnectionCall.run_output hrun (h.fits hlegal hcall hk)
            (h.output id k hk)).2

theorem retrieves_of_callOf {a : LoopAction} (hop : s.Retrieves a) {call : ConnectionCall}
    (hcall : s.callOf id a = some call) : call.Retrieves := by
  cases calls_of_callOf hcall with
  | input op => exact hop
  | _ => exact trivial

/-- One step of the input. -/
theorem input_step (h : s.Stores) {a : LoopAction} (hlegal : s.Legal a) (hop : s.Retrieves a)
    (hstep : s.step a = some s') (id : TcpConnectionPtr) :
    s.inputContent id ++ receivedBy id s a = retrievedFrom id s a ++ s'.inputContent id := by
  cases hk : s.conns[id]? with
  | none =>
      rw [inputContent, inputContent, receivedBy, retrievedFrom, hk, callOf_eq_none hstep hk]
      cases hk' : s'.conns[id]? with
      | none => rfl
      | some k' =>
          show [] = k'.conn.inputBuffer.content
          rw [(step_made hstep hk hk').input, Buffer.new_content]
  | some k =>
      obtain ⟨k', hk', hfollows⟩ := step_call hstep id k hk
      rw [inputContent, inputContent, receivedBy, retrievedFrom, hk, hk']
      cases hcall : s.callOf id a with
      | none =>
          rw [hcall] at hfollows
          show k.conn.inputBuffer.content ++ [] = k'.conn.inputBuffer.content
          rw [hfollows.1, List.append_nil]
      | some call =>
          rw [hcall] at hfollows
          obtain ⟨events, hrun, -⟩ := hfollows
          refine (ConnectionCall.run_input hrun (h.fits hlegal hcall hk) (h.input id k hk)
            (h.output id k hk)).2 ?_
          exact retrieves_of_callOf hop hcall

/-! ### Every run -/

/-- In every run of the loop, for every connection: what the kernel took, followed by what waits
in the output buffer, are the messages that the connection was sent while it was connected. -/
theorem output_of_run {timerfd wakeupFd : Int} {s₀ : EventLoop}
    (hnew : new timerfd wakeupFd = some s₀) {as : List LoopAction}
    (h : loopMachine.Run s₀ as s) {k : ConnectionObject} (hk : s.conns[id]? = some k) :
    k.conn.socket.accepted ++ k.conn.outputBuffer.content
      = loopMachine.observe (sentTo id) s₀ as := by
  have hrun : s.output id = s₀.output id ++ loopMachine.observe (sentTo id) s₀ as :=
    h.observe_eq (I := Stores) (new_stores hnew)
      (fun _ _ _ hs hlegal hstep => hs.step hlegal hstep)
      fun _ _ _ hs hlegal hstep => output_step hs hlegal hstep id
  have hstart : s₀.output id = [] := by
    rw [output, new_conns hnew]
    rfl
  rw [hstart, List.nil_append, output, hk] at hrun
  exact hrun

/-- A message that the kernel takes half of, and one behind it. -/
theorem output_of_run_backlog :
    ∃ s₀ s : EventLoop, ∃ k ∈ s.conns[0]?, k.conn.outputBuffer.content = [2, 3] ∧
      k.conn.socket.accepted ++ k.conn.outputBuffer.content
        = loopMachine.observe (sentTo 0) s₀ [.startServer "s" 5, .poll [0, 0, 1] 1, .handleEvent,
            .runHandler 7 (.error 0) (.ok 0), .send 0 [1, 2] (.ok 1), .send 0 [3] (.ok 0)] := by
  obtain ⟨s₀, s, hnew, hrun, k, hk, hcontent⟩ := Machine.exists_run_from (M := loopMachine)
    (P := fun s : EventLoop => ∃ k ∈ s.conns[0]?, k.conn.outputBuffer.content = [2, 3])
    (new 3 4)
    [.startServer "s" 5, .poll [0, 0, 1] 1, .handleEvent, .runHandler 7 (.error 0) (.ok 0),
      .send 0 [1, 2] (.ok 1), .send 0 [3] (.ok 0)]
    (by decide +kernel)
  exact ⟨s₀, s, k, hk, hcontent, output_of_run hnew hrun hk⟩

/-- In every run of the loop in which the user only takes bytes out of the input buffers, for
every connection: what `readv` delivered is what the user took, followed by what is still in
the input buffer. -/
theorem input_of_run {timerfd wakeupFd : Int} {s₀ : EventLoop}
    (hnew : new timerfd wakeupFd = some s₀) {as : List LoopAction}
    (h : (loopMachine.restrict Retrieves).Run s₀ as s) {k : ConnectionObject}
    (hk : s.conns[id]? = some k) :
    loopMachine.observe (receivedBy id) s₀ as
      = loopMachine.observe (retrievedFrom id) s₀ as ++ k.conn.inputBuffer.content := by
  have hrun : s₀.inputContent id
        ++ (loopMachine.restrict Retrieves).observe (receivedBy id) s₀ as
      = (loopMachine.restrict Retrieves).observe (retrievedFrom id) s₀ as
        ++ s.inputContent id :=
    h.observe_balance (I := Stores) (new_stores hnew)
      (fun _ _ _ hs hlegal hstep => hs.step hlegal.1 hstep)
      fun _ _ _ hs hlegal hstep => input_step hs hlegal.1 hlegal.2 hstep id
  have hstart : s₀.inputContent id = [] := by
    rw [inputContent, new_conns hnew]
    rfl
  rw [hstart, List.nil_append, Machine.observe_restrict, Machine.observe_restrict,
    inputContent, hk] at hrun
  exact hrun

/-- Three bytes come in, and the user takes the first one. -/
theorem input_of_run_retrieve :
    ∃ s₀ s : EventLoop, ∃ k ∈ s.conns[0]?, k.conn.inputBuffer.content = [66, 67] ∧
      loopMachine.observe (receivedBy 0) s₀ [.startServer "s" 5, .poll [0, 0, 1] 1, .handleEvent,
          .runHandler 7 (.error 0) (.ok 0), .callbackReturns, .doPendingFunctors, .endFunctors,
          .poll [0, 0, 0, 1] 1, .handleEvent, .runHandler 0 (.bytes [65, 66, 67]) (.ok 0),
          .input 0 (.retrieve 1)]
        = loopMachine.observe (retrievedFrom 0) s₀ [.startServer "s" 5, .poll [0, 0, 1] 1,
            .handleEvent, .runHandler 7 (.error 0) (.ok 0), .callbackReturns,
            .doPendingFunctors, .endFunctors, .poll [0, 0, 0, 1] 1, .handleEvent,
            .runHandler 0 (.bytes [65, 66, 67]) (.ok 0), .input 0 (.retrieve 1)]
          ++ k.conn.inputBuffer.content := by
  obtain ⟨s₀, s, hnew, hrun, k, hk, hcontent⟩ := Machine.exists_run_from
    (M := loopMachine.restrict Retrieves)
    (P := fun s : EventLoop => ∃ k ∈ s.conns[0]?, k.conn.inputBuffer.content = [66, 67])
    (new 3 4)
    [.startServer "s" 5, .poll [0, 0, 1] 1, .handleEvent, .runHandler 7 (.error 0) (.ok 0),
      .callbackReturns, .doPendingFunctors, .endFunctors, .poll [0, 0, 0, 1] 1, .handleEvent,
      .runHandler 0 (.bytes [65, 66, 67]) (.ok 0), .input 0 (.retrieve 1)]
    (by decide +kernel)
  exact ⟨s₀, s, k, hk, hcontent, input_of_run hnew hrun hk⟩

end EventLoop

end SecondGear
