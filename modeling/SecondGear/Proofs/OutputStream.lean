import SecondGear.Proofs.TcpConnection

/-!
# `SecondGear.Proofs.OutputStream`: the peer gets the messages, in order

In every run of one connection, whatever `::write` returns, the bytes that the kernel took
followed by the bytes that wait in the output buffer are the messages of the executed
`sendInLoop` calls. The proof has two invariants:

* `StreamInv`: the stream of the connection is the concatenation of the executed messages.
  `StreamInv.of_keepsStream` and `StreamInv.sendInLoop` read it off the spec lemmas of the
  methods.
* `OrderInv`: what a thread has executed, queued and in its hands, in this order
  (`pipeline`), is in the order of its calls. `OrderInv.of_pipeline` says when a step keeps
  it: a step moves calls along the pipeline or puts a new call at its end.

`output_stream_integrity` is the result.
-/

set_option autoImplicit false

namespace SecondGear

open SecondGear.Lib

/-- The call that a functor carries. -/
def Functor.call : Functor → Option SendCall
  | .sendInLoop call => some call
  | .shutdownInLoop => none

/-- The calls that wait in a queue. -/
def queuedSends (fs : List Functor) : List SendCall := fs.filterMap Functor.call

/-- The calls of one thread. -/
def ofThread (thread : ThreadId) (calls : List SendCall) : List SendCall :=
  calls.filter (·.thread = thread)

@[simp] theorem ofThread_append (thread : ThreadId) (calls calls' : List SendCall) :
    ofThread thread (calls ++ calls') = ofThread thread calls ++ ofThread thread calls' :=
  List.filter_append _ _

@[simp] theorem ofThread_singleton_self (call : SendCall) :
    ofThread call.thread [call] = [call] := by
  simp [ofThread]

/-- A call of another thread is not one of these. -/
theorem ofThread_singleton_ne {thread : ThreadId} {call : SendCall} (h : call.thread ≠ thread) :
    ofThread thread [call] = [] := by
  simp [ofThread, h]

theorem ofThread_eq_nil {thread : ThreadId} {calls : List SendCall}
    (h : ∀ call ∈ calls, call.thread ≠ thread) : ofThread thread calls = [] := by
  simpa [ofThread] using h

@[simp] theorem queuedSends_append (fs gs : List Functor) :
    queuedSends (fs ++ gs) = queuedSends fs ++ queuedSends gs :=
  List.filterMap_append

namespace ConnectionRun

variable {s s' : ConnectionRun}

/-- The call that a thread has made and not queued yet. -/
def inFlight (s : ConnectionRun) : ThreadId → List SendCall
  | .loop => []
  | .other t =>
      match s.threads t with
      | some (.queueInLoop f) => f.call.toList
      | _ => []

/-- The calls of one thread on their way: executed, queued, about to be queued. A call is dropped or
moves to the part in front, so the order of the whole is that of the calls. -/
def pipeline (s : ConnectionRun) (thread : ThreadId) : List SendCall :=
  ofThread thread s.executed ++ ofThread thread (queuedSends s.pendingFunctors) ++
    s.inFlight thread

/-- The stream of the connection is what was executed: each `sendInLoop` adds its message at the
end, and no other step adds or takes a byte. -/
structure StreamInv (s : ConnectionRun) : Prop where
  reads : (s.poller.channel s.conn.channel).ReadsOnly
  wf : s.conn.outputBuffer.Wf
  stream : s.conn.outputStream = s.executed.flatMap (·.message)

/-- Each thread's calls stay in order on their way. -/
structure OrderInv (s : ConnectionRun) : Prop where
  /-- the loop thread queues no call of its own -/
  queued : ∀ call ∈ queuedSends s.pendingFunctors, call.thread ≠ .loop
  inFlight : ∀ thread, ∀ call ∈ s.inFlight thread, call.thread = thread
  sublist : ∀ thread, (s.pipeline thread).Sublist (ofThread thread s.sends)
  /-- the calls of a thread are numbered -/
  numbered : ∀ thread,
    (ofThread thread s.sends).map (·.seq) = List.range (ofThread thread s.sends).length

/-- What a thread has in its hands is up to the threads. -/
theorem inFlight_congr (h : s'.threads = s.threads) (thread : ThreadId) :
    s'.inFlight thread = s.inFlight thread := by
  cases thread with
  | loop => rfl
  | other t => simp only [inFlight, h]

/-! ### Steps that only touch the connection -/

/-- A step that makes no call, executes none and queues none. -/
structure SameCalls (s s' : ConnectionRun) : Prop where
  pendingFunctors : s'.pendingFunctors = s.pendingFunctors
  threads : s'.threads = s.threads
  sends : s'.sends = s.sends
  executed : s'.executed = s.executed

theorem SameCalls.trans {s'' : ConnectionRun} (h : SameCalls s s') (h' : SameCalls s' s'') :
    SameCalls s s'' :=
  ⟨h'.1.trans h.1, h'.2.trans h.2, h'.3.trans h.3, h'.4.trans h.4⟩

/-- A step of the connection alone that keeps its stream. It may write bytes of the backlog, which
moves them from the buffer to the socket and leaves the stream. -/
structure KeepsStream (s s' : ConnectionRun) : Prop where
  calls : SameCalls s s'
  channel : s'.conn.channel = s.conn.channel
  objects : Poller.SameObjects s.poller s'.poller
  output : s.conn.outputBuffer.Wf →
    s'.conn.outputBuffer.Wf ∧ s'.conn.outputStream = s.conn.outputStream

theorem KeepsStream.trans {s'' : ConnectionRun} (h : KeepsStream s s')
    (h' : KeepsStream s' s'') : KeepsStream s s'' := by
  refine ⟨h.calls.trans h'.calls, h'.channel.trans h.channel, h.objects.trans h'.objects,
    fun hwf => ?_⟩
  obtain ⟨hwf', hs'⟩ := h.output hwf
  obtain ⟨hwf'', hs''⟩ := h'.output hwf'
  exact ⟨hwf'', hs''.trans hs'⟩

/-- A new table, and a connection with the same channel, output and accepted bytes. -/
theorem KeepsStream.of_output {p : Poller} {conn : TcpConnection} {closed : Bool}
    (hp : Poller.SameObjects s.poller p) (hchannel : conn.channel = s.conn.channel)
    (hsocket : conn.socket.accepted = s.conn.socket.accepted)
    (hbuffer : conn.outputBuffer = s.conn.outputBuffer) :
    KeepsStream s { s with poller := p, conn := conn, closed := closed } := by
  refine ⟨⟨rfl, rfl, rfl, rfl⟩, hchannel, hp, fun hwf => ⟨?_, ?_⟩⟩
  · rw [← hbuffer] at hwf
    exact hwf
  · show conn.outputStream = _
    rw [TcpConnection.outputStream, TcpConnection.outputStream, hsocket, hbuffer]

/-- `handleClose` keeps the stream. -/
theorem KeepsStream.of_handleClose {p : Poller} {conn : TcpConnection} {closed : Bool}
    (h : s.conn.handleClose s.poller = some (p, conn)) :
    KeepsStream s { s with poller := p, conn := conn, closed := closed } := by
  obtain ⟨-, rfl, hp⟩ := TcpConnection.handleClose_spec h
  exact .of_output (.of_apply (show (PollerOp.disableAll _).apply s.poller = some p from hp))
    rfl rfl rfl

/-- `handleRead` keeps the stream. -/
theorem KeepsStream.of_handleRead {p : Poller} {conn : TcpConnection} {readv : ReadvResult}
    {callback : Option Callback} {closed : Bool}
    (h : s.conn.handleRead s.poller readv = some (p, conn, callback)) :
    KeepsStream s { s with poller := p, conn := conn, closed := closed } := by
  obtain ⟨b, n, errno, -, rfl, hcases⟩ := TcpConnection.handleRead_spec h
  rcases hcases with ⟨-, -, rfl⟩ | ⟨-, -, hclose⟩ | ⟨-, -, rfl⟩
  · exact .of_output (.refl _) rfl rfl rfl
  · obtain ⟨-, -, hp⟩ := TcpConnection.handleClose_spec hclose
    exact .of_output
      (.of_apply (show (PollerOp.disableAll _).apply s.poller = some p from hp)) rfl rfl rfl
  · exact .of_output (.refl _) rfl rfl rfl

/-- `handleWrite` keeps the stream. -/
theorem KeepsStream.of_handleWrite {p : Poller} {conn : TcpConnection}
    {result : WriteResult} (hwf : s.conn.outputBuffer.Wf)
    (hlen : result.taken ≤ s.conn.outputBuffer.readableBytes)
    (h : s.conn.handleWrite s.poller result = some (p, conn)) :
    KeepsStream s { s with poller := p, conn := conn } := by
  obtain ⟨hwf', hstream, hchannel, hp⟩ := TcpConnection.handleWrite_stream hwf hlen h
  exact ⟨⟨rfl, rfl, rfl, rfl⟩, hchannel, hp, fun _ => ⟨hwf', hstream⟩⟩

/-- `handleEvent` keeps the stream: all it can call is `handleRead`. -/
theorem KeepsStream.of_handleEvent {revents : Events} {readv : ReadvResult}
    {write : WriteResult} (hreads : (s.poller.channel s.conn.channel).ReadsOnly)
    (h : s.step (.handleEvent revents readv write) = some s') : KeepsStream s s' := by
  have hobjects : Poller.SameObjects s.poller (s.poller.setRevents s.conn.channel revents) :=
    .of_setChannel
  have hrevents : KeepsStream s
      { s with poller := s.poller.setRevents s.conn.channel revents } :=
    .of_output hobjects rfl rfl rfl
  rw [step, (hobjects.readsOnly hreads).handleEvent_eq] at h
  split at h
  · obtain ⟨⟨p, conn, callback⟩, hread, h⟩ := bind_eq_some_iff.mp h
    cases h
    exact hrevents.trans (.of_handleRead hread)
  · cases h
    exact hrevents

/-! ### Steps that move calls along -/

/-- When a step keeps the order: it leaves every pipeline alone, or it makes one new call
and puts it at the end of its pipeline or drops it. -/
theorem OrderInv.of_pipeline (h : s.OrderInv)
    (hqueued : ∀ call ∈ queuedSends s'.pendingFunctors, call.thread ≠ .loop)
    (hinFlight : ∀ thread, ∀ call ∈ s'.inFlight thread, call.thread = thread)
    (hcalls : (s'.sends = s.sends ∧ ∀ thread, s'.pipeline thread = s.pipeline thread) ∨
      ∃ thread₀ message, s'.sends = s.sends ++ [s.nextSend thread₀ message] ∧
        ∀ thread, s'.pipeline thread = s.pipeline thread ∨
          s'.pipeline thread
            = s.pipeline thread ++ ofThread thread [s.nextSend thread₀ message]) :
    s'.OrderInv := by
  refine ⟨hqueued, hinFlight, ?_, ?_⟩
  · intro thread
    rcases hcalls with ⟨hsends, hsame⟩ | ⟨thread₀, message, hsends, hnew⟩
    · rw [hsame, hsends]
      exact h.sublist thread
    · rw [hsends, ofThread_append]
      rcases hnew thread with hsame | happend
      · rw [hsame]
        exact (h.sublist thread).trans (List.sublist_append_left _ _)
      · rw [happend]
        exact (h.sublist thread).append (List.Sublist.refl _)
  · intro thread
    rcases hcalls with ⟨hsends, -⟩ | ⟨thread₀, message, hsends, -⟩
    · rw [hsends]
      exact h.numbered thread
    · rw [hsends, ofThread_append]
      by_cases hthread : thread₀ = thread
      · -- `nextSend` counts the calls of the thread, so its number is the next one.
        subst hthread
        have hone : ofThread thread₀ [s.nextSend thread₀ message]
            = [s.nextSend thread₀ message] := ofThread_singleton_self _
        rw [hone, List.map_append, h.numbered, List.length_append, List.length_singleton,
          List.range_succ]
        rfl
      · rw [ofThread_singleton_ne hthread, List.append_nil]
        exact h.numbered thread

/-- A call that is dropped, since the connection is not connected, keeps the order. -/
theorem OrderInv.of_dropped (h : s.OrderInv) {thread₀ : ThreadId} {message : List Byte}
    (heq : s' = s.recordSend (s.nextSend thread₀ message)) : s'.OrderInv := by
  have hinFlight : ∀ thread, s'.inFlight thread = s.inFlight thread :=
    inFlight_congr (by rw [heq]; rfl)
  refine h.of_pipeline ?_ ?_ (Or.inr ⟨thread₀, message, by rw [heq]; rfl, fun thread => ?_⟩)
  · rw [heq]
    exact h.queued
  · intro thread
    rw [hinFlight]
    exact h.inFlight thread
  · left
    rw [pipeline, pipeline, hinFlight, heq]
    rfl

/-- A step of the connection alone keeps the order. -/
theorem OrderInv.of_sameCalls (h : s.OrderInv) (hsame : SameCalls s s') : s'.OrderInv := by
  have hinFlight : ∀ thread, s'.inFlight thread = s.inFlight thread :=
    inFlight_congr hsame.threads
  refine h.of_pipeline ?_ ?_ (Or.inl ⟨hsame.sends, fun thread => ?_⟩)
  · rw [hsame.pendingFunctors]
    exact h.queued
  · intro thread
    rw [hinFlight]
    exact h.inFlight thread
  · rw [pipeline, pipeline, hsame.executed, hsame.pendingFunctors, hinFlight]

/-- A step of the connection alone keeps both invariants. -/
theorem StreamInv.of_keepsStream (h : s.StreamInv) (hkeeps : KeepsStream s s') :
    s'.StreamInv := by
  obtain ⟨hwf, hstream⟩ := hkeeps.output h.wf
  refine ⟨?_, hwf, ?_⟩
  · rw [hkeeps.channel]
    exact hkeeps.objects.readsOnly h.reads
  · rw [hstream, h.stream, hkeeps.calls.executed]

/-- An executed `sendInLoop` adds its message to the stream and its call to the executed
ones. -/
theorem StreamInv.sendInLoop (h : s.StreamInv) {call : SendCall} {result : WriteResult}
    (hsend : s.sendInLoop call result = some s') :
    s'.StreamInv ∧ s'.executed = s.executed ++ [call] ∧
      s'.pendingFunctors = s.pendingFunctors ∧ s'.threads = s.threads ∧
      s'.sends = s.sends := by
  obtain ⟨⟨p, conn⟩, hconn, heq⟩ := Option.map_eq_some_iff.mp hsend
  obtain ⟨hwf, hstream, hchannel, hobjects⟩ := TcpConnection.sendInLoop_stream h.wf hconn
  subst heq
  refine ⟨⟨?_, hwf, ?_⟩, rfl, rfl, rfl, rfl⟩
  · show (p.channel conn.channel).ReadsOnly
    rw [hchannel]
    exact hobjects.readsOnly h.reads
  · show conn.outputStream = (s.executed ++ [call]).flatMap (·.message)
    rw [hstream, h.stream]
    simp

/-- `shutdownInLoop` keeps the stream. -/
theorem KeepsStream.of_shutdownInLoop {conn : TcpConnection}
    (hchannel : conn.channel = s.conn.channel) (houtput : conn.outputBuffer = s.conn.outputBuffer)
    (hsocket : conn.socket = s.conn.socket) :
    KeepsStream s { s with conn := conn.shutdownInLoop s.poller } := by
  rw [TcpConnection.shutdownInLoop_eq]
  refine .of_output (.refl _) hchannel ?_ houtput
  split
  · rw [hsocket]
  · rw [Socket.accepted_shutdownWrite, hsocket]

/-! ### Every step -/

/-- `send` in the loop thread. The loop thread has nothing in the queue, so its call goes
from the end of its pipeline straight to the executed ones. -/
theorem step_send (h : s.StreamInv) (horder : s.OrderInv) {message : List Byte}
    {result : WriteResult} (hstep : s.step (.send message result) = some s') :
    s'.StreamInv ∧ s'.OrderInv := by
  have hrecord : (s.recordSend (s.nextSend .loop message)).StreamInv :=
    ⟨h.reads, h.wf, h.stream⟩
  rw [step] at hstep
  split at hstep
  · obtain ⟨hinv, hexecuted, hpending, hthreads, hsends⟩ := hrecord.sendInLoop hstep
    have hinFlight : ∀ thread, s'.inFlight thread = s.inFlight thread := inFlight_congr hthreads
    refine ⟨hinv, horder.of_pipeline ?_ ?_ (Or.inr ⟨.loop, message, hsends, ?_⟩)⟩
    · rw [hpending]
      exact horder.queued
    · intro thread
      rw [hinFlight]
      exact horder.inFlight thread
    · intro thread
      rw [pipeline, pipeline, hexecuted, hpending, hinFlight]
      by_cases hthread : thread = .loop
      · -- Nothing of the loop thread waits in between.
        subst hthread
        have hnone : ofThread .loop (queuedSends s.pendingFunctors) = [] :=
          ofThread_eq_nil horder.queued
        right
        simp [recordSend, hnone, inFlight]
      · have hother : ofThread thread [s.nextSend .loop message] = [] :=
          ofThread_singleton_ne (Ne.symm hthread)
        left
        simp [recordSend, hother]
  · cases hstep
    exact ⟨hrecord, horder.of_dropped rfl⟩

/-- A thread outside a call has nothing in its hands. -/
theorem inFlight_of_none {t : Nat} (h : s.threads t = none) : s.inFlight (.other t) = [] := by
  simp [inFlight, h]

/-- `inFlight` after a thread moved. -/
theorem inFlight_setThread (s : ConnectionRun) (t : Nat) (pc : Option ThreadPc)
    (thread : ThreadId) :
    (s.setThread t pc).inFlight thread
      = if thread = .other t then
          (match pc with
          | some (.queueInLoop f) => f.call.toList
          | _ => [])
        else s.inFlight thread := by
  cases thread with
  | loop => simp [inFlight]
  | other u =>
      by_cases hu : u = t
      · subst hu
        simp [inFlight, setThread]
      · simp [inFlight, setThread, hu]

/-- The pipeline of another thread than the one that moved. -/
theorem pipeline_setThread_ne {t : Nat} {pc : Option ThreadPc} {thread : ThreadId}
    (hne : thread ≠ .other t) : (s.setThread t pc).pipeline thread = s.pipeline thread := by
  rw [pipeline, pipeline, inFlight_setThread, if_neg hne]
  rfl

/-- `send` in another thread, up to its call of `queueInLoop`. -/
theorem OrderInv.step_sendFrom (h : s.OrderInv) {t : Nat} {message : List Byte}
    (hfree : s.threads t = none) (hstep : s.step (.sendFrom t message) = some s') :
    s'.OrderInv := by
  rw [step] at hstep
  split at hstep
  · cases hstep
    refine h.of_pipeline h.queued ?_ (Or.inr ⟨.other t, message, rfl, ?_⟩)
    · intro thread call hcall
      rw [inFlight_setThread] at hcall
      split at hcall
      · rename_i hthread
        have heq : call = s.nextSend (.other t) message := by
          simpa [Functor.call] using hcall
        rw [heq, hthread]
        rfl
      · exact h.inFlight thread call hcall
    · -- the pipelines
      intro thread
      by_cases hthread : thread = .other t
      · -- The thread had nothing in its hands.
        subst hthread
        have hself : ofThread (.other t) [s.nextSend (.other t) message]
            = [s.nextSend (.other t) message] := ofThread_singleton_self _
        have hempty : s.inFlight (.other t) = [] := inFlight_of_none hfree
        right
        rw [pipeline, pipeline, inFlight_setThread, if_pos rfl, hself, hempty]
        simp [recordSend, setThread, Functor.call]
      · exact Or.inl (pipeline_setThread_ne hthread)
  · cases hstep
    exact h.of_dropped rfl

/-- `shutdown` in another thread, up to its test of `state_`. -/
theorem OrderInv.step_shutdownFrom (h : s.OrderInv) {t : Nat} (hfree : s.threads t = none)
    (hstep : s.step (.shutdownFrom t) = some s') : s'.OrderInv := by
  rw [step] at hstep
  split at hstep
  · cases hstep
    -- A call of `shutdown` is no call of `send`: the hands stay as empty as they were.
    have hinFlight : ∀ thread, (s.setThread t (some .setDisconnecting)).inFlight thread
        = s.inFlight thread := by
      intro thread
      rw [inFlight_setThread]
      by_cases hthread : thread = .other t
      · rw [if_pos hthread, hthread]
        exact (inFlight_of_none hfree).symm
      · rw [if_neg hthread]
    refine h.of_pipeline h.queued ?_ (Or.inl ⟨rfl, fun thread => ?_⟩)
    · intro thread
      rw [hinFlight]
      exact h.inFlight thread
    · rw [pipeline, pipeline, hinFlight]
      rfl
  · cases hstep
    exact h

/-- The next step of another thread: a call moves from its hands into the queue. It joins at the
end, behind the earlier ones of this thread. -/
theorem OrderInv.step_resume (h : s.OrderInv) {t : Nat} (hstep : s.step (.resume t) = some s') :
    s'.OrderInv := by
  rw [step] at hstep
  split at hstep
  · cases hstep
    exact h
  · -- `setState(kDisconnecting)` has no part in the order.
    rename_i hpc
    cases hstep
    have hinFlight : ∀ thread, ConnectionRun.inFlight ({ s with
          conn := s.conn.setState .kDisconnecting }.setThread t
            (some (.queueInLoop .shutdownInLoop))) thread = s.inFlight thread := by
      intro thread
      rw [inFlight_setThread]
      by_cases hthread : thread = .other t
      · rw [if_pos hthread, hthread]
        simp [ConnectionRun.inFlight, hpc, Functor.call]
      · rw [if_neg hthread]
        exact inFlight_congr rfl thread
    refine h.of_pipeline h.queued ?_ (Or.inl ⟨rfl, fun thread => ?_⟩)
    · intro thread
      rw [hinFlight]
      exact h.inFlight thread
    · rw [pipeline, pipeline, hinFlight]
      rfl
  · -- The functor goes from the hands of the thread to the end of the queue.
    rename_i f hpc
    cases hstep
    have hhands : s.inFlight (.other t) = f.call.toList := by
      simp [ConnectionRun.inFlight, hpc]
    have hthread : ∀ call ∈ f.call, call.thread = .other t := by
      intro call hcall
      have hmem : call ∈ s.inFlight (.other t) := by
        rw [hhands]
        exact Option.mem_toList.mpr hcall
      exact h.inFlight (.other t) call hmem
    have hqueued : queuedSends (s.pendingFunctors ++ [f])
        = queuedSends s.pendingFunctors ++ f.call.toList := by
      rw [queuedSends_append]
      cases f with
      | sendInLoop call => rfl
      | shutdownInLoop => rfl
    have hinFlight : ∀ thread, ConnectionRun.inFlight
        { s with pendingFunctors := s.pendingFunctors ++ [f] } thread = s.inFlight thread :=
      inFlight_congr rfl
    refine h.of_pipeline ?_ ?_ (Or.inl ⟨rfl, fun thread => ?_⟩)
    · -- queued
      intro call hcall
      have hcall' : call ∈ queuedSends (s.pendingFunctors ++ [f]) := hcall
      rw [hqueued] at hcall'
      rcases List.mem_append.mp hcall' with hold | hnew
      · exact h.queued call hold
      · rw [hthread call (Option.mem_toList.mp hnew)]
        simp
    · -- in flight
      intro thread call hcall
      rw [inFlight_setThread] at hcall
      split at hcall
      · cases hcall
      · rw [hinFlight] at hcall
        exact h.inFlight thread call hcall
    · -- The pipeline of the thread that moved has the same calls, one place further.
      by_cases hne : thread = .other t
      · subst hne
        have hkept : ofThread (.other t) f.call.toList = f.call.toList := by
          rw [ofThread, List.filter_eq_self]
          intro call hcall
          simpa using hthread call (Option.mem_toList.mp hcall)
        rw [pipeline, pipeline, inFlight_setThread, if_pos rfl, hhands]
        show ofThread _ s.executed ++ ofThread _ (queuedSends (s.pendingFunctors ++ [f])) ++ [] = _
        rw [hqueued, ofThread_append, hkept]
        simp
      · -- The others see nothing of it.
        have hdropped : ofThread thread f.call.toList = [] :=
          ofThread_eq_nil fun call hcall heq =>
            hne (heq.symm.trans (hthread call (Option.mem_toList.mp hcall)))
        rw [pipeline_setThread_ne hne, pipeline, pipeline]
        show ofThread _ s.executed ++ ofThread _ (queuedSends (s.pendingFunctors ++ [f])) ++
          ConnectionRun.inFlight { s with pendingFunctors := s.pendingFunctors ++ [f] } thread = _
        rw [hqueued, ofThread_append, hdropped, List.append_nil, hinFlight]

/-- The first functor of the queue: a call moves from the queue to the executed ones. -/
theorem step_runFunctor (h : s.StreamInv) (horder : s.OrderInv) {result : WriteResult}
    (hstep : s.step (.runFunctor result) = some s') : s'.StreamInv ∧ s'.OrderInv := by
  rw [step] at hstep
  split at hstep
  · cases hstep
    exact ⟨h, horder⟩
  · rename_i call rest hpending
    have hrest : ({ s with pendingFunctors := rest } : ConnectionRun).StreamInv :=
      ⟨h.reads, h.wf, h.stream⟩
    obtain ⟨hinv, hexecuted, hpending', hthreads, hsends⟩ := hrest.sendInLoop hstep
    have hinFlight : ∀ thread, s'.inFlight thread = s.inFlight thread := inFlight_congr hthreads
    refine ⟨hinv, horder.of_pipeline ?_ ?_ (Or.inl ⟨hsends, fun thread => ?_⟩)⟩
    · intro c hc
      rw [hpending'] at hc
      refine horder.queued c ?_
      rw [hpending]
      exact List.mem_cons_of_mem call hc
    · intro thread
      rw [hinFlight]
      exact horder.inFlight thread
    · rw [pipeline, pipeline, hexecuted, hpending', hpending, hinFlight, ofThread_append]
      show _ ++ ofThread thread [call] ++ ofThread thread (queuedSends rest) ++ _
        = _ ++ ofThread thread ([call] ++ queuedSends rest) ++ _
      rw [ofThread_append]
      simp only [List.append_assoc]
  · rename_i rest hpending
    cases hstep
    have hqueued : queuedSends s.pendingFunctors = queuedSends rest := by
      rw [hpending]
      rfl
    have hinFlight : ∀ thread, ConnectionRun.inFlight { s with
        pendingFunctors := rest, conn := s.conn.shutdownInLoop s.poller } thread
        = s.inFlight thread := inFlight_congr rfl
    have hstream := h.of_keepsStream (KeepsStream.of_shutdownInLoop rfl rfl rfl)
    refine ⟨⟨hstream.reads, hstream.wf, hstream.stream⟩,
      horder.of_pipeline ?_ ?_ (Or.inl ⟨rfl, fun thread => ?_⟩)⟩
    · show ∀ call ∈ queuedSends rest, _
      rw [← hqueued]
      exact horder.queued
    · intro thread
      rw [hinFlight]
      exact horder.inFlight thread
    · rw [pipeline, pipeline, hinFlight, hqueued]

/-- Every legal step keeps both invariants. -/
theorem step_stream (h : s.StreamInv) (horder : s.OrderInv) {a : ConnectionAction}
    (hlegal : s.Legal a) (hstep : s.step a = some s') : s'.StreamInv ∧ s'.OrderInv := by
  have keep : KeepsStream s s' → s'.StreamInv ∧ s'.OrderInv := fun hkeeps =>
    ⟨h.of_keepsStream hkeeps, horder.of_sameCalls hkeeps.calls⟩
  cases a with
  | send message result => exact step_send h horder hstep
  | runFunctor result => exact step_runFunctor h horder hstep
  | sendFrom t message =>
      refine ⟨?_, horder.step_sendFrom hlegal hstep⟩
      rw [step] at hstep
      split at hstep <;> cases hstep <;> exact ⟨h.reads, h.wf, h.stream⟩
  | shutdownFrom t =>
      refine ⟨?_, horder.step_shutdownFrom hlegal hstep⟩
      rw [step] at hstep
      split at hstep <;> cases hstep <;> exact ⟨h.reads, h.wf, h.stream⟩
  | resume t =>
      refine ⟨?_, horder.step_resume hstep⟩
      rw [step] at hstep
      split at hstep <;> cases hstep <;> exact ⟨h.reads, h.wf, h.stream⟩
  | connectEstablished =>
      obtain ⟨⟨p, conn⟩, hconn, rfl⟩ := Option.map_eq_some_iff.mp hstep
      obtain ⟨-, rfl, hp⟩ := TcpConnection.connectEstablished_spec hconn
      exact keep (.of_output
        (.of_apply (show (PollerOp.enableReading _).apply s.poller = some p from hp)) rfl rfl rfl)
  | connectDestroyed =>
      obtain ⟨⟨p, conn⟩, hconn, rfl⟩ := Option.map_eq_some_iff.mp hstep
      obtain ⟨-, rfl, hp⟩ := TcpConnection.connectDestroyed_spec hconn
      exact keep (.of_output
        (.of_apply (show (PollerOp.disableAll _).apply s.poller = some p from hp)) rfl rfl rfl)
  | connectDestroyedRemove =>
      obtain ⟨p, hp, rfl⟩ := Option.map_eq_some_iff.mp hstep
      exact keep (.of_output (.of_removeChannel hp) rfl rfl rfl)
  | shutdown =>
      rw [step] at hstep
      split at hstep
      · cases hstep
        exact keep (.of_shutdownInLoop rfl rfl rfl)
      · cases hstep
        exact ⟨h, horder⟩
  | shutdownInLoop =>
      cases hstep
      exact keep (.of_shutdownInLoop rfl rfl rfl)
  | handleEvent revents readv write => exact keep (.of_handleEvent h.reads hstep)
  | handleRead result =>
      obtain ⟨⟨p, conn, callback⟩, hread, rfl⟩ := Option.map_eq_some_iff.mp hstep
      exact keep (.of_handleRead hread)
  | handleWrite result =>
      obtain ⟨⟨p, conn⟩, hwrite, rfl⟩ := Option.map_eq_some_iff.mp hstep
      exact keep (.of_handleWrite h.wf hlegal hwrite)
  | handleClose =>
      obtain ⟨⟨p, conn⟩, hclose, rfl⟩ := Option.map_eq_some_iff.mp hstep
      exact keep (.of_handleClose hclose)
  | input op =>
      obtain ⟨b, -, rfl⟩ := Option.map_eq_some_iff.mp hstep
      exact keep (.of_output (.refl _) rfl rfl rfl)
  | other op =>
      obtain ⟨p, hp, rfl⟩ := Option.map_eq_some_iff.mp hstep
      exact keep (.of_output (.of_apply hp) rfl rfl rfl)

/-! ### Every run -/

/-- Nothing was executed, and nothing was written. -/
theorem new_streamInv (p : Poller) (c : ChannelPtr) (sockfd : Int) :
    (new p c sockfd).StreamInv where
  reads := TcpConnection.new_readsOnly p c sockfd
  wf := Buffer.new_wf
  stream := Buffer.new_content

/-- No thread has made a call. -/
theorem new_orderInv (p : Poller) (c : ChannelPtr) (sockfd : Int) :
    (new p c sockfd).OrderInv := by
  have hempty : ∀ thread, (new p c sockfd).inFlight thread = [] := by
    intro thread
    cases thread with
    | loop => rfl
    | other t => rfl
  refine ⟨?_, ?_, ?_, ?_⟩
  · intro call hcall
    cases hcall
  · intro thread call hcall
    rw [hempty] at hcall
    cases hcall
  · intro thread
    rw [pipeline, hempty]
    exact List.Sublist.refl _
  · intro thread
    rfl

/-- Output stream integrity. In every run of one connection over any table, with calls of
`send` and `shutdown` from the loop thread and from any number of other threads, and any
results of `::write`:

- the bytes accepted by `::write`, followed by the readable bytes of `outputBuffer_`, are
  the messages of the executed `sendInLoop` calls, in the order of their execution;
- the executed calls of each thread are among its calls of `send` and in their order. -/
theorem output_stream_integrity (p : Poller) (c : ChannelPtr) (sockfd : Int)
    (as : List ConnectionAction) (s : ConnectionRun)
    (hrun : connectionMachine.Run (new p c sockfd) as s) :
    s.conn.socket.accepted ++ s.conn.outputBuffer.content
      = s.executed.flatMap (·.message) ∧
    ∀ thread, (ofThread thread s.executed).Sublist (ofThread thread s.sends) ∧
      ((ofThread thread s.executed).map (·.seq)).Pairwise (· < ·) := by
  have hinv : s.StreamInv ∧ s.OrderInv :=
    hrun.invariant (I := fun s => s.StreamInv ∧ s.OrderInv)
      ⟨new_streamInv p c sockfd, new_orderInv p c sockfd⟩
      fun s a s' hs hlegal hstep => step_stream hs.1 hs.2 hlegal hstep
  obtain ⟨hstream, horder⟩ := hinv
  refine ⟨hstream.stream, fun thread => ?_⟩
  have hsub : (ofThread thread s.executed).Sublist (ofThread thread s.sends) := by
    refine List.Sublist.trans ?_ (horder.sublist thread)
    rw [pipeline, List.append_assoc]
    exact List.sublist_append_left _ _
  refine ⟨hsub, ?_⟩
  -- The numbers of all calls of the thread go up, so those of the executed ones do.
  have hnumbers := horder.numbered thread
  have hall : ((ofThread thread s.sends).map (·.seq)).Pairwise (· < ·) := by
    rw [hnumbers]
    exact List.pairwise_lt_range
  exact hall.sublist (hsub.map _)

/-- The theorem at a run with a partial write, a failed write and a message from another
thread. -/
theorem output_stream_integrity_partial :
    ∃ s, connectionMachine.Run (new (Poller.new fun _ => Channel.new 0) 0 3)
        [.connectEstablished, .send [1, 2, 3] (.ok 1), .sendFrom 0 [4, 5], .resume 0,
          .handleWrite (.error 11), .runFunctor (.ok 0), .handleWrite (.ok 3)] s ∧
      s.conn.socket.accepted = [1, 2, 3, 4] ∧ s.conn.outputBuffer.content = [5] := by
  obtain ⟨s, hrun, haccepted, hexecuted⟩ := Machine.exists_run (M := connectionMachine)
    (P := fun s => s.conn.socket.accepted = [1, 2, 3, 4] ∧
      s.executed.flatMap (·.message) = [1, 2, 3, 4, 5])
    (new (Poller.new fun _ => Channel.new 0) 0 3)
    [.connectEstablished, .send [1, 2, 3] (.ok 1), .sendFrom 0 [4, 5], .resume 0,
      .handleWrite (.error 11), .runFunctor (.ok 0), .handleWrite (.ok 3)]
    (by decide +kernel)
  have hstream := (output_stream_integrity _ 0 3 _ s hrun).1
  rw [haccepted, hexecuted] at hstream
  exact ⟨s, hrun, haccepted, by simpa using hstream⟩

end ConnectionRun

end SecondGear
