import SecondGear.Proofs.Interest
import SecondGear.Proofs.OutputStream

/-!
# `SecondGear.Proofs.Shutdown`: the end of the stream waits for the backlog

`shutdownWrite` is called in two places: in `shutdownInLoop`, unless the channel is writing,
and in `handleWrite`, once the output buffer is drained. `step_calls` says for every step
which calls it makes on the socket: the writes of `writeCalls`, and a `shutdownWrite`
exactly if the step `HalfCloses`.

* `AskInv`: a `shutdownInLoop` on its way comes after the change of `state_`.
* `Served`: a shutdown that has executed has called `shutdownWrite`, or the backlog will.
  `served_step` keeps it.
* `graceful_shutdown` is the result for whole runs of an open connection.
-/

set_option autoImplicit false

namespace SecondGear

open SecondGear.Lib

/-- `disableWriting` leaves a channel that is not writing. -/
theorem Poller.isWriting_of_disableWriting {p p' : Poller} {c : ChannelPtr}
    (h : p.disableWriting c = some p') : (p'.channel c).isWriting = false := by
  have hop : (PollerOp.disableWriting c).apply p = some p' := h
  have hevents := (Poller.apply_events hop c).trans (if_pos rfl)
  have hzero : (p'.channel c).events &&& Channel.kWriteEvent = 0#32 := by
    rw [hevents, PollerOp.newEvents, BitVec.and_assoc, BitVec.and_comm (~~~_)]
    simp
  simp [Channel.isWriting, hzero]

/-- `disableAll` too. -/
theorem Poller.isWriting_of_disableAll {p p' : Poller} {c : ChannelPtr}
    (h : p.disableAll c = some p') : (p'.channel c).isWriting = false := by
  have hop : (PollerOp.disableAll c).apply p = some p' := h
  have hevents := (Poller.apply_events hop c).trans (if_pos rfl)
  simp [Channel.isWriting, hevents, PollerOp.newEvents, Channel.kNoneEvent]

namespace ConnectionRun

variable {s s' : ConnectionRun} {a : ConnectionAction}

/-! ### The calls of a step -/

/-- `socket_->shutdownWrite()` was called. -/
def HalfClosed (s : ConnectionRun) : Prop := .shutdownWrite ∈ s.conn.socket.calls

/-- The step calls `socket_->shutdownWrite()`. -/
def HalfCloses (s : ConnectionRun) : ConnectionAction → Prop
  | .shutdown => s.conn.state = .kConnected ∧ s.conn.isWriting s.poller = false
  | .runFunctor _ =>
      s.pendingFunctors.head? = some .shutdownInLoop ∧ s.conn.isWriting s.poller = false
  | .shutdownInLoop => s.conn.isWriting s.poller = false
  | .handleWrite result =>
      s.conn.isWriting s.poller = true ∧ 0 < result.taken ∧
        s.backlog.length ≤ result.taken ∧ s.conn.state = .kDisconnecting
  | _ => False

instance (s : ConnectionRun) : (a : ConnectionAction) → Decidable (s.HalfCloses a)
  | .shutdown | .runFunctor _ => inferInstanceAs (Decidable (_ ∧ _))
  | .shutdownInLoop => inferInstanceAs (Decidable (_ = false))
  | .handleWrite _ => inferInstanceAs (Decidable (_ ∧ _ ∧ _ ∧ _))
  | .connectEstablished | .send _ _ | .sendFrom _ _ | .shutdownFrom _ | .resume _
  | .handleEvent _ _ _ | .handleRead _ | .handleClose | .connectDestroyed
  | .connectDestroyedRemove | .input _ | .other _ => isFalse id

/-- The calls of `::write` that the step makes. -/
def writeCalls (s : ConnectionRun) (a : ConnectionAction) : List SocketCall :=
  match s.executes a, a with
  | some (message, result), _ =>
      if s.conn.writesDirectly s.poller then [.write message result] else []
  | none, .handleWrite result =>
      if s.conn.isWriting s.poller then [.write s.backlog result] else []
  | none, _ => []

/-- `sendInLoop` on the socket. -/
theorem sendInLoop_calls {p p' : Poller} {conn conn' : TcpConnection} {message : List Byte}
    {result : WriteResult} (hwf : conn.outputBuffer.Wf)
    (h : conn.sendInLoop p message result = some (p', conn')) :
    conn'.socket.calls = conn.socket.calls ++
      if conn.writesDirectly p then [.write message result] else [] := by
  obtain ⟨b, -, -, rfl, -⟩ := TcpConnection.sendInLoop_spec hwf h
  show Socket.calls (if _ then _ else _) = _
  split
  · rfl
  · rw [List.append_nil]

/-- `shutdownInLoop` on the socket. -/
theorem shutdownInLoop_calls (p : Poller) (conn : TcpConnection) :
    (conn.shutdownInLoop p).socket.calls = conn.socket.calls ++
      if conn.isWriting p = false then [.shutdownWrite] else [] := by
  rw [TcpConnection.shutdownInLoop_eq]
  cases hw : conn.isWriting p with
  | true => simp
  | false => rfl

/-- `handleWrite` on the socket. -/
theorem handleWrite_calls {p p' : Poller} {conn conn' : TcpConnection}
    (hwf : conn.outputBuffer.Wf) {result : WriteResult}
    (hlen : result.taken ≤ conn.outputBuffer.readableBytes) (hw : conn.isWriting p = true)
    (h : conn.handleWrite p result = some (p', conn')) :
    conn'.socket.calls = conn.socket.calls ++ .write conn.outputBuffer.content result ::
      if 0 < result.taken ∧ conn.outputBuffer.content.length ≤ result.taken ∧
          conn.state = .kDisconnecting then [.shutdownWrite] else [] := by
  obtain ⟨b, -, hcontent, hp, rfl⟩ := TcpConnection.handleWrite_spec hwf hlen hw h
  have hnil : b.content = [] ↔ conn.outputBuffer.content.length ≤ result.taken := by
    rw [hcontent, List.drop_eq_nil_iff]
  show Socket.calls (if _ then _ else _) = _
  by_cases hdone : 0 < result.taken ∧ b.content = [] ∧ conn.state = .kDisconnecting
  · -- The buffer is drained, so `disableWriting` came before.
    rw [if_pos ⟨hdone.1, hdone.2.1⟩] at hp
    have hidle : conn.isWriting p' = false := Poller.isWriting_of_disableWriting hp
    rw [if_pos ⟨hdone.1, hdone.2.1, hdone.2.2, hidle⟩,
      if_pos ⟨hdone.1, hnil.mp hdone.2.1, hdone.2.2⟩]
    simp [Socket.write, Socket.shutdownWrite]
  · rw [if_neg fun hall => hdone ⟨hall.1, hall.2.1, hall.2.2.1⟩,
      if_neg fun hall => hdone ⟨hall.1, hnil.mpr hall.2.1, hall.2.2⟩]
    rfl

/-- `handleRead` makes no call on the writing side. -/
theorem handleRead_calls {p : Poller} {conn : TcpConnection} {readv : ReadvResult}
    {after : Poller × TcpConnection × Option Callback}
    (h : conn.handleRead p readv = some after) : after.2.1.socket = conn.socket := by
  obtain ⟨b, n, errno, -, hconn, -⟩ := TcpConnection.handleRead_spec h
  rw [hconn]

/-- `HalfCloses`, by what the step runs: `shutdownInLoop` on a channel that is not writing, or the
`handleWrite` that takes the last bytes of a connection that is disconnecting. -/
theorem halfCloses_iff : s.HalfCloses a ↔
    (s.shutsDown a = true ∧ s.conn.isWriting s.poller = false) ∨
      ∃ result, a = .handleWrite result ∧ s.conn.isWriting s.poller = true ∧ 0 < result.taken ∧
        s.backlog.length ≤ result.taken ∧ s.conn.state = .kDisconnecting := by
  cases a <;> simp [HalfCloses, shutsDown]

/-- A step that runs neither `sendInLoop` nor `handleWrite` writes nothing. -/
theorem writeCalls_of_none (hexec : s.executes a = none)
    (hwrite : ∀ result, a ≠ .handleWrite result) : s.writeCalls a = [] := by
  simp only [writeCalls, hexec]

/-- Every step, call by call: what it writes, and then the half-close if it makes one. The proofs
below read the socket through this equation and not through the definitions. -/
theorem step_calls (h : s.StreamInv) (hlegal : s.Legal a) (hstep : s.step a = some s') :
    s'.conn.socket.calls = s.conn.socket.calls ++ s.writeCalls a ++
      if s.HalfCloses a then [.shutdownWrite] else [] := by
  have silent : s.writeCalls a = [] → ¬ s.HalfCloses a → s'.conn.socket = s.conn.socket →
      s'.conn.socket.calls = s.conn.socket.calls ++ s.writeCalls a ++
        if s.HalfCloses a then [.shutdownWrite] else [] := by
    intro hwrites hhalf hsocket
    rw [hwrites, if_neg hhalf, hsocket, List.append_nil, List.append_nil]
  cases s.step_effect h.reads hstep with
  | calls hexec hshut hwrite _ hconn =>
      refine silent (writeCalls_of_none hexec hwrite) ?_ (by rw [hconn])
      rw [halfCloses_iff, hshut]
      simp [hwrite]
  | disconnecting _ hconn =>
      refine silent rfl id ?_
      rw [hconn]
      rfl
  | @sendInLoop a s' message result hexec hshut _ hcall =>
      -- A step runs one method, so this one does not half-close.
      have hhalf : ¬ s.HalfCloses a := by
        rw [halfCloses_iff, hshut]
        rintro (⟨hfalse, -⟩ | ⟨result, rfl, -⟩)
        · cases hfalse
        · cases hexec
      rw [if_neg hhalf, List.append_nil, sendInLoop_calls h.wf hcall]
      simp only [writeCalls, hexec]
  | @shutdownInLoop a s' conn hexec hshut hfrom hp hconn =>
      have hwrite : ∀ result, a ≠ .handleWrite result := by
        rintro result rfl
        cases hshut
      have hsame : conn.socket = s.conn.socket ∧ conn.channel = s.conn.channel := by
        rcases hfrom with rfl | rfl <;> exact ⟨rfl, rfl⟩
      have hidle : conn.isWriting s.poller = s.conn.isWriting s.poller := by
        rw [TcpConnection.isWriting, TcpConnection.isWriting, hsame.2]
      have hhalf : s.HalfCloses a ↔ s.conn.isWriting s.poller = false := by
        rw [halfCloses_iff, hshut]
        simp [hwrite]
      rw [hconn, shutdownInLoop_calls, hsame.1, hidle, writeCalls_of_none hexec hwrite,
        List.append_nil]
      simp only [hhalf]
  | connectEstablished hcall =>
      obtain ⟨-, rfl, -⟩ := TcpConnection.connectEstablished_spec hcall
      exact silent rfl id rfl
  | connectDestroyed hcall =>
      obtain ⟨-, rfl, -⟩ := TcpConnection.connectDestroyed_spec hcall
      exact silent rfl id rfl
  | handleClose hcall =>
      obtain ⟨-, rfl, -⟩ := TcpConnection.handleClose_spec hcall
      exact silent rfl id rfl
  | handleRead hcall | dispatch hcall => exact silent rfl id (handleRead_calls hcall)
  | event | connectDestroyedRemove | input | other => exact silent rfl id rfl
  | @handleWrite result p conn hcall =>
      cases hw : s.conn.isWriting s.poller with
      | true =>
          have hcalls := handleWrite_calls h.wf hlegal hw hcall
          simpa [writeCalls, executes, HalfCloses, hw, backlog] using hcalls
      | false =>
          rw [TcpConnection.handleWrite_of_not_isWriting hw] at hcall
          cases hcall
          simp [writeCalls, executes, HalfCloses, hw]

/-- `writeCalls` are writes. -/
theorem shutdownWrite_not_mem (s : ConnectionRun) (a : ConnectionAction) :
    .shutdownWrite ∉ s.writeCalls a := by
  simp only [writeCalls]
  cases s.executes a with
  | some sent =>
      cases s.conn.writesDirectly s.poller <;> simp
  | none =>
      cases a with
      | handleWrite result => cases s.conn.isWriting s.poller <;> simp
      | _ => simp

/-- A half-close is never taken back. -/
theorem HalfClosed.step (hhalf : s.HalfClosed) (h : s.StreamInv) (hlegal : s.Legal a)
    (hstep : s.step a = some s') : s'.HalfClosed := by
  rw [HalfClosed, step_calls h hlegal hstep, List.append_assoc]
  exact List.mem_append_left _ hhalf

/-- The steps after which the end of the stream was sent: it was before, or this one sends it. -/
theorem halfClosed_step_iff (h : s.StreamInv) (hlegal : s.Legal a)
    (hstep : s.step a = some s') : s'.HalfClosed ↔ s.HalfClosed ∨ s.HalfCloses a := by
  rw [HalfClosed, step_calls h hlegal hstep, List.append_assoc, List.mem_append,
    List.mem_append]
  constructor
  · rintro (hold | hwrite | hnew)
    · exact Or.inl hold
    · exact absurd hwrite (shutdownWrite_not_mem s a)
    · right
      by_contra hhalf
      rw [if_neg hhalf] at hnew
      cases hnew
  · rintro (hold | hhalf)
    · exact Or.inl hold
    · rw [if_pos hhalf]
      simp

/-! ### The state -/

/-- `state_` was moved on from `kConnected`. It never comes back, and `send` takes nothing any
more. -/
def Ending (s : ConnectionRun) : Prop :=
  s.conn.state = .kDisconnecting ∨ s.conn.state = .kDisconnected

/-- The `shutdownInLoop` of a call of `shutdown` is on its way. -/
def Asked (s : ConnectionRun) : Prop :=
  .shutdownInLoop ∈ s.pendingFunctors ∨
    ∃ t, s.threads t = some (.queueInLoop .shutdownInLoop)

/-- It comes after the change of the state: `shutdown` sets `state_` first, and queues then. -/
def AskInv (s : ConnectionRun) : Prop := s.Asked → s.Ending

/-- `handleRead` leaves the state alone. -/
theorem handleRead_state {p : Poller} {conn : TcpConnection} {readv : ReadvResult}
    {after : Poller × TcpConnection × Option Callback}
    (h : conn.handleRead p readv = some after) : after.2.1.state = conn.state := by
  obtain ⟨b, n, errno, -, hconn, -⟩ := TcpConnection.handleRead_spec h
  rw [hconn]

/-- What a step does to the state. Only `shutdown` and the set-up and destruction of the connection
write it. -/
theorem step_state (h : s.StreamInv) (hlegal : s.Legal a) (hstep : s.step a = some s') :
    s'.conn.state = s.conn.state ∨ s'.conn.state = .kDisconnecting ∨
      (s.conn.state = .kConnecting ∧ s'.conn.state = .kConnected) ∨
      (a = .connectDestroyed ∧ s'.conn.state = .kDisconnected) := by
  cases s.step_effect h.reads hstep with
  | calls _ _ _ _ hconn =>
      left
      rw [hconn]
  | disconnecting _ hconn =>
      right; left
      rw [hconn]
      rfl
  | sendInLoop _ _ _ hcall =>
      obtain ⟨b, -, -, hconn, -⟩ := TcpConnection.sendInLoop_spec h.wf hcall
      left
      rw [hconn]
  | @shutdownInLoop a s' conn _ _ hfrom _ hconn =>
      have hstate : s'.conn.state = conn.state := by
        rw [hconn, TcpConnection.shutdownInLoop_eq]
      rcases hfrom with rfl | rfl
      · exact Or.inl hstate
      · exact Or.inr (Or.inl hstate)
  | connectEstablished hcall =>
      obtain ⟨hstate, rfl, -⟩ := TcpConnection.connectEstablished_spec hcall
      exact Or.inr (Or.inr (Or.inl ⟨hstate, rfl⟩))
  | connectDestroyed hcall =>
      obtain ⟨-, rfl, -⟩ := TcpConnection.connectDestroyed_spec hcall
      exact Or.inr (Or.inr (Or.inr ⟨rfl, rfl⟩))
  | handleClose hcall =>
      obtain ⟨-, rfl, -⟩ := TcpConnection.handleClose_spec hcall
      exact Or.inl rfl
  | handleRead hcall | dispatch hcall => exact Or.inl (handleRead_state hcall)
  | event | connectDestroyedRemove | input | other => exact Or.inl rfl
  | handleWrite hcall =>
      obtain ⟨⟨socket, b, rfl⟩, -⟩ := TcpConnection.handleWrite_frame h.wf hlegal hcall
      exact Or.inl rfl

/-- The end is not taken back. -/
theorem Ending.step (hending : s.Ending) (h : s.StreamInv) (hlegal : s.Legal a)
    (hstep : s.step a = some s') : s'.Ending := by
  rcases step_state h hlegal hstep with hsame | hdis | ⟨hconnecting, -⟩ | ⟨-, hdestroyed⟩
  · rw [Ending, hsame]
    exact hending
  · exact Or.inl hdis
  · rw [Ending, hconnecting] at hending
    simp at hending
  · exact Or.inr hdestroyed

/-- What a step does to the queue and to the hands of the other threads: nothing, or it takes the
first functor, or a thread moves on by one statement. -/
theorem step_queue (h : s.StreamInv) (hstep : s.step a = some s') :
    (s'.pendingFunctors = s.pendingFunctors ∧ s'.threads = s.threads) ∨
    (∃ f rest result, a = .runFunctor result ∧ s.pendingFunctors = f :: rest ∧
      s'.pendingFunctors = rest ∧ s'.threads = s.threads) ∨
    (∃ t message, a = .sendFrom t message ∧ s.conn.state = .kConnected ∧
      s'.pendingFunctors = s.pendingFunctors ∧
      s'.threads = Function.update s.threads t
        (some (.queueInLoop (.sendInLoop (s.nextSend (.other t) message))))) ∨
    (∃ t, a = .shutdownFrom t ∧ s.conn.state = .kConnected ∧
      s'.pendingFunctors = s.pendingFunctors ∧
      s'.threads = Function.update s.threads t (some .setDisconnecting)) ∨
    (∃ t, a = .resume t ∧ s.threads t = some .setDisconnecting ∧ s'.Ending ∧
      s'.pendingFunctors = s.pendingFunctors ∧
      s'.threads = Function.update s.threads t (some (.queueInLoop .shutdownInLoop))) ∨
    (∃ t f, a = .resume t ∧ s.threads t = some (.queueInLoop f) ∧
      s'.pendingFunctors = s.pendingFunctors ++ [f] ∧
      s'.threads = Function.update s.threads t none) := by
  cases a with
  | send message result =>
      left
      rw [step] at hstep
      split at hstep
      · obtain ⟨⟨p, conn⟩, -, rfl⟩ := Option.map_eq_some_iff.mp hstep
        exact ⟨rfl, rfl⟩
      · cases hstep
        exact ⟨rfl, rfl⟩
  | runFunctor result =>
      rw [step] at hstep
      split at hstep
      · cases hstep
        exact Or.inl ⟨rfl, rfl⟩
      · rename_i call rest hpending
        obtain ⟨⟨p, conn⟩, -, rfl⟩ := Option.map_eq_some_iff.mp hstep
        exact Or.inr (Or.inl ⟨_, rest, result, rfl, hpending, rfl, rfl⟩)
      · rename_i rest hpending
        cases hstep
        exact Or.inr (Or.inl ⟨_, rest, result, rfl, hpending, rfl, rfl⟩)
  | shutdown =>
      left
      rw [step] at hstep
      split at hstep <;> cases hstep <;> exact ⟨rfl, rfl⟩
  | sendFrom t message =>
      rw [step] at hstep
      split at hstep
      · rename_i hstate
        cases hstep
        exact Or.inr (Or.inr (Or.inl ⟨t, message, rfl, hstate, rfl, rfl⟩))
      · cases hstep
        exact Or.inl ⟨rfl, rfl⟩
  | shutdownFrom t =>
      rw [step] at hstep
      split at hstep
      · rename_i hstate
        cases hstep
        exact Or.inr (Or.inr (Or.inr (Or.inl ⟨t, rfl, hstate, rfl, rfl⟩)))
      · cases hstep
        exact Or.inl ⟨rfl, rfl⟩
  | resume t =>
      rw [step] at hstep
      split at hstep
      · cases hstep
        exact Or.inl ⟨rfl, rfl⟩
      · -- `setState(kDisconnecting)` comes before `queueInLoop`.
        rename_i hpc
        cases hstep
        exact Or.inr (Or.inr (Or.inr (Or.inr (Or.inl ⟨t, rfl, hpc, Or.inl rfl, rfl, rfl⟩))))
      · rename_i f hpc
        cases hstep
        exact Or.inr (Or.inr (Or.inr (Or.inr (Or.inr ⟨t, f, rfl, hpc, rfl, rfl⟩))))
  | shutdownInLoop =>
      cases hstep
      exact Or.inl ⟨rfl, rfl⟩
  | handleEvent revents readv write =>
      have hcalls := (KeepsStream.of_handleEvent h.reads hstep).calls
      exact Or.inl ⟨hcalls.pendingFunctors, hcalls.threads⟩
  | handleRead result =>
      obtain ⟨⟨p, conn, callback⟩, -, rfl⟩ := Option.map_eq_some_iff.mp hstep
      exact Or.inl ⟨rfl, rfl⟩
  | connectEstablished | connectDestroyed | handleClose | connectDestroyedRemove
  | handleWrite result | input op | other op =>
      obtain ⟨x, -, rfl⟩ := Option.map_eq_some_iff.mp hstep
      exact Or.inl ⟨rfl, rfl⟩

/-- What a thread has in its hands after one thread moved. -/
theorem threads_update {t u : Nat} {pc pc' : Option ThreadPc}
    (hthreads : s'.threads = Function.update s.threads t pc) (hu : s'.threads u = pc')
    (hne : pc ≠ pc') : s.threads u = pc' := by
  rw [hthreads] at hu
  by_cases hut : u = t
  · subst hut
    rw [Function.update_self] at hu
    exact absurd hu hne
  · rw [Function.update_of_ne hut] at hu
    exact hu

/-- A step that puts a `shutdownInLoop` on its way has moved the state on. -/
theorem asked_step (h : s.StreamInv) (hstep : s.step a = some s') (hasked : s'.Asked) :
    s.Asked ∨ s'.Ending := by
  rcases step_queue h hstep with ⟨hpending, hthreads⟩
    | ⟨f, rest, result, -, hpending, hpending', hthreads⟩
    | ⟨t, message, -, -, hpending, hthreads⟩ | ⟨t, -, -, hpending, hthreads⟩
    | ⟨t, -, -, hending, -, -⟩ | ⟨t, f, -, hpc, hpending, hthreads⟩
  · left
    rw [Asked, hpending, hthreads] at hasked
    exact hasked
  · left
    rw [Asked, hpending', hthreads] at hasked
    refine hasked.imp_left fun hmem => ?_
    rw [hpending]
    exact List.mem_cons_of_mem f hmem
  · left
    rw [Asked, hpending] at hasked
    exact hasked.imp_right fun ⟨u, hu⟩ => ⟨u, threads_update hthreads hu (by simp)⟩
  · left
    rw [Asked, hpending] at hasked
    exact hasked.imp_right fun ⟨u, hu⟩ => ⟨u, threads_update hthreads hu (by simp)⟩
  · exact Or.inr hending
  · -- The functor goes from the hands of the thread into the queue.
    left
    rw [Asked, hpending] at hasked
    rcases hasked with hmem | ⟨u, hu⟩
    · rcases List.mem_append.mp hmem with hold | hnew
      · exact Or.inl hold
      · exact Or.inr ⟨t, by rw [hpc, List.mem_singleton.mp hnew]⟩
    · exact Or.inr ⟨u, threads_update hthreads hu (by simp)⟩

/-- Every step keeps `AskInv`. -/
theorem askInv_step (hinv : s.AskInv) (h : s.StreamInv) (hlegal : s.Legal a)
    (hstep : s.step a = some s') : s'.AskInv := by
  intro hasked
  rcases asked_step h hstep hasked with hold | hending
  · exact (hinv hold).step h hlegal hstep
  · exact hending

/-! ### The shutdown of an open connection -/

/-- The step executes the `shutdownInLoop` of a call of `shutdown` that took effect. -/
def ExecutesShutdown (s : ConnectionRun) : ConnectionAction → Prop
  | .shutdown => s.conn.state = .kConnected
  | .runFunctor _ => s.pendingFunctors.head? = some .shutdownInLoop
  | _ => False

/-- A shutdown that has executed is done, or `handleWrite` will do it: it half-closes after
the last byte of the backlog. The second case is the branch of `shutdownInLoop` that finds the
channel writing and does nothing. -/
def Served (s : ConnectionRun) : Prop :=
  s.HalfClosed ∨ (s.backlog ≠ [] ∧ s.conn.state = .kDisconnecting)

/-- What runs keep: the output, the orders of shutdowns, an open connection with one of two
states until it is closed. -/
structure ShutdownInv (s : ConnectionRun) : Prop where
  stream : s.StreamInv
  asks : s.AskInv
  opened : s.closed = false → s.Open
  state : s.closed = false → s.conn.state = .kConnected ∨ s.conn.state = .kDisconnecting

namespace ShutdownInv

/-- A connection that is open after a step was open before it. -/
theorem open_of_step (hstep : s.step a = some s') (hopen' : s'.closed = false) :
    s.closed = false := by
  by_contra hclosed
  rw [closed_of_step hstep (by simpa using hclosed)] at hopen'
  cases hopen'

/-- An open connection whose state was moved on is disconnecting. -/
theorem disconnecting (h : s.ShutdownInv) (hopen : s.closed = false) (hending : s.Ending) :
    s.conn.state = .kDisconnecting := by
  rcases h.state hopen with hstate | hstate
  · rw [Ending, hstate] at hending
    simp at hending
  · exact hstate

/-- Every step keeps this, as far as the connection stays open. -/
theorem step (h : s.ShutdownInv) (hstream : s'.StreamInv) (hlegal : s.Legal a)
    (hstep : s.step a = some s') : s'.ShutdownInv := by
  refine ⟨hstream, askInv_step h.asks h.stream hlegal hstep,
    open_step h.opened hlegal hstep, ?_⟩
  intro hopen'
  have hstate := h.state (open_of_step hstep hopen')
  rcases step_state h.stream hlegal hstep with hsame | hdis | ⟨hconnecting, -⟩ | ⟨rfl, -⟩
  · rw [hsame]
    exact hstate
  · exact Or.inr hdis
  -- Nobody establishes it again, and `connectDestroyed` closes it.
  · rw [hconnecting] at hstate
    simp at hstate
  · obtain ⟨⟨p, conn⟩, -, rfl⟩ := Option.map_eq_some_iff.mp hstep
    cases hopen'

/-- `connectEstablished` sets it up. -/
theorem of_established {p : Poller} {c : ChannelPtr} {sockfd : Int} (hfresh : Fresh p c sockfd)
    {s₀ : ConnectionRun} (hest : (new p c sockfd).step .connectEstablished = some s₀) :
    s₀.ShutdownInv := by
  have hopen := (open_of_established hfresh hest).1
  have hlegal : (new p c sockfd).Legal .connectEstablished := trivial
  have hstream := (step_stream (new_streamInv p c sockfd) (new_orderInv p c sockfd) hlegal hest).1
  obtain ⟨⟨p₁, conn⟩, hconn, rfl⟩ := Option.map_eq_some_iff.mp hest
  obtain ⟨-, rfl, -⟩ := TcpConnection.connectEstablished_spec hconn
  refine ⟨hstream, ?_, fun _ => hopen, fun _ => Or.inl rfl⟩
  rintro (hmem | ⟨t, ht⟩)
  · cases hmem
  · cases ht

end ShutdownInv

/-- A half-close finds an empty output buffer, so nothing in it is cut off. -/
theorem Open.backlog_of_halfCloses (h : s.Open) (hlegal : s.Legal a)
    (hstep : s.step a = some s') (hhalf : s.HalfCloses a) : s'.backlog = [] := by
  have idle : s.conn.isWriting s.poller = false → s.backlog = [] := fun hidle =>
    not_not.mp (h.writing.not.mp (h.isWriting_eq_false_iff.mp hidle))
  cases a with
  | shutdown =>
      rw [step, if_pos hhalf.1, Option.some.injEq] at hstep
      rw [← hstep, ← idle hhalf.2]
      show ((s.conn.setState .kDisconnecting).shutdownInLoop s.poller).outputBuffer.content = _
      rw [TcpConnection.shutdownInLoop_eq]
      rfl
  | runFunctor result =>
      obtain ⟨hhead, hidle⟩ := hhalf
      rw [step] at hstep
      split at hstep
      · rename_i hpending
        rw [hpending] at hhead
        cases hhead
      · rename_i call rest hpending
        rw [hpending] at hhead
        cases hhead
      · cases hstep
        rw [← idle hidle]
        show (s.conn.shutdownInLoop s.poller).outputBuffer.content = _
        rw [TcpConnection.shutdownInLoop_eq]
        rfl
  | shutdownInLoop =>
      cases hstep
      rw [← idle hhalf]
      show (s.conn.shutdownInLoop s.poller).outputBuffer.content = _
      rw [TcpConnection.shutdownInLoop_eq]
      rfl
  | handleWrite result =>
      obtain ⟨⟨p, conn⟩, hwrite, rfl⟩ := Option.map_eq_some_iff.mp hstep
      obtain ⟨b, -, hcontent, -, rfl⟩ :=
        TcpConnection.handleWrite_spec h.wf hlegal hhalf.1 hwrite
      show b.content = []
      rw [hcontent]
      exact List.drop_eq_nil_of_le hhalf.2.2.1
  | _ => exact hhalf.elim

/-- The backlog after `handleWrite` on a writing channel. -/
theorem handleWrite_backlog (hwf : s.conn.outputBuffer.Wf) {result : WriteResult}
    (hlegal : s.Legal (.handleWrite result)) (hw : s.conn.isWriting s.poller = true)
    (hstep : s.step (.handleWrite result) = some s') :
    s'.backlog = s.backlog.drop result.taken := by
  obtain ⟨⟨p, conn⟩, hwrite, rfl⟩ := Option.map_eq_some_iff.mp hstep
  obtain ⟨b, -, hcontent, -, rfl⟩ := TcpConnection.handleWrite_spec hwf hlegal hw hwrite
  exact hcontent

/-- Every step keeps a served shutdown served: the step that takes the last byte of the backlog is
the one that half-closes. -/
theorem served_step (h : s.ShutdownInv) (hserved : s.Served) (hlegal : s.Legal a)
    (hstep : s.step a = some s') (hopen' : s'.closed = false) : s'.Served := by
  have hopen := h.opened (ShutdownInv.open_of_step hstep hopen')
  rcases hserved with hhalf | ⟨hbacklog, hstate⟩
  · exact Or.inl (hhalf.step h.stream hlegal hstep)
  · have hstate' : s'.conn.state = .kDisconnecting := by
      rcases step_state h.stream hlegal hstep with hsame | hdis | ⟨hconnecting, -⟩ | ⟨rfl, -⟩
      · exact hsame.trans hstate
      · exact hdis
      · rw [hstate] at hconnecting
        cases hconnecting
      · obtain ⟨⟨p, conn⟩, -, rfl⟩ := Option.map_eq_some_iff.mp hstep
        cases hopen'
    cases hexec : s.executes a with
    | some sent =>
        have hsent := (hopen.step_executes hexec hstep).2.2
        refine Or.inr ⟨?_, hstate'⟩
        rw [hsent.backlog]
        simp [hbacklog]
    | none =>
        obtain ⟨-, ⟨result, rfl, hevents⟩ | hquiet⟩ :=
          hopen.step_other hexec hlegal hstep hopen'
        · -- Either the last byte goes, and `handleWrite` half-closes, or one stays.
          have hw := hopen.isWriting_iff.mpr hevents
          by_cases hall : s.backlog.length ≤ result.taken
          · have hpos : 0 < result.taken :=
              Nat.lt_of_lt_of_le (List.length_pos_iff.mpr hbacklog) hall
            exact Or.inl ((halfClosed_step_iff h.stream hlegal hstep).mpr
              (Or.inr ⟨hw, hpos, hall, hstate⟩))
          · refine Or.inr ⟨?_, hstate'⟩
            rw [handleWrite_backlog hopen.wf hlegal hw hstep, ne_eq, List.drop_eq_nil_iff]
            exact hall
        · refine Or.inr ⟨?_, hstate'⟩
          rw [hquiet.backlog]
          exact hbacklog

/-- A shutdown that executes is served. -/
theorem served_of_executesShutdown (h : s.ShutdownInv) (hopen : s.closed = false)
    (hexec : s.ExecutesShutdown a) (hlegal : s.Legal a) (hstep : s.step a = some s') :
    s'.Served := by
  have hop := h.opened hopen
  cases hw : s.conn.isWriting s.poller with
  | false =>
      -- Nothing waits: `shutdownInLoop` half-closes.
      have hhalf : s.HalfCloses a := by
        cases a with
        | shutdown => exact ⟨hexec, hw⟩
        | runFunctor result => exact ⟨hexec, hw⟩
        | _ => exact hexec.elim
      exact Or.inl ((halfClosed_step_iff h.stream hlegal hstep).mpr (Or.inr hhalf))
  | true =>
      have hbacklog : s.backlog ≠ [] := hop.writing.mp (hop.isWriting_iff.mp hw)
      right
      cases a with
      | shutdown =>
          have hstate : s.conn.state = .kConnected := hexec
          rw [step, if_pos hstate, Option.some.injEq] at hstep
          rw [← hstep, backlog, TcpConnection.shutdownInLoop_eq]
          exact ⟨hbacklog, rfl⟩
      | runFunctor result =>
          have hhead : s.pendingFunctors.head? = some .shutdownInLoop := hexec
          -- The state was moved on before the functor was queued.
          have hasked : s.Asked := Or.inl (List.mem_of_head? hhead)
          have hstate := h.disconnecting hopen (h.asks hasked)
          rw [step] at hstep
          split at hstep
          · rename_i hpending
            rw [hpending] at hhead
            cases hhead
          · rename_i call rest hpending
            rw [hpending] at hhead
            cases hhead
          · rw [← Option.some.inj hstep, backlog, TcpConnection.shutdownInLoop_eq]
            exact ⟨hbacklog, hstate⟩
      | _ => exact hexec.elim

/-- The `handleWrite` that takes the whole backlog returns and half-closes. -/
theorem Open.handleWrite_drains (h : s.Open) (hbacklog : s.backlog ≠ [])
    (hstate : s.conn.state = .kDisconnecting) {result : WriteResult}
    (htaken : result.taken = s.backlog.length) :
    ∃ p conn, s.conn.handleWrite s.poller result = some (p, conn) ∧
      conn.socket.calls
        = s.conn.socket.calls ++ [.write s.backlog result, .shutdownWrite] := by
  have hw : s.conn.isWriting s.poller = true := h.isWriting_iff.mpr (h.writing.mpr hbacklog)
  have hlen : result.taken ≤ s.conn.outputBuffer.readableBytes := by
    rw [htaken, backlog, h.wf.length_content]
  have hpos : 0 < result.taken := by
    rw [htaken]
    exact List.length_pos_iff.mpr hbacklog
  have hreturns : ∃ after, s.conn.handleWrite s.poller result = some after := by
    obtain ⟨b, hretrieve, hb, hcontent⟩ := Buffer.retrieve_spec h.wf hlen
    have hdone : b.readableBytes = 0 := by
      rw [hb.readableBytes_eq_zero, hcontent, htaken]
      exact List.drop_length
    have hmask := PollerOp.newEvents_hasMask (h.table.mask s.conn.channel)
      (.disableWriting s.conn.channel)
    -- `disableWriting` of a registered channel returns.
    obtain ⟨p, -, -, hp, -⟩ := h.table.update_registered h.registered hmask
    have hcall : s.poller.disableWriting s.conn.channel = some p := hp
    rw [TcpConnection.handleWrite, if_pos hw, if_pos (result.toInt_pos_iff.mpr hpos)]
    simp only [hretrieve, hdone, if_true, hcall, Option.bind_eq_bind, Option.bind_some]
    exact ⟨_, rfl⟩
  obtain ⟨⟨p, conn⟩, hwrite⟩ := hreturns
  refine ⟨p, conn, hwrite, ?_⟩
  have hcalls := handleWrite_calls h.wf hlen hw hwrite
  rw [if_pos ⟨hpos, by rw [htaken]; exact le_refl _, hstate⟩] at hcalls
  exact hcalls

/-- Graceful shutdown. In every run of a connection from `connectEstablished` on, as long as
it is open, with calls of `send` and `shutdown` from any threads, `handleWrite` at any time
and any results of `::write`:

- the channel is writing exactly while the output buffer is not empty;
- a step that calls `shutdownWrite` does so with an empty output buffer;
- a shutdown that was executed has called `shutdownWrite`, or bytes wait with the write
  interest on, and the `handleWrite` that drains them calls it. -/
theorem graceful_shutdown (p : Poller) (c : ChannelPtr) (sockfd : Int)
    (hfresh : Fresh p c sockfd) (s₀ : ConnectionRun)
    (hest : (new p c sockfd).step .connectEstablished = some s₀)
    (as : List ConnectionAction) (s : ConnectionRun) (hrun : connectionMachine.Run s₀ as s)
    (hopen : s.closed = false) :
    (s.conn.isWriting s.poller = true ↔ s.conn.outputBuffer.content ≠ []) ∧
    (∀ a s' calls, s.Legal a → s.step a = some s' →
      s'.conn.socket.calls = s.conn.socket.calls ++ calls → .shutdownWrite ∈ calls →
      s'.conn.outputBuffer.content = []) ∧
    (∀ pre a t, pre ++ [a] <+: as → connectionMachine.Run s₀ pre t → t.ExecutesShutdown a →
      .shutdownWrite ∈ s.conn.socket.calls ∨
        (s.conn.outputBuffer.content ≠ [] ∧ s.conn.isWriting s.poller = true ∧
          ∀ result, result.taken = s.conn.outputBuffer.content.length →
            ∃ p' conn', s.conn.handleWrite s.poller result = some (p', conn') ∧
              conn'.socket.calls = s.conn.socket.calls ++
                [.write s.conn.outputBuffer.content result, .shutdownWrite])) := by
  have hinit : s₀.ShutdownInv ∧ s₀.OrderInv := by
    have hlegal : (new p c sockfd).Legal .connectEstablished := trivial
    exact ⟨.of_established hfresh hest,
      (step_stream (new_streamInv p c sockfd) (new_orderInv p c sockfd) hlegal hest).2⟩
  have hkeep : ∀ s a s', (s.ShutdownInv ∧ s.OrderInv) → connectionMachine.legal s a →
      connectionMachine.step s a = some s' → s'.ShutdownInv ∧ s'.OrderInv := by
    intro s a s' h hlegal hstep
    obtain ⟨hstream, horder⟩ := step_stream h.1.stream h.2 hlegal hstep
    exact ⟨h.1.step hstream hlegal hstep, horder⟩
  have hinv : s.ShutdownInv :=
    (hrun.invariant (I := fun s => s.ShutdownInv ∧ s.OrderInv) hinit hkeep).1
  have hop : s.Open := hinv.opened hopen
  refine ⟨hop.isWriting_iff.trans hop.writing, ?_, ?_⟩
  · intro a s' calls hlegal hstep hcalls hmem
    -- The writes of the step are no half-close, so it is one itself.
    have hhalf : s.HalfCloses a := by
      by_contra hnot
      rw [step_calls hinv.stream hlegal hstep, if_neg hnot, List.append_nil] at hcalls
      rw [← List.append_cancel_left hcalls] at hmem
      exact shutdownWrite_not_mem s a hmem
    exact hop.backlog_of_halfCloses hlegal hstep hhalf
  · intro pre a t hpre ht hexec
    -- Served by the step that executes it, and by every step since.
    have hserved : s.closed = false → s.Served := by
      refine hrun.since (I := fun s => s.ShutdownInv ∧ s.OrderInv)
        (P := fun s => s.closed = false → s.Served) hinit hkeep ?_ ?_ hpre ht hexec
      · intro s a s' h hexec hlegal hstep hopen'
        exact served_of_executesShutdown h.1 (ShutdownInv.open_of_step hstep hopen') hexec
          hlegal hstep
      · intro s a s' h hserved hlegal hstep hopen'
        exact served_step h.1 (hserved (ShutdownInv.open_of_step hstep hopen')) hlegal hstep
          hopen'
    rcases hserved hopen with hhalf | ⟨hbacklog, hstate⟩
    · exact Or.inl hhalf
    · exact Or.inr ⟨hbacklog, hop.isWriting_iff.mpr (hop.writing.mpr hbacklog),
        fun result htaken => hop.handleWrite_drains hbacklog hstate htaken⟩

/-- The theorem at a run with a partial write and a shutdown from another thread: the
`handleWrite` that takes the last byte half-closes. -/
theorem graceful_shutdown_backlog :
    ∃ s₀ s, (new (Poller.new fun _ => Channel.new 0) 0 3).step .connectEstablished = some s₀ ∧
      connectionMachine.Run s₀ [.send [1, 2] (.ok 1), .shutdownFrom 0, .resume 0, .resume 0,
        .runFunctor (.ok 0)] s ∧
      ∃ p conn, s.conn.handleWrite s.poller (.ok 1) = some (p, conn) ∧
        conn.socket.calls = [.write [1, 2] (.ok 1), .write [2] (.ok 1), .shutdownWrite] := by
  obtain ⟨s, hrun, hopen, hbuffer, hcalls⟩ := Machine.exists_run (M := connectionMachine)
    (P := fun s => s.closed = false ∧ s.conn.outputBuffer.content = [2] ∧
      s.conn.socket.calls = [.write [1, 2] (.ok 1)])
    (new (Poller.new fun _ => Channel.new 0) 0 3)
    [.connectEstablished, .send [1, 2] (.ok 1), .shutdownFrom 0, .resume 0, .resume 0,
      .runFunctor (.ok 0)] (by decide +kernel)
  obtain ⟨t, hpre, hhead⟩ := Machine.exists_run (M := connectionMachine)
    (P := fun t => t.pendingFunctors.head? = some .shutdownInLoop)
    (new (Poller.new fun _ => Channel.new 0) 0 3)
    [.connectEstablished, .send [1, 2] (.ok 1), .shutdownFrom 0, .resume 0, .resume 0]
    (by decide +kernel)
  obtain ⟨s₀, hest, hrun'⟩ := hrun.cons_inv
  obtain ⟨t₀, hest', hpre'⟩ := hpre.cons_inv
  obtain rfl : s₀ = t₀ := Option.some.inj (hest.2.symm.trans hest'.2)
  have hall := (graceful_shutdown _ 0 3 fresh_new s₀ hest.2 _ s hrun' hopen).2.2 _
    (.runFunctor (.ok 0)) t (List.prefix_refl _) hpre' hhead
  rw [hbuffer, hcalls] at hall
  rcases hall with hmem | ⟨-, -, hdrains⟩
  · simp at hmem
  · exact ⟨s₀, s, hest.2, hrun', hdrains (.ok 1) rfl⟩

end ConnectionRun

end SecondGear
