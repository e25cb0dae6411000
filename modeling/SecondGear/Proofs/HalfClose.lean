import SecondGear.Proofs.Shutdown

/-!
# `SecondGear.Proofs.HalfClose`: what is written after the end of the stream

`shutdown` in the loop thread half-closes at once. A `send` of another thread tests `state_`
before and writes later, from the queue. So a message can come after the end of the stream:
`not_writesFirst`.

`writesFirst_iff` says exactly when it does not. A step that half-closes must find no send
on its way (`SendsFirst`). Then, in every state of the run, no write comes after the
half-close and no send waits behind it.

`HalfInv` carries the proof: after a half-close the connection is ending and not writing,
and nothing that could write is on its way.
-/

set_option autoImplicit false

namespace SecondGear

open SecondGear.Lib

/-- No call but `shutdownWrite` comes after a `shutdownWrite`. -/
def WritesFirst (calls : List SocketCall) : Prop :=
  calls.Pairwise fun call later => call = .shutdownWrite → later = .shutdownWrite

instance (calls : List SocketCall) : Decidable (WritesFirst calls) :=
  inferInstanceAs (Decidable (calls.Pairwise _))

/-- Calls without `shutdownWrite`. -/
theorem WritesFirst.of_not_mem {calls : List SocketCall} (h : .shutdownWrite ∉ calls) :
    WritesFirst calls := by
  refine List.Pairwise.imp_of_mem (R := fun _ _ => True) ?_
    (List.pairwise_of_forall fun _ _ => trivial)
  intro call later hcall _ _ hend
  exact absurd (hend ▸ hcall) h

/-- A `shutdownWrite` more. -/
theorem WritesFirst.append {calls ends : List SocketCall} (h : WritesFirst calls)
    (hends : ∀ call ∈ ends, call = .shutdownWrite) : WritesFirst (calls ++ ends) := by
  refine List.pairwise_append.mpr ⟨h, ?_, fun _ _ later hlater _ => hends later hlater⟩
  exact List.Pairwise.imp_of_mem (fun _ hlater _ _ => hends _ hlater)
    (List.pairwise_of_forall (R := fun _ _ => True) fun _ _ => trivial)

namespace ConnectionRun

variable {s s' : ConnectionRun} {a : ConnectionAction}

/-- No send that found `kConnected` is still to be executed. -/
def NoSendWaits (s : ConnectionRun) : Prop :=
  queuedSends s.pendingFunctors = [] ∧ ∀ t, s.inFlight (.other t) = []

/-- Nothing was written after the half-close, and nothing is left to be. -/
def NoWriteAfterHalfClose (s : ConnectionRun) : Prop :=
  WritesFirst s.conn.socket.calls ∧ (s.HalfClosed → s.NoSendWaits)

/-- A step that half-closes finds no send on its way. -/
def SendsFirst (s : ConnectionRun) (a : ConnectionAction) : Prop := s.HalfCloses a → s.NoSendWaits

/-! ### Sends on their way -/

/-- What a step leaves of a thread's hands that are not its own. -/
theorem inFlight_eq_nil_iff {t : Nat} :
    s.inFlight (.other t) = [] ↔ ∀ call, s.threads t ≠ some (.queueInLoop (.sendInLoop call)) := by
  cases hpc : s.threads t with
  | none => simp [inFlight, hpc]
  | some pc =>
      cases pc with
      | setDisconnecting => simp [inFlight, hpc]
      | queueInLoop f => cases f <;> simp [inFlight, hpc, Functor.call]

/-- The queue holds no `sendInLoop`. -/
theorem queuedSends_eq_nil_iff {fs : List Functor} :
    queuedSends fs = [] ↔ ∀ call, .sendInLoop call ∉ fs := by
  induction fs with
  | nil => simp [queuedSends]
  | cons f fs ih =>
      cases f with
      | sendInLoop call =>
          constructor
          · intro hnil
            cases hnil
          · exact fun hall => absurd List.mem_cons_self (hall call)
      | shutdownInLoop =>
          have hskip : queuedSends (.shutdownInLoop :: fs) = queuedSends fs := rfl
          rw [hskip, ih]
          simp

/-- After the state was moved on no new send starts, and none of the old ones comes back. -/
theorem NoSendWaits.step (hnone : s.NoSendWaits) (h : s.StreamInv) (hending : s.Ending)
    (hstep : s.step a = some s') : s'.NoSendWaits := by
  have hdown : s.conn.state ≠ .kConnected := by
    rcases hending with hstate | hstate <;> rw [hstate] <;> simp
  obtain ⟨hqueue, hhands⟩ := hnone
  rw [NoSendWaits, queuedSends_eq_nil_iff]
  simp only [inFlight_eq_nil_iff] at hhands ⊢
  rw [queuedSends_eq_nil_iff] at hqueue
  rcases step_queue h hstep with ⟨hpending, hthreads⟩
    | ⟨f, rest, result, -, hpending, hpending', hthreads⟩
    | ⟨t, message, -, hstate, -, -⟩ | ⟨t, -, hstate, -, -⟩
    | ⟨t, -, -, -, hpending, hthreads⟩ | ⟨t, f, -, hpc, hpending, hthreads⟩
  · rw [hpending, hthreads]
    exact ⟨hqueue, hhands⟩
  · rw [hpending', hthreads]
    refine ⟨fun call hcall => hqueue call ?_, hhands⟩
    rw [hpending]
    exact List.mem_cons_of_mem f hcall
  · exact absurd hstate hdown
  · exact absurd hstate hdown
  · rw [hpending]
    refine ⟨hqueue, fun u call hu => hhands u call ?_⟩
    exact threads_update hthreads hu (by simp)
  · rw [hpending]
    refine ⟨fun call hcall => ?_, fun u call hu => hhands u call ?_⟩
    · rcases List.mem_append.mp hcall with hold | hnew
      · exact hqueue call hold
      · rw [← List.mem_singleton.mp hnew] at hpc
        exact hhands t call hpc
    · exact threads_update hthreads hu (by simp)

/-- A step that half-closes moves no send. -/
theorem noSendWaits_iff_of_halfCloses (h : s.StreamInv) (hhalf : s.HalfCloses a)
    (hstep : s.step a = some s') : s'.NoSendWaits ↔ s.NoSendWaits := by
  have hsame : queuedSends s'.pendingFunctors = queuedSends s.pendingFunctors ∧
      s'.threads = s.threads := by
    rcases step_queue h hstep with ⟨hpending, hthreads⟩
      | ⟨f, rest, result, rfl, hpending, hpending', hthreads⟩
      | ⟨t, message, rfl, -⟩ | ⟨t, rfl, -⟩ | ⟨t, rfl, -⟩ | ⟨t, f, rfl, -⟩
    · rw [hpending]
      exact ⟨rfl, hthreads⟩
    · -- The functor that half-closes is no send.
      have hhead : s.pendingFunctors.head? = some .shutdownInLoop := hhalf.1
      rw [hpending, List.head?_cons, Option.some.injEq] at hhead
      rw [hpending, hpending', hhead]
      exact ⟨rfl, hthreads⟩
    all_goals exact hhalf.elim
  have hhands : ∀ t, s'.inFlight (.other t) = s.inFlight (.other t) :=
    fun t => inFlight_congr hsame.2 (.other t)
  rw [NoSendWaits, NoSendWaits, hsame.1]
  simp only [hhands]

/-- Without a send on its way an ending connection executes none. -/
theorem NoSendWaits.executes_eq_none (hnone : s.NoSendWaits) (hending : s.Ending) :
    s.executes a = none := by
  cases a with
  | send message result =>
      -- `send` wants a connected state.
      have hdown : s.conn.state ≠ .kConnected := by
        rcases hending with hstate | hstate <;> rw [hstate] <;> simp
      rw [executes, if_neg hdown]
  | runFunctor result =>
      have hqueue := queuedSends_eq_nil_iff.mp hnone.1
      cases hpending : s.pendingFunctors with
      | nil => simp [executes, hpending]
      | cons f rest =>
          cases f with
          | sendInLoop call =>
              rw [hpending] at hqueue
              exact absurd List.mem_cons_self (hqueue call)
          | shutdownInLoop => simp [executes, hpending]
  | _ => rfl

/-! ### The write interest -/

/-- `handleRead` turns no write interest on. -/
theorem handleRead_not_isWriting {p : Poller} {conn : TcpConnection} {readv : ReadvResult}
    {after : Poller × TcpConnection × Option Callback} (hidle : conn.isWriting p = false)
    (h : conn.handleRead p readv = some after) : after.2.1.isWriting after.1 = false := by
  obtain ⟨p', conn', callback⟩ := after
  obtain ⟨b, n, errno, -, rfl, hcases⟩ := TcpConnection.handleRead_spec h
  rcases hcases with ⟨-, -, rfl⟩ | ⟨-, -, hclose⟩ | ⟨-, -, rfl⟩
  · exact hidle
  · obtain ⟨-, -, hp⟩ := TcpConnection.handleClose_spec hclose
    exact Poller.isWriting_of_disableAll hp
  · exact hidle

/-- Only `sendInLoop` turns the write interest on. -/
theorem not_isWriting_step (h : s.StreamInv) (hidle : s.conn.isWriting s.poller = false)
    (hexec : s.executes a = none) (hlegal : s.Legal a) (hstep : s.step a = some s') :
    s'.conn.isWriting s'.poller = false := by
  have events : (s'.poller.channel s.conn.channel).events
        = (s.poller.channel s.conn.channel).events →
      s'.conn.channel = s.conn.channel → s'.conn.isWriting s'.poller = false := by
    intro hevents hchannel
    rw [TcpConnection.isWriting, hchannel, Channel.isWriting, hevents]
    exact hidle
  cases s.step_effect h.reads hstep with
  | calls _ _ _ hp hconn => exact events (by rw [hp]) (by rw [hconn])
  | disconnecting hp hconn => exact events (by rw [hp]) (by rw [hconn]; rfl)
  | sendInLoop hexec' =>
      rw [hexec] at hexec'
      cases hexec'
  | shutdownInLoop _ _ hfrom hp hconn =>
      refine events (by rw [hp]) ?_
      rw [hconn, TcpConnection.shutdownInLoop_eq]
      rcases hfrom with rfl | rfl <;> rfl
  | @connectEstablished p conn hcall =>
      -- The interest becomes `kReadEvent`, whatever it was.
      obtain ⟨-, rfl, hp⟩ := TcpConnection.connectEstablished_spec hcall
      have hop : (PollerOp.enableReading s.conn.channel).apply s.poller = some p := hp
      have hevents := (Poller.apply_events hop s.conn.channel).trans (if_pos rfl)
      show (p.channel s.conn.channel).isWriting = false
      rw [Channel.isWriting, hevents]
      show (Channel.kReadEvent &&& Channel.kWriteEvent != 0#32) = false
      decide
  | connectDestroyed hcall =>
      obtain ⟨-, rfl, hp⟩ := TcpConnection.connectDestroyed_spec hcall
      exact Poller.isWriting_of_disableAll hp
  | handleClose hcall =>
      obtain ⟨-, rfl, hp⟩ := TcpConnection.handleClose_spec hcall
      exact Poller.isWriting_of_disableAll hp
  | connectDestroyedRemove hcall => exact events (Poller.removeChannel_events hcall _) rfl
  | handleRead hcall => exact handleRead_not_isWriting hidle hcall
  | event => exact events (by rw [Poller.setRevents, Poller.setChannel_self]) rfl
  | @dispatch revents readv write after hcall =>
      have hidle' : s.conn.isWriting (s.poller.setRevents s.conn.channel revents) = false := by
        rw [TcpConnection.isWriting, Poller.setRevents, Poller.setChannel_self]
        exact hidle
      exact handleRead_not_isWriting hidle' hcall
  | handleWrite hcall =>
      rw [TcpConnection.handleWrite_of_not_isWriting hidle] at hcall
      cases hcall
      exact hidle
  | input => exact hidle
  | other hcall =>
      exact events ((Poller.apply_events hcall s.conn.channel).trans
        (if_neg (Ne.symm hlegal.1))) rfl

/-- After a half-close the channel is not writing. -/
theorem not_isWriting_of_halfCloses (h : s.StreamInv) (hhalf : s.HalfCloses a)
    (hlegal : s.Legal a) (hstep : s.step a = some s') :
    s'.conn.isWriting s'.poller = false := by
  cases a with
  | shutdown => exact not_isWriting_step h hhalf.2 rfl hlegal hstep
  | shutdownInLoop => exact not_isWriting_step h hhalf rfl hlegal hstep
  | runFunctor result =>
      refine not_isWriting_step h hhalf.2 ?_ hlegal hstep
      obtain ⟨rest, hpending⟩ := List.head?_eq_some_iff.mp hhalf.1
      simp [executes, hpending]
  | handleWrite result =>
      obtain ⟨hw, hpos, hall, -⟩ := hhalf
      obtain ⟨⟨p, conn⟩, hwrite, rfl⟩ := Option.map_eq_some_iff.mp hstep
      obtain ⟨b, -, hcontent, hp, rfl⟩ := TcpConnection.handleWrite_spec h.wf hlegal hw hwrite
      have hnil : b.content = [] := by
        rw [hcontent]
        exact List.drop_eq_nil_of_le hall
      -- The backlog went out, so `handleWrite` turned the interest off before.
      rw [if_pos ⟨hpos, hnil⟩] at hp
      exact Poller.isWriting_of_disableWriting hp
  | _ => exact hhalf.elim

/-! ### Runs -/

/-- `shutdownInLoop` is private. `shutdown` and `handleWrite` call it. -/
def isPublic : ConnectionAction → Bool
  | .shutdownInLoop => false
  | _ => true

/-- The machine without bare calls of `shutdownInLoop`. -/
def publicMachine : Machine ConnectionRun ConnectionAction :=
  connectionMachine.restrict fun _ a => isPublic a

instance (s : ConnectionRun) (a : ConnectionAction) : Decidable (publicMachine.legal s a) :=
  inferInstanceAs (Decidable ((connectionMachine.restrict _).legal s a))

/-- What runs keep whose half-closes find no send on its way. -/
structure HalfInv (s : ConnectionRun) : Prop where
  stream : s.StreamInv
  order : s.OrderInv
  asks : s.AskInv
  silent : s.NoWriteAfterHalfClose
  ending : s.HalfClosed → s.Ending
  idle : s.HalfClosed → s.conn.isWriting s.poller = false

/-- A half-close of a user comes after the change of the state. -/
theorem ending_of_halfCloses (h : s.HalfInv) (hpublic : isPublic a)
    (hhalf : s.HalfCloses a) (hlegal : s.Legal a) (hstep : s.step a = some s') : s'.Ending := by
  cases a with
  | shutdown =>
      rw [step, if_pos hhalf.1, Option.some.injEq] at hstep
      left
      rw [← hstep, TcpConnection.shutdownInLoop_eq]
      rfl
  | runFunctor result =>
      have hasked : s.Asked := Or.inl (List.mem_of_head? hhalf.1)
      exact (h.asks hasked).step h.stream hlegal hstep
  | handleWrite result =>
      have hending : s.Ending := Or.inl hhalf.2.2.2
      exact hending.step h.stream hlegal hstep
  | shutdownInLoop => cases hpublic
  | _ => exact hhalf.elim

/-- After a half-close no step writes. -/
theorem HalfInv.writeCalls_eq_nil (h : s.HalfInv) (hhalf : s.HalfClosed) :
    s.writeCalls a = [] := by
  have hexec := (h.silent.2 hhalf).executes_eq_none (a := a) (h.ending hhalf)
  simp only [writeCalls, hexec, h.idle hhalf]
  cases a <;> simp

/-- Every step with the sends first keeps it. -/
theorem HalfInv.step (h : s.HalfInv) (hlegal : s.Legal a) (hpublic : isPublic a)
    (hfirst : s.SendsFirst a) (hstep : s.step a = some s') : s'.HalfInv := by
  obtain ⟨hstream, horder⟩ := step_stream h.stream h.order hlegal hstep
  have hcalls := step_calls h.stream hlegal hstep
  have hasks := askInv_step h.asks h.stream hlegal hstep
  have hends : ∀ call ∈ (if s.HalfCloses a then [SocketCall.shutdownWrite] else []),
      call = .shutdownWrite := by
    intro call hcall
    split at hcall
    · exact List.mem_singleton.mp hcall
    · cases hcall
  by_cases hhalf : s.HalfClosed
  · -- The end was sent before: nothing is written any more.
    have hnone := h.silent.2 hhalf
    have hending := h.ending hhalf
    refine ⟨hstream, horder, hasks, ⟨?_, fun _ => hnone.step h.stream hending hstep⟩,
      fun _ => hending.step h.stream hlegal hstep, fun _ => ?_⟩
    · rw [hcalls, h.writeCalls_eq_nil hhalf, List.append_nil]
      exact h.silent.1.append hends
    · exact not_isWriting_step h.stream (h.idle hhalf) (hnone.executes_eq_none hending) hlegal
        hstep
  · have hnew : s'.HalfClosed → s.HalfCloses a := fun hhalf' =>
      ((halfClosed_step_iff h.stream hlegal hstep).mp hhalf').resolve_left hhalf
    have hopen : .shutdownWrite ∉ s.conn.socket.calls ++ s.writeCalls a := by
      rw [List.mem_append, not_or]
      exact ⟨hhalf, shutdownWrite_not_mem s a⟩
    refine ⟨hstream, horder, hasks, ⟨?_, fun hhalf' => ?_⟩, fun hhalf' => ?_, fun hhalf' => ?_⟩
    · rw [hcalls]
      exact (WritesFirst.of_not_mem hopen).append hends
    · exact (noSendWaits_iff_of_halfCloses h.stream (hnew hhalf') hstep).mpr
        (hfirst (hnew hhalf'))
    · exact ending_of_halfCloses h hpublic (hnew hhalf') hlegal hstep
    · exact not_isWriting_of_halfCloses h.stream (hnew hhalf') hlegal hstep

theorem new_halfInv (p : Poller) (c : ChannelPtr) (sockfd : Int) : (new p c sockfd).HalfInv := by
  have hopen : ¬ (new p c sockfd).HalfClosed := by
    intro hmem
    cases hmem
  refine ⟨new_streamInv p c sockfd, new_orderInv p c sockfd, ?_,
    ⟨List.Pairwise.nil, fun hhalf => absurd hhalf hopen⟩, fun hhalf => absurd hhalf hopen,
    fun hhalf => absurd hhalf hopen⟩
  rintro (hmem | ⟨t, ht⟩)
  · cases hmem
  · cases ht

/-- No write comes after the half-close. In every run of a connection, over any table, with
calls of `send` and `shutdown` from the loop thread and any number of other threads and any
results of `::write`, the following are the same:

- in every state no `::write` was called after a `shutdownWrite`, and after a `shutdownWrite`
  no send that found `kConnected` is still in the queue or in the hands of a thread;
- every step that calls `shutdownWrite` finds no such send. -/
theorem writesFirst_iff (p : Poller) (c : ChannelPtr) (sockfd : Int)
    (as : List ConnectionAction) (s : ConnectionRun)
    (hrun : publicMachine.Run (new p c sockfd) as s) :
    publicMachine.Throughout (new p c sockfd) as NoWriteAfterHalfClose ↔
      publicMachine.EveryStep (new p c sockfd) as SendsFirst := by
  refine Machine.throughout_iff_of_restrict (I := HalfInv) (new_halfInv p c sockfd) ?_
    (fun s hs => hs.silent) ?_ hrun
  · intro s a s' h hlegal hfirst hstep
    exact h.step hlegal.1 hlegal.2 hfirst hstep
  · intro s a s' h hlegal hstep hsilent hhalf
    have hhalf' : s'.HalfClosed := (halfClosed_step_iff h.stream hlegal.1 hstep).mpr (Or.inr hhalf)
    exact (noSendWaits_iff_of_halfCloses h.stream hhalf hstep).mp (hsilent.2 hhalf')

/-- The theorem at a run whose message from another thread is written before the
shutdown. -/
theorem writesFirst_iff_served :
    ∃ s, publicMachine.Run (new (Poller.new fun _ => Channel.new 0) 0 3)
        [.connectEstablished, .sendFrom 0 [1], .resume 0, .runFunctor (.ok 1), .shutdown] s ∧
      s.conn.socket.calls = [.write [1] (.ok 1), .shutdownWrite] ∧
      (publicMachine.Throughout (new (Poller.new fun _ => Channel.new 0) 0 3)
          [.connectEstablished, .sendFrom 0 [1], .resume 0, .runFunctor (.ok 1), .shutdown]
          NoWriteAfterHalfClose ↔
        publicMachine.EveryStep (new (Poller.new fun _ => Channel.new 0) 0 3)
          [.connectEstablished, .sendFrom 0 [1], .resume 0, .runFunctor (.ok 1), .shutdown]
          SendsFirst) := by
  obtain ⟨s, hrun, hcalls⟩ := Machine.exists_run (M := publicMachine)
    (P := fun s => s.conn.socket.calls = [.write [1] (.ok 1), .shutdownWrite])
    (new (Poller.new fun _ => Channel.new 0) 0 3)
    [.connectEstablished, .sendFrom 0 [1], .resume 0, .runFunctor (.ok 1), .shutdown]
    (by decide +kernel)
  exact ⟨s, hrun, hcalls, writesFirst_iff _ 0 3 _ s hrun⟩

/-- A message that another thread sent before a shutdown of the loop thread is written after
the end of the stream. -/
theorem not_writesFirst :
    ¬ ∀ (p : Poller) (c : ChannelPtr) (sockfd : Int) (as : List ConnectionAction) s,
      publicMachine.Run (new p c sockfd) as s → WritesFirst s.conn.socket.calls := by
  intro hall
  obtain ⟨s, hrun, hwrites⟩ := Machine.exists_run (M := publicMachine)
    (P := fun s => ¬ WritesFirst s.conn.socket.calls)
    (new (Poller.new fun _ => Channel.new 0) 0 3)
    [.connectEstablished, .sendFrom 0 [1], .shutdown, .resume 0, .runFunctor (.error 32)]
    (by decide +kernel)
  exact hwrites (hall _ 0 3 _ s hrun)

end ConnectionRun

end SecondGear
