import SecondGear.Proofs.ConnectionSteps
import SecondGear.Proofs.PollerCalls

/-!
# `SecondGear.Proofs.Interest`: what an open connection is polled for

From `connectEstablished` to the first `handleClose` or `connectDestroyed` the connection is
`Open`: its channel is registered, and it asks for `POLLOUT` exactly while bytes wait in the
output buffer. `Open.step_executes` and `Open.step_other` say what a step can do to the
interest, to the entry of the table and to the backlog.

`enableWriting` replaces the read interest, and the constructor installs no write callback.
So both of these hold in a run exactly when every executed `sendInLoop` gets its whole
message written at once (`TakenWhole`):

* `stays_readable_iff`: the channel and its entry ask for input (`not_stays_readable`);
* `backlog_drains_iff`: a backlog is polled for and drained by `handleEvent`
  (`not_backlog_drains`). A backlog is always polled for, and no poll result drains it.
-/

set_option autoImplicit false

namespace SecondGear

open SecondGear.Lib

namespace ConnectionRun

variable {s s' : ConnectionRun}

/-- The interest of the connection's channel. -/
def events (s : ConnectionRun) : Events := (s.poller.channel s.conn.channel).events

/-- The entry of the connection's channel. -/
def entry (s : ConnectionRun) : Option PollFd := s.poller.entry s.conn.channel

/-- The bytes that wait in the output buffer. -/
def backlog (s : ConnectionRun) : List Byte := s.conn.outputBuffer.content

/-- The connection is in use. -/
structure Open (s : ConnectionRun) : Prop where
  table : s.poller.Table
  registered : s.poller.Registered s.conn.channel
  fd : (s.poller.channel s.conn.channel).fd = s.conn.socket.sockfd
  reads : (s.poller.channel s.conn.channel).ReadsOnly
  established : s.conn.state ≠ .kConnecting
  wf : s.conn.outputBuffer.Wf
  /-- write interest is on exactly while bytes wait -/
  writing : s.events = Channel.kWriteEvent ↔ s.backlog ≠ []

/-- A step that changes neither the interest nor the backlog. -/
structure Quiet (s s' : ConnectionRun) : Prop where
  events : s'.events = s.events
  entry : s'.entry = s.entry
  backlog : s'.backlog = s.backlog

/-- What an executed `sendInLoop` does: the part that was not written joins the backlog, and
the first such part turns the write interest on. The sign of the entry stays. -/
structure Sent (s s' : ConnectionRun) (message : List Byte) (result : WriteResult) : Prop where
  backlog : s'.backlog = s.backlog ++ message.drop (s.conn.nwrote s.poller result)
  turnsOn : s.conn.nwrote s.poller result < message.length → s.events ≠ Channel.kWriteEvent →
    s'.events = Channel.kWriteEvent ∧
      ∃ pfd pfd', s.entry = some pfd ∧ s'.entry = some pfd' ∧ pfd'.fd = pfd.fd
  stays : ¬ (s.conn.nwrote s.poller result < message.length ∧
    s.events ≠ Channel.kWriteEvent) → s'.events = s.events ∧ s'.entry = s.entry

namespace Open

/-- The interest is one of the masks. -/
theorem mask (h : s.Open) : Channel.HasMask s.events := h.table.mask _

theorem isWriting_iff (h : s.Open) :
    s.conn.isWriting s.poller ↔ s.events = Channel.kWriteEvent :=
  Channel.isWriting_iff h.mask

theorem isWriting_eq_false_iff (h : s.Open) :
    s.conn.isWriting s.poller = false ↔ s.events ≠ Channel.kWriteEvent := by
  rw [← Bool.not_eq_true, h.isWriting_iff]

/-- The entry of the channel describes it. -/
theorem exists_entry (h : s.Open) :
    ∃ pfd, s.entry = some pfd ∧ pfd.IsFor (s.poller.channel s.conn.channel) :=
  (h.table.entry _ h.registered).2

/-- Without a backlog `sendInLoop` writes directly. -/
theorem nwrote_eq (h : s.Open) (hbacklog : s.backlog = []) (result : WriteResult) :
    s.conn.nwrote s.poller result = result.taken := by
  have hempty : s.conn.outputBuffer.readableBytes = 0 :=
    h.wf.readableBytes_eq_zero.mpr hbacklog
  have hidle : s.conn.isWriting s.poller = false :=
    h.isWriting_eq_false_iff.mpr (h.writing.not.mpr (not_not.mpr hbacklog))
  simp [TcpConnection.nwrote, TcpConnection.writesDirectly, hempty, hidle]

/-! ### What keeps an open connection open -/

/-- A new connection over the same table. -/
theorem of_conn (h : s.Open) (s' : ConnectionRun) (hp : s'.poller = s.poller)
    (hchannel : s'.conn.channel = s.conn.channel)
    (hsockfd : s'.conn.socket.sockfd = s.conn.socket.sockfd)
    (hstate : s'.conn.state ≠ .kConnecting) (hwf : s'.conn.outputBuffer.Wf)
    (hwriting : s.events = Channel.kWriteEvent ↔ s'.backlog ≠ []) :
    s'.Open ∧ s'.events = s.events ∧ s'.entry = s.entry := by
  have hevents : s'.events = s.events := by rw [events, events, hp, hchannel]
  have hentry : s'.entry = s.entry := by rw [entry, entry, hp, hchannel]
  refine ⟨⟨?_, ?_, ?_, ?_, hstate, hwf, ?_⟩, hevents, hentry⟩
  · rw [hp]
    exact h.table
  · rw [hp, hchannel]
    exact h.registered
  · rw [hp, hchannel, hsockfd]
    exact h.fd
  · rw [hp, hchannel]
    exact h.reads
  · rw [hevents]
    exact hwriting

/-- A step that leaves the table and the output buffer alone. -/
theorem of_quiet (h : s.Open) (s' : ConnectionRun) (hp : s'.poller = s.poller)
    (hchannel : s'.conn.channel = s.conn.channel)
    (hsockfd : s'.conn.socket.sockfd = s.conn.socket.sockfd)
    (hstate : s'.conn.state ≠ .kConnecting)
    (hbuffer : s'.conn.outputBuffer = s.conn.outputBuffer) : s'.Open ∧ Quiet s s' := by
  have hbacklog : s'.backlog = s.backlog := by rw [backlog, backlog, hbuffer]
  obtain ⟨hopen, hevents, hentry⟩ := h.of_conn s' hp hchannel hsockfd hstate
    (by rw [hbuffer]; exact h.wf) (by rw [hbacklog]; exact h.writing)
  exact ⟨hopen, hevents, hentry, hbacklog⟩

/-- A call on another channel. -/
theorem of_other (h : s.Open) {op : PollerOp} {p : Poller} (hne : op.target ≠ s.conn.channel)
    (hnew : (s.poller.channel op.target).index < 0 →
      0 ≤ (s.poller.channel op.target).fd ∧
        s.poller.channels.lookup (s.poller.channel op.target).fd = none)
    (hp : op.apply s.poller = some p) :
    ({ s with poller := p } : ConnectionRun).Open ∧ Quiet s { s with poller := p } := by
  obtain ⟨htable, hframe⟩ := h.table.apply hnew hp
  have hevents : ({ s with poller := p } : ConnectionRun).events = s.events :=
    hframe.events (Ne.symm hne)
  have hentry : ({ s with poller := p } : ConnectionRun).entry = s.entry :=
    hframe.entry _ (Ne.symm hne) h.registered
  refine ⟨⟨htable, (hframe.registered _ (Ne.symm hne)).mpr h.registered, ?_, ?_,
    h.established, h.wf, ?_⟩, ⟨hevents, hentry, rfl⟩⟩
  · exact (hframe.fd (Ne.symm hne)).trans h.fd
  · exact (Poller.SameObjects.of_apply hp).readsOnly h.reads
  · rw [hevents]
    exact h.writing

/-- An update of the connection's own channel. -/
theorem own_update (h : s.Open) {e : Events} (he : Channel.HasMask e) {p : Poller}
    (hp : (s.poller.setEvents s.conn.channel e).updateChannel s.conn.channel = some p) :
    Poller.Updated s.poller p s.conn.channel e ∧
      ∃ pfd pfd', s.entry = some pfd ∧ p.entry s.conn.channel = some pfd' ∧
        pfd'.fd = if e = Channel.kNoneEvent then -s.conn.socket.sockfd - 1 else pfd.fd := by
  obtain ⟨p₁, pfd, pfd', hp₁, hup, hpfd, hpfd', hfd⟩ :=
    h.table.update_registered h.registered he
  rw [hp, Option.some.injEq] at hp₁
  subst hp₁
  rw [h.fd] at hfd
  exact ⟨hup, pfd, pfd', hpfd, hpfd', hfd⟩

/-- The connection after an update of its own channel. -/
theorem of_update (h : s.Open) (s' : ConnectionRun) {e : Events}
    (hup : Poller.Updated s.poller s'.poller s.conn.channel e)
    (hreads : Poller.SameObjects s.poller s'.poller)
    (hchannel : s'.conn.channel = s.conn.channel)
    (hsockfd : s'.conn.socket.sockfd = s.conn.socket.sockfd)
    (hstate : s'.conn.state ≠ .kConnecting) (hwf : s'.conn.outputBuffer.Wf)
    (hwriting : e = Channel.kWriteEvent ↔ s'.backlog ≠ []) : s'.Open ∧ s'.events = e := by
  have hevents : s'.events = e := by
    rw [events, hchannel]
    exact hup.events_self
  refine ⟨⟨hup.table, ?_, ?_, ?_, hstate, hwf, ?_⟩, hevents⟩
  · rw [hchannel]
    exact hup.registered
  · rw [hchannel, hup.fd_self, hsockfd]
    exact h.fd
  · rw [hchannel]
    exact hreads.readsOnly h.reads
  · rw [hevents]
    exact hwriting

/-! ### The methods -/

/-- `sendInLoop` on an open connection. -/
theorem sendInLoop (h : s.Open) {message : List Byte} {result : WriteResult}
    (hsend : s.conn.sendInLoop s.poller message result = some (s'.poller, s'.conn)) :
    s'.Open ∧ Sent s s' message result := by
  obtain ⟨b, hb, hcontent, hconn, hp⟩ := TcpConnection.sendInLoop_spec h.wf hsend
  have hchannel : s'.conn.channel = s.conn.channel := by rw [hconn]
  have hstate : s'.conn.state ≠ .kConnecting := by
    rw [hconn]
    exact h.established
  have hsockfd : s'.conn.socket.sockfd = s.conn.socket.sockfd := by
    rw [hconn]
    show Socket.sockfd (if _ then _ else _) = _
    split <;> rfl
  have hbuffer : s'.conn.outputBuffer = b := by rw [hconn]
  have hbacklog : s'.backlog = b.content := by rw [backlog, hbuffer]
  rw [← hbuffer] at hb
  rw [← hbacklog] at hcontent
  by_cases hon : s.conn.nwrote s.poller result < message.length ∧
      s.events ≠ Channel.kWriteEvent
  · -- The first bytes that wait: `enableWriting` is called.
    rw [if_pos ⟨hon.1, h.isWriting_eq_false_iff.mpr hon.2⟩] at hp
    have hrest : s'.backlog ≠ [] := by
      rw [hcontent]
      intro hnil
      have hlen := congrArg List.length (List.append_eq_nil_iff.mp hnil).2
      rw [List.length_drop, List.length_nil] at hlen
      omega
    obtain ⟨hup, pfd, pfd', hpfd, hpfd', hfd⟩ := h.own_update (Or.inr (Or.inr rfl)) hp
    obtain ⟨hopen, hevents⟩ := h.of_update _ hup
      (.of_apply (show (PollerOp.enableWriting _).apply s.poller = some s'.poller from hp))
      hchannel hsockfd hstate hb ⟨fun _ => hrest, fun _ => rfl⟩
    have hentry : s'.entry = some pfd' := by
      rw [entry, hchannel]
      exact hpfd'
    exact ⟨hopen, hcontent, fun _ _ => ⟨hevents, pfd, pfd', hpfd, hentry, hfd⟩,
      fun hstays => absurd hon hstays⟩
  · -- Everything was written, or the interest is on already.
    rw [if_neg (fun hboth => hon ⟨hboth.1, h.isWriting_eq_false_iff.mp hboth.2⟩)] at hp
    have hwriting : s.events = Channel.kWriteEvent ↔ s'.backlog ≠ [] := by
      rw [hcontent]
      by_cases hrest : s.conn.nwrote s.poller result < message.length
      · have hon' : s.events = Channel.kWriteEvent := not_not.mp fun hne => hon ⟨hrest, hne⟩
        have hbacklog : s.conn.outputBuffer.content ≠ [] := h.writing.mp hon'
        simp [hon', hbacklog]
      · have hnil : message.drop (s.conn.nwrote s.poller result) = [] :=
          List.drop_eq_nil_of_le (Nat.le_of_not_lt hrest)
        rw [hnil, List.append_nil]
        exact h.writing
    obtain ⟨hopen, hevents, hentry⟩ :=
      h.of_conn s' hp hchannel hsockfd hstate hb hwriting
    exact ⟨hopen, hcontent, fun hrest hne => absurd ⟨hrest, hne⟩ hon,
      fun _ => ⟨hevents, hentry⟩⟩

/-- `handleWrite` on an open connection. -/
theorem handleWrite (h : s.Open) {result : WriteResult} {p : Poller} {conn : TcpConnection}
    (hlen : result.taken ≤ s.conn.outputBuffer.readableBytes)
    (hwrite : s.conn.handleWrite s.poller result = some (p, conn)) :
    ({ s with poller := p, conn := conn } : ConnectionRun).Open ∧
      (s.events = Channel.kWriteEvent ∨ Quiet s { s with poller := p, conn := conn }) := by
  by_cases hw : s.events = Channel.kWriteEvent
  · refine ⟨?_, Or.inl hw⟩
    obtain ⟨b, hb, hcontent, hp, rfl⟩ :=
      TcpConnection.handleWrite_spec h.wf hlen (h.isWriting_iff.mpr hw) hwrite
    by_cases hdone : 0 < result.taken ∧ b.content = []
    · -- Drained: `disableWriting` leaves no interest at all.
      rw [if_pos hdone] at hp
      have hnone : s.events &&& ~~~Channel.kWriteEvent = Channel.kNoneEvent := by
        rw [hw]
        decide
      have hcall : (s.poller.setEvents s.conn.channel Channel.kNoneEvent).updateChannel
          s.conn.channel = some p := by
        rw [← hnone]
        exact hp
      obtain ⟨hup, -⟩ := h.own_update (Or.inl rfl) hcall
      refine And.left (h.of_update _ hup
        (.of_apply (show (PollerOp.disableWriting _).apply s.poller = some p from hp)) rfl ?_
        h.established hb ?_)
      · show Socket.sockfd (if _ then _ else _) = _
        split <;> rfl
      · show Channel.kNoneEvent = Channel.kWriteEvent ↔ b.content ≠ []
        simp [hdone.2, Channel.kNoneEvent, Channel.kWriteEvent, POLLOUT]
    · rw [if_neg hdone] at hp
      have hrest : b.content ≠ [] := by
        intro hnil
        by_cases hpos : 0 < result.taken
        · exact hdone ⟨hpos, hnil⟩
        · rw [Nat.eq_zero_of_not_pos hpos, List.drop_zero] at hcontent
          exact h.writing.mp hw (hcontent.symm.trans hnil)
      refine And.left
        (h.of_conn _ hp rfl ?_ h.established hb ⟨fun _ => hrest, fun _ => hw⟩)
      show Socket.sockfd (if _ then _ else _) = _
      split <;> rfl
  · rw [TcpConnection.handleWrite_of_not_isWriting (h.isWriting_eq_false_iff.mpr hw)] at hwrite
    cases hwrite
    obtain ⟨hopen, hquiet⟩ := h.of_quiet s rfl rfl rfl h.established rfl
    exact ⟨hopen, Or.inr hquiet⟩

/-- `shutdownInLoop` on an open connection, whatever state it was set to. -/
theorem shutdownInLoop (h : s.Open) (s' : ConnectionRun) {conn : TcpConnection}
    (hp : s'.poller = s.poller) (hconn : s'.conn = conn.shutdownInLoop s.poller)
    (hchannel : conn.channel = s.conn.channel) (hsocket : conn.socket = s.conn.socket)
    (hstate : conn.state ≠ .kConnecting)
    (hbuffer : conn.outputBuffer = s.conn.outputBuffer) : s'.Open ∧ Quiet s s' := by
  rw [TcpConnection.shutdownInLoop_eq] at hconn
  refine h.of_quiet s' hp ?_ ?_ ?_ ?_
  · rw [hconn]
    exact hchannel
  · rw [hconn, ← hsocket]
    show Socket.sockfd (if _ then _ else _) = _
    split <;> rfl
  · rw [hconn]
    exact hstate
  · rw [hconn]
    exact hbuffer

/-- `handleRead` closes an open connection or leaves it as it is. -/
theorem handleRead (h : s.Open) {readv : ReadvResult}
    {after : Poller × TcpConnection × Option Callback}
    (hread : s.conn.handleRead s.poller readv = some after)
    (hopen : (s.afterHandler after).closed = false) :
    (s.afterHandler after).Open ∧ Quiet s (s.afterHandler after) := by
  obtain ⟨p, conn, callback⟩ := after
  obtain ⟨b, n, errno, -, rfl, hcases⟩ := TcpConnection.handleRead_spec hread
  rcases hcases with ⟨-, -, rfl⟩ | ⟨-, rfl, -⟩ | ⟨-, -, rfl⟩
  · exact h.of_quiet _ rfl rfl rfl h.established rfl
  · simp [afterHandler] at hopen
  · exact h.of_quiet _ rfl rfl rfl h.established rfl

/-- The poll result of the connection's own channel. -/
theorem setRevents (h : s.Open) (revents : Events) :
    ({ s with poller := s.poller.setRevents s.conn.channel revents } : ConnectionRun).Open ∧
      Quiet s { s with poller := s.poller.setRevents s.conn.channel revents } := by
  obtain ⟨htable, hreg, hentry⟩ := h.table.setRevents s.conn.channel revents
  have hself : (s.poller.setRevents s.conn.channel revents).channel s.conn.channel
      = { s.poller.channel s.conn.channel with revents := revents } :=
    Poller.setChannel_self _ _ _
  have hevents : ConnectionRun.events
      { s with poller := s.poller.setRevents s.conn.channel revents } = s.events := by
    rw [events, hself]
    rfl
  refine ⟨⟨htable, (hreg _).mpr h.registered, ?_, ?_, h.established, h.wf, ?_⟩,
    ⟨hevents, hentry, rfl⟩⟩
  · show ((s.poller.setRevents s.conn.channel revents).channel s.conn.channel).fd = _
    rw [hself]
    exact h.fd
  · show ((s.poller.setRevents s.conn.channel revents).channel s.conn.channel).ReadsOnly
    rw [hself]
    exact ⟨h.reads.read, h.reads.write, h.reads.error, h.reads.close⟩
  · rw [hevents]
    exact h.writing

end Open

/-! ### Every step -/

theorem Quiet.trans {s'' : ConnectionRun} (h : Quiet s s') (h' : Quiet s' s'') :
    Quiet s s'' :=
  ⟨h'.events.trans h.events, h'.entry.trans h.entry, h'.backlog.trans h.backlog⟩

/-- Callbacks do not open what was closed. -/
theorem closed_of_runHandlers {readv : ReadvResult} {write : WriteResult} (hs : List Handler) :
    ∀ {s s' : ConnectionRun}, s.runHandlers readv write hs = some s' → s.closed = true →
      s'.closed = true := by
  induction hs with
  | nil =>
      intro s s' h hclosed
      cases h
      exact hclosed
  | cons handler hs ih =>
      intro s s' h hclosed
      obtain ⟨⟨p, conn, callback⟩, -, h⟩ := bind_eq_some_iff.mp h
      exact ih h (by simp [afterHandler, hclosed])

/-- A closed connection stays closed. -/
theorem closed_of_step {a : ConnectionAction} (hstep : s.step a = some s')
    (hclosed : s.closed = true) : s'.closed = true := by
  cases a with
  | send message result =>
      rw [step] at hstep
      split at hstep
      · obtain ⟨⟨p, conn⟩, -, rfl⟩ := Option.map_eq_some_iff.mp hstep
        exact hclosed
      · cases hstep
        exact hclosed
  | runFunctor result =>
      rw [step] at hstep
      split at hstep
      · cases hstep
        exact hclosed
      · obtain ⟨⟨p, conn⟩, -, rfl⟩ := Option.map_eq_some_iff.mp hstep
        exact hclosed
      · cases hstep
        exact hclosed
  | shutdown | sendFrom t message | shutdownFrom t | resume t =>
      rw [step] at hstep
      split at hstep <;> cases hstep <;> exact hclosed
  | handleEvent revents readv write => exact closed_of_runHandlers _ hstep hclosed
  | handleRead result =>
      obtain ⟨⟨p, conn, callback⟩, -, rfl⟩ := Option.map_eq_some_iff.mp hstep
      simp [afterHandler, hclosed]
  | shutdownInLoop =>
      cases hstep
      exact hclosed
  | connectEstablished | handleWrite result | handleClose | connectDestroyed
  | connectDestroyedRemove | input op | other op =>
      obtain ⟨x, -, rfl⟩ := Option.map_eq_some_iff.mp hstep
      first | exact hclosed | rfl

/-- A step that executes `sendInLoop` on an open connection. -/
theorem Open.step_executes (h : s.Open) {a : ConnectionAction} {message : List Byte}
    {result : WriteResult} (hexec : s.executes a = some (message, result))
    (hstep : s.step a = some s') :
    s'.closed = s.closed ∧ s'.Open ∧ Sent s s' message result := by
  cases s.step_effect h.reads hstep with
  | sendInLoop hexec' _ hclosed hcall =>
      rw [hexec, Option.some.injEq] at hexec'
      cases hexec'
      exact ⟨hclosed, h.sendInLoop hcall⟩
  | calls hexec' | shutdownInLoop hexec' =>
      rw [hexec'] at hexec
      cases hexec
  | _ => cases hexec

/-- Any other step on an open connection closes it, or leaves its interest and its backlog
alone, or is `handleWrite` on a writing channel. -/
theorem Open.step_other (h : s.Open) {a : ConnectionAction} (hexec : s.executes a = none)
    (hlegal : s.Legal a) (hstep : s.step a = some s') (hopen' : s'.closed = false) :
    s'.Open ∧ ((∃ result, a = .handleWrite result ∧ s.events = Channel.kWriteEvent) ∨
      Quiet s s') := by
  have quiet : s'.Open ∧ Quiet s s' → s'.Open ∧
      ((∃ result, a = .handleWrite result ∧ s.events = Channel.kWriteEvent) ∨ Quiet s s') :=
    And.imp_right Or.inr
  cases s.step_effect h.reads hstep with
  | calls _ _ _ hp hconn =>
      exact quiet (h.of_quiet _ hp (by rw [hconn]) (by rw [hconn])
        (by rw [hconn]; exact h.established) (by rw [hconn]))
  | disconnecting hp hconn =>
      exact quiet (h.of_quiet _ hp (by rw [hconn]; rfl) (by rw [hconn]; rfl)
        (by simp [hconn, TcpConnection.setState]) (by rw [hconn]; rfl))
  | sendInLoop hexec' =>
      rw [hexec] at hexec'
      cases hexec'
  | shutdownInLoop _ _ hfrom hp hconn =>
      rcases hfrom with rfl | rfl
      · exact quiet (h.shutdownInLoop _ hp hconn rfl rfl h.established rfl)
      · exact quiet (h.shutdownInLoop _ hp hconn rfl rfl (by simp [TcpConnection.setState]) rfl)
  | connectEstablished hcall =>
      exact absurd (TcpConnection.connectEstablished_spec hcall).1 h.established
  | handleRead hcall => exact quiet (h.handleRead hcall hopen')
  | event => exact quiet (h.setRevents _)
  | dispatch hcall =>
      obtain ⟨hset, hquiet⟩ := h.setRevents _
      obtain ⟨hopen, hquiet'⟩ := hset.handleRead hcall hopen'
      exact ⟨hopen, Or.inr (hquiet.trans hquiet')⟩
  | handleWrite hcall =>
      exact (h.handleWrite hlegal hcall).imp_right
        (Or.imp_left fun hevents => ⟨_, rfl, hevents⟩)
  | handleClose | connectDestroyed | connectDestroyedRemove => cases hopen'
  | input hcall => exact quiet (h.of_quiet _ rfl rfl rfl h.established rfl)
  | other hcall => exact quiet (h.of_other hlegal.1 hlegal.2 hcall)

/-! ### The connection after `connectEstablished` -/

/-- A consistent table, an address that it does not hold, an open descriptor that it does
not hold. -/
structure Fresh (p : Poller) (c : ChannelPtr) (sockfd : Int) : Prop where
  table : p.Table
  object : ∀ fd, p.channels.lookup fd ≠ some c
  nonneg : 0 ≤ sockfd
  free : p.channels.lookup sockfd = none

/-- The entry is switched on. -/
def On (s : ConnectionRun) : Prop := ∃ pfd, s.entry = some pfd ∧ 0 ≤ pfd.fd

theorem Quiet.on (h : Quiet s s') (hon : s.On) : s'.On := by
  rw [On, h.entry]
  exact hon

theorem Sent.on {message : List Byte} {result : WriteResult} (h : Sent s s' message result)
    (hon : s.On) : s'.On := by
  by_cases hturns : s.conn.nwrote s.poller result < message.length ∧
      s.events ≠ Channel.kWriteEvent
  · obtain ⟨-, pfd, pfd', hpfd, hpfd', hfd⟩ := h.turnsOn hturns.1 hturns.2
    obtain ⟨pfd₀, hpfd₀, hnonneg⟩ := hon
    rw [hpfd, Option.some.injEq] at hpfd₀
    exact ⟨pfd', hpfd', by rw [hfd, hpfd₀]; exact hnonneg⟩
  · rw [On, (h.stays hturns).2]
    exact hon

/-- `connectEstablished` opens the connection, for reading. -/
theorem open_of_established {p : Poller} {c : ChannelPtr} {sockfd : Int}
    (hfresh : Fresh p c sockfd) {s₀ : ConnectionRun}
    (hest : (new p c sockfd).step .connectEstablished = some s₀) :
    s₀.Open ∧ s₀.closed = false ∧ s₀.events = Channel.kReadEvent ∧ s₀.backlog = [] ∧ s₀.On := by
  obtain ⟨htable, hreg⟩ := hfresh.table.setChannel hfresh.object
    (show Channel.HasMask ((Channel.new sockfd).setReadCallBack .handleRead).events
      from Or.inl rfl)
  -- The constructor binds the descriptor and the read callback, and updates nothing.
  have hself : ((new p c sockfd).poller).channel c
      = (Channel.new sockfd).setReadCallBack .handleRead := Poller.setChannel_self p c _
  obtain ⟨⟨p₁, conn⟩, hconn, rfl⟩ := Option.map_eq_some_iff.mp hest
  obtain ⟨-, rfl, hp⟩ := TcpConnection.connectEstablished_spec hconn
  -- `enableReading` is the first update of this channel, so it appends its entry.
  obtain ⟨p₂, hp₂, hup, hentry⟩ := Poller.Table.update_new (c := c) (e := Channel.kReadEvent)
    htable (show (((new p c sockfd).poller).channel c).index < 0 by
      rw [hself]; exact Int.negSucc_lt_zero 0)
    (show 0 ≤ (((new p c sockfd).poller).channel c).fd by rw [hself]; exact hfresh.nonneg)
    (show p.channels.lookup (((new p c sockfd).poller).channel c).fd = none by
      rw [hself]; exact hfresh.free)
    (Or.inr (Or.inl rfl))
  have heq : p₁ = p₂ := Option.some.inj (hp.symm.trans hp₂)
  subst heq
  have hevents : (p₁.channel c).events = Channel.kReadEvent := hup.events_self
  refine ⟨⟨hup.table, hup.registered, ?_, ?_, ?_, Buffer.new_wf, ?_⟩, rfl, hevents,
    Buffer.new_content, _, hentry, ?_⟩
  · show (p₁.channel c).fd = sockfd
    rw [hup.fd_self]
    exact congrArg Channel.fd hself
  · exact (Poller.SameObjects.of_apply
      (show (PollerOp.enableReading _).apply _ = some p₁ from hp)).readsOnly
      (TcpConnection.new_readsOnly p c sockfd)
  · simp [TcpConnection.setState]
  · show (p₁.channel c).events = _ ↔ Buffer.new.content ≠ []
    rw [hevents, Buffer.new_content]
    simp [Channel.kReadEvent, Channel.kWriteEvent, POLLIN, POLLPRI, POLLOUT]
  · show 0 ≤ (((new p c sockfd).poller).channel c).fd
    rw [hself]
    exact hfresh.nonneg

/-- While the connection is open, every executed `sendInLoop` gets its whole message
written. -/
def TakenWhole (s : ConnectionRun) (a : ConnectionAction) : Prop :=
  s.closed = false → ∀ message result, s.executes a = some (message, result) →
    message.length ≤ result.taken

/-- The connection is open until it is closed. -/
theorem open_step {a : ConnectionAction} (h : s.closed = false → s.Open) (hlegal : s.Legal a)
    (hstep : s.step a = some s') : s'.closed = false → s'.Open := by
  intro hopen'
  have hopen : s.closed = false := by
    by_contra hclosed
    rw [closed_of_step hstep (by simpa using hclosed)] at hopen'
    cases hopen'
  cases hexec : s.executes a with
  | none => exact ((h hopen).step_other hexec hlegal hstep hopen').1
  | some sent => exact ((h hopen).step_executes hexec hstep).2.1

/-! ### Read interest -/

/-- The connection hears its peer: its channel asks for input, and so does its entry, under
the descriptor of the socket. -/
def Readable (s : ConnectionRun) : Prop :=
  s.events &&& Channel.kReadEvent = Channel.kReadEvent ∧
    ∃ pfd, s.entry = some pfd ∧ pfd.fd = s.conn.socket.sockfd ∧
      pfd.events.signExtend 32 &&& POLLIN = POLLIN

/-- For an open connection this comes down to the mask and the sign of the entry. -/
theorem Open.readable_iff (h : s.Open) :
    s.Readable ↔ s.events = Channel.kReadEvent ∧ s.On := by
  have hfd : 0 ≤ s.conn.socket.sockfd := by
    rw [← h.fd]
    exact h.table.nonneg _ h.registered
  constructor
  · rintro ⟨hread, pfd, hpfd, hsockfd, -⟩
    refine ⟨?_, pfd, hpfd, by rw [hsockfd]; exact hfd⟩
    -- An open connection asks for one event or for none.
    rcases h.mask with hmask | hmask | hmask
    · rw [hmask] at hread
      exact absurd hread (by decide)
    · exact hmask
    · rw [hmask] at hread
      exact absurd hread (by decide)
  · rintro ⟨hread, pfd, hpfd, hon⟩
    obtain ⟨pfd', hpfd', hfor⟩ := h.exists_entry
    rw [hpfd, Option.some.injEq] at hpfd'
    subst hpfd'
    refine ⟨by rw [hread]; decide, pfd, hpfd, ?_, ?_⟩
    · rw [← h.fd]
      have hch := hfor.fd
      rw [h.fd] at hch ⊢
      omega
    · rw [hfor.events, show (s.poller.channel s.conn.channel).events = _ from hread]
      decide

/-- A step keeps the connection readable exactly if it writes its whole message. -/
theorem readable_step_iff {a : ConnectionAction} (h : s.closed = false → s.Open)
    (hP : s.closed = false → s.Readable) (hlegal : s.Legal a) (hstep : s.step a = some s') :
    (s'.closed = false → s'.Readable) ↔ TakenWhole s a := by
  cases hclosed : s.closed with
  | true =>
      have hclosed' := closed_of_step hstep hclosed
      simp [TakenWhole, hclosed, hclosed']
  | false =>
      have hopen := h hclosed
      obtain ⟨hread, hon⟩ := hopen.readable_iff.mp (hP hclosed)
      have hidle : s.events ≠ Channel.kWriteEvent := by
        rw [hread]
        decide
      cases hexec : s.executes a with
      | none =>
          -- Nothing is sent: the interest stays as it is.
          refine iff_of_true (fun hclosed' => ?_) (fun _ m r hmr => by rw [hexec] at hmr; cases hmr)
          obtain ⟨hopen', ⟨result, -, hwrite⟩ | hquiet⟩ :=
            hopen.step_other hexec hlegal hstep hclosed'
          · exact absurd hwrite hidle
          · exact hopen'.readable_iff.mpr ⟨hquiet.events.trans hread, hquiet.on hon⟩
      | some sent =>
          obtain ⟨message, result⟩ := sent
          obtain ⟨hclosed', hopen', hsent⟩ := hopen.step_executes hexec hstep
          -- A connection that reads has no backlog, so the message is written at once.
          have hbacklog : s.backlog = [] := not_not.mp (hopen.writing.not.mp hidle)
          have hn : s.conn.nwrote s.poller result = result.taken :=
            hopen.nwrote_eq hbacklog result
          have hwhole : TakenWhole s a ↔ message.length ≤ result.taken := by
            simp [TakenWhole, hclosed, hexec]
          rw [hwhole, hclosed', hclosed, hopen'.readable_iff]
          constructor
          -- A rest would turn on the write interest alone.
          · intro hread'
            by_contra hpart
            obtain ⟨hwrite, -⟩ := hsent.turnsOn (by omega) hidle
            rw [(hread' rfl).1] at hwrite
            exact absurd hwrite (by decide)
          · intro hall _
            exact ⟨((hsent.stays (fun hlt => by omega)).1).trans hread, hsent.on hon⟩

/-- An open connection asks for input throughout a run exactly when every `sendInLoop` of
the run gets its whole message written at once: `enableWriting` gives up the read
interest. -/
theorem stays_readable_iff (p : Poller) (c : ChannelPtr) (sockfd : Int)
    (hfresh : Fresh p c sockfd) (s₀ : ConnectionRun)
    (hest : (new p c sockfd).step .connectEstablished = some s₀)
    (as : List ConnectionAction) (s : ConnectionRun) (hrun : connectionMachine.Run s₀ as s) :
    connectionMachine.Throughout s₀ as (fun s => s.closed = false → s.Readable) ↔
      connectionMachine.EveryStep s₀ as TakenWhole := by
  obtain ⟨hopen, -, hread, -, hon⟩ := open_of_established hfresh hest
  exact Machine.throughout_iff_everyStep (I := fun s => s.closed = false → s.Open)
    (fun _ => hopen) (fun _ => hopen.readable_iff.mpr ⟨hread, hon⟩)
    (fun s a s' h hlegal hstep => open_step h hlegal hstep)
    (fun s a s' h hP hlegal hstep => readable_step_iff h hP hlegal hstep) hrun

/-- The first connection of an empty table. -/
theorem fresh_new : Fresh (Poller.new fun _ => Channel.new 0) 0 3 where
  table := Poller.new_table fun _ => Or.inl rfl
  object := by simp [Poller.new]
  nonneg := by decide
  free := rfl

/-- The theorem at a run with a whole write and a close. -/
theorem stays_readable_iff_whole :
    ∃ s₀, (new (Poller.new fun _ => Channel.new 0) 0 3).step .connectEstablished = some s₀ ∧
      (connectionMachine.Throughout s₀ [.send [1, 2] (.ok 2), .handleRead (.bytes [])]
          (fun s => s.closed = false → s.Readable) ↔
        connectionMachine.EveryStep s₀ [.send [1, 2] (.ok 2), .handleRead (.bytes [])]
          TakenWhole) := by
  obtain ⟨s, hrun, -⟩ := Machine.exists_run (M := connectionMachine) (P := fun _ => True)
    (new (Poller.new fun _ => Channel.new 0) 0 3)
    [.connectEstablished, .send [1, 2] (.ok 2), .handleRead (.bytes [])] (by decide +kernel)
  obtain ⟨s₀, hest, hrun'⟩ := hrun.cons_inv
  exact ⟨s₀, hest.2, stays_readable_iff _ 0 3 fresh_new s₀ hest.2 _ s hrun'⟩

/-- A partial write makes the connection deaf to its peer. -/
theorem not_stays_readable :
    ¬ ∀ (p : Poller) (c : ChannelPtr) (sockfd : Int), Fresh p c sockfd → ∀ s₀,
      (new p c sockfd).step .connectEstablished = some s₀ → ∀ as s,
      connectionMachine.Run s₀ as s → s.closed = false → s.Readable := by
  intro hall
  obtain ⟨s, hrun, hopen, hdeaf⟩ := Machine.exists_run (M := connectionMachine)
    (P := fun s => s.closed = false ∧
      s.events &&& Channel.kReadEvent ≠ Channel.kReadEvent)
    (new (Poller.new fun _ => Channel.new 0) 0 3)
    [.connectEstablished, .send [1, 2] (.ok 1)] (by decide +kernel)
  obtain ⟨s₀, hest, hrun'⟩ := hrun.cons_inv
  exact hdeaf (hall _ 0 3 fresh_new s₀ hest.2 _ s hrun' hopen).1

/-! ### Draining the backlog -/

/-- The table asks the kernel when the socket takes bytes. -/
def Polled (s : ConnectionRun) : Prop :=
  ∃ pfd, s.entry = some pfd ∧ 0 ≤ pfd.fd ∧ pfd.events.signExtend 32 &&& POLLOUT = POLLOUT

/-- A poll result with `POLLOUT` makes `handleEvent` call `handleWrite`, which offers the
whole backlog to `::write` and takes out what was written. -/
def Dispatched (s : ConnectionRun) : Prop :=
  ∀ revents, revents &&& POLLOUT ≠ 0#32 →
    .handleWrite ∈
        ((s.poller.setRevents s.conn.channel revents).channel s.conn.channel).handleEvent ∧
      ∀ n, 0 < n → n ≤ s.backlog.length → ∃ p conn,
        s.conn.handleWrite (s.poller.setRevents s.conn.channel revents) (.ok n)
            = some (p, conn) ∧
          s.conn.socket.calls ++ [.write s.backlog (.ok n)] <+: conn.socket.calls ∧
          conn.outputBuffer.content = s.backlog.drop n

/-- A backlog is polled for, and the poll result drains it. -/
def Drains (s : ConnectionRun) : Prop := s.backlog ≠ [] → s.Polled ∧ s.Dispatched

/-- The constructor installs no write callback, so no poll result calls `handleWrite`. -/
theorem Open.handleWrite_not_mem (h : s.Open) (revents : Events) : .handleWrite ∉
    ((s.poller.setRevents s.conn.channel revents).channel s.conn.channel).handleEvent := by
  rw [(h.setRevents revents).1.reads.handleEvent_eq]
  split <;> simp

/-- So the only backlog that drains is none. -/
theorem Open.drains_iff (h : s.Open) : s.Drains ↔ s.backlog = [] := by
  constructor
  · intro hdrains
    by_contra hbacklog
    have hcall := (hdrains hbacklog).2 POLLOUT (by decide)
    exact h.handleWrite_not_mem POLLOUT hcall.1
  · exact fun hnone hbacklog => absurd hnone hbacklog

/-- A backlog has its write interest in the table while its entry is on. -/
theorem Open.polled (h : s.Open) (hon : s.On) (hbacklog : s.backlog ≠ []) : s.Polled := by
  obtain ⟨pfd, hpfd, hnonneg⟩ := hon
  obtain ⟨pfd', hpfd', hfor⟩ := h.exists_entry
  rw [hpfd, Option.some.injEq] at hpfd'
  subst hpfd'
  refine ⟨pfd, hpfd, hnonneg, ?_⟩
  rw [hfor.events, show (s.poller.channel s.conn.channel).events = _ from h.writing.mpr hbacklog]
  decide

/-- A step keeps an empty backlog exactly if it writes its whole message. -/
theorem drains_step_iff {a : ConnectionAction} (h : s.closed = false → s.Open)
    (hP : s.closed = false → s.Drains) (hlegal : s.Legal a) (hstep : s.step a = some s') :
    (s'.closed = false → s'.Drains) ↔ TakenWhole s a := by
  cases hclosed : s.closed with
  | true =>
      have hclosed' := closed_of_step hstep hclosed
      simp [TakenWhole, hclosed, hclosed']
  | false =>
      have hopen := h hclosed
      have hbacklog : s.backlog = [] := hopen.drains_iff.mp (hP hclosed)
      cases hexec : s.executes a with
      | none =>
          refine iff_of_true (fun hclosed' => ?_) (fun _ m r hmr => by rw [hexec] at hmr; cases hmr)
          obtain ⟨hopen', ⟨result, -, hwrite⟩ | hquiet⟩ :=
            hopen.step_other hexec hlegal hstep hclosed'
          · exact absurd hbacklog (hopen.writing.mp hwrite)
          · exact hopen'.drains_iff.mpr (hquiet.backlog.trans hbacklog)
      | some sent =>
          obtain ⟨message, result⟩ := sent
          obtain ⟨hclosed', hopen', hsent⟩ := hopen.step_executes hexec hstep
          -- What is not taken becomes the backlog.
          have hrest : s'.backlog = message.drop result.taken := by
            rw [hsent.backlog, hbacklog, hopen.nwrote_eq hbacklog result, List.nil_append]
          have hwhole : TakenWhole s a ↔ message.length ≤ result.taken := by
            simp [TakenWhole, hclosed, hexec]
          rw [hwhole, hclosed', hclosed, hopen'.drains_iff, hrest, List.drop_eq_nil_iff]
          simp

/-- A step of the loop, which calls `handleWrite` only through `handleEvent`. -/
def ThroughDispatch (_ : ConnectionRun) (a : ConnectionAction) : Prop :=
  ∀ result, a ≠ .handleWrite result

/-- In the loop the entry of an open connection stays on. -/
theorem on_step {a : ConnectionAction} (h : s.closed = false → s.Open)
    (hP : s.closed = false → s.On) (hlegal : s.Legal a) (hloop : ThroughDispatch s a)
    (hstep : s.step a = some s') : s'.closed = false → s'.On := by
  intro hclosed'
  have hclosed : s.closed = false := by
    by_contra hclosed
    rw [closed_of_step hstep (by simpa using hclosed)] at hclosed'
    cases hclosed'
  cases hexec : s.executes a with
  | none =>
      obtain ⟨-, ⟨result, rfl, -⟩ | hquiet⟩ :=
        (h hclosed).step_other hexec hlegal hstep hclosed'
      · exact absurd rfl (hloop result)
      · exact hquiet.on (hP hclosed)
  | some sent => exact ((h hclosed).step_executes hexec hstep).2.2.on (hP hclosed)

/-- A backlog is drained by the loop throughout a run exactly when there never is one: when
every `sendInLoop` of the run gets its whole message written at once. A backlog of an open
connection is polled for, as long as the loop alone calls `handleWrite`, but no poll result
ever calls it. -/
theorem backlog_drains_iff (p : Poller) (c : ChannelPtr) (sockfd : Int)
    (hfresh : Fresh p c sockfd) (s₀ : ConnectionRun)
    (hest : (new p c sockfd).step .connectEstablished = some s₀)
    (as : List ConnectionAction) (s : ConnectionRun) (hrun : connectionMachine.Run s₀ as s) :
    (connectionMachine.Throughout s₀ as (fun s => s.closed = false → s.Drains) ↔
      connectionMachine.EveryStep s₀ as TakenWhole) ∧
    (s.closed = false → s.backlog ≠ [] →
      ¬ s.Dispatched ∧ ((∀ result, .handleWrite result ∉ as) → s.Polled)) := by
  obtain ⟨hopen, -, -, hbacklog, hon⟩ := open_of_established hfresh hest
  have hinv : s.closed = false → s.Open :=
    hrun.invariant (I := fun s => s.closed = false → s.Open) (fun _ => hopen)
      fun s a s' h hlegal hstep => open_step h hlegal hstep
  refine ⟨?_, fun hclosed hbacklog' => ⟨?_, fun hloop => ?_⟩⟩
  · exact Machine.throughout_iff_everyStep (I := fun s => s.closed = false → s.Open)
      (fun _ => hopen) (fun _ => hopen.drains_iff.mpr hbacklog)
      (fun s a s' h hlegal hstep => open_step h hlegal hstep)
      (fun s a s' h hP hlegal hstep => drains_step_iff h hP hlegal hstep) hrun
  · intro hdispatched
    exact (hinv hclosed).handleWrite_not_mem POLLOUT (hdispatched POLLOUT (by decide)).1
  · -- Without direct calls of `handleWrite` the entry is never switched off.
    have hloop' : (connectionMachine.restrict ThroughDispatch).Run s₀ as s := by
      refine Machine.run_restrict.mpr ⟨hrun, fun pre a t hpre _ result heq => ?_⟩
      have hmem : a ∈ as := hpre.subset (by simp)
      exact hloop result (heq ▸ hmem)
    have hboth : (s.closed = false → s.Open) ∧ (s.closed = false → s.On) := by
      refine hloop'.invariant
        (I := fun s => (s.closed = false → s.Open) ∧ (s.closed = false → s.On))
        ⟨fun _ => hopen, fun _ => hon⟩ ?_
      intro s a s' h hlegal hstep
      exact ⟨open_step h.1 hlegal.1 hstep, on_step h.1 h.2 hlegal.1 hlegal.2 hstep⟩
    exact (hinv hclosed).polled (hboth.2 hclosed) hbacklog'

/-- The theorem at a run that leaves a backlog. -/
theorem backlog_drains_iff_partial :
    ∃ s₀ s, (new (Poller.new fun _ => Channel.new 0) 0 3).step .connectEstablished = some s₀ ∧
      connectionMachine.Run s₀ [.send [1, 2] (.ok 1)] s ∧ s.backlog = [2] ∧ s.Polled ∧
      ¬ s.Dispatched := by
  obtain ⟨s, hrun, hclosed, hbacklog⟩ := Machine.exists_run (M := connectionMachine)
    (P := fun s => s.closed = false ∧ s.backlog = [2])
    (new (Poller.new fun _ => Channel.new 0) 0 3)
    [.connectEstablished, .send [1, 2] (.ok 1)] (by decide +kernel)
  obtain ⟨s₀, hest, hrun'⟩ := hrun.cons_inv
  have hboth := (backlog_drains_iff _ 0 3 fresh_new s₀ hest.2 _ s hrun').2 hclosed
    (by simp [hbacklog])
  exact ⟨s₀, s, hest.2, hrun', hbacklog, hboth.2 (by simp), hboth.1⟩

/-- A backlog stays when the kernel reports that it could go. -/
theorem not_backlog_drains :
    ¬ ∀ (p : Poller) (c : ChannelPtr) (sockfd : Int), Fresh p c sockfd → ∀ s₀,
      (new p c sockfd).step .connectEstablished = some s₀ → ∀ as s,
      connectionMachine.Run s₀ as s → s.closed = false → s.Drains := by
  intro hall
  obtain ⟨s, hrun, hclosed, hbacklog, hcalls⟩ := Machine.exists_run (M := connectionMachine)
    (P := fun s => s.closed = false ∧ s.backlog ≠ [] ∧ .handleWrite ∉
      ((s.poller.setRevents s.conn.channel POLLOUT).channel s.conn.channel).handleEvent)
    (new (Poller.new fun _ => Channel.new 0) 0 3)
    [.connectEstablished, .send [1, 2] (.ok 1)] (by decide +kernel)
  obtain ⟨s₀, hest, hrun'⟩ := hrun.cons_inv
  have hdrains := hall _ 0 3 fresh_new s₀ hest.2 _ s hrun' hclosed hbacklog
  exact hcalls (hdrains.2 POLLOUT (by decide)).1

end ConnectionRun

end SecondGear
