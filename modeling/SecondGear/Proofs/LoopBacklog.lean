import SecondGear.Proofs.HangUp
import SecondGear.Proofs.Interest
import SecondGear.Proofs.LoopTable

/-!
# `SecondGear.Proofs.LoopBacklog`: a backlog is for good

When `::write` does not take a whole message, the rest goes to the output buffer and the channel
asks for `POLLOUT` alone. Nothing handles `POLLOUT`, so the rest stays where it is, and since the
channel does not ask for input any more, the loop does not see the peer close either.

* `Interest`: an established connection asks for `POLLOUT` exactly while it has a backlog.
  Seen alone, it is a connection as in `SecondGear.Proofs.Interest`.
* `Stuck.step`: what a step of the loop leaves of a connection with a backlog.
* `backlog_is_stuck`: from then on, for as long as the kernel reports what it was asked for,
  nothing ever happens to the connection but that its backlog grows.
-/

set_option autoImplicit false

namespace SecondGear

open SecondGear.Lib

namespace EventLoop

open ConnectionObject Channel

variable {s s' : EventLoop} {id : TcpConnectionPtr} {a : LoopAction}

/-! ### Histories -/

/-- A connection that is open afterwards has recorded what the step did, and did not die. -/
theorem Records.of_history {k k' : ConnectionObject} {events : List ConnectionEvent}
    (h : Records k k' events) (hk : k.History) (hk' : k'.History)
    (hevents : .handleClose ∉ events) (hstage : k.stage = .established) :
    k'.trace = k.trace ++ events ∧ k'.stage = .established := by
  obtain ⟨closing, htrace, hclosing⟩ := h
  have hopen : .handleClose ∉ k'.trace := by
    rw [htrace]
    intro hmem
    rcases List.mem_append.mp hmem with hmem | hmem
    · rcases List.mem_append.mp hmem with hold | hnew
      · exact hk.established_iff.mp hstage hold
      · exact hevents hnew
    · obtain ⟨r, hr⟩ := hclosing _ hmem
      cases hr
  have hstage' := hk'.established_iff.mpr hopen
  -- The end of an object is no event of an open connection.
  obtain ⟨n, hn⟩ := hk'
  rw [hstage', show ending.take Stage.established.progress = [] from rfl, List.append_nil] at hn
  have hnil : closing = [] := by
    refine List.eq_nil_iff_forall_not_mem.mpr fun e he => ?_
    obtain ⟨r, rfl⟩ := hclosing e he
    have hmem : ConnectionEvent.close r ∈ opening n := by
      rw [← hn, htrace]
      exact List.mem_append_right _ he
    simpa using mem_opening hmem
  rw [hnil, List.append_nil] at htrace
  exact ⟨htrace, hstage'⟩

/-- An established connection was established before, and recorded nothing of its end. -/
theorem Records.established {k k' : ConnectionObject} {events : List ConnectionEvent}
    (h : Records k k' events) (hk : k.History) (hk' : k'.History)
    (hstage' : k'.stage = .established) :
    k.stage = .established ∧ ∀ e ∈ events, e ∉ ending := by
  obtain ⟨closing, htrace, -⟩ := h
  have hopen := hk'.established_iff.mp hstage'
  obtain ⟨n, hn⟩ := hk'
  rw [hstage', show ending.take Stage.established.progress = [] from rfl, List.append_nil] at hn
  rw [htrace] at hopen hn
  refine ⟨hk.established_iff.mpr fun hmem => hopen ?_, fun e he hend => ?_⟩
  · exact List.mem_append_left _ (List.mem_append_left _ hmem)
  · have hmem : e ∈ opening n := by
      rw [← hn]
      exact List.mem_append_left _ (List.mem_append_right _ he)
    rcases mem_opening hmem with rfl | rfl | rfl
    · simp [ending] at hend
    · simp [ending] at hend
    · simp [ending] at hend

/-! ### What an established connection asks for -/

/-- A connection of the loop, seen alone. -/
def alone (s : EventLoop) (conn : TcpConnection) : ConnectionRun where
  poller := s.poller
  conn := conn
  pendingFunctors := []
  threads _ := none
  sends := []
  executed := []
  closed := false

/-- An established connection asks for `POLLOUT` exactly while bytes wait. -/
def Interest (s : EventLoop) : Prop :=
  ∀ (id : Nat) k, s.conns[id]? = some k → k.stage = .established →
    ((s.poller.channel k.conn.channel).events = kWriteEvent ↔ k.conn.outputBuffer.content ≠ [])

/-- Seen alone, an established connection is open. -/
theorem Interest.isOpen (hi : s.Interest) (h : s.Inv) {k : ConnectionObject}
    (hk : s.conns[id]? = some k) (hstage : k.stage = .established) : (s.alone k.conn).Open where
  table := h.wired.table
  registered := (h.wired.conn id k hk).registered.mpr (by rw [hstage]; rfl)
  fd := (h.wired.conn id k hk).sockfd
  reads := h.readsOnly hk
  established := by
    show k.conn.state ≠ .kConnecting
    rcases (h.objects.ok id k hk).state_of_isOpen (by rw [hstage]; rfl) with hup | hdown
    · rw [hup]
      simp
    · rw [hdown]
      simp
  wf := (h.objects.ok id k hk).output
  writing := hi id k hk hstage

/-- The events of a connection's channel, when a step calls no method of the connection. -/
theorem events_of_callOf (h : s.Inv) (hlegal : s.Legal a) (hstep : s.step a = some s')
    {k : ConnectionObject} (hk : s.conns[id]? = some k) (hcall : s.callOf id a = none) :
    (s'.poller.channel k.conn.channel).events = (s.poller.channel k.conn.channel).events := by
  have hlt : k.conn.channel < s.owners.length :=
    (List.getElem?_eq_some_iff.mp (h.objects.channel id k hk)).1
  cases step_table hstep with
  | same _ hpoller => rw [hpoller]
  | poll answer numEvents active hpoll =>
      obtain ⟨p, active', hpoll', -, hsame, -⟩ := h.wired.table.poll hlegal.2.2 numEvents
      cases hpoll.symm.trans hpoll'
      obtain ⟨r, hr⟩ := hsame k.conn.channel
      rw [hr]
  | call _ j d call hd hcall' hcalls =>
      -- The method is one of another connection, which has another channel.
      have hne : j ≠ id := by
        rintro rfl
        rw [hcall] at hcall'
        cases hcall'
      obtain ⟨i, hi⟩ := hcalls.others (h.objects.channel_ne hd hk (Ne.symm hne))
      rw [hi]
  | addChannel _ fd hadd =>
      obtain ⟨i, hi⟩ := Poller.addChannel_others hadd (Nat.ne_of_lt hlt)
      rw [hi]

/-- Every step keeps it. -/
theorem Interest.step (hi : s.Interest) (h : s.Inv) (h' : s'.Inv) (hlegal : s.Legal a)
    (hstep : s.step a = some s') : s'.Interest := by
  intro id k' hk' hstage'
  cases hk : s.conns[id]? with
  | none =>
      -- A new connection asks for input, and has sent nothing.
      have hmade := step_made hstep hk hk'
      rw [hmade.events, hmade.output, Buffer.new_content]
      simp [kReadEvent, kWriteEvent, POLLIN, POLLPRI, POLLOUT]
  | some k =>
      obtain ⟨k'', hk'', hfollows⟩ := step_call hstep id k hk
      cases hk''.symm.trans hk'
      have hhistory := (h.objects.ok id k hk).history
      have hhistory' := (h'.objects.ok id k' hk').history
      cases hcall : s.callOf id a with
      | none =>
          rw [hcall] at hfollows
          obtain ⟨hstage, -⟩ := hfollows.2.established hhistory hhistory' hstage'
          rw [hfollows.1, events_of_callOf h hlegal hstep hk hcall]
          exact hi id k hk hstage
      | some call =>
          rw [hcall] at hfollows
          obtain ⟨events, hrun, hrecords⟩ := hfollows
          obtain ⟨hstage, hevents⟩ := hrecords.established hhistory hhistory' hstage'
          have hopen := hi.isOpen h hk hstage
          cases calls_of_callOf hcall with
          | handler connfd readv write handler hnext =>
              obtain ⟨c, hmem⟩ := mem_current_of_nextHandler hnext
              obtain rfl : handler = .handleRead := h.dispatched.reads (c, handler) hmem
              obtain ⟨⟨p₁, conn₁, callback⟩, hread, heq⟩ := Option.map_eq_some_iff.mp hrun
              obtain ⟨hp, hconn, rfl⟩ := Prod.mk.inj heq |>.imp_right Prod.mk.inj
              obtain ⟨b, n, errno, -, hconn₁, hcases⟩ := TcpConnection.handleRead_spec hread
              rw [← hconn, hconn₁, ← hp]
              rcases hcases with ⟨-, -, hsame⟩ | ⟨-, rfl, -⟩ | ⟨-, -, hsame⟩
              · rw [hsame]
                exact hi id k hk hstage
              · exact absurd (by decide) (hevents .handleClose List.mem_cons_self)
              · rw [hsame]
                exact hi id k hk hstage
          | connectDestroyed hnext =>
              obtain ⟨⟨p₁, conn₁⟩, -, heq⟩ := Option.map_eq_some_iff.mp hrun
              cases heq
              exact absurd (by decide) (hevents .connectDestroyed List.mem_cons_self)
          | connectDestroyedRemove hframe =>
              have hdestroying := (h.queued.frame id).mp hframe
              rw [stageOf_eq hk, hstage] at hdestroying
              cases hdestroying
          | send message result hconnected =>
              obtain ⟨⟨p₁, conn₁⟩, hsend, heq⟩ := Option.map_eq_some_iff.mp hrun
              obtain ⟨hp, hconn, -⟩ := Prod.mk.inj heq |>.imp_right Prod.mk.inj
              rw [hp, hconn] at hsend
              have halone : (s.alone k.conn).conn.sendInLoop (s.alone k.conn).poller message result
                  = some ((s'.alone k'.conn).poller, (s'.alone k'.conn).conn) := hsend
              exact (hopen.sendInLoop halone).1.writing
          | shutdown hconnected =>
              obtain ⟨hp, hconn, -⟩ := Prod.mk.inj (Option.some.inj hrun) |>.imp_right Prod.mk.inj
              rw [← hconn, ← hp, TcpConnection.shutdownInLoop_eq]
              exact hi id k hk hstage
          | input op =>
              obtain ⟨b, -, heq⟩ := Option.map_eq_some_iff.mp hrun
              obtain ⟨hp, hconn, -⟩ := Prod.mk.inj heq |>.imp_right Prod.mk.inj
              rw [← hconn, ← hp]
              exact hi id k hk hstage

/-! ### What the kernel reports -/

/-- The kernel reports what an entry asks for, and the events that need no asking. -/
def Asked (s : EventLoop) : LoopAction → Prop
  | .poll answer _ => ∀ e ∈ s.poller.pollfds.zip answer,
      e.2 &&& ~~~(e.1.events ||| (POLLERR ||| POLLHUP ||| POLLNVAL).setWidth 16) = 0#16
  | _ => True

instance (s : EventLoop) : (a : LoopAction) → Decidable (Asked s a)
  | .poll _ _ => inferInstanceAs (Decidable (∀ e ∈ _, _))
  | .handleEvent | .runHandler _ _ _ | .doPendingFunctors | .runFunctor | .endFunctors
  | .callbackReturns | .send _ _ _ | .shutdown _ | .input _ _ | .addRef _ | .dropRef _
  | .queueInLoop | .startServer _ _ => isTrue trivial

/-- What a channel is told comes from its own entry. -/
theorem poll_told {p p' : Poller} (h : p.Table) {answer : List (BitVec 16)} {numEvents : Int}
    {active : List ChannelPtr} (hans : Answers p answer)
    (hpoll : p.poll answer numEvents = some (p', active)) {c : ChannelPtr} (hc : c ∈ active) :
    ∃ e ∈ p.pollfds.zip answer, p.entry c = some e.1 ∧
      (p'.channel c).revents = e.2.signExtend 32 := by
  obtain ⟨htable, -, -⟩ := h.setAnswer hans.1
  have hlookup : ∀ pfd ∈ Poller.reported (p.setAnswer answer).pollfds, ∃ (i : Nat) (d : ChannelPtr),
      (p.setAnswer answer).pollfds[i]? = some pfd ∧
        (p.setAnswer answer).channels.lookup pfd.fd = some d ∧ (p.channel d).index = i := by
    intro pfd hpfd
    obtain ⟨i, hi⟩ := List.getElem?_of_mem (List.mem_filter.mp hpfd).1
    obtain ⟨d, hd, hidx⟩ := htable.lookup_of_nonneg hi (Poller.reported_nonneg hans hpfd)
    exact ⟨i, d, hi, hd, hidx⟩
  rw [Poller.poll] at hpoll
  split at hpoll
  · obtain ⟨p₁, active₁, hcall, -, -, -, -, -, htold⟩ :=
      Poller.getActiveChannelsFrom_spec (p := p.setAnswer answer) (p.setAnswer answer).pollfds
        numEvents fun pfd hpfd => by
          obtain ⟨i, d, -, hd, -⟩ := hlookup pfd hpfd
          rw [hd]
          rfl
    cases hcall.symm.trans hpoll
    obtain ⟨pfd, hpfd, hlook, hrevents⟩ := htold c hc
    obtain ⟨i, d, hi, hd, hidx⟩ := hlookup pfd hpfd
    obtain rfl := Option.some.inj (hd.symm.trans hlook)
    -- The entry of the report is the entry at the channel's index.
    rw [Poller.setAnswer_getElem? hans.1] at hi
    obtain ⟨old, hold, hi⟩ := Option.bind_eq_some_iff.mp hi
    obtain ⟨r, hr, rfl⟩ := Option.map_eq_some_iff.mp hi
    refine ⟨(old, r), ?_, ?_, hrevents⟩
    · exact List.mem_of_getElem? (List.getElem?_zip_eq_some.mpr ⟨hold, hr⟩)
    · rw [Poller.entry, hidx, Int.toNat_natCast]
      exact hold
  · cases hpoll
    exact absurd hc List.not_mem_nil

/-- A report without input. -/
theorem not_input_of_asked {events report : BitVec 16}
    (hevents : events.signExtend 32 = kWriteEvent)
    (hasked : report &&& ~~~(events ||| (POLLERR ||| POLLHUP ||| POLLNVAL).setWidth 16) = 0#16) :
    report.signExtend 32 &&& (POLLIN ||| POLLPRI ||| POLLRDHUP) = 0#32 := by
  have hwide : report.signExtend 32 &&& ~~~(kWriteEvent |||
      ((POLLERR ||| POLLHUP ||| POLLNVAL).setWidth 16).signExtend 32) = 0#32 := by
    rw [← hevents, ← BitVec.signExtend_or, ← BitVec.signExtend_not (by decide),
      ← BitVec.signExtend_and, hasked]
    rfl
  -- The input bits are among those that nobody asked for.
  have hmask : (POLLIN ||| POLLPRI ||| POLLRDHUP : Events)
      = ~~~(kWriteEvent ||| ((POLLERR ||| POLLHUP ||| POLLNVAL).setWidth 16).signExtend 32)
        &&& (POLLIN ||| POLLPRI ||| POLLRDHUP) := by decide
  rw [hmask, ← BitVec.and_assoc, hwide, BitVec.zero_and]

/-! ### A connection with a backlog -/

/-- What is left of the connection `k₀` with its backlog. -/
structure Stuck (id : TcpConnectionPtr) (k₀ : ConnectionObject) (s : EventLoop) : Prop where
  object : ∃ k, s.conns[id]? = some k ∧ k.trace = k₀.trace ∧ k.conn.socket = k₀.conn.socket ∧
    k.conn.channel = k₀.conn.channel ∧
    k₀.conn.outputBuffer.content <+: k.conn.outputBuffer.content
  /-- no callback of its channel is in front of the loop -/
  idle : ∀ x ∈ s.pc.current, x.1 ≠ k₀.conn.channel
  /-- none will come out of this batch -/
  deaf : k₀.conn.channel ∈ s.pc.todo → ¬ (s.poller.channel k₀.conn.channel).HasInput

/-- At the head of the loop nothing is in front of it. -/
theorem Stuck.of_poll {k : ConnectionObject} (hk : s.conns[id]? = some k) (hpc : s.pc = .poll) :
    Stuck id k s where
  object := ⟨k, hk, rfl, rfl, rfl, List.prefix_refl _⟩
  idle x hx := by
    rw [hpc] at hx
    exact absurd hx List.not_mem_nil
  deaf hc := by
    rw [hpc] at hc
    exact absurd hc List.not_mem_nil

/-- The calls that reach a connection with a backlog: only the user's own. -/
theorem Stuck.call (h : s.Inv) {k₀ k : ConnectionObject} (hstuck : Stuck id k₀ s)
    (hk : s.conns[id]? = some k) (hchannel : k.conn.channel = k₀.conn.channel)
    (hstage : k.stage = .established) {call : ConnectionCall} (hcall : s.callOf id a = some call) :
    (∃ message result, call = .send message result) ∨ call = .shutdown ∨
      ∃ op, call = .input op := by
  cases calls_of_callOf hcall with
  | handler connfd readv write handler hnext =>
      rw [nextHandler] at hnext
      split at hnext
      · cases hnext
      · rename_i c handler' current hcurrent
        obtain ⟨howner, -⟩ := Option.ite_none_right_eq_some.mp hnext
        obtain ⟨d, hd, hdc⟩ := h.objects.owner c id howner
        rw [hk, Option.some.injEq] at hd
        refine absurd ?_ (hstuck.idle (c, handler') (by rw [hcurrent]; exact List.mem_cons_self))
        rw [← hchannel, hd]
        exact hdc.symm
  | connectDestroyed hnext =>
      obtain ⟨d, hd, hclosing⟩ := h.closing_of_rest
        (List.mem_append_right _ (List.mem_of_mem_head? hnext))
      rw [hk, Option.some.injEq] at hd
      rw [← hd, hstage] at hclosing
      cases hclosing
  | connectDestroyedRemove hframe =>
      have hdestroying := (h.queued.frame id).mp hframe
      rw [stageOf_eq hk, hstage] at hdestroying
      cases hdestroying
  | send message result hconnected => exact Or.inl ⟨message, result, rfl⟩
  | shutdown hconnected => exact Or.inr (Or.inl rfl)
  | input op => exact Or.inr (Or.inr ⟨op, rfl⟩)

/-- A call of the user on a connection that is writing: bytes join the backlog, and nothing goes
to the socket. -/
theorem run_of_writing {p p' : Poller} {conn conn' : TcpConnection} {call : ConnectionCall}
    {events : List ConnectionEvent} (h : call.run p conn = some (p', conn', events))
    (hcall : (∃ message result, call = .send message result) ∨ call = .shutdown ∨
      ∃ op, call = .input op)
    (hwf : conn.outputBuffer.Wf) (hwriting : conn.isWriting p) :
    events = [] ∧ conn'.socket = conn.socket ∧ conn'.channel = conn.channel ∧
      conn.outputBuffer.content <+: conn'.outputBuffer.content := by
  rcases hcall with ⟨message, result, rfl⟩ | rfl | ⟨op, rfl⟩
  · obtain ⟨⟨p₁, conn₁⟩, hsend, heq⟩ := Option.map_eq_some_iff.mp h
    cases heq
    obtain ⟨b, -, hcontent, rfl, -⟩ := TcpConnection.sendInLoop_spec hwf hsend
    have hdirect : conn.writesDirectly p = false := by
      rw [TcpConnection.writesDirectly, hwriting]
      rfl
    refine ⟨rfl, ?_, rfl, hcontent ▸ List.prefix_append _ _⟩
    show (if _ then _ else _) = _
    rw [hdirect]
    rfl
  · cases h
    rw [TcpConnection.shutdownInLoop_eq]
    refine ⟨rfl, ?_, rfl, List.prefix_refl _⟩
    show (if conn.isWriting p then _ else _) = _
    rw [if_pos hwriting]
    rfl
  · obtain ⟨b, -, heq⟩ := Option.map_eq_some_iff.mp h
    cases heq
    exact ⟨rfl, rfl, rfl, List.prefix_refl _⟩

/-- A step of the loop leaves a connection with a backlog as it is. -/
theorem Stuck.step {k₀ : ConnectionObject} (hstuck : Stuck id k₀ s) (h : s.Inv) (h' : s'.Inv)
    (hi : s.Interest) (hestablished : k₀.stage = .established)
    (hbacklog : k₀.conn.outputBuffer.content ≠ []) (hlegal : s.Legal a) (hasked : s.Asked a)
    (hstep : s.step a = some s') : Stuck id k₀ s' := by
  obtain ⟨k, hk, htrace, hsocket, hchannel, hprefix⟩ := hstuck.object
  have hstage : k.stage = .established := by
    rw [stage, htrace]
    exact hestablished
  have hrest : k.conn.outputBuffer.content ≠ [] := by
    intro hnil
    rw [hnil] at hprefix
    exact hbacklog (List.prefix_nil.mp hprefix)
  have hevents : (s.poller.channel k.conn.channel).events = kWriteEvent :=
    (hi id k hk hstage).mpr hrest
  have hwriting : k.conn.isWriting s.poller := (hi.isOpen h hk hstage).isWriting_iff.mpr hevents
  have hlt : k₀.conn.channel < s.owners.length := by
    rw [← hchannel]
    exact (List.getElem?_eq_some_iff.mp (h.objects.channel id k hk)).1
  obtain ⟨k', hk', hfollows⟩ := step_call hstep id k hk
  have hhistory := (h.objects.ok id k hk).history
  have hhistory' := (h'.objects.ok id k' hk').history
  refine ⟨⟨k', hk', ?_⟩, fun x hx => ?_, fun hc => ?_⟩
  · cases hcall : s.callOf id a with
    | none =>
        rw [hcall] at hfollows
        obtain ⟨htrace', -⟩ := hfollows.2.of_history hhistory hhistory' (by simp) hstage
        rw [List.append_nil] at htrace'
        rw [hfollows.1]
        exact ⟨htrace'.trans htrace, hsocket, hchannel, hprefix⟩
    | some call =>
        rw [hcall] at hfollows
        obtain ⟨events, hrun, hrecords⟩ := hfollows
        obtain ⟨rfl, hsocket', hchannel', hprefix'⟩ := run_of_writing hrun
          (hstuck.call h hk hchannel hstage hcall) (h.objects.ok id k hk).output hwriting
        obtain ⟨htrace', -⟩ := hrecords.of_history hhistory hhistory' (by simp) hstage
        rw [List.append_nil] at htrace'
        exact ⟨htrace'.trans htrace, hsocket'.trans hsocket, hchannel'.trans hchannel,
          hprefix.trans hprefix'⟩
  · rintro hxc
    rcases (step_pc hstep).current hx with hold | ⟨⟨rest, hpc⟩, hhandler⟩
    · exact hstuck.idle x hold hxc
    · -- Its turn comes, but there is nothing to read.
      rw [hxc] at hpc hhandler
      have hmem : k₀.conn.channel ∈ s.pc.todo := by
        rw [hpc]
        exact List.mem_cons_self
      have hreads := h.wired.reads _ hlt
      exact hstuck.deaf hmem (hreads.mem_handleEvent.mp hhandler).2
  · by_cases hpoll : ∃ answer numEvents, a = .poll answer numEvents
    · obtain ⟨answer, numEvents, rfl⟩ := hpoll
      obtain ⟨t, hbody, rfl⟩ := Option.map_eq_some_iff.mp hstep
      obtain ⟨⟨p, active⟩, hcall, heq⟩ := Option.map_eq_some_iff.mp hbody
      cases heq
      obtain ⟨e, he, hentry, hrevents⟩ :=
        poll_told h.wired.table hlegal.2.2 hcall (c := k₀.conn.channel) hc
      obtain ⟨-, pfd, hpfd, hfor⟩ := h.wired.table.entry k₀.conn.channel (by
        rw [← hchannel]
        exact (h.wired.conn id k hk).registered.mpr (by rw [hstage]; rfl))
      cases hentry.symm.trans hpfd
      have hasks : e.1.events.signExtend 32 = kWriteEvent := by
        rw [hfor.events, ← hchannel]
        exact hevents
      have hquiet := not_input_of_asked hasks (hasked e he)
      show ¬ (p.channel k₀.conn.channel).revents &&& _ ≠ 0#32
      rw [hrevents, not_not]
      exact hquiet
    · have hne : ∀ answer numEvents, a ≠ .poll answer numEvents :=
        fun answer numEvents heq => hpoll ⟨answer, numEvents, heq⟩
      have hmem := (step_pc hstep).todo hne _ hc
      have hsame := (step_table hstep).revents hne hlt
      rw [HasInput, hsame]
      exact hstuck.deaf hmem

/-! ### Runs -/

/-- The invariant of the loop, with the interest of the connections. -/
theorem interest_of_run {timerfd wakeupFd : Int} {s₀ : EventLoop} {as : List LoopAction}
    (hnew : new timerfd wakeupFd = some s₀) (htimerfd : 0 ≤ timerfd) (hwakeupFd : 0 ≤ wakeupFd)
    (hne : timerfd ≠ wakeupFd)
    (hrun : ((loopMachine.restrict FunctorsFit).restrict FreshName).Run s₀ as s) :
    s.Inv ∧ s.Interest := by
  have hstart : s₀.Interest := by
    intro id k hk
    rw [new_conns hnew] at hk
    cases hk
  refine hrun.invariant (I := fun t => t.Inv ∧ t.Interest)
    ⟨new_inv hnew htimerfd hwakeupFd hne, hstart⟩ ?_
  rintro t a t' ⟨h, hi⟩ hlegal hstep
  obtain ⟨u, hu, h'⟩ := h.inv_step hlegal.1.1 hlegal.1.2 hlegal.2
  obtain rfl : u = t' := Option.some.inj (hu.symm.trans hstep)
  exact ⟨h', hi.step h h' hlegal.1.1 hstep⟩

/-- A connection whose output buffer is not empty when the loop polls has seen the last of its
peer. In every continuation in which the kernel reports what the entries ask for, no callback of
it runs, `::write` and `shutdown` are not called on its socket, and its peer's close is not
noticed: it stays in its server's map with its socket open, and its backlog only grows. -/
theorem backlog_is_stuck {timerfd wakeupFd : Int} {s₀ t : EventLoop} {as bs : List LoopAction}
    (hnew : new timerfd wakeupFd = some s₀) (htimerfd : 0 ≤ timerfd) (hwakeupFd : 0 ≤ wakeupFd)
    (hne : timerfd ≠ wakeupFd)
    (hrun : ((loopMachine.restrict FunctorsFit).restrict FreshName).Run s₀ as s)
    (hpc : s.pc = .poll) {k₀ : ConnectionObject} (hk₀ : s.conns[id]? = some k₀)
    (hopen : .handleClose ∉ k₀.trace) (hbacklog : k₀.conn.outputBuffer.content ≠ [])
    (hlater : (((loopMachine.restrict FunctorsFit).restrict FreshName).restrict Asked).Run s bs t) :
    ∃ k, t.conns[id]? = some k ∧ k.trace = k₀.trace ∧ k.conn.socket = k₀.conn.socket ∧
      k.destroyed = false ∧ k₀.conn.outputBuffer.content <+: k.conn.outputBuffer.content ∧
      ∃ server, t.servers[k.server]? = some server ∧
        server.connections.lookup k.name = some id := by
  obtain ⟨h, hi⟩ := interest_of_run hnew htimerfd hwakeupFd hne hrun
  have hestablished := (h.objects.ok id k₀ hk₀).history.established_iff.mpr hopen
  have hinv : t.Inv ∧ t.Interest ∧ Stuck id k₀ t := by
    refine hlater.invariant (I := fun u => u.Inv ∧ u.Interest ∧ Stuck id k₀ u)
      ⟨h, hi, .of_poll hk₀ hpc⟩ ?_
    rintro u a u' ⟨hu, hiu, hstuck⟩ ⟨hlegal, hasked⟩ hstep
    obtain ⟨v, hv, hu'⟩ := hu.inv_step hlegal.1.1 hlegal.1.2 hlegal.2
    obtain rfl : v = u' := Option.some.inj (hv.symm.trans hstep)
    exact ⟨hu', hiu.step hu hu' hlegal.1.1 hstep,
      hstuck.step hu hu' hiu hestablished hbacklog hlegal.1.1 hasked hstep⟩
  obtain ⟨ht, -, ⟨k, hk, htrace, hsocket, -, hprefix⟩, -, -⟩ := hinv
  have hstage : k.stage = .established := by
    rw [stage, htrace]
    exact hestablished
  have hok := ht.objects.ok id k hk
  have hplace : t.placeOf id = some (k.server, k.name) := by
    rw [placeOf, hk]
    rfl
  obtain ⟨server, hserver⟩ : ∃ server, t.servers[k.server]? = some server :=
    ⟨_, List.getElem?_eq_getElem (ht.listed.server id k.server k.name hplace)⟩
  refine ⟨k, hk, htrace, hsocket, ?_, hprefix, server, hserver, ?_⟩
  · cases hdestroyed : k.destroyed with
    | false => rfl
    | true =>
        rw [hok.destroyed.mp hdestroyed] at hstage
        cases hstage
  · exact (ht.listed.listed k.server server k.name id hserver).mpr
      ⟨hplace, by rw [stageOf_eq hk, hstage]⟩

/-- One byte of two is left. The peer hangs up, and the loop does not notice. -/
theorem backlog_is_stuck_hang_up :
    ∃ t : EventLoop, ∃ k ∈ t.conns[0]?, k.destroyed = false ∧
      .handleClose ∉ k.trace ∧ [2] <+: k.conn.outputBuffer.content := by
  obtain ⟨s₀, s, hnew, hrun, hpc, k₀, hk₀, hopen, hbacklog, hlater⟩ :=
    Machine.exists_run_from (M := (loopMachine.restrict FunctorsFit).restrict FreshName)
      (P := fun s : EventLoop => s.pc = .poll ∧ ∃ k ∈ s.conns[0]?, .handleClose ∉ k.trace ∧
        k.conn.outputBuffer.content = [2] ∧
        (((((loopMachine.restrict FunctorsFit).restrict FreshName).restrict Asked).exec s
          [.poll [0, 0, 0, 20] 1, .handleEvent, .doPendingFunctors, .endFunctors]).isSome = true))
      (new 3 4)
      [.startServer "s" 5, .poll [0, 0, 1] 1, .handleEvent, .runHandler 7 (.error 0) (.ok 0),
        .send 0 [1, 2] (.ok 1), .callbackReturns, .doPendingFunctors, .endFunctors]
      (by decide +kernel)
  obtain ⟨t, ht⟩ := Option.isSome_iff_exists.mp hlater
  obtain ⟨k, hk, htrace, -, hdestroyed, hprefix, -⟩ :=
    backlog_is_stuck hnew (by decide) (by decide) (by decide) hrun hpc hk₀ hopen
      (by rw [hbacklog]; simp) (.of_exec ht)
  exact ⟨t, k, hk, hdestroyed, htrace ▸ hopen, hbacklog ▸ hprefix⟩

end EventLoop

end SecondGear
