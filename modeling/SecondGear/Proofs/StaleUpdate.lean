import SecondGear.Model.SharedConnection
import SecondGear.Proofs.HalfClose

/-!
# `SecondGear.Proofs.StaleUpdate`: a send that executes after the removal

`handleClose` leaves `state_` at `kConnected`, so a `send` between it and `connectDestroyed`
is queued behind `connectDestroyed`, and its `sendInLoop` runs on a channel that is not in
the table any more. `step_table` says what a step does to the table. `SharedInv` keeps the
channel registered until `removeChannel` and `Stale` from then on: not in the table, with its
old index, not writing.

A stale channel must not be updated: `updateChannel` finds a failed assertion.
`no_stale_update_iff` says exactly which steps do not come to that, and
`not_no_stale_update` has one that does.
-/

set_option autoImplicit false

namespace SecondGear

open SecondGear.Lib

namespace Poller

variable {p p' : Poller} {c : ChannelPtr}

/-- An update of a registered channel that returns keeps the table and the registration. -/
theorem Table.apply_registered (h : p.Table) {op : PollerOp} (hop : ∀ c, op ≠ .removeChannel c)
    (hreg : p.Registered op.target) (happly : op.apply p = some p') :
    p'.Table ∧ p'.Registered op.target := by
  have hmask := PollerOp.newEvents_hasMask (h.mask op.target) op
  rw [apply_eq_updateChannel hop] at happly
  obtain ⟨p₁, pfd, pfd', hp₁, hup, -⟩ := h.update_registered hreg hmask
  rw [hp₁, Option.some.injEq] at happly
  rw [← happly]
  exact ⟨hup.table, hup.registered⟩

end Poller

namespace TcpConnection

variable {p : Poller} {conn : TcpConnection} {message : List Byte} {result : WriteResult}

/-- A message that is written whole calls neither the buffer nor the table. -/
theorem sendInLoop_of_whole (h : message.length ≤ nwrote p conn result) :
    conn.sendInLoop p message result = some (p, { conn with
      socket := if writesDirectly p conn then conn.socket.write message result
        else conn.socket }) := by
  have hn : (if writesDirectly p conn then result.taken else 0) = nwrote p conn result := rfl
  rw [sendInLoop]
  simp only [show (!isWriting p conn && conn.outputBuffer.readableBytes == 0)
    = writesDirectly p conn from rfl, hn]
  rw [if_neg (Nat.not_lt.mpr h)]
  rfl

/-- What is written directly when the channel is not writing. -/
theorem whole_iff (hwf : conn.outputBuffer.Wf) (hidle : isWriting p conn = false) :
    message.length ≤ nwrote p conn result ↔
      message = [] ∨ (conn.outputBuffer.content = [] ∧ message.length ≤ result.taken) := by
  rw [← hwf.readableBytes_eq_zero, nwrote, writesDirectly, hidle]
  by_cases hempty : conn.outputBuffer.readableBytes = 0
  · simp [hempty]
    rintro rfl
    simp
  · simp [hempty]

end TcpConnection

namespace ConnectionRun

variable {s s' : ConnectionRun} {a : ConnectionAction}

/-- What a step does to the table: nothing, an update of its own channel, a dispatched poll
result, a call on another channel, or the removal. -/
inductive TableStep (p : Poller) (c : ChannelPtr) (a : ConnectionAction) : Poller → Prop
  | same : TableStep p c a p
  | own {p' : Poller} (op : PollerOp) (htarget : op.target = c)
      (hop : ∀ c, op ≠ .removeChannel c) (happly : op.apply p = some p') : TableStep p c a p'
  | event (revents : Events) (readv : ReadvResult) (write : WriteResult)
      (ha : a = .handleEvent revents readv write) : TableStep p c a (p.setRevents c revents)
  | close {p' : Poller} (revents : Events) (readv : ReadvResult) (write : WriteResult)
      (ha : a = .handleEvent revents readv write)
      (hp : (p.setRevents c revents).disableAll c = some p') : TableStep p c a p'
  | other {p' : Poller} (op : PollerOp) (ha : a = .other op) (hp : op.apply p = some p') :
      TableStep p c a p'
  | remove {p' : Poller} (ha : a = .connectDestroyedRemove) (hp : p.removeChannel c = some p') :
      TableStep p c a p'

/-- `handleRead` on the table. -/
theorem handleRead_table {p : Poller} {conn : TcpConnection} {readv : ReadvResult}
    {after : Poller × TcpConnection × Option Callback}
    (h : conn.handleRead p readv = some after) :
    after.2.1.channel = conn.channel ∧
      (after.1 = p ∨ p.disableAll conn.channel = some after.1) := by
  obtain ⟨p', conn', callback⟩ := after
  obtain ⟨b, n, errno, -, rfl, hcases⟩ := TcpConnection.handleRead_spec h
  rcases hcases with ⟨-, -, rfl⟩ | ⟨-, -, hclose⟩ | ⟨-, -, rfl⟩
  · exact ⟨rfl, Or.inl rfl⟩
  · exact ⟨rfl, Or.inr (TcpConnection.handleClose_spec hclose).2.2⟩
  · exact ⟨rfl, Or.inl rfl⟩

/-- A table that did not move. -/
theorem TableStep.of_eq {p p' : Poller} {c : ChannelPtr} (h : p' = p) : TableStep p c a p' := by
  rw [h]
  exact .same

/-- Every step on the table. -/
theorem step_table (h : s.StreamInv) (hlegal : s.Legal a) (hstep : s.step a = some s') :
    s'.conn.channel = s.conn.channel ∧ TableStep s.poller s.conn.channel a s'.poller := by
  cases s.step_effect h.reads hstep with
  | calls _ _ _ hp hconn => exact ⟨by rw [hconn], .of_eq hp⟩
  | disconnecting hp hconn => exact ⟨by rw [hconn]; rfl, .of_eq hp⟩
  | sendInLoop _ _ _ hcall =>
      obtain ⟨b, -, -, hconn, hp⟩ := TcpConnection.sendInLoop_spec h.wf hcall
      refine ⟨by rw [hconn], ?_⟩
      split at hp
      · exact .own (.enableWriting s.conn.channel) rfl (by simp) hp
      · exact .of_eq hp
  | shutdownInLoop _ _ hfrom hp hconn =>
      refine ⟨?_, .of_eq hp⟩
      rw [hconn, TcpConnection.shutdownInLoop_eq]
      rcases hfrom with rfl | rfl <;> rfl
  | connectEstablished hcall =>
      obtain ⟨-, rfl, hp⟩ := TcpConnection.connectEstablished_spec hcall
      exact ⟨rfl, .own (.enableReading s.conn.channel) rfl (by simp) hp⟩
  | connectDestroyed hcall =>
      obtain ⟨-, rfl, hp⟩ := TcpConnection.connectDestroyed_spec hcall
      exact ⟨rfl, .own (.disableAll s.conn.channel) rfl (by simp) hp⟩
  | handleClose hcall =>
      obtain ⟨-, rfl, hp⟩ := TcpConnection.handleClose_spec hcall
      exact ⟨rfl, .own (.disableAll s.conn.channel) rfl (by simp) hp⟩
  | connectDestroyedRemove hcall => exact ⟨rfl, .remove rfl hcall⟩
  | handleRead hcall =>
      obtain ⟨hchannel, hp | hp⟩ := handleRead_table hcall
      · exact ⟨hchannel, .of_eq hp⟩
      · exact ⟨hchannel, .own (.disableAll s.conn.channel) rfl (by simp) hp⟩
  | @event revents readv write => exact ⟨rfl, .event revents readv write rfl⟩
  | @dispatch revents readv write after hcall =>
      obtain ⟨hchannel, hp | hp⟩ := handleRead_table hcall
      · refine ⟨hchannel, ?_⟩
        show TableStep s.poller s.conn.channel _ after.1
        rw [hp]
        exact .event revents readv write rfl
      · exact ⟨hchannel, .close revents readv write rfl hp⟩
  | handleWrite hcall =>
      obtain ⟨⟨socket, b, rfl⟩, hp | hp⟩ := TcpConnection.handleWrite_frame h.wf hlegal hcall
      · exact ⟨rfl, .of_eq hp⟩
      · exact ⟨rfl, .own (.disableWriting s.conn.channel) rfl (by simp) hp⟩
  | input => exact ⟨rfl, .same⟩
  | @other op p hcall => exact ⟨rfl, .other op rfl hcall⟩

/-- `handleRead` stores what it received in the input buffer. -/
theorem handleRead_inputBuffer {p : Poller} {conn : TcpConnection} {readv : ReadvResult}
    {after : Poller × TcpConnection × Option Callback} (hinput : conn.inputBuffer.Wf)
    (h : conn.handleRead p readv = some after) : after.2.1.inputBuffer.Wf := by
  obtain ⟨p', conn', callback⟩ := after
  obtain ⟨b, n, errno, hread, rfl, -⟩ := TcpConnection.handleRead_spec h
  cases readv with
  | bytes bs =>
      obtain ⟨b', hb', hwf, -⟩ := Buffer.readFd_spec hinput 0 bs
      rw [hread, Option.some.injEq] at hb'
      cases hb'
      exact hwf
  | error errno =>
      cases hread
      exact hinput

/-- The input buffer stays well formed: only `handleRead` and the user touch it. -/
theorem step_inputBuffer (h : s.StreamInv) (hinput : s.conn.inputBuffer.Wf)
    (hlegal : s.Legal a) (hstep : s.step a = some s') : s'.conn.inputBuffer.Wf := by
  have same : s'.conn.inputBuffer = s.conn.inputBuffer → s'.conn.inputBuffer.Wf := by
    intro heq
    rw [heq]
    exact hinput
  cases s.step_effect h.reads hstep with
  | calls _ _ _ _ hconn => exact same (by rw [hconn])
  | disconnecting _ hconn => exact same (by rw [hconn]; rfl)
  | sendInLoop _ _ _ hcall =>
      obtain ⟨b, -, -, hconn, -⟩ := TcpConnection.sendInLoop_spec h.wf hcall
      exact same (by rw [hconn])
  | shutdownInLoop _ _ hfrom _ hconn =>
      refine same ?_
      rw [hconn, TcpConnection.shutdownInLoop_eq]
      rcases hfrom with rfl | rfl <;> rfl
  | connectEstablished hcall =>
      obtain ⟨-, rfl, -⟩ := TcpConnection.connectEstablished_spec hcall
      exact hinput
  | connectDestroyed hcall =>
      obtain ⟨-, rfl, -⟩ := TcpConnection.connectDestroyed_spec hcall
      exact hinput
  | handleClose hcall =>
      obtain ⟨-, rfl, -⟩ := TcpConnection.handleClose_spec hcall
      exact hinput
  | event | connectDestroyedRemove | other => exact hinput
  | handleRead hcall | dispatch hcall => exact handleRead_inputBuffer hinput hcall
  | handleWrite hcall =>
      obtain ⟨⟨socket, b, rfl⟩, -⟩ := TcpConnection.handleWrite_frame h.wf hlegal hcall
      exact hinput
  | input hcall =>
      obtain ⟨b', hb', hwf, -⟩ := Buffer.apply_spec hinput hlegal
      rw [hcall, Option.some.injEq] at hb'
      rw [hb']
      exact hwf

namespace TableStep

variable {p p' : Poller} {c : ChannelPtr}

/-- What the legality of a step on another channel says about the table. -/
def OtherLegal (p : Poller) (c : ChannelPtr) (a : ConnectionAction) : Prop :=
  ∀ op, a = .other op → op.target ≠ c ∧
    ((p.channel op.target).index < 0 → 0 ≤ (p.channel op.target).fd ∧
      p.channels.lookup (p.channel op.target).fd = none)

/-- While the channel is in the table, every step but the removal leaves it there. -/
theorem registered (h : TableStep p c a p') (htable : p.Table) (hreg : p.Registered c)
    (hother : OtherLegal p c a) (ha : a ≠ .connectDestroyedRemove) :
    p'.Table ∧ p'.Registered c := by
  cases h with
  | same => exact ⟨htable, hreg⟩
  | own op htarget hop happly =>
      subst htarget
      exact htable.apply_registered hop hreg happly
  | event revents readv write _ =>
      obtain ⟨htable', hreg', -⟩ := htable.setRevents c revents
      exact ⟨htable', (hreg' c).mpr hreg⟩
  | close revents readv write _ hp =>
      obtain ⟨htable', hreg', -⟩ := htable.setRevents c revents
      have hop : ∀ d, PollerOp.disableAll c ≠ .removeChannel d := by simp
      exact htable'.apply_registered hop ((hreg' c).mpr hreg) hp
  | other op ha' hp =>
      obtain ⟨hne, hfree⟩ := hother op ha'
      obtain ⟨htable', hframe⟩ := htable.apply hfree hp
      exact ⟨htable', (hframe.registered c (Ne.symm hne)).mpr hreg⟩
  | remove ha' _ => exact absurd ha' ha

/-- Once it is out, its own updates die, and the calls on other channels leave it alone. -/
theorem stale (h : TableStep p c a p') (htable : p.Table) (hgone : ¬ p.Registered c)
    (hidx : 0 ≤ (p.channel c).index) (hother : OtherLegal p c a)
    (hevent : ∀ revents readv write, a ≠ .handleEvent revents readv write)
    (ha : a ≠ .connectDestroyedRemove) :
    p'.Table ∧ ¬ p'.Registered c ∧ p'.channel c = p.channel c := by
  cases h with
  | same => exact ⟨htable, hgone, rfl⟩
  | own op htarget hop happly =>
      subst htarget
      -- the index is that of an entry, but the map has no such descriptor
      rw [Poller.apply_eq_none_of_stale hop hgone hidx] at happly
      cases happly
  | event revents readv write ha' => exact absurd ha' (hevent revents readv write)
  | close revents readv write ha' _ => exact absurd ha' (hevent revents readv write)
  | other op ha' hp =>
      obtain ⟨hne, hfree⟩ := hother op ha'
      obtain ⟨htable', hframe⟩ := htable.apply hfree hp
      exact ⟨htable', (hframe.registered c (Ne.symm hne)).not.mpr hgone,
        hframe.unregistered c (Ne.symm hne) hgone⟩
  | remove ha' _ => exact absurd ha' ha

end TableStep

end ConnectionRun

namespace SharedConnection

open ConnectionRun

variable {s s' : SharedConnection} {a : ConnectionAction}

/-- The channel is out of the table, with the index that it had there. -/
structure Stale (run : ConnectionRun) : Prop where
  gone : ¬ run.poller.Registered run.conn.channel
  index : 0 ≤ (run.poller.channel run.conn.channel).index
  idle : run.conn.isWriting run.poller = false

/-- What runs keep. -/
structure SharedInv (s : SharedConnection) : Prop where
  stream : s.run.StreamInv
  order : s.run.OrderInv
  input : s.run.conn.inputBuffer.Wf
  table : s.run.poller.Table
  registered : s.removal ≠ .removed → s.run.poller.Registered s.run.conn.channel
  stale : s.removal = .removed → Stale s.run

/-- A step of the machine is a step of the connection and of the removal. -/
theorem step_cases (hstep : s.step a = some s') :
    ({ s.run with closed := false } : ConnectionRun).step a = some s'.run ∧
      (s'.removal = .removed → s.removal = .removed ∨ a = .connectDestroyedRemove) ∧
      (s.removal = .removed → s.Legal a → s'.removal = .removed) := by
  obtain ⟨run, hrun, h⟩ := bind_eq_some_iff.mp hstep
  cases a with
  | handleEvent revents readv write =>
      dsimp only at h
      split at h
      · obtain ⟨hlisted, h⟩ := assert_bind_eq_some_iff.mp h
        cases h
        refine ⟨hrun, (fun hremoved => by cases hremoved), fun hremoved => ?_⟩
        simp [hremoved] at hlisted
      · cases h
        exact ⟨hrun, Or.inl, fun hremoved _ => hremoved⟩
  | runFunctor result =>
      cases h
      refine ⟨hrun, fun hremoved => Or.inl ?_, fun hremoved _ => ?_⟩
      · cases hr : s.removal <;> simp [hr, Removal.next] at hremoved
        rfl
      · show s.removal.next = _
        rw [hremoved]
        rfl
  | connectDestroyed =>
      cases h
      refine ⟨hrun, (fun hremoved => by cases hremoved), fun hremoved hlegal => ?_⟩
      have hqueued : s.removal = .queued 0 := hlegal
      rw [hremoved] at hqueued
      cases hqueued
  | connectDestroyedRemove =>
      cases h
      exact ⟨hrun, fun _ => Or.inr rfl, fun _ _ => rfl⟩
  | _ =>
      cases h
      exact ⟨hrun, Or.inl, fun hremoved _ => hremoved⟩

/-- The invariants look at no `closed`. -/
theorem SharedInv.reopen (h : s.SharedInv) :
    ({ s.run with closed := false } : ConnectionRun).StreamInv ∧
      ({ s.run with closed := false } : ConnectionRun).OrderInv :=
  ⟨⟨h.stream.reads, h.stream.wf, h.stream.stream⟩,
    ⟨h.order.queued, h.order.inFlight, h.order.sublist, h.order.numbered⟩⟩

/-- What is legal here is legal for the connection. -/
theorem Legal.run (hlegal : s.Legal a) :
    ({ s.run with closed := false } : ConnectionRun).Legal a := by
  cases a with
  | handleEvent revents readv write => exact hlegal.1
  | runFunctor result => exact hlegal.1
  | connectEstablished | handleRead _ | handleWrite _ | handleClose | shutdownInLoop =>
      exact hlegal.elim
  | connectDestroyed | connectDestroyedRemove => trivial
  | _ => exact hlegal

theorem Legal.other (hlegal : s.Legal a) :
    TableStep.OtherLegal s.run.poller s.run.conn.channel a := by
  rintro op rfl
  exact hlegal

/-- `poll` reports registered channels only. -/
theorem Stale.not_handleEvent (h : Stale s.run) (hlegal : s.Legal a) (revents : Events)
    (readv : ReadvResult) (write : WriteResult) : a ≠ .handleEvent revents readv write := by
  rintro rfl
  exact h.gone hlegal.2.1.1

/-- Every legal step keeps the invariant. -/
theorem SharedInv.step (h : s.SharedInv) (hlegal : s.Legal a) (hstep : s.step a = some s') :
    s'.SharedInv := by
  obtain ⟨hrun, hremoves, hstays⟩ := step_cases hstep
  obtain ⟨hstream, horder⟩ := step_stream h.reopen.1 h.reopen.2 hlegal.run hrun
  obtain ⟨hchannel, htable⟩ := step_table h.reopen.1 hlegal.run hrun
  have hinput := step_inputBuffer h.reopen.1 h.input hlegal.run hrun
  have hchannel' : s'.run.conn.channel = s.run.conn.channel := hchannel
  by_cases hremoved : s.removal = .removed
  · -- The channel is out, and stays out.
    have hstale := h.stale hremoved
    have hnot : a ≠ .connectDestroyedRemove := by
      rintro rfl
      have hcallback : s.removal = .callback := hlegal
      rw [hremoved] at hcallback
      cases hcallback
    obtain ⟨htable', hgone, hsame⟩ := htable.stale h.table hstale.gone hstale.index hlegal.other
      (hstale.not_handleEvent hlegal) hnot
    refine ⟨hstream, horder, hinput, htable', fun hne => absurd (hstays hremoved hlegal) hne,
      fun _ => ⟨?_, ?_, ?_⟩⟩
    · rw [hchannel']
      exact hgone
    · rw [hchannel', hsame]
      exact hstale.index
    · rw [TcpConnection.isWriting, hchannel', hsame]
      exact hstale.idle
  · have hreg := h.registered hremoved
    by_cases ha : a = .connectDestroyedRemove
    · -- The removal: the index in the channel stays, and the interest was given up before.
      subst ha
      obtain ⟨p, hp, hrun'⟩ := Option.map_eq_some_iff.mp hrun
      have hp' : s.run.poller.removeChannel s.run.conn.channel = some p := hp
      obtain ⟨-, hnone, hoff⟩ := Poller.registered_of_removeChannel hp'
      obtain ⟨p₁, hp₁, hrem⟩ := h.table.remove hreg hnone hoff
      rw [hp', Option.some.injEq] at hp₁
      subst hp₁
      have hpoller : s'.run.poller = p := by rw [← hrun']
      refine ⟨hstream, horder, hinput, ?_, ?_, fun _ => ⟨?_, ?_, ?_⟩⟩
      · rw [hpoller]
        exact hrem.table
      · intro hne
        obtain ⟨run, -, hs'⟩ := bind_eq_some_iff.mp hstep
        cases hs'
        exact absurd rfl hne
      · rw [hpoller, hchannel']
        exact hrem.notRegistered
      · rw [hpoller, hchannel', hrem.self]
        exact (h.table.entry _ hreg).1
      · rw [TcpConnection.isWriting, hpoller, hchannel', hrem.self, Channel.isWriting, hnone]
        decide
    · obtain ⟨htable', hreg'⟩ := htable.registered h.table hreg hlegal.other ha
      refine ⟨hstream, horder, hinput, htable', fun _ => ?_, fun hremoved' => ?_⟩
      · rw [hchannel']
        exact hreg'
      · rcases hremoves hremoved' with hremoved' | ha'
        · exact absurd hremoved' hremoved
        · exact absurd ha' ha

/-- A connection that `connectEstablished` opened, listed in the map. -/
theorem SharedInv.of_established {p : Poller} {c : ChannelPtr} {sockfd : Int}
    (hfresh : Fresh p c sockfd) {s₀ : ConnectionRun}
    (hest : (ConnectionRun.new p c sockfd).step .connectEstablished = some s₀) :
    SharedInv ⟨s₀, .listed⟩ := by
  obtain ⟨hopen, -⟩ := open_of_established hfresh hest
  have hlegal : (ConnectionRun.new p c sockfd).Legal .connectEstablished := trivial
  obtain ⟨hstream, horder⟩ := step_stream (new_streamInv p c sockfd) (new_orderInv p c sockfd)
    hlegal hest
  exact ⟨hstream, horder,
    step_inputBuffer (new_streamInv p c sockfd) Buffer.new_wf hlegal hest,
    hopen.table, fun _ => hopen.registered, (fun hremoved => by cases hremoved)⟩

/-! ### Steps on a stale channel -/

/-- The message that the step passes to `sendInLoop`, if any, needs no update of the channel:
it is empty, or `::write` may be tried and takes all of it. -/
def NeedsNoUpdate (s : SharedConnection) (a : ConnectionAction) : Prop :=
  ∀ message result, s.run.executes a = some (message, result) →
    message = [] ∨ (s.run.backlog = [] ∧ message.length ≤ result.taken)

/-- `sendInLoop` on a stale channel. -/
theorem Stale.sendInLoop_iff {run : ConnectionRun} (h : Stale run)
    (hwf : run.conn.outputBuffer.Wf) (call : SendCall) (result : WriteResult) :
    (∃ run', run.sendInLoop call result = some run' ∧ run'.poller = run.poller) ↔
      call.message = [] ∨ (run.backlog = [] ∧ call.message.length ≤ result.taken) := by
  rw [backlog, ← TcpConnection.whole_iff hwf h.idle]
  constructor
  · rintro ⟨run', hrun, -⟩
    obtain ⟨⟨p, conn⟩, hcall, -⟩ := Option.map_eq_some_iff.mp hrun
    obtain ⟨b, -, -, -, hp⟩ := TcpConnection.sendInLoop_spec hwf hcall
    by_contra hrest
    -- What is left turns the write interest on, and the update dies.
    rw [if_pos ⟨by omega, h.idle⟩] at hp
    have hop : ∀ d, PollerOp.enableWriting run.conn.channel ≠ .removeChannel d := by simp
    have hnone := Poller.apply_eq_none_of_stale hop h.gone h.index
    have hsome : (PollerOp.enableWriting run.conn.channel).apply run.poller = some p := hp
    rw [hnone] at hsome
    cases hsome
  · intro hwhole
    have hcall := TcpConnection.sendInLoop_of_whole hwhole
    refine ⟨_, Option.map_eq_some_iff.mpr ⟨_, hcall, rfl⟩, rfl⟩

/-- Apart from the dispatch, which may end in `removeConnection`, a step returns when the
connection's step does. -/
theorem step_returns_iff
    (hevent : ∀ revents readv write, a ≠ .handleEvent revents readv write) :
    (∃ s', s.step a = some s' ∧ s'.run.poller = s.run.poller) ↔
      ∃ run, ({ s.run with closed := false } : ConnectionRun).step a = some run ∧
        run.poller = s.run.poller := by
  constructor
  · rintro ⟨s', hstep, hpoller⟩
    exact ⟨s'.run, (step_cases hstep).1, hpoller⟩
  · rintro ⟨run, hrun, hpoller⟩
    rw [step]
    cases a with
    | handleEvent revents readv write => exact absurd rfl (hevent revents readv write)
    | _ => exact ⟨_, by rw [hrun]; rfl, hpoller⟩

/-- A step on a stale channel returns without an update exactly if it needs none. -/
theorem SharedInv.stale_step_iff (h : s.SharedInv) (hremoved : s.removal = .removed)
    (hlegal : s.Legal a) (hown : ∀ op, a ≠ .other op) :
    (∃ s', s.step a = some s' ∧ s'.run.poller = s.run.poller) ↔ s.NeedsNoUpdate a := by
  have hstale := h.stale hremoved
  rw [step_returns_iff (hstale.not_handleEvent hlegal), NeedsNoUpdate]
  -- The steps that execute no `sendInLoop` call nothing of the channel.
  have none_executed : s.run.executes a = none →
      (∃ run, ({ s.run with closed := false } : ConnectionRun).step a = some run ∧
        run.poller = s.run.poller) →
      ((∃ run, ({ s.run with closed := false } : ConnectionRun).step a = some run ∧
        run.poller = s.run.poller) ↔ ∀ message result,
          s.run.executes a = some (message, result) →
            message = [] ∨ (s.run.backlog = [] ∧ message.length ≤ result.taken)) := by
    intro hexec hreturns
    rw [hexec]
    simpa using hreturns
  cases a with
  | connectEstablished | handleRead _ | handleWrite _ | handleClose | shutdownInLoop =>
      exact hlegal.elim
  | handleEvent revents readv write =>
      exact absurd rfl (hstale.not_handleEvent hlegal revents readv write)
  | connectDestroyed | connectDestroyedRemove =>
      -- They ran before the removal.
      have hremoval : s.removal = _ := hlegal
      rw [hremoved] at hremoval
      cases hremoval
  | other op => exact absurd rfl (hown op)
  | shutdown =>
      refine none_executed rfl ?_
      rw [ConnectionRun.step]
      split <;> exact ⟨_, rfl, rfl⟩
  | sendFrom t message | shutdownFrom t | resume t =>
      refine none_executed rfl ?_
      rw [ConnectionRun.step]
      split <;> exact ⟨_, rfl, rfl⟩
  | input op =>
      refine none_executed rfl ?_
      obtain ⟨b, hb, -⟩ := Buffer.apply_spec h.input hlegal
      exact ⟨_, Option.map_eq_some_iff.mpr ⟨b, hb, rfl⟩, rfl⟩
  | send message result =>
      -- a connected state sends at once, on the loop's thread
      by_cases hstate : s.run.conn.state = .kConnected
      · rw [ConnectionRun.step, executes, if_pos hstate, if_pos hstate]
        have hstale' : Stale (({ s.run with closed := false } : ConnectionRun).recordSend
            (ConnectionRun.nextSend { s.run with closed := false } .loop message)) :=
          ⟨hstale.gone, hstale.index, hstale.idle⟩
        refine Iff.trans (hstale'.sendInLoop_iff h.stream.wf
          (ConnectionRun.nextSend { s.run with closed := false } .loop message) result) ?_
        show message = [] ∨ (s.run.backlog = [] ∧ message.length ≤ result.taken) ↔ _
        simp
      · refine none_executed (if_neg hstate) ?_
        rw [ConnectionRun.step, if_neg hstate]
        exact ⟨_, rfl, rfl⟩
  | runFunctor result =>
      cases hpending : s.run.pendingFunctors with
      | nil =>
          refine none_executed (by simp [executes, hpending]) ?_
          rw [ConnectionRun.step]
          simp [hpending]
      | cons f rest =>
          cases f with
          | sendInLoop call =>
              -- A send that another thread queued while the connection was still connected.
              have hstale' : Stale { s.run with closed := false, pendingFunctors := rest } :=
                ⟨hstale.gone, hstale.index, hstale.idle⟩
              have hcall := hstale'.sendInLoop_iff h.stream.wf call result
              rw [ConnectionRun.step]
              simp only [executes, hpending, Option.some.injEq, Prod.mk.injEq]
              rw [hcall]
              simp [backlog]
          | shutdownInLoop =>
              refine none_executed (by simp [executes, hpending]) ?_
              rw [ConnectionRun.step]
              simp [hpending]

/-! ### Every run -/

/-- No update of a removed channel, up to the sends behind the removal. In every run of a
connection that users keep (sends and shutdowns from any threads, the peer closing it, any
results of `::write`, and calls on the other channels of the loop), in every state after
`connectDestroyed` has called `removeChannel`, a legal step of the connection returns and
leaves the table alone exactly if the message that it passes to `sendInLoop`, if any, is
empty, or the output buffer is empty and `::write` takes the whole message. Otherwise the
update fails an assertion. -/
theorem no_stale_update_iff (p : Poller) (c : ChannelPtr) (sockfd : Int)
    (hfresh : Fresh p c sockfd) (s₀ : ConnectionRun)
    (hest : (ConnectionRun.new p c sockfd).step .connectEstablished = some s₀)
    (as : List ConnectionAction) (s : SharedConnection)
    (hrun : sharedMachine.Run ⟨s₀, .listed⟩ as s) (hremoved : s.removal = .removed)
    (a : ConnectionAction) (hlegal : sharedMachine.legal s a) (hown : ∀ op, a ≠ .other op) :
    (∃ s', sharedMachine.step s a = some s' ∧ s'.run.poller = s.run.poller) ↔
      s.NeedsNoUpdate a := by
  have hinv : s.SharedInv := by
    refine hrun.invariant (SharedInv.of_established hfresh hest) ?_
    intro s a s' h hlegal hstep
    exact h.step hlegal hstep
  exact hinv.stale_step_iff hremoved hlegal hown

/-! ### A send behind the removal -/

/-- The connection of the examples. -/
def established : Option SharedConnection :=
  ((ConnectionRun.new (Poller.new fun _ => Channel.new 0) 0 3).step .connectEstablished).map
    fun s₀ => ⟨s₀, .listed⟩

/-- The peer closes, the server erases the connection, another thread sends two bytes behind
the queued `connectDestroyed`, and the loop runs that. -/
def sendBehindRemoval : List ConnectionAction :=
  [.handleEvent POLLIN (.bytes []) (.ok 0), .sendFrom 0 [1, 2], .resume 0, .connectDestroyed,
    .connectDestroyedRemove]

/-- The theorem at the send behind the removal: with both bytes taken the step returns. -/
theorem no_stale_update_iff_taken :
    ∃ s, s.removal = .removed ∧
      ∃ s', sharedMachine.step s (.runFunctor (.ok 2)) = some s' ∧
        s'.run.poller = s.run.poller := by
  obtain ⟨s₀, s, hstart, hrun, hremoved, hbacklog, hpending⟩ :=
    Machine.exists_run_from (M := sharedMachine)
      (P := fun s => s.removal = .removed ∧ s.run.backlog = [] ∧
        s.run.pendingFunctors = [.sendInLoop ⟨.other 0, 0, [1, 2]⟩])
      established sendBehindRemoval (by decide +kernel)
  obtain ⟨run, hest, rfl⟩ := Option.map_eq_some_iff.mp hstart
  have hlegal : sharedMachine.legal s (.runFunctor (.ok 2)) := by
    refine ⟨?_, by rw [hremoved]; rfl⟩
    show ∃ f ∈ s.run.pendingFunctors.head?, Functor.Fits (.ok 2) f
    rw [hpending]
    decide
  refine ⟨s, hremoved, (no_stale_update_iff _ 0 3 fresh_new run hest _ s hrun hremoved
    (.runFunctor (.ok 2)) hlegal (by simp)).mpr ?_⟩
  intro message result hexec
  rw [executes, hpending] at hexec
  cases hexec
  exact Or.inr ⟨hbacklog, by decide⟩

/-- With one byte left the update is made, and dies. -/
theorem not_no_stale_update :
    ¬ ∀ (p : Poller) (c : ChannelPtr) (sockfd : Int), Fresh p c sockfd → ∀ s₀,
      (ConnectionRun.new p c sockfd).step .connectEstablished = some s₀ →
      ∀ as s, sharedMachine.Run ⟨s₀, .listed⟩ as s → s.removal = .removed →
      ∀ a, sharedMachine.legal s a → (∀ op, a ≠ .other op) →
        ∃ s', sharedMachine.step s a = some s' ∧ s'.run.poller = s.run.poller := by
  intro hall
  obtain ⟨s₀, s, hstart, hrun, hremoved, hlegal, hdies⟩ :=
    Machine.exists_run_from (M := sharedMachine)
      (P := fun s => s.removal = .removed ∧ sharedMachine.legal s (.runFunctor (.ok 1)) ∧
        (sharedMachine.step s (.runFunctor (.ok 1))).isNone)
      established sendBehindRemoval (by decide +kernel)
  obtain ⟨run, hest, rfl⟩ := Option.map_eq_some_iff.mp hstart
  obtain ⟨s', hstep, -⟩ := hall _ 0 3 fresh_new run hest _ s hrun hremoved _ hlegal (by simp)
  rw [hstep] at hdies
  cases hdies

end SharedConnection

end SecondGear
