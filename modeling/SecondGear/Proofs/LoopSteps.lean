import SecondGear.Proofs.LoopInvariant

/-!
# `SecondGear.Proofs.LoopSteps`: every step returns and keeps the invariant

One theorem for each action, `inv_..`: from a state with the invariant, a legal step
returns, in a state with the invariant. What most of them have in common is in two
structures. `ConnectionObject.Moves` is a change of one connection with the call on its
channel. `Calm` is a change of the loop's place that moves no `connectDestroyed`. With these, a step
that keeps the stage of its connection is `of_moves`, and one that changes no connection is
`of_calm`. The steps that change a stage use the lemmas about the single parts
(`Proofs/LoopInvariant.lean`).

This file has the two rules and the actions of user code. The loop's own actions are in
`Proofs/LoopCallbacks.lean`, `Proofs/LoopAccept.lean` and `Proofs/LoopRuns.lean`, where two actions
need one thing more: an accept, that the map of the server has nothing under the new name
(`FreshName`), and a swap of functors, that the batch is not too large (`FunctorsFit`).
-/

set_option autoImplicit false

namespace SecondGear

open SecondGear.Lib

/-! ### One connection changes -/

/-- One connection changes, with at most a call on its own channel. The stage may change as well. It
keeps its channel, its descriptor, its server and its name, and afterwards it is in order and wired
again. -/
structure ConnectionObject.Moves (p p' : Poller) (k k' : ConnectionObject) : Prop where
  ok : k'.Ok
  channel : k'.conn.channel = k.conn.channel
  openFd : k'.openFd = k.openFd
  server : k'.server = k.server
  name : k'.name = k.name
  table : p'.Table
  others : Poller.Others p p' k.conn.channel
  reads : (p'.channel k.conn.channel).ReadsOnly
  wired : k'.Wired p'

/-- A new object that is on the same channel, with the same place and descriptor. This is the half
of `Moves` that is seen from the object alone, mostly by `rfl`. -/
structure ConnectionObject.SamePlace (k k' : ConnectionObject) : Prop where
  channel : k'.conn.channel = k.conn.channel
  sockfd : k'.conn.socket.sockfd = k.conn.socket.sockfd
  server : k'.server = k.server
  name : k'.name = k.name

/-- Unless one of the two is destroyed, the descriptor stays open. -/
theorem ConnectionObject.SamePlace.openFd {k k' : ConnectionObject}
    (h : ConnectionObject.SamePlace k k') (hok : k.Ok) (hok' : k'.Ok)
    (hclosed : k'.stage = .closed ↔ k.stage = .closed) : k'.openFd = k.openFd := by
  rw [hok.openFd_eq, hok'.openFd_eq, h.sockfd]
  exact if_congr hclosed rfl rfl

namespace EventLoop

open ConnectionObject

variable {s s' : EventLoop}

/-- The loop goes on without a `connectDestroyed` being queued or run. It may take a callback from
the batch, enter or leave user code, run a functor of the user or queue one. -/
structure Calm (s s' : EventLoop) : Prop where
  active : s'.activeChannels = s.activeChannels
  pending : ∀ id, (s'.pendingFunctors ++ s'.pc.rest).count (.connectDestroyed id)
    = (s.pendingFunctors ++ s.pc.rest).count (.connectDestroyed id)
  mem : ∀ id, .connectDestroyed id ∈ s'.pendingFunctors →
    .connectDestroyed id ∈ s.pendingFunctors
  frame : ∀ id, s'.frame = some (.connectDestroyed id) ↔ s.frame = some (.connectDestroyed id)
  dispatch : s'.pc.isDispatch = s.pc.isDispatch
  poll : s'.pc = .poll → s'.frame = none
  todo : s'.pc.todo.Sublist s.pc.todo
  current : ∀ x ∈ s'.pc.current, x ∈ s.pc.current
  functors : s'.pc.functors.length ≤ s.pc.functors.length

/-- The loop stays where it is, as in user code. -/
theorem Calm.of_eq (h : s.Queued) (hactive : s'.activeChannels = s.activeChannels)
    (hpending : s'.pendingFunctors = s.pendingFunctors) (hpc : s'.pc = s.pc)
    (hframe : s'.frame = s.frame) : Calm s s' where
  active := hactive
  pending := by rw [hpending, hpc]; exact fun _ => rfl
  mem := by rw [hpending]; exact fun _ hid => hid
  frame := by rw [hframe]; exact fun _ => Iff.rfl
  dispatch := by rw [hpc]
  poll := by rw [hpc, hframe]; exact h.poll
  todo := by rw [hpc]
  current := by rw [hpc]; exact fun _ hx => hx
  functors := by rw [hpc]

namespace Inv

/-- The parts that see the connections and their channels. They need not know the stage; what the
maps and the queue say does depend on it. -/
theorem parts_of_moves (h : s.Inv) {id : Nat} {k k' : ConnectionObject}
    (hk : s.conns[id]? = some k) (hmoves : Moves s.poller s'.poller k k')
    (howners : s'.owners = s.owners) (hfds : s'.serviceFds = s.serviceFds)
    (hconns : s'.conns = s.conns.set id k') :
    s'.Objects ∧ s'.Wired ∧ s'.conns.map (fun k => (k.server, k.name))
      = s.conns.map fun k => (k.server, k.name) := by
  refine ⟨h.objects.of_set hk howners hconns hmoves.ok hmoves.channel, ?_, ?_⟩
  · exact h.wired.of_set h.objects hk howners hfds hconns hmoves.table hmoves.others
      hmoves.reads hmoves.openFd hmoves.wired
  · exact map_conns_set hk hconns (by rw [hmoves.server, hmoves.name])

/-- A connection changes and keeps its stage, and the loop goes on. Its channel stays registered if
it was, so a batch that has it ahead still may. -/
theorem of_moves (h : s.Inv) {id : Nat} {k k' : ConnectionObject}
    (hk : s.conns[id]? = some k) (hmoves : Moves s.poller s'.poller k k')
    (hstage : k'.stage = k.stage) (hcalm : Calm s s') (howners : s'.owners = s.owners)
    (hservers : s'.servers = s.servers) (hfds : s'.serviceFds = s.serviceFds)
    (hconns : s'.conns = s.conns.set id k') : s'.Inv := by
  obtain ⟨hobjects, hwired, hplaces⟩ := h.parts_of_moves hk hmoves howners hfds hconns
  have hstages := stageOf_set_same hk hconns hstage
  have hregistered : ∀ c, s.poller.Registered c → s'.poller.Registered c := by
    intro c hc
    by_cases hne : c = k.conn.channel
    · rw [hne] at hc ⊢
      have hreg := (h.wired.conn id k hk).registered.mp hc
      rw [← hmoves.channel, hmoves.wired.registered, hstage]
      exact hreg
    · exact (hmoves.others.registered c hne).mpr hc
  refine ⟨hobjects, hwired, ?_, ?_, ?_, ?_⟩
  · exact h.listed.of_same howners hservers (placeOf_of_map hplaces)
      fun j => by rw [hstages]
  · exact h.queued.of_same hcalm.pending hcalm.mem hcalm.frame hcalm.dispatch hcalm.poll
      hcalm.functors (fun j => by rw [hstages]) (fun j => by rw [hstages])
  · refine h.dispatched.of_same hcalm.active (fun hd => hcalm.dispatch ▸ hd) hcalm.todo
      hcalm.current (fun _ c _ => hregistered c) ?_
    intro c _ j hj
    rw [howners] at hj
    exact ⟨hj, fun hlive => by rw [hstages]; exact hlive⟩
  · refine h.numbered.of_same ?_ hplaces
    intro i server hi
    rw [hservers] at hi
    exact ⟨server, hi, rfl, rfl⟩

/-- The loop goes on, and nothing changes for the connections or the table. -/
theorem of_calm (h : s.Inv) (hcalm : Calm s s') (hpoller : s'.poller = s.poller)
    (howners : s'.owners = s.owners) (hservers : s'.servers = s.servers)
    (hfds : s'.serviceFds = s.serviceFds) (hconns : s'.conns = s.conns) : s'.Inv := by
  have hstages : ∀ j, s'.stageOf j = s.stageOf j := fun j => by rw [stageOf, stageOf, hconns]
  refine ⟨h.objects.of_eq howners hconns, h.wired.of_eq hpoller howners hfds hconns, ?_, ?_, ?_,
    ?_⟩
  · exact h.listed.of_same howners hservers (fun j => by rw [placeOf, placeOf, hconns])
      fun j => by rw [hstages]
  · exact h.queued.of_same hcalm.pending hcalm.mem hcalm.frame hcalm.dispatch hcalm.poll
      hcalm.functors (fun j => by rw [hstages]) (fun j => by rw [hstages])
  · refine h.dispatched.of_same hcalm.active (fun hd => hcalm.dispatch ▸ hd) hcalm.todo
      hcalm.current (fun _ c _ hc => by rw [hpoller]; exact hc) ?_
    intro c _ j hj
    rw [howners] at hj
    exact ⟨hj, fun hlive => by rw [hstages]; exact hlive⟩
  · refine h.numbered.of_same ?_ (by rw [hconns])
    intro i server hi
    rw [hservers] at hi
    exact ⟨server, hi, rfl, rfl⟩

/-- The channel of a connection has only the read callback. -/
theorem readsOnly (h : s.Inv) {id : Nat} {k : ConnectionObject} (hk : s.conns[id]? = some k) :
    (s.poller.channel k.conn.channel).ReadsOnly :=
  h.wired.reads _ (List.getElem?_eq_some_iff.mp (h.objects.channel id k hk)).1

/-- A change without a call on the table: bytes move between buffers, events are recorded, or
references are counted. -/
theorem moves_same (h : s.Inv) {id : Nat} {k k' : ConnectionObject}
    (hk : s.conns[id]? = some k) (hok : k'.Ok) (hplace : SamePlace k k')
    (hstage : k'.stage = k.stage) : Moves s.poller s.poller k k' := by
  have hwired := h.wired.conn id k hk
  refine ⟨hok, hplace.channel, hplace.openFd (h.objects.ok id k hk) hok (by rw [hstage]),
    hplace.server, hplace.name, h.wired.table, .refl _ _, h.readsOnly hk, ?_⟩
  refine ⟨?_, ?_, ?_, ?_⟩
  · rw [hplace.channel, hplace.sockfd]
    exact hwired.sockfd
  · rw [hplace.channel, hstage]
    exact hwired.registered
  · rw [hplace.channel, hstage]
    exact hwired.off
  · rw [hplace.channel, hstage]
    exact hwired.quiet

/-- A change with an update of the registered channel to the events `e`. The entry of a
channel without events is switched off, and an entry that is off stays off. The new object is chosen
by the caller, once the call is known to return: `hoffs` and `hquiet` are what the stages on the way
out ask of the events. -/
theorem moves_update (h : s.Inv) {id : Nat} {k : ConnectionObject}
    (hk : s.conns[id]? = some k) (hreg : k.stage.isRegistered) {e : Events}
    (he : Channel.HasMask e) :
    ∃ p', (s.poller.setEvents k.conn.channel e).updateChannel k.conn.channel = some p' ∧
      ∀ k' : ConnectionObject, k'.Ok → SamePlace k k' → k'.stage.isRegistered →
        (k'.stage = .closing ∨ k'.stage = .destroying →
          e = Channel.kNoneEvent ∨ k.stage = .closing ∨ k.stage = .destroying) →
        (k'.stage = .destroying → e = Channel.kNoneEvent) → Moves s.poller p' k k' := by
  have hwired := h.wired.conn id k hk
  obtain ⟨p', hcall, hup, hoff⟩ := h.wired.table.update_off (hwired.registered.mpr hreg) he
  refine ⟨p', hcall, ?_⟩
  intro k' hok hplace hreg' hoffs hquiet
  have hnotClosed : ∀ stage : Stage, stage.isRegistered = true → stage ≠ .closed := by
    rintro stage hstage rfl
    cases hstage
  refine ⟨hok, hplace.channel, hplace.openFd (h.objects.ok id k hk) hok ?_, hplace.server,
    hplace.name, hup.table, hup.frame.others, ?_, ?_⟩
  · exact iff_of_false (hnotClosed _ hreg') (hnotClosed _ hreg)
  · obtain ⟨i, hi⟩ := hup.self
    have hreads := h.readsOnly hk
    rw [hi]
    exact ⟨hreads.read, hreads.write, hreads.error, hreads.close⟩
  · refine ⟨?_, ?_, ?_, ?_⟩
    · rw [hplace.channel, hplace.sockfd, hup.fd_self]
      exact hwired.sockfd
    · rw [hplace.channel]
      exact iff_of_true hup.registered hreg'
    · intro hstage
      rw [hplace.channel]
      exact hoff ((hoffs hstage).imp_right hwired.off)
    · intro hstage
      rw [hplace.channel, hup.events_self]
      exact hquiet hstage

/-! ### User code -/

/-- `send` in the loop thread. On a connection that is up it writes what it can, and asks for
`POLLOUT` if a rest waits; the channel of such a connection is registered, so the update returns. On
any other it does nothing. -/
theorem inv_send (h : s.Inv) {id : Nat} (halive : s.Alive id) (message : List Byte)
    (result : WriteResult) :
    ∃ s', s.stepBody (.send id message result) = some s' ∧ s'.Inv := by
  obtain ⟨k, hk, -⟩ := halive
  have hok := h.objects.ok id k hk
  simp only [stepBody, show s.conns[id]? = some k from hk, Option.bind_eq_bind, Option.bind_some]
  by_cases hstate : k.conn.state = .kConnected
  · have hopen := hok.isOpen_of_connected hstate
    have hreg : k.stage.isRegistered = true := by
      cases hs : k.stage <;> rw [hs] at hopen <;> first | rfl | cases hopen
    have hnot : k.stage ≠ .destroying := by
      intro hs
      rw [hs] at hopen
      cases hopen
    obtain ⟨p₁, hwriting, hmoves⟩ := h.moves_update hk hreg (Or.inr (Or.inr rfl))
    obtain ⟨p', conn', hcall⟩ :=
      TcpConnection.sendInLoop_returns hok.output message result hwriting
    rw [if_pos hstate, hcall]
    obtain ⟨b, hb, -, hconn, hp⟩ := TcpConnection.sendInLoop_spec hok.output hcall
    -- The socket keeps its descriptor, whatever was written.
    have hsockfd : conn'.socket.sockfd = k.conn.socket.sockfd := by
      rw [hconn]
      show (if _ then k.conn.socket.write message result else k.conn.socket).sockfd = _
      split <;> rfl
    have hplace : SamePlace k (k.setConn conn') :=
      ⟨by rw [setConn_conn, hconn], hsockfd, rfl, rfl⟩
    have hok' : (k.setConn conn').Ok :=
      hok.setConn (Or.inl (by rw [hconn])) (by rw [hconn]; exact hok.input)
        (by rw [hconn]; exact hb)
    have hmove : Moves s.poller p' k (k.setConn conn') := by
      split at hp
      · have heq : p₁ = p' := Option.some.inj (hwriting.symm.trans hp)
        rw [← heq]
        exact hmoves _ hok' hplace hreg Or.inr fun hs => absurd hs hnot
      · rw [hp]
        exact h.moves_same hk hok' hplace rfl
    exact ⟨_, rfl, h.of_moves hk hmove rfl (.of_eq h.queued rfl rfl rfl rfl) rfl rfl rfl rfl⟩
  · rw [if_neg hstate]
    exact ⟨s, rfl, h⟩

/-- `shutdown` in the loop thread. The state is down by one, which is still open, and the half-close
is a call on the socket: no assertion is near. -/
theorem inv_shutdown (h : s.Inv) {id : Nat} (halive : s.Alive id) :
    ∃ s', s.stepBody (.shutdown id) = some s' ∧ s'.Inv := by
  obtain ⟨k, hk, -⟩ := halive
  have hok := h.objects.ok id k hk
  simp only [stepBody, show s.conns[id]? = some k from hk, Option.bind_eq_bind, Option.bind_some]
  by_cases hstate : k.conn.state = .kConnected
  · rw [if_pos hstate]
    have hopen := hok.isOpen_of_connected hstate
    have heq := TcpConnection.shutdownInLoop_eq s.poller (k.conn.setState .kDisconnecting)
    have hok' : (k.setConn ((k.conn.setState .kDisconnecting).shutdownInLoop s.poller)).Ok := by
      refine hok.setConn (Or.inr ⟨hopen, Or.inr ?_⟩) ?_ ?_
      · rw [heq]
        rfl
      · rw [heq]
        exact hok.input
      · rw [heq]
        exact hok.output
    have hplace : SamePlace k
        (k.setConn ((k.conn.setState .kDisconnecting).shutdownInLoop s.poller)) := by
      refine ⟨by rw [setConn_conn, heq]; rfl, ?_, rfl, rfl⟩
      rw [setConn_conn, heq]
      show (if _ then k.conn.socket else k.conn.socket.shutdownWrite).sockfd = _
      split <;> rfl
    exact ⟨_, rfl, h.of_moves hk (h.moves_same hk hok' hplace rfl) rfl
      (.of_eq h.queued rfl rfl rfl rfl) rfl rfl rfl rfl⟩
  · rw [if_neg hstate]
    exact ⟨s, rfl, h⟩

/-- A call on an input buffer. What the assertions of `Buffer` ask of it is in `hop`. -/
theorem inv_input (h : s.Inv) {id : Nat} (halive : s.Alive id) {op : Buffer.Op}
    (hop : ∀ k ∈ s.conns[id]?, k.conn.inputBuffer.Legal op) :
    ∃ s', s.stepBody (.input id op) = some s' ∧ s'.Inv := by
  obtain ⟨k, hk, -⟩ := halive
  have hok := h.objects.ok id k hk
  obtain ⟨b, hcall, hb, -⟩ := Buffer.apply_spec hok.input (hop k hk)
  simp only [stepBody, show s.conns[id]? = some k from hk, Option.bind_eq_bind, Option.bind_some,
    hcall]
  have hok' : (k.setConn { k.conn with inputBuffer := b }).Ok :=
    hok.setConn (Or.inl rfl) hb hok.output
  exact ⟨_, rfl, h.of_moves hk (h.moves_same hk hok' ⟨rfl, rfl, rfl, rfl⟩ rfl) rfl
    (.of_eq h.queued rfl rfl rfl rfl) rfl rfl rfl rfl⟩

/-- The user copies or drops references. The invariant does not count them: the library holds the
references that keep a connection alive while it is registered. -/
theorem inv_userRefs (h : s.Inv) {id : Nat} {k : ConnectionObject} (hk : s.conns[id]? = some k)
    (n : Nat) : (s.setConn id { k with userRefs := n }).Inv := by
  have hok' := (h.objects.ok id k hk).of_userRefs n
  exact h.of_moves hk (h.moves_same hk hok' ⟨rfl, rfl, rfl, rfl⟩ rfl) rfl
    (.of_eq h.queued rfl rfl rfl rfl) rfl rfl rfl rfl

/-- A functor of the user is queued, by a callback or by another thread. It waits for the next swap,
wherever the loop is. -/
theorem inv_queueInLoop (h : s.Inv) :
    ∃ s', s.stepBody .queueInLoop = some s' ∧ s'.Inv := by
  refine ⟨_, rfl, h.of_calm ⟨rfl, ?_, ?_, fun _ => Iff.rfl, rfl, h.queued.poll, .refl _,
    fun _ hx => hx, le_refl _⟩ rfl rfl rfl rfl rfl⟩
  · intro id
    simp
  · intro id hid
    simpa using hid

end Inv

end EventLoop

end SecondGear
