import SecondGear.Proofs.LoopSteps

/-!
# `SecondGear.Proofs.LoopCallbacks`: the loop, its callbacks and its functors

The actions of the loop thread itself, again one theorem each:

* `inv_poll` starts a batch. At the head of the loop no connection is on its way out
  (`Queued.at_poll`), so everybody in the batch is established.
* `inv_handleEvent` goes on with it, with the next channel.
* `inv_handleClose` takes an established connection out of its server's map. `Listed.of_close` and
  `Queued.of_close` say what this does to the maps and to the queue.

The other changes of a stage are in `SecondGear.Proofs.LoopAccept` and `SecondGear.Proofs.LoopRuns`.
-/

set_option autoImplicit false

namespace SecondGear

open SecondGear.Lib

namespace EventLoop

open ConnectionObject

variable {s s' : EventLoop}

/-! ### Polling -/

/-- At the head of the loop no connection is on its way out. Whoever closed in the batch before had
its `connectDestroyed` queued, and the functors behind that batch ran it. So no connection is polled
whose end has begun. -/
theorem Queued.at_poll (h : s.Queued) (hpc : s.pc = .poll) (id : TcpConnectionPtr) :
    s.stageOf id ≠ some .closing ∧ s.stageOf id ≠ some .destroying := by
  constructor
  · intro hclosing
    have hcount := h.pending id
    rw [if_pos hclosing, hpc] at hcount
    have hmem : .connectDestroyed id ∈ s.pendingFunctors ++ LoopPc.rest .poll :=
      List.count_pos_iff.mp (by omega)
    exact h.quiet (by rw [hpc]; rfl) id (by simpa [LoopPc.rest] using hmem)
  · intro hdestroying
    have hframe := (h.frame id).mpr hdestroying
    rw [h.poll hpc] at hframe
    cases hframe

/-- A change of what the last poll reported. The reports are no part of `Wired`, so a poll that
keeps the entries and who is registered keeps it. -/
theorem Wired.of_revents (h : s.Wired) (howners : s'.owners = s.owners)
    (hfds : s'.serviceFds = s.serviceFds) (hconns : s'.conns = s.conns)
    (htable : s'.poller.Table) (hsame : Poller.SameButRevents s.poller s'.poller)
    (hreg : ∀ d, s'.poller.Registered d ↔ s.poller.Registered d)
    (hoff : ∀ d, s.poller.Off d → s'.poller.Off d)
    (hon : ∀ d, s.poller.On d → s'.poller.On d) : s'.Wired where
  table := htable
  owned c hc := by
    rw [howners]
    exact h.owned c ((hreg c).mp hc)
  reads c hc := by
    rw [howners] at hc
    have hold := h.reads c hc
    obtain ⟨r, hr⟩ := hsame c
    rw [hr]
    exact ⟨hold.read, hold.write, hold.error, hold.close⟩
  service c o hc hservice := by
    rw [howners] at hc
    obtain ⟨hregc, honc, hfd⟩ := h.service c o hc hservice
    obtain ⟨r, hr⟩ := hsame c
    refine ⟨(hreg c).mpr hregc, hon c honc, ?_⟩
    rw [hr, hfds]
    exact hfd
  conn id k hk := by
    rw [hconns] at hk
    have hwired := h.conn id k hk
    obtain ⟨r, hr⟩ := hsame k.conn.channel
    refine ⟨?_, (hreg _).trans hwired.registered, fun hs => hoff _ (hwired.off hs), ?_⟩
    · rw [hr]
      exact hwired.sockfd
    · rw [hr]
      exact hwired.quiet
  distinct := by
    rw [openFds, hfds, hconns]
    exact h.distinct
  ints := by
    have hopen : s'.openFds = s.openFds := by rw [openFds, openFds, hfds, hconns]
    rw [sockets_eq hopen]
    exact h.ints

namespace Inv

/-- `poll` returns, whatever the kernel answers. The answer has one report for each entry and none
for those that are off, which is what `::poll` promises; nothing is assumed about `numEvents`. The
batch is what `getActiveChannels` makes of it, channels with a report in the order of their entries.
-/
theorem inv_poll (h : s.Inv) (hpc : s.pc = .poll) {answer : List (BitVec 16)}
    (hans : Answers s.poller answer) (numEvents : Int) :
    ∃ s', s.stepBody (.poll answer numEvents) = some s' ∧ s'.Inv := by
  obtain ⟨p', active, hcall, htable, hsame, hreg, hoff, hon, hnodup, hactive⟩ :=
    h.wired.table.poll hans numEvents
  have hframe := h.queued.poll hpc
  refine ⟨{ s with poller := p', activeChannels := active, pc := .dispatch [] active },
    by rw [stepBody, hcall]; rfl, h.objects.of_eq rfl rfl,
    h.wired.of_revents rfl rfl rfl htable hsame hreg hoff hon,
    h.listed.of_same rfl rfl (fun _ => rfl) (fun _ => Iff.rfl), ?_, ?_, h.numbered⟩
  -- queued: `poll` runs no functor
  · refine ⟨fun id => ?_, h.queued.frame, fun id hid => ?_, (fun hd => by cases hd),
      (fun hp => by cases hp), Nat.two_pow_pos 31⟩
    · have hcount := h.queued.pending id
      rw [hpc] at hcount
      exact hcount
    · rw [show EventLoop.frame _ = s.frame from rfl, hframe] at hid
      cases hid
  -- dispatched: the whole batch is in front
  · refine ⟨fun _ c hc => (hreg c).mpr (hactive c hc), fun c hc => hc, hnodup,
      by simp [LoopPc.current], fun c hc id hid => ?_⟩
    -- A registered connection that is not on its way out is established.
    obtain ⟨k, hk, hkc⟩ := h.objects.owner c id hid
    have hstage := (h.wired.conn id k hk).registered.mp (hkc ▸ hactive c hc)
    have hnot := h.queued.at_poll hpc id
    show s.stageOf id = _
    rw [stageOf_eq hk] at hnot ⊢
    cases hs : k.stage <;> rw [hs] at hnot hstage <;> simp_all [Stage.isRegistered]

/-! ### Dispatching -/

/-- The callbacks of a channel: `handleRead`, or none. A report without `POLLIN`, `POLLPRI` and
`POLLRDHUP` calls nobody, since only the read callback is installed. -/
theorem handleEvent_cases (h : s.Inv) {c : ChannelPtr} (hc : s.poller.Registered c) :
    (s.poller.channel c).handleEvent = [.handleRead] ∨ (s.poller.channel c).handleEvent = [] := by
  rw [(h.wired.reads c (h.wired.owned c hc)).handleEvent_eq]
  split
  · exact Or.inl rfl
  · exact Or.inr rfl

/-- The next channel of the batch starts. What it calls is fixed here, from its report, and the
calls follow one by one. -/
theorem inv_handleEvent (h : s.Inv) {c : ChannelPtr} {rest : List ChannelPtr}
    (hpc : s.pc = .dispatch [] (c :: rest)) :
    ∃ s', s.stepBody .handleEvent = some s' ∧ s'.Inv := by
  have hdispatch := h.dispatched
  have htodo : s.pc.todo = c :: rest := by rw [hpc]; rfl
  have hisDispatch : s.pc.isDispatch = true := by rw [hpc]; rfl
  have hc : s.poller.Registered c :=
    hdispatch.batch hisDispatch c (hdispatch.sub c (by rw [htodo]; exact List.mem_cons_self))
  have hcurrent := h.handleEvent_cases hc
  let pc : LoopPc := .dispatch ((s.poller.channel c).handleEvent.map (c, ·)) rest
  -- The channel stays in the batch if it has something to do.
  have hsub : pc.todo.Sublist s.pc.todo := by
    rw [htodo]
    rcases hcurrent with hread | hnone
    · show ((((s.poller.channel c).handleEvent.map (c, ·)).map Prod.fst) ++ rest).Sublist _
      rw [hread]
      exact .refl _
    · show ((((s.poller.channel c).handleEvent.map (c, ·)).map Prod.fst) ++ rest).Sublist _
      rw [hnone]
      exact List.sublist_cons_self c rest
  refine ⟨{ s with pc := pc }, by rw [stepBody, hpc], h.objects.of_eq rfl rfl,
    h.wired.of_eq rfl rfl rfl rfl, h.listed.of_same rfl rfl (fun _ => rfl) (fun _ => Iff.rfl),
    ?_, ⟨fun _ => hdispatch.batch hisDispatch, fun d hd => hdispatch.sub d (hsub.subset hd),
      hdispatch.nodup.sublist hsub, ?_, fun d hd => hdispatch.live d (hsub.subset hd)⟩,
    h.numbered⟩
  -- queued
  · refine h.queued.of_same ?_ (fun _ hid => hid) (fun _ => Iff.rfl) hisDispatch.symm
      (fun hp => by cases hp) (Nat.zero_le _) (fun _ => Iff.rfl) (fun _ => Iff.rfl)
    intro id
    rw [hpc]
    rfl
  -- the callbacks that are to run
  · intro x hx
    have hx' : x ∈ (s.poller.channel c).handleEvent.map (c, ·) := hx
    obtain ⟨handler, hmem, rfl⟩ := List.mem_map.mp hx'
    rcases hcurrent with hread | hnone
    · rw [hread] at hmem
      exact List.mem_singleton.mp hmem
    · rw [hnone] at hmem
      cases hmem

/-- The current callback is taken from the batch. The callback then runs in this state, so that it
is not ahead of itself: this matters for `inv_handleClose`. -/
theorem of_dispatch_tail (h : s.Inv) {x : ChannelPtr × Handler}
    {current : List (ChannelPtr × Handler)} {rest : List ChannelPtr}
    (hpc : s.pc = .dispatch (x :: current) rest) :
    ({ s with pc := .dispatch current rest } : EventLoop).Inv := by
  refine h.of_calm ⟨rfl, ?_, fun _ hid => hid, fun _ => Iff.rfl, by rw [hpc]; rfl,
    (fun hp => by cases hp), ?_, ?_, Nat.zero_le _⟩ rfl rfl rfl rfl rfl
  · intro id
    rw [hpc]
    rfl
  · rw [hpc]
    exact List.sublist_cons_self _ _
  · intro y hy
    rw [hpc]
    exact List.mem_cons_of_mem _ hy

/-- User code is entered with another argument than `connectDestroyed` has. Only that one is tied to
a stage. -/
theorem of_frame (h : s.Inv) (hframe : s.frame = none) (hpc : s.pc ≠ .poll) {f : UserFrame}
    (hf : ∀ id, f ≠ .connectDestroyed id) : ({ s with frame := some f } : EventLoop).Inv := by
  refine h.of_calm ⟨rfl, fun _ => rfl, fun _ hid => hid, ?_, rfl, fun hp => absurd hp hpc,
    .refl _, fun _ hx => hx, le_refl _⟩ rfl rfl rfl rfl rfl
  intro id
  rw [hframe]
  simp [hf id]

end Inv

/-! ### `handleRead` of a connection -/

/-- `readFd` returns, with a sound buffer, whatever `readv` delivers. -/
theorem readFd_returns {b : Buffer} (h : b.Wf) (readv : ReadvResult) :
    ∃ b' n errno, b.readFd 0 readv = some (b', n, errno) ∧ b'.Wf := by
  cases readv with
  | error errno => exact ⟨b, -1, errno, rfl, h⟩
  | bytes bs =>
      obtain ⟨b', hcall, hb', -⟩ := Buffer.readFd_spec h 0 bs
      exact ⟨b', _, _, hcall, hb'⟩

/-- The map of one server changed. What has to be shown is that its new map is right (`hmap`), and
that for the other servers nothing changed in whom they list (`hother`). Used for an accept, where
the map grows, and for a close, where it shrinks. -/
theorem Listed.of_server (h : s.Listed) {i : Nat} {server server' : TcpServer}
    (hserver : s.servers[i]? = some server) (hservers : s'.servers = s.servers.set i server')
    (howners : ∀ (c j : Nat), s'.owners[c]? = some (.acceptor j) →
      s.owners[c]? = some (.acceptor j))
    (hplace : ∀ (id : Nat) j name, s'.placeOf id = some (j, name) →
      s.placeOf id = some (j, name) ∨ j = i)
    (hmap : ∀ name id, server'.connections.lookup name = some id ↔
      s'.placeOf id = some (i, name) ∧ s'.stageOf id = some .established)
    (hother : ∀ j name id, j ≠ i → ((s'.placeOf id = some (j, name) ∧
        s'.stageOf id = some .established) ↔
      s.placeOf id = some (j, name) ∧ s.stageOf id = some .established)) : s'.Listed where
  listed j other name id hj := by
    rw [hservers, List.getElem?_set] at hj
    by_cases hij : j = i
    · have hlt := (List.getElem?_eq_some_iff.mp hserver).1
      rw [if_pos hij.symm, if_pos hlt, Option.some.injEq] at hj
      rw [← hj, hij]
      exact hmap name id
    · rw [if_neg (Ne.symm hij)] at hj
      rw [hother j name id hij]
      exact h.listed j other name id hj
  server id j name hid := by
    rw [hservers, List.length_set]
    rcases hplace id j name hid with hold | hij
    · exact h.server id j name hold
    · rw [hij]
      exact (List.getElem?_eq_some_iff.mp hserver).1
  acceptor c j hc := by
    rw [hservers, List.length_set]
    exact h.acceptor c j (howners c j hc)

/-- A server with another map and another counter keeps its socket, so the descriptors of the
services stay. -/
theorem serviceFds_set {i : Nat} {server server' : TcpServer}
    (hserver : s.servers[i]? = some server) (hservers : s'.servers = s.servers.set i server')
    (htimer : s'.timerfd = s.timerfd) (hwakeup : s'.wakeupFd = s.wakeupFd)
    (hsocket : server'.acceptSocket = server.acceptSocket) : s'.serviceFds = s.serviceFds := by
  rw [serviceFds, serviceFds, htimer, hwakeup, hservers]
  congr 2
  refine List.ext_getElem? fun j => ?_
  rw [List.getElem?_map, List.getElem?_map, List.getElem?_set]
  by_cases hj : i = j
  · have hlt := (List.getElem?_eq_some_iff.mp hserver).1
    rw [if_pos hj, if_pos hlt, ← hj, hserver]
    exact congrArg some hsocket
  · rw [if_neg hj]

/-! ### `handleClose` -/

/-- What `handleRead` at the end of the stream makes of a connection, up to the end of
`removeConnection`. -/
def closingObject (k : ConnectionObject) (b : Buffer) : ConnectionObject :=
  ((k.setConn { k.conn with inputBuffer := b }).record [.handleClose, .closeCallback]).record
    [.erase 1]

/-- The stage behind the erase. -/
theorem closingObject_stage (k : ConnectionObject) (b : Buffer) :
    (closingObject k b).stage = .closing :=
  stage_record _ [] (.erase 1)

/-- The object is in order: three events more, the state still open, and somebody still refers to
it. -/
theorem closingObject_ok {k : ConnectionObject} (hok : k.Ok) (hstage : k.stage = .established)
    {b : Buffer} (hb : b.Wf) : (closingObject k b).Ok := by
  have hnew := closingObject_stage k b
  have hhistory : (closingObject k b).History := by
    have heq : closingObject k b = (k.setConn { k.conn with inputBuffer := b }).record
        [.handleClose, .closeCallback, .erase 1] := by
      simp [closingObject, record]
    have hold : (k.setConn { k.conn with inputBuffer := b }).History := hok.history
    rw [heq]
    exact hold.next (heq ▸ hnew) (by rw [setConn_stage, hstage]; rfl)
  have halive : ¬ k.destroyed = true := by
    rw [hok.destroyed, hstage]
    simp
  refine ⟨hhistory, ?_, iff_of_false halive (by rw [hnew]; simp), hb, hok.output⟩
  rw [hnew]
  exact hok.state_of_isOpen (by rw [hstage]; rfl)

/-- The loop after `handleClose` and `removeConnection`. The connection is out of the map, and the
reference that the map had has moved to the functor. -/
def afterClose (s : EventLoop) (id : TcpConnectionPtr) (k : ConnectionObject)
    (server : TcpServer) (p' : Poller) (b : Buffer) : EventLoop :=
  { s with
    poller := p'
    servers := s.servers.set k.server
      { server with connections := server.connections.erase k.name }
    conns := s.conns.set id (closingObject k b)
    pendingFunctors := s.pendingFunctors ++ [.connectDestroyed id] }

/-- `removeConnection` returns when the map has the name: its assertion is that one entry is
erased. -/
theorem removeConnection_returns {id : Nat} {k : ConnectionObject}
    (hk : s.conns[id]? = some k) {server : TcpServer}
    (hserver : s.servers[k.server]? = some server) (hmem : k.name ∈ server.connections)
    (p' : Poller) (b : Buffer) :
    { s.setConn id ((k.setConn { k.conn with inputBuffer := b }).record
        [.handleClose, .closeCallback]) with poller := p' }.removeConnection id
      = some (s.afterClose id k server p' b) := by
  let k₁ := (k.setConn { k.conn with inputBuffer := b }).record [.handleClose, .closeCallback]
  have hget : (s.conns.set id k₁)[id]? = some k₁ := conns_set_self hk k₁
  show { s.setConn id k₁ with poller := p' }.removeConnection id = _
  have hserver₁ : s.servers[k₁.server]? = some server := hserver
  have hmem₁ : k₁.name ∈ server.connections := hmem
  rw [removeConnection]
  simp only [setConn, hget, hserver₁, Option.bind_eq_bind, Option.bind_some, if_pos hmem₁]
  rw [← Option.bind_eq_bind, assert_bind_pos trivial, List.set_set]
  rfl

/-- The name is gone from the map, and no other established connection has it. If one had, the map
would have to hold both under one name, and `Listed` says that it holds every established one. -/
theorem Listed.of_close (h : s.Listed) {id : Nat} {k : ConnectionObject}
    (hk : s.conns[id]? = some k) (hstage : k.stage = .established) {server : TcpServer}
    (hserver : s.servers[k.server]? = some server)
    (hservers : s'.servers = s.servers.set k.server
      { server with connections := server.connections.erase k.name })
    (howners : s'.owners = s.owners) (hplaces : ∀ j, s'.placeOf j = s.placeOf j)
    (hstages : ∀ j, s'.stageOf j = if j = id then some .closing else s.stageOf j) :
    s'.Listed := by
  have hplace : s.placeOf id = some (k.server, k.name) := by
    rw [placeOf, hk]
    rfl
  have hlookup : server.connections.lookup k.name = some id :=
    (h.listed _ server _ id hserver).mpr ⟨hplace, by rw [stageOf_eq hk, hstage]⟩
  refine h.of_server hserver hservers (fun _ _ hc => by rw [howners] at hc; exact hc)
    (fun j i name hj => Or.inl (hplaces j ▸ hj)) ?_ ?_
  · intro name j
    rw [hplaces, hstages]
    by_cases hname : name = k.name
    · rw [hname]
      show (server.connections.erase k.name).lookup k.name = some j ↔ _
      rw [AList.lookup_erase]
      refine iff_of_false (by simp) ?_
      rintro ⟨hj, hest⟩
      -- Another connection under the name would be in the map, which has `id` there.
      by_cases hjid : j = id
      · rw [if_pos hjid] at hest
        cases hest
      · rw [if_neg hjid] at hest
        have hlookup' := (h.listed _ server _ j hserver).mpr ⟨hj, hest⟩
        rw [hlookup, Option.some.injEq] at hlookup'
        exact hjid hlookup'.symm
    · show (server.connections.erase k.name).lookup name = some j ↔ _
      rw [AList.lookup_erase_ne hname, h.listed _ server _ j hserver]
      by_cases hjid : j = id
      · -- It has another name.
        rw [hjid, hplace]
        have hne : ¬ (some (k.server, k.name) = some (k.server, name)) := by
          simpa using Ne.symm hname
        exact iff_of_false (fun hboth => hne hboth.1) (fun hboth => hne hboth.1)
      · rw [if_neg hjid]
  -- The other servers have none of this: `id` is not theirs.
  · intro i name j hi
    rw [hplaces, hstages]
    by_cases hjid : j = id
    · rw [hjid, hplace]
      have hne : ¬ (some (k.server, k.name) = some (i, name)) := by
        simp [Ne.symm hi]
      exact iff_of_false (fun hboth => hne hboth.1) (fun hboth => hne hboth.1)
    · rw [if_neg hjid]

/-- The connection waited for nothing before, and now it waits for one `connectDestroyed`. The close
is inside the dispatch (`hpc`), where `quiet` asks for nothing. -/
theorem Queued.of_close (h : s.Queued) (hpc : s.pc.isDispatch = true) {id : Nat}
    (hstage : s.stageOf id = some .established) (hpc' : s'.pc = s.pc) (hframe : s'.frame = s.frame)
    (hpending : s'.pendingFunctors = s.pendingFunctors ++ [.connectDestroyed id])
    (hstages : ∀ j, s'.stageOf j = if j = id then some .closing else s.stageOf j) :
    s'.Queued := by
  refine ⟨fun j => ?_, fun j => ?_, ?_, ?_, ?_, hpc' ▸ h.fits⟩
  · -- pending
    have hcount := h.pending j
    have hmore : (s'.pendingFunctors ++ s'.pc.rest).count (.connectDestroyed j)
        = (s.pendingFunctors ++ s.pc.rest).count (.connectDestroyed j)
          + [PendingFunctor.connectDestroyed id].count (.connectDestroyed j) := by
      rw [hpending, hpc', List.count_append, List.count_append, List.count_append]
      omega
    -- the one that joined is that of `id`, which had none
    rw [hstages, hmore, hcount]
    by_cases hjid : j = id
    · rw [hjid, hstage]
      simp
    · rw [if_neg hjid]
      simp [Ne.symm hjid]
  · -- frame
    rw [hstages, hframe]
    have hold := h.frame j
    by_cases hjid : j = id
    · rw [hjid, hstage] at hold
      simpa [hjid] using hold
    · rw [if_neg hjid]
      exact hold
  · -- inFunctors
    rw [hframe, hpc']
    exact h.inFunctors
  · -- quiet: the batch is not over
    rw [hpc', hpc]
    intro hd
    cases hd
  · -- poll
    rw [hpc', hframe]
    exact h.poll

/-- A server with another map has its name and its number, as `Numbered.of_same` wants it. -/
theorem servers_set_erase {i : Nat} {server : TcpServer}
    {connections : AList fun _ : String => TcpConnectionPtr}
    (hserver : s.servers[i]? = some server)
    (hservers : s'.servers = s.servers.set i { server with connections }) (j : Nat)
    (other : TcpServer) (hj : s'.servers[j]? = some other) :
    ∃ old, s.servers[j]? = some old ∧ other.name = old.name ∧
      other.nextConnId = old.nextConnId := by
  rw [hservers, List.getElem?_set] at hj
  by_cases hij : i = j
  · rw [if_pos hij, if_pos (List.getElem?_eq_some_iff.mp hserver).1, Option.some.injEq] at hj
    rw [← hij, ← hj]
    exact ⟨server, hserver, rfl, rfl⟩
  · rw [if_neg hij] at hj
    exact ⟨other, hj, rfl, rfl⟩

namespace Inv

/-- The map of its server has an established connection under its name. `Listed` for an object in
the hand. -/
theorem exists_server (h : s.Inv) {id : Nat} {k : ConnectionObject}
    (hk : s.conns[id]? = some k) (hstage : k.stage = .established) :
    ∃ server, s.servers[k.server]? = some server ∧
      server.connections.lookup k.name = some id := by
  have hplace : s.placeOf id = some (k.server, k.name) := by
    rw [placeOf, hk]
    rfl
  have hserver := List.getElem?_eq_getElem (h.listed.server id _ _ hplace)
  exact ⟨_, hserver, (h.listed.listed _ _ _ id hserver).mpr
    ⟨hplace, by rw [stageOf_eq hk, hstage]⟩⟩

/-- `handleClose` of an established connection that has nothing more to do in this batch: the
map loses it, and its `connectDestroyed` is queued. Both assertions hold: the state is open, and the
map has one entry under the name. The object outlives this step, because the functor refers to it,
and its channel stays registered, switched off, until the batch is over. -/
theorem inv_handleClose (h : s.Inv) (hpc : s.pc.isDispatch = true) {id : Nat}
    {k : ConnectionObject} (hk : s.conns[id]? = some k) (hstage : k.stage = .established)
    (hdone : k.conn.channel ∉ s.pc.todo) {b : Buffer} (hb : b.Wf) :
    ∃ p' server, s.servers[k.server]? = some server ∧
      TcpConnection.handleClose s.poller { k.conn with inputBuffer := b }
        = some (p', { k.conn with inputBuffer := b }) ∧
      { s.setConn id ((k.setConn { k.conn with inputBuffer := b }).record
          [.handleClose, .closeCallback]) with poller := p' }.removeConnection id
        = some (s.afterClose id k server p' b) ∧
      (s.afterClose id k server p' b).Inv := by
  have hok := h.objects.ok id k hk
  have hnew := closingObject_stage k b
  obtain ⟨p', hcall, hmoves⟩ := h.moves_update hk (by rw [hstage]; rfl) (Or.inl rfl)
  obtain ⟨server, hserver, hlookup⟩ := h.exists_server hk hstage
  have hmove : Moves s.poller p' k (closingObject k b) :=
    hmoves _ (closingObject_ok hok hstage hb) ⟨rfl, rfl, rfl, rfl⟩ (by rw [hnew]; rfl)
      (fun _ => Or.inl rfl) fun _ => rfl
  have hmem : k.name ∈ server.connections := by
    rw [← AList.lookup_isSome, hlookup]
    rfl
  let s₁ := s.afterClose id k server p' b
  have hfds : s₁.serviceFds = s.serviceFds := serviceFds_set hserver rfl rfl rfl rfl
  have hparts : s₁.Objects ∧ s₁.Wired ∧ s₁.conns.map (fun k => (k.server, k.name))
      = s.conns.map fun k => (k.server, k.name) := h.parts_of_moves hk hmove rfl hfds rfl
  obtain ⟨hobjects, hwired, hplaces⟩ := hparts
  have hstages : ∀ j, s₁.stageOf j = if j = id then some .closing else s.stageOf j := by
    rw [← hnew]
    exact stageOf_set hk rfl
  refine ⟨p', server, hserver,
    TcpConnection.handleClose_returns (hok.state_of_isOpen (by rw [hstage]; rfl)) hcall,
    removeConnection_returns hk hserver hmem p' b, hobjects, hwired,
    h.listed.of_close hk hstage hserver rfl rfl (placeOf_of_map hplaces) hstages,
    h.queued.of_close hpc (by rw [stageOf_eq hk, hstage]) rfl rfl rfl hstages, ?_,
    h.numbered.of_same (servers_set_erase hserver rfl) hplaces⟩
  -- The rest of the batch is about other connections.
  refine h.dispatched.of_same rfl (fun hd => hd) (.refl _) (fun _ hx => hx) ?_ ?_
  · intro _ c _ hc
    by_cases hne : c = k.conn.channel
    · rw [hne]
      exact hmove.wired.registered.mpr (by rw [hnew]; rfl)
    · exact (hmove.others.registered c hne).mpr hc
  · intro c hc j hj
    refine ⟨hj, fun hest => ?_⟩
    have hjid : j ≠ id := by
      rintro rfl
      obtain ⟨d, hd, hdc⟩ := h.objects.owner c j hj
      rw [hk, Option.some.injEq] at hd
      rw [← hdc, ← hd] at hc
      exact hdone hc
    rw [hstages, if_neg hjid]
    exact hest

end Inv

end EventLoop

end SecondGear
