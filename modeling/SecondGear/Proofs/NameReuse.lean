import SecondGear.Proofs.LoopDescriptors

/-!
# `SecondGear.Proofs.NameReuse`: the counter of a server goes round

`nextConnId_` is an `int`. One client stays connected while `2 ^ 32 - 1` others come and go.
The next client gets the first one's name, and `connections_[connName] = conn` takes the only
reference to the first connection away.

A `Phase` is the loop in front of a step, with what is connected. The theorems `leads_..`
go from phase to phase, one for each step, and `leads_turn` puts them together for one client
that comes and goes.

* `leads_reuse`: the loop comes to accept a connection under a name in use.
* `step_reuse`: accepting it destroys the first connection, whose channel is still registered.
* `not_batch_safe`: so the batch is not safe in every run.

## A run that nobody computes

The run has more than `2 ^ 32` turns of the loop, so it is not given as a list of actions. `Leads`
says that from each state with one property some legal actions lead to a state with another. The
phases forget what differs from turn to turn, such as the numbers of channels and connections and
the order of the entries in the table, and `Machine.Leads.iterate` goes round. What a phase does
keep is enough for the kernel to have an answer that goes on: there is a descriptor that is not open
(`Phase.exists_not_open`), and the channel that the next client needs can be reported.
-/

set_option autoImplicit false

namespace SecondGear

open SecondGear.Lib

namespace EventLoop

open ConnectionObject

variable {s s' : EventLoop}

/-! ### Who is connected -/

/-- The connections with a registered channel: their stages and names. Those that were removed are
left out, so that a client that came and went leaves this as it was. -/
def lives (s : EventLoop) (id : Nat) : Option (Stage × String) :=
  ((s.conns[id]?).map fun k => (k.stage, k.name)).filter fun x => x.1.isRegistered

/-- The part of one connection in it. -/
def life (k : ConnectionObject) : Option (Stage × String) :=
  if k.stage.isRegistered then some (k.stage, k.name) else none

/-- The connections are seen one by one. -/
theorem lives_eq {id : Nat} {k : ConnectionObject} (hk : s.conns[id]? = some k) :
    s.lives id = life k := by
  rw [lives, hk]
  rfl

/-- Who is in it is an object of the loop. -/
theorem exists_of_lives {id : Nat} {stage : Stage} {name : String}
    (h : s.lives id = some (stage, name)) :
    ∃ k, s.conns[id]? = some k ∧ k.stage = stage ∧ k.name = name := by
  cases hk : s.conns[id]? with
  | none => simp [lives, hk] at h
  | some k =>
      rw [lives_eq hk, life] at h
      split at h
      · rw [Option.some.injEq, Prod.mk.injEq] at h
        exact ⟨k, rfl, h⟩
      · cases h

/-- One connection changes. -/
theorem lives_set {id : Nat} {k k' : ConnectionObject} (hk : s.conns[id]? = some k)
    (hconns : s'.conns = s.conns.set id k') :
    s'.lives = Function.update s.lives id (life k') := by
  funext j
  rw [lives, conns_set hk hconns]
  by_cases hj : j = id
  · rw [if_pos hj, hj, Function.update_self]
    rfl
  · rw [if_neg hj, Function.update_of_ne hj]
    rfl

/-- One connection more. -/
theorem lives_concat {k : ConnectionObject} (hconns : s'.conns = s.conns ++ [k]) :
    s'.lives = Function.update s.lives s.conns.length (life k) := by
  funext j
  rw [lives, hconns, getElem?_concat, Function.update_apply]
  split <;> rfl

/-- The destructors touch only what is not registered. -/
theorem Inv.lives_release (h : s.Inv) : s.release.lives = s.lives := by
  funext id
  rw [lives, lives, getElem?_release]
  cases hk : s.conns[id]? with
  | none => rfl
  | some k =>
      rcases h.releaseObject_cases hk with hsame | ⟨hstage, hnew⟩
      · simp [hsame]
      · show life (s.releaseObject id k) = life k
        rw [hnew, life, life, stage_destroyed, hstage]
        rfl

/-- A destructor does not count references. -/
theorem releaseObject_userRefs (s : EventLoop) (id : TcpConnectionPtr) (k : ConnectionObject) :
    (s.releaseObject id k).userRefs = k.userRefs := by
  rw [releaseObject]
  split <;> rfl

/-! ### Phases -/

/-- The loop of one server in front of a step: the place in the loop, the callback, the queue,
`nextConnId_`, who is connected, and a channel that `poll` can report. The user holds no references,
so that an object without a place in the map is destroyed in the step that takes it away. The
server's map is not described: that it holds the established connections is in the invariant. -/
structure Phase (l : LoopPc) (f : Option UserFrame) (q : List PendingFunctor) (v : Int)
    (m : Nat → Option (Stage × String)) (c : ChannelPtr) (o : Owner) (s : EventLoop) :
    Prop where
  inv : s.Inv
  pc : s.pc = l
  frame : s.frame = f
  pending : s.pendingFunctors = q
  server : ∃ connections,
    s.servers = [{ name := "s", acceptSocket := 5, nextConnId := v, connections }]
  lives : s.lives = m
  userRefs : ∀ k ∈ s.conns, k.userRefs = 0
  acceptor : s.owners[2]? = some (.acceptor 0)
  owner : s.owners[c]? = some o
  registered : s.poller.Registered c
  on : s.poller.On c

variable {l : LoopPc} {f : Option UserFrame} {q : List PendingFunctor} {v : Int}
  {m : Nat → Option (Stage × String)} {c : ChannelPtr} {o : Owner}

namespace Phase

/-- The destructors do not change the phase. So the lemmas below look at a step in front of them. -/
theorem release (h : Phase l f q v m c o s) : Phase l f q v m c o s.release where
  inv := h.inv.inv_release
  pc := h.pc
  frame := h.frame
  pending := h.pending
  server := h.server
  lives := h.inv.lives_release.trans h.lives
  userRefs k hk := by
    obtain ⟨id, hid⟩ := List.getElem?_of_mem hk
    rw [getElem?_release] at hid
    obtain ⟨d, hd, rfl⟩ := Option.map_eq_some_iff.mp hid
    rw [releaseObject_userRefs]
    exact h.userRefs d (List.mem_of_getElem? hd)
  acceptor := h.acceptor
  owner := h.owner
  registered := h.registered
  on := h.on

/-- The acceptor can always be reported, since a service stays registered and switched on. -/
theorem of_acceptor (hinv : s.Inv) (hpc : s.pc = l) (hframe : s.frame = f)
    (hpending : s.pendingFunctors = q)
    (hserver : ∃ connections, s.servers
      = [{ name := "s", acceptSocket := 5, nextConnId := v, connections }])
    (hlives : s.lives = m) (hrefs : ∀ k ∈ s.conns, k.userRefs = 0)
    (hacceptor : s.owners[2]? = some (.acceptor 0)) :
    Phase l f q v m 2 (.acceptor 0) s := by
  obtain ⟨hreg, hon, -⟩ := hinv.wired.service 2 _ hacceptor (by simp)
  exact ⟨hinv, hpc, hframe, hpending, hserver, hlives, hrefs, hacceptor, hacceptor, hreg, hon⟩

/-- One connection changes, and the next to report is the acceptor. -/
theorem of_set {l' : LoopPc} {f' : Option UserFrame} {q' : List PendingFunctor}
    (h : Phase l f q v m c o s) (hinv : s'.Inv) {id : Nat} {k k' : ConnectionObject}
    (hk : s.conns[id]? = some k) (hconns : s'.conns = s.conns.set id k')
    (hrefs : k'.userRefs = k.userRefs) (hpc : s'.pc = l') (hframe : s'.frame = f')
    (hpending : s'.pendingFunctors = q')
    (hserver : ∃ connections, s'.servers
      = [{ name := "s", acceptSocket := 5, nextConnId := v, connections }])
    (howners : s'.owners = s.owners) :
    Phase l' f' q' v (Function.update m id (life k')) 2 (.acceptor 0) s' := by
  refine .of_acceptor hinv hpc hframe hpending hserver ?_ ?_ (howners ▸ h.acceptor)
  · rw [← h.lives]
    exact lives_set hk hconns
  · intro d hd
    rw [hconns] at hd
    rcases List.mem_or_eq_of_mem_set hd with hold | hnew
    · exact h.userRefs d hold
    · rw [hnew, hrefs]
      exact h.userRefs k (List.mem_of_getElem? hk)

/-- A connection that is in it, with its object. -/
theorem exists_conn (h : Phase l f q v m c o s) {id : Nat} {stage : Stage} {name : String}
    (hm : m id = some (stage, name)) :
    ∃ k, s.conns[id]? = some k ∧ k.stage = stage ∧ k.name = name := by
  rw [← h.lives] at hm
  exact exists_of_lives hm

/-- The map does not have a name that no established connection has. -/
theorem connName_not_mem (h : Phase l f q v m c o s) {server : TcpServer}
    (hserver : s.servers[0]? = some server)
    (hfree : ∀ id, m id ≠ some (.established, server.connName)) :
    server.connName ∉ server.connections := by
  intro hmem
  obtain ⟨id, hid⟩ := Option.isSome_iff_exists.mp (AList.lookup_isSome.mpr hmem)
  obtain ⟨hplace, hstage⟩ := (h.inv.listed.listed 0 server _ id hserver).mp hid
  obtain ⟨k, hk, hkstage⟩ := exists_of_stageOf hstage
  refine hfree id ?_
  rw [placeOf, hk, Option.map_some, Option.some.injEq, Prod.mk.injEq] at hplace
  rw [← h.lives, lives_eq hk, life, hkstage, hplace.2]
  rfl

end Phase

/-- An action that leads from phase to phase. It is enough to look at the step in front of the
destructors. -/
theorem leads_of_body {P Q : EventLoop → Prop} (hrelease : ∀ s, Q s → Q s.release)
    (h : ∀ s, P s → ∃ a t, s.Legal a ∧ s.stepBody a = some t ∧ Q t) :
    loopMachine.Leads P Q := by
  refine .of_step fun s hs => ?_
  obtain ⟨a, t, hlegal, hbody, ht⟩ := h s hs
  refine ⟨a, t.release, hlegal, ?_, hrelease t ht⟩
  show (s.stepBody a).map EventLoop.release = _
  rw [hbody]
  rfl

/-- The invariant behind an action. -/
theorem Inv.of_stepBody (h : s.Inv) {a : LoopAction} (hlegal : s.Legal a)
    (hfit : FunctorsFit s a) (hfresh : FreshName s a) (hbody : s.stepBody a = some s') :
    s'.Inv := by
  obtain ⟨t, ht, hinv⟩ := h.inv_stepBody hlegal hfit hfresh
  rw [hbody, Option.some.injEq] at ht
  exact ht ▸ hinv

/-! ### From phase to phase -/

/-- The kernel reports the channel, and its `handleEvent` starts. Behind that step everything
without a reference is destroyed (`Collected`), which is what leaves descriptors for the kernel to
give. -/
theorem leads_ready : loopMachine.Leads (Phase .poll none q v m c o)
    (fun s => Phase (.dispatch [(c, .handleRead)] []) none q v m c o s ∧ s.Collected) := by
  have hpoll : loopMachine.Leads (Phase .poll none q v m c o)
      (fun s => Phase (.dispatch [] [c]) none q v m c o s ∧
        (s.poller.channel c).handleEvent = [.handleRead]) := by
    refine leads_of_body (fun s hs => ⟨hs.1.release, hs.2⟩) fun s h => ?_
    obtain ⟨answer, p', hans, hcall, hrevents⟩ := h.inv.wired.table.poll_one h.registered h.on
    obtain ⟨p₁, active, hcall₁, -, -, hreg, -, hon, -⟩ := h.inv.wired.table.poll hans 1
    obtain rfl : p' = p₁ := by
      rw [hcall, Option.some.injEq, Prod.mk.injEq] at hcall₁
      exact hcall₁.1
    let t : EventLoop := { s with poller := p', activeChannels := [c], pc := .dispatch [] [c] }
    have hlegal : s.Legal (.poll answer 1) := ⟨h.pc, h.frame, hans⟩
    have hbody : s.stepBody (.poll answer 1) = some t := by
      rw [stepBody, hcall]
      rfl
    have hinv : t.Inv := h.inv.of_stepBody hlegal trivial trivial hbody
    have hregistered : p'.Registered c := (hreg c).mpr h.registered
    refine ⟨_, t, hlegal, hbody, ⟨hinv, rfl, h.frame, h.pending, h.server, h.lives, h.userRefs,
      h.acceptor, h.owner, hregistered, hon c h.on⟩, ?_⟩
    rw [(hinv.wired.reads c (hinv.wired.owned c hregistered)).handleEvent_eq]
    show (if (p'.channel c).revents &&& _ != 0#32 then _ else _) = _
    rw [hrevents]
    rfl
  -- Its turn comes at once, as it is the only channel of the batch.
  refine hpoll.trans (.of_step ?_)
  rintro s ⟨h, hread⟩
  have hlegal : s.Legal .handleEvent := ⟨h.frame, by rw [h.pc]; rfl⟩
  have hbody : s.stepBody .handleEvent
      = some { s with pc := .dispatch [(c, .handleRead)] [] } := by
    rw [stepBody, h.pc]
    simp only [hread]
    rfl
  have hphase : Phase (.dispatch [(c, .handleRead)] []) none q v m c o
      { s with pc := .dispatch [(c, .handleRead)] [] } :=
    ⟨h.inv.of_stepBody hlegal trivial trivial hbody, rfl, h.frame, h.pending, h.server, h.lives,
      h.userRefs, h.acceptor, h.owner, h.registered, h.on⟩
  have hstep : s.step .handleEvent = _ := congrArg (Option.map EventLoop.release) hbody
  exact ⟨.handleEvent, _, hlegal, hstep, hphase.release, step_collected hstep⟩

/-- The connection callback of a new connection returns. The user does nothing in it. -/
theorem leads_callbackReturns {id : TcpConnectionPtr} : loopMachine.Leads
    (Phase l (some (.connectEstablished id)) q v m c o) (Phase l none q v m c o) := by
  refine leads_of_body (fun s hs => hs.release) fun s h => ?_
  have hlegal : s.Legal .callbackReturns := by
    show s.frame ≠ none
    rw [h.frame]
    simp
  have hbody : s.stepBody .callbackReturns = some { s with frame := none } := by
    rw [stepBody, h.frame]
    rfl
  exact ⟨_, _, hlegal, hbody, h.inv.of_stepBody hlegal trivial trivial hbody, h.pc, rfl,
    h.pending, h.server, h.lives, h.userRefs, h.acceptor, h.owner, h.registered, h.on⟩

/-- The swap. In these runs the user queues no functors. -/
theorem leads_doPendingFunctors (hq : .user ∉ q) :
    loopMachine.Leads (Phase (.dispatch [] []) none q v m c o)
      (Phase (.doPendingFunctors [] q) none [] v m c o) := by
  refine leads_of_body (fun s hs => hs.release) fun s h => ?_
  have hlegal : s.Legal .doPendingFunctors := ⟨h.frame, h.pc⟩
  have hbody : s.stepBody .doPendingFunctors
      = some { s with pc := .doPendingFunctors [] q, pendingFunctors := [] } := by
    rw [stepBody, h.pending]
  have hfit : FunctorsFit s .doPendingFunctors := fun huser => absurd (h.pending ▸ huser) hq
  exact ⟨_, _, hlegal, hbody, h.inv.of_stepBody hlegal hfit trivial hbody, rfl, h.frame, rfl,
    h.server, h.lives, h.userRefs, h.acceptor, h.owner, h.registered, h.on⟩

/-- The functors are through, and the loop goes back to poll. -/
theorem leads_endFunctors {done : List PendingFunctor} : loopMachine.Leads
    (Phase (.doPendingFunctors done []) none q v m c o) (Phase .poll none q v m c o) := by
  refine leads_of_body (fun s hs => hs.release) fun s h => ?_
  have hlegal : s.Legal .endFunctors := ⟨h.frame, LoopPc.atEnd_of_nil h.pc⟩
  have hbody : s.stepBody .endFunctors = some { s with pc := .poll } := rfl
  exact ⟨_, _, hlegal, hbody, h.inv.of_stepBody hlegal trivial trivial hbody, rfl, h.frame,
    h.pending, h.server, h.lives, h.userRefs, h.acceptor, h.owner, h.registered, h.on⟩

/-- At most one connection is there. In the runs of this file there is never a third client, so few
descriptors are open. -/
def Single (m : Nat → Option (Stage × String)) : Prop := ∀ i j, m i ≠ none → m j ≠ none → i = j

/-- In front of the acceptor's callback an object that is still there is in the server's map,
since nobody else refers to it. -/
theorem Phase.ne_none_of_openFd (h : Phase (.dispatch [(c, .handleRead)] []) none [] v m c o s)
    (hcollected : s.Collected) {id : Nat} {k : ConnectionObject} (hk : s.conns[id]? = some k)
    {fd : Int} (hopen : k.openFd = some fd) : m id ≠ none := by
  have halive : k.destroyed = false := by
    rw [openFd] at hopen
    split at hopen
    · cases hopen
    · rename_i hnot
      exact Bool.eq_false_iff.mpr hnot
  have hstage : k.stage = .established := by
    by_contra hstage
    have hqueued : .connectDestroyed id ∉ s.pendingFunctors ++ s.pc.functors := by
      rw [h.pending, h.pc]
      simp [LoopPc.functors]
    have hpos := hcollected.userRefs_pos h.inv h.frame hqueued hk halive hstage
    rw [h.userRefs k (List.mem_of_getElem? hk)] at hpos
    exact Nat.lt_irrefl 0 hpos
  rw [← h.lives, lives_eq hk, life, hstage]
  simp [Stage.isRegistered]

/-- With at most one connection the kernel has a descriptor for another: besides that one the
timerfd, the eventfd and the listening socket are open. -/
theorem Phase.exists_not_open
    (h : Phase (.dispatch [(c, .handleRead)] []) none [] v m c o s) (hcollected : s.Collected)
    (hm : Single m) : ∃ fd : Int, 0 ≤ fd ∧ fd < 2 ^ 31 ∧ fd ∉ s.openFds := by
  have hone : ∃ x, s.conns.filterMap openFd ⊆ [x] := by
    by_cases hnone : s.conns.filterMap openFd = []
    · exact ⟨0, by simp [hnone]⟩
    obtain ⟨x, hx⟩ := List.exists_mem_of_ne_nil _ hnone
    obtain ⟨k, hk, hopen⟩ := List.mem_filterMap.mp hx
    obtain ⟨i, hi⟩ := List.getElem?_of_mem hk
    refine ⟨x, fun y hy => ?_⟩
    obtain ⟨d, hd, hopen'⟩ := List.mem_filterMap.mp hy
    obtain ⟨j, hj⟩ := List.getElem?_of_mem hd
    have hij := hm i j (h.ne_none_of_openFd hcollected hi hopen)
      (h.ne_none_of_openFd hcollected hj hopen')
    rw [hij, hj, Option.some.injEq] at hi
    rw [hi, hopen, Option.some.injEq] at hopen'
    exact List.mem_singleton.mpr hopen'.symm
  obtain ⟨x, hx⟩ := hone
  have hconns : (s.conns.filterMap openFd).length ≤ 1 :=
    ((List.nodup_append.mp h.inv.wired.distinct).2.1.subperm hx).length_le
  obtain ⟨connections, hservers⟩ := h.server
  have hlength : s.openFds.length < 2 ^ 31 := by
    rw [openFds, List.length_append, serviceFds, hservers]
    simp only [List.map_cons, List.map_nil, List.length_cons, List.length_nil]
    omega
  exact_mod_cast exists_notMem_of_length_lt hlength

/-- The handler of an acceptor, when the kernel hands out a connection. The name may be in use or
not: this is what the code does in both cases. -/
theorem stepBody_accept (hpc : s.pc = .dispatch [(c, .handleRead)] []) {i : Nat}
    (howner : s.owners[c]? = some (.acceptor i)) {server : TcpServer}
    (hserver : s.servers[i]? = some server) {fd : Int} (hnonneg : 0 ≤ fd) {p' : Poller}
    (hcall : addChannel s.poller s.owners.length fd = some p') (readv : ReadvResult)
    (write : WriteResult) :
    s.stepBody (.runHandler fd readv write)
      = some (({ s with pc := .dispatch [] [] } : EventLoop).afterAccept i server fd p') := by
  rw [stepBody, hpc]
  simp only [runHandler, howner, Option.bind_eq_bind, Option.bind_some]
  rw [if_pos (show fd ≥ 0 from hnonneg)]
  exact newConnection_returns (s := { s with pc := .dispatch [] [] }) hserver hcall

/-- The name of the connection with the number `v`. -/
def nameOf (v : Int) : String := "s" ++ ("#" ++ toString v)

/-- `++nextConnId_`. -/
def next (v : Int) : Int := (v + 1).bmod (2 ^ 32)

/-- Counting and wrapping may be done in either order. -/
theorem next_bmod (x : Int) : next (x.bmod (2 ^ 32)) = (x + 1).bmod (2 ^ 32) := by
  have hnext : ∀ n : Nat, (x.bmod n + 1).bmod n = (x + 1).bmod n := fun _ => Int.bmod_add_bmod
  exact hnext _

/-- A client is accepted under a free name. The new connection is the next object, on the next
channel, and the connection callback is about to run. -/
theorem leads_accept (hm : Single m) (hfree : ∀ id, m id ≠ some (.established, nameOf v)) :
    loopMachine.Leads
      (fun s => Phase (.dispatch [(c, .handleRead)] []) none [] v m c (.acceptor 0) s ∧
        s.Collected)
      (fun s => ∃ id d, m id = none ∧ Phase (.dispatch [] []) (some (.connectEstablished id)) []
        (next v) (Function.update m id (some (.established, nameOf v))) d (.connection id) s) := by
  refine leads_of_body (fun s ⟨id, d, hid, hs⟩ => ⟨id, d, hid, hs.release⟩) ?_
  rintro s ⟨h, hcollected⟩
  obtain ⟨connections, hservers⟩ := h.server
  obtain ⟨fd, hnonneg, hint, hfd⟩ := h.exists_not_open hcollected hm
  let server : TcpServer := { name := "s", acceptSocket := 5, nextConnId := v, connections }
  have hserver : s.servers[0]? = some server := by
    rw [hservers]
    rfl
  obtain ⟨p', hcall, -, hreg, -, -, hon, -⟩ := h.inv.addChannel_spec hnonneg hfd
  have hbody := stepBody_accept h.pc h.owner hserver hnonneg hcall (.error 0) (.ok 0)
  have hlegal : s.Legal (.runHandler fd (.error 0) (.ok 0)) :=
    ⟨h.frame, by rw [h.pc]; rfl, fun _ => ⟨hint, hfd⟩⟩
  -- The name is free, since no established connection has it.
  have hfresh : FreshName s (.runHandler fd (.error 0) (.ok 0)) := by
    intro _ server hmem
    have haccepting : s.acceptingServer = s.servers[0]? := by
      simp only [acceptingServer, h.pc, LoopPc.current, List.head?_cons, h.owner]
    rw [haccepting, hserver] at hmem
    cases hmem
    exact h.connName_not_mem hserver hfree
  have hnone : m s.conns.length = none := by
    rw [← h.lives, EventLoop.lives, List.getElem?_eq_none (Nat.le_refl _)]
    rfl
  refine ⟨_, _, hlegal, hbody, s.conns.length, s.owners.length, hnone,
    h.inv.of_stepBody hlegal trivial hfresh hbody, rfl, rfl, h.pending, ?_, ?_, ?_, ?_, ?_, hreg,
    hon⟩
  · exact ⟨connections.insert (nameOf v) s.conns.length, by
      show s.servers.set 0 _ = _
      rw [hservers]
      rfl⟩
  · have hlives : (({ s with pc := .dispatch [] [] } : EventLoop).afterAccept 0 server fd p').lives
        = Function.update s.lives s.conns.length
          (life (accepted { s with pc := .dispatch [] [] } 0 server fd)) := lives_concat rfl
    rw [hlives, h.lives]
    rfl
  · intro k hk
    rcases List.mem_append.mp hk with hold | hnew
    · exact h.userRefs k hold
    · rw [List.mem_singleton.mp hnew]
      rfl
  · show (s.owners ++ [_])[2]? = _
    rw [List.getElem?_append_left (List.getElem?_eq_some_iff.mp h.acceptor).1]
    exact h.acceptor
  · show (s.owners ++ [Owner.connection s.conns.length])[s.owners.length]? = _
    exact List.getElem?_concat_length

/-- The client closes its end: `readv` returns zero, and its `connectDestroyed` is queued. -/
theorem leads_close {id : Nat} {name : String} (hm : m id = some (.established, name)) :
    loopMachine.Leads
      (Phase (.dispatch [(c, .handleRead)] []) none q v m c (.connection id))
      (Phase (.dispatch [] []) none (q ++ [.connectDestroyed id]) v
        (Function.update m id (some (.closing, name))) 2 (.acceptor 0)) := by
  refine leads_of_body (fun s hs => hs.release) fun s h => ?_
  obtain ⟨k, hk, hstage, hname⟩ := h.exists_conn hm
  obtain ⟨connections, hservers⟩ := h.server
  have htail := h.inv.of_dispatch_tail h.pc
  obtain ⟨b, hread, hb, -⟩ := Buffer.readFd_spec (h.inv.objects.ok id k hk).input 0 []
  obtain ⟨p', server, hserver, hcall, hinv⟩ :=
    htail.inv_readClose rfl hk hstage (by simp [LoopPc.todo]) hread hb (.ok 0)
  have hlegal : s.Legal (.runHandler (-1) (.bytes []) (.ok 0)) :=
    ⟨h.frame, by rw [h.pc]; rfl, fun hneg => absurd hneg (by decide)⟩
  have hbody : s.stepBody (.runHandler (-1) (.bytes []) (.ok 0))
      = some (({ s with pc := .dispatch [] [] } : EventLoop).afterClose id k server p' b) := by
    rw [stepBody, h.pc]
    simp only [runHandler, h.owner, Option.bind_eq_bind, Option.bind_some]
    exact hcall
  -- The only server is the one of the connection.
  have hserver' : s.servers[k.server]? = some server := hserver
  have hzero : k.server = 0 := by
    have hlt := (List.getElem?_eq_some_iff.mp hserver').1
    rw [hservers] at hlt
    simpa using hlt
  rw [hzero, hservers] at hserver'
  have hphase := h.of_set hinv hk rfl rfl rfl h.frame
    (show s.pendingFunctors ++ [.connectDestroyed id] = _ by rw [h.pending])
    ⟨server.connections.erase k.name, by
      show s.servers.set k.server _ = _
      rw [hzero, hservers, ← Option.some.inj hserver']
      rfl⟩ rfl
  rw [life, closingObject_stage] at hphase
  rw [← hname]
  exact ⟨_, _, hlegal, hbody, hphase⟩

/-- `connectDestroyed` runs, up to its callback. The batch is the one functor, so its size fits. -/
theorem leads_connectDestroyed {id : Nat} {name : String} {done rest : List PendingFunctor}
    (hm : m id = some (.closing, name)) : loopMachine.Leads
      (Phase (.doPendingFunctors done (.connectDestroyed id :: rest)) none q v m c o)
      (Phase (.doPendingFunctors (done ++ [.connectDestroyed id]) rest)
        (some (.connectDestroyed id)) q v (Function.update m id (some (.destroying, name))) 2
        (.acceptor 0)) := by
  refine leads_of_body (fun s hs => hs.release) fun s h => ?_
  obtain ⟨k, hk, hstage, hname⟩ := h.exists_conn hm
  obtain ⟨p', hcall, hinv⟩ := h.inv.inv_connectDestroyed h.frame h.pc hk hstage
  have hlegal : s.Legal .runFunctor :=
    ⟨h.frame, LoopPc.atFunctor_of_fits h.pc h.inv.queued.fits⟩
  have hbody : s.stepBody .runFunctor = some (s.afterConnectDestroyed id k p' done rest) := by
    rw [stepBody, h.pc]
    exact hcall
  have hphase := h.of_set hinv hk rfl rfl rfl rfl h.pending h.server rfl
  rw [life, destroyingObject_stage] at hphase
  rw [← hname]
  exact ⟨_, _, hlegal, hbody, hphase⟩

/-- The callback returns, and the channel is removed. From here on the connection does not live. -/
theorem leads_removeChannel {id : Nat} {name : String} (hm : m id = some (.destroying, name)) :
    loopMachine.Leads (Phase l (some (.connectDestroyed id)) q v m c o)
      (Phase l none q v (Function.update m id none) 2 (.acceptor 0)) := by
  refine leads_of_body (fun s hs => hs.release) fun s h => ?_
  obtain ⟨k, hk, hstage, -⟩ := h.exists_conn hm
  obtain ⟨p', hcall, hinv⟩ := h.inv.inv_removeChannel h.frame hk hstage
  have hlegal : s.Legal .callbackReturns := by
    show s.frame ≠ none
    rw [h.frame]
    simp
  have hbody : s.stepBody .callbackReturns = some (s.afterRemoveChannel id k p') := by
    rw [stepBody, h.frame]
    exact hcall
  have hphase := h.of_set hinv hk rfl rfl h.pc rfl h.pending h.server rfl
  rw [life, removedObject_stage] at hphase
  exact ⟨_, _, hlegal, hbody, hphase⟩

/-! ### Turns -/

/-- A client is accepted, and the loop polls again. The turn has no functors to run. -/
theorem leads_connect (hm : Single m) (hfree : ∀ id, m id ≠ some (.established, nameOf v)) :
    loopMachine.Leads (Phase .poll none [] v m 2 (.acceptor 0))
      (fun s => ∃ id d, m id = none ∧ Phase .poll none [] (next v)
        (Function.update m id (some (.established, nameOf v))) d (.connection id) s) := by
  refine leads_ready.trans ((leads_accept hm hfree).trans ?_)
  rintro s ⟨id, d, hid, hs⟩
  obtain ⟨as, t, hrun, ht⟩ := (leads_callbackReturns.trans
    ((leads_doPendingFunctors (by simp)).trans leads_endFunctors)) s hs
  exact ⟨as, t, hrun, id, d, hid, ht⟩

/-- A client closes its end, and the loop polls again. In this turn the queue has one functor, and
the connection goes through all its stages to the last. -/
theorem leads_disconnect {id : Nat} {name : String} (hm : m id = some (.established, name)) :
    loopMachine.Leads (Phase .poll none [] v m c (.connection id))
      (Phase .poll none [] v (Function.update m id none) 2 (.acceptor 0)) := by
  have hclose := leads_close (c := c) (q := []) (v := v) hm
  have hfunctor : loopMachine.Leads
      (Phase (.doPendingFunctors [] [.connectDestroyed id]) none [] v
        (Function.update m id (some (.closing, name))) 2 (.acceptor 0)) _ :=
    leads_connectDestroyed (Function.update_self ..)
  rw [Function.update_idem] at hfunctor
  have hremove : loopMachine.Leads
      (Phase (.doPendingFunctors [.connectDestroyed id] []) (some (.connectDestroyed id)) [] v
        (Function.update m id (some (.destroying, name))) 2 (.acceptor 0)) _ :=
    leads_removeChannel (Function.update_self ..)
  rw [Function.update_idem] at hremove
  have hready : loopMachine.Leads (Phase .poll none [] v m c (.connection id))
      (Phase (.dispatch [(c, .handleRead)] []) none [] v m c (.connection id)) :=
    leads_ready.trans fun s hs => ⟨[], s, .start, hs.1⟩
  exact hready.trans (hclose.trans ((leads_doPendingFunctors (by simp)).trans
    (hfunctor.trans (hremove.trans leads_endFunctors))))

/-- One client comes and goes, in two turns. All that is left of it is the counter. -/
theorem leads_turn (hm : Single m) (hfree : ∀ id, m id ≠ some (.established, nameOf v)) :
    loopMachine.Leads (Phase .poll none [] v m 2 (.acceptor 0))
      (Phase .poll none [] (next v) m 2 (.acceptor 0)) := by
  refine (leads_connect hm hfree).trans ?_
  rintro s ⟨id, d, hid, hs⟩
  have hback := leads_disconnect (m := Function.update m id (some (.established, nameOf v)))
    (Function.update_self ..) s hs
  rw [Function.update_idem, ← hid, Function.update_eq_self] at hback
  exact hback

/-- The counter after `i` more connections than one. -/
def turn (i : Nat) : Int := ((2 : Int) + i).bmod (2 ^ 32)

/-- Each of them moves it by one. -/
theorem next_turn (i : Nat) : next (turn i) = turn (i + 1) := by
  have hcast : (2 : Int) + i + 1 = 2 + (i + 1 : Nat) := by omega
  exact (next_bmod _).trans (congrArg (fun x : Int => x.bmod (2 ^ 32)) hcast)

/-- A number behind `1` comes to `1` again only after the whole period. -/
theorem bmod_ne_one {x : Int} {n : Nat} (hx : 2 ≤ x) (hn : x ≤ n) : x.bmod n ≠ 1 := by
  intro h
  have hperiod := Int.bmod_add_bdiv x n
  rw [h] at hperiod
  have hdvd : (n : Int) ∣ x - 1 := ⟨x.bdiv n, by omega⟩
  have hle := Int.le_of_dvd (by omega) hdvd
  omega

/-- It takes `2 ^ 32 - 1` of them to come to `1` again. -/
theorem turn_ne_one {i : Nat} (h : i < 2 ^ 32 - 1) : turn i ≠ 1 :=
  bmod_ne_one (by omega) (by omega)

/-- Only the connection `id` is there, with the first name. -/
def only (id : Nat) : Nat → Option (Stage × String) :=
  Function.update (fun _ => none) id (some (.established, nameOf 1))

/-- So at most one is there. -/
theorem only_single (id : Nat) : Single (only id) := by
  have hid : ∀ i, only id i ≠ none → i = id := by
    intro i hi
    by_contra hne
    rw [only, Function.update_of_ne hne] at hi
    exact hi rfl
  intro i j hi hj
  rw [hid i hi, hid j hj]

/-- And every name but the first is free, as different numbers are written differently. -/
theorem only_free {v : Int} (hv : v ≠ 1) (id j : Nat) :
    only id j ≠ some (.established, nameOf v) := by
  have hname : nameOf v ≠ nameOf 1 := by
    intro h
    rw [nameOf, nameOf, String.append_right_inj, String.append_right_inj] at h
    exact hv (toString_int_injective h)
  by_cases hj : j = id
  · rw [only, hj, Function.update_self]
    simpa using Ne.symm hname
  · rw [only, Function.update_of_ne hj]
    simp

/-- A server is started on a new loop. -/
theorem leads_startServer : loopMachine.Leads (fun s => new 3 4 = some s)
    (Phase .poll none [] 1 (fun _ => none) 2 (.acceptor 0)) := by
  refine leads_of_body (fun s hs => hs.release) fun s hnew => ?_
  have hinv := new_inv hnew (by decide) (by decide) (by decide)
  obtain ⟨p, rfl⟩ : ∃ p, s = ⟨p, [.timerQueue, .wakeup], [], [], [], [], .poll, none, 3, 4⟩ := by
    simp only [new, Option.bind_eq_bind, Option.bind_eq_some_iff, Option.pure_def,
      Option.some.injEq] at hnew
    obtain ⟨p₁, -, p, -, heq⟩ := hnew
    exact ⟨p, heq.symm⟩
  have hfd : (5 : Int) ∉
      openFds ⟨p, [.timerQueue, .wakeup], [], [], [], [], .poll, none, 3, 4⟩ := by
    simp [openFds, serviceFds]
  obtain ⟨p', hcall, -⟩ := hinv.addChannel_spec (by decide) hfd
  have hlegal : Legal ⟨p, [.timerQueue, .wakeup], [], [], [], [], .poll, none, 3, 4⟩
      (.startServer "s" 5) := ⟨Or.inl rfl, by decide, by decide, hfd⟩
  have hbody : stepBody ⟨p, [.timerQueue, .wakeup], [], [], [], [], .poll, none, 3, 4⟩
      (.startServer "s" 5) = some ⟨p', [.timerQueue, .wakeup, .acceptor 0], [.new "s" 5], [], [],
        [], .poll, none, 3, 4⟩ := by
    rw [stepBody, startServer, hcall]
    rfl
  exact ⟨_, _, hlegal, hbody, .of_acceptor (hinv.of_stepBody hlegal trivial trivial hbody) rfl
    rfl rfl ⟨∅, rfl⟩ (by funext id; simp [lives]) (by simp) rfl⟩

/-- The first client stays, and the others come and go until the counter is round. Then the
acceptor is about to accept. Each of the `2 ^ 32 - 1` others finds its name free, since only the
first client's is in use (`turn_ne_one`). -/
theorem leads_reuse : loopMachine.Leads (fun s => new 3 4 = some s)
    (fun s => ∃ id, Phase (.dispatch [(2, .handleRead)] []) none [] 1 (only id) 2
      (.acceptor 0) s ∧ s.Collected) := by
  have hfirst : loopMachine.Leads (Phase .poll none [] 1 (fun _ => none) 2 (.acceptor 0))
      (fun s => ∃ id, Phase .poll none [] (turn 0) (only id) 2 (.acceptor 0) s) := by
    intro s hs
    obtain ⟨as, t, hrun, id, d, -, ht⟩ := leads_connect (by simp [Single]) (by simp) s hs
    exact ⟨as, t, hrun, id, .of_acceptor ht.inv ht.pc ht.frame ht.pending ht.server ht.lives
      ht.userRefs ht.acceptor⟩
  have hturns : loopMachine.Leads
      (fun s => ∃ id, Phase .poll none [] (turn 0) (only id) 2 (.acceptor 0) s)
      (fun s => ∃ id, Phase .poll none [] (turn (2 ^ 32 - 1)) (only id) 2 (.acceptor 0) s) := by
    refine Machine.Leads.iterate
      (P := fun i s => ∃ id, Phase .poll none [] (turn i) (only id) 2 (.acceptor 0) s)
      (2 ^ 32 - 1) fun i hi => ?_
    rintro s ⟨id, hs⟩
    obtain ⟨as, t, hrun, ht⟩ :=
      leads_turn (only_single id) (only_free (turn_ne_one hi) id) s hs
    rw [next_turn] at ht
    exact ⟨as, t, hrun, id, ht⟩
  have hround : turn (2 ^ 32 - 1) = 1 := by decide
  rw [hround] at hturns
  refine leads_startServer.trans (hfirst.trans (hturns.trans ?_))
  rintro s ⟨id, hs⟩
  obtain ⟨as, t, hrun, ht⟩ := leads_ready s hs
  exact ⟨as, t, hrun, id, ht⟩

/-! ### The name in use -/

/-- Behind the accept nobody refers to the first connection: its entry in the map is overwritten, it
has no functor, and the callback that is about to run is that of the new connection. -/
theorem Phase.not_referenced {id : Nat}
    (h : Phase (.dispatch [(2, .handleRead)] []) none [] 1 (only id) 2 (.acceptor 0) s)
    {k : ConnectionObject} (hk : s.conns[id]? = some k) (hname : k.name = nameOf 1)
    {connections : AList fun _ : String => TcpConnectionPtr}
    (hservers : s.servers
      = [{ name := "s", acceptSocket := 5, nextConnId := 1, connections }]) (fd : Int)
    (p' : Poller) :
    ¬ (({ s with pc := .dispatch [] [] } : EventLoop).afterAccept 0
      { name := "s", acceptSocket := 5, nextConnId := 1, connections } fd p').Referenced id := by
  let server : TcpServer := { name := "s", acceptSocket := 5, nextConnId := 1, connections }
  let t := ({ s with pc := .dispatch [] [] } : EventLoop).afterAccept 0 server fd p'
  have hserver : s.servers[0]? = some server := by
    rw [hservers]
    rfl
  have hlt := (List.getElem?_eq_some_iff.mp hk).1
  rintro (⟨server', hserver', e, he, heq⟩ | hfunctor | ⟨frame, hframe, harg⟩)
  · have hservers' : t.servers = [{ server with
        nextConnId := server.nextId
        connections := connections.insert (nameOf 1) s.conns.length }] := by
      show s.servers.set 0 _ = _
      rw [hservers]
      rfl
    have hserver'' : server' ∈ t.servers := hserver'
    rw [hservers', List.mem_singleton] at hserver''
    rw [hserver''] at he
    have hlookup : (connections.insert (nameOf 1) s.conns.length).lookup e.1 = some e.2 :=
      AList.mem_lookup_iff.mpr he
    -- `connections_[connName] = conn` has overwritten the entry of the first connection
    by_cases hfirst : e.1 = nameOf 1
    · rw [hfirst, AList.lookup_insert, Option.some.injEq, heq] at hlookup
      exact absurd hlookup.symm (Nat.ne_of_lt hlt)
    · rw [AList.lookup_insert_ne hfirst, heq] at hlookup
      have hplace := ((h.inv.listed.listed 0 server e.1 id hserver).mp hlookup).1
      rw [placeOf, hk, Option.map_some, Option.some.injEq, Prod.mk.injEq] at hplace
      exact hfirst (hplace.2.symm.trans hname)
  · have hnone : t.pendingFunctors ++ t.pc.functors = [] := by
      show s.pendingFunctors ++ [] = []
      rw [h.pending]
      rfl
    have hfunctor' : .connectDestroyed id ∈ t.pendingFunctors ++ t.pc.functors := hfunctor
    rw [hnone] at hfunctor'
    cases hfunctor'
  · cases hframe
    exact absurd (Option.some.inj harg).symm (Nat.ne_of_lt hlt)

/-- The next client takes the place of the first one in the map, and the first connection is
destroyed with its channel still registered. `close true` is the event of a destructor that closes a
socket which the `Poller` still has. -/
theorem step_reuse {id : Nat}
    (h : Phase (.dispatch [(2, .handleRead)] []) none [] 1 (only id) 2 (.acceptor 0) s)
    (hcollected : s.Collected) :
    ∃ a t, s.Legal a ∧ FunctorsFit s a ∧ s.step a = some t ∧
      ∃ k ∈ t.conns, .close true ∈ k.trace := by
  obtain ⟨connections, hservers⟩ := h.server
  obtain ⟨k, hk, hstage, hname⟩ := h.exists_conn (show only id id = _ from Function.update_self ..)
  obtain ⟨fd, hnonneg, hint, hfd⟩ := h.exists_not_open hcollected (only_single id)
  let server : TcpServer := { name := "s", acceptSocket := 5, nextConnId := 1, connections }
  have hserver : s.servers[0]? = some server := by
    rw [hservers]
    rfl
  obtain ⟨p', hcall, htable, -, -, -, -, hothers⟩ := h.inv.addChannel_spec hnonneg hfd
  have hbody := stepBody_accept h.pc h.owner hserver hnonneg hcall (.error 0) (.ok 0)
  have hlegal : s.Legal (.runHandler fd (.error 0) (.ok 0)) :=
    ⟨h.frame, by rw [h.pc]; rfl, fun _ => ⟨hint, hfd⟩⟩
  let t := ({ s with pc := .dispatch [] [] } : EventLoop).afterAccept 0 server fd p'
  have hlt := (List.getElem?_eq_some_iff.mp hk).1
  have hunreferenced : ¬ t.Referenced id := h.not_referenced hk hname hservers fd p'
  -- Its channel is still in the table.
  have hregistered : (p'.channels.lookup k.conn.socket.sockfd).isSome := by
    have hwired := h.inv.wired.conn id k hk
    have hreg := hwired.registered.mpr (by rw [hstage]; rfl)
    have hne := Nat.ne_of_lt (h.inv.wired.owned _ hreg)
    rw [htable.lookup_iff.mpr ⟨(hothers.registered _ hne).mpr hreg,
      (hothers.fd hne).trans hwired.sockfd⟩]
    rfl
  have halive : ¬ k.destroyed = true := by
    rw [(h.inv.objects.ok id k hk).destroyed, hstage]
    simp
  have hrelease : t.releaseObject id k
      = { k.record [.close true] with destroyed := true } := by
    have hrefs := h.userRefs k (List.mem_of_getElem? hk)
    rw [releaseObject, if_neg (by simp [halive, hrefs, hunreferenced])]
    show ConnectionObject.mk _ _ _ _ _ (k.trace ++ [.close (p'.channels.lookup _).isSome]) = _
    rw [hregistered]
    rfl
  have hold : t.conns[id]? = some k := by
    show (s.conns ++ [_])[id]? = _
    rw [List.getElem?_append_left hlt]
    exact hk
  -- So the destructors of the step find it unreferenced and registered.
  refine ⟨_, t.release, hlegal, trivial, by rw [step, hbody]; rfl, t.releaseObject id k, ?_, ?_⟩
  · refine List.mem_of_getElem? (i := id) ?_
    rw [getElem?_release, hold]
    rfl
  · rw [hrelease]
    simp

/-- The batch is not always safe: the descriptor of a registered channel can be closed. The run is
that of `leads_reuse`, with one step more. -/
theorem not_batch_safe : ¬ ∀ (timerfd wakeupFd : Int) (s₀ s : EventLoop)
    (as : List LoopAction), new timerfd wakeupFd = some s₀ → 0 ≤ timerfd → 0 ≤ wakeupFd →
      timerfd ≠ wakeupFd → loopMachine.Run s₀ as s → s.BatchSafe := by
  intro hall
  have hsome : (new 3 4).isSome := by decide +kernel
  obtain ⟨s₀, hnew⟩ := Option.isSome_iff_exists.mp hsome
  obtain ⟨as, s, hrun, id, hs, hcollected⟩ := leads_reuse s₀ hnew
  obtain ⟨a, t, hlegal, -, hstep, k, hk, hclose⟩ := step_reuse hs hcollected
  have hsafe := hall 3 4 s₀ t (as ++ [a]) hnew (by decide) (by decide) (by decide)
    (hrun.next hlegal hstep)
  exact hsafe.close k hk hclose

end EventLoop

end SecondGear
