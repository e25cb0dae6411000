import SecondGear.Proofs.LoopCallbacks

/-!
# `SecondGear.Proofs.LoopAccept`: new channels

`startServer` and `newConnection` make a channel on a descriptor that the kernel just handed out.
The file proves that both return and keep the invariant of the loop:

* `registered_open`: a channel is registered only while its descriptor is open. So the table has
  nothing under a descriptor that is not open, and takes a new channel on it (`addChannel_spec`).
* `Wired.of_added`, `Dispatched.of_added`: what one more channel does to the parts of the invariant
  that both functions share.
* `inv_startServer`: a server is made, with an empty map.
* `inv_newConnection`: a server accepts a connection.

## What the new name is for

`connections_[connName] = conn` replaces the entry that is there. When the name is in use, the map
loses a connection that is not closed, and `Listed` is gone with it. `Listed.of_accept` therefore
asks for a free name, and `inv_newConnection` passes the question on to `FreshName`
(`Proofs/LoopRuns.lean`). No other step of the loop asks it. As long as the counter of a server has
not overflowed, `Numbered` answers it (`Numbered.connName_fresh`), and `Numbered.of_accepted` keeps
that answer for the next accept.
-/

set_option autoImplicit false

namespace SecondGear

open SecondGear.Lib

namespace EventLoop

open ConnectionObject

variable {s s' : EventLoop}

/-- The table takes a channel on a descriptor that it does not have. `addChannel` makes the channel,
sets the read callback alone and enables reading, so afterwards the channel has an entry that is on,
and no writer (`ReadsOnly`). `Others` is the frame: every other channel keeps its entry, its
descriptor and its place in the map. The constructor of the loop uses this directly, since it has no
invariant yet. -/
theorem addChannel_of_table {p : Poller} (h : p.Table) {c : ChannelPtr}
    (hnot : ¬ p.Registered c) {fd : Int} (hnonneg : 0 ≤ fd)
    (hlookup : p.channels.lookup fd = none) :
    ∃ p', addChannel p c fd = some p' ∧ p'.Table ∧ p'.Registered c ∧ (p'.channel c).fd = fd ∧
      (p'.channel c).ReadsOnly ∧ p'.On c ∧ Poller.Others p p' c := by
  have hfree : ∀ k, p.channels.lookup k ≠ some c :=
    fun k hk => hnot (h.lookup_iff.mp hk).1
  obtain ⟨p', hcall, htable, hreg, ⟨i, hi⟩, hentry, hothers⟩ :=
    h.update_added hfree
      (show ((Channel.new fd).setReadCallBack .handleRead).index < 0 from Int.negSucc_lt_zero 0)
      hnonneg hlookup (Or.inl rfl)
      (show Channel.HasMask Channel.kReadEvent from Or.inr (Or.inl rfl))
  refine ⟨p', hcall, htable, hreg, ?_, ?_, ⟨_, hentry, by rw [hi]⟩, hothers⟩
  · rw [hi]
    rfl
  · rw [hi]
    exact ⟨rfl, rfl, rfl, rfl⟩

namespace Inv

/-- A channel is registered only while its descriptor is open. The three services (the timerfd, the
eventfd and the acceptors) never close theirs. For the channel of a connection it rests on the order
at its end: `removeChannel` comes before the destructor, so a stage that is registered is not
`closed`. -/
theorem registered_open (h : s.Inv) {c : ChannelPtr} (hc : s.poller.Registered c) :
    (s.poller.channel c).fd ∈ s.openFds := by
  have hlt := h.wired.owned c hc
  have howner : s.owners[c]? = some s.owners[c] := List.getElem?_eq_getElem hlt
  cases hs : s.owners[c] with
  | connection id =>
      rw [hs] at howner
      obtain ⟨k, hk, hkc⟩ := h.objects.owner c id howner
      have hwired := h.wired.conn id k hk
      have hstage := hwired.registered.mp (hkc ▸ hc)
      refine List.mem_append_right _ (List.mem_filterMap.mpr ⟨k, List.mem_of_getElem? hk, ?_⟩)
      rw [(h.objects.ok id k hk).openFd_eq, ← hkc, hwired.sockfd, if_neg]
      intro hclosed
      rw [hclosed] at hstage
      cases hstage
  | timerQueue =>
      exact List.mem_append_left _ (h.wired.service c _ howner (by rw [hs]; simp)).2.2
  | wakeup =>
      exact List.mem_append_left _ (h.wired.service c _ howner (by rw [hs]; simp)).2.2
  | acceptor i =>
      exact List.mem_append_left _ (h.wired.service c _ howner (by rw [hs]; simp)).2.2

/-- The table has nothing under a descriptor that is not open. The kernel may have used the number
before: whoever had it then was out of the table when it closed the descriptor. -/
theorem lookup_of_not_open (h : s.Inv) {fd : Int} (hfd : fd ∉ s.openFds) :
    s.poller.channels.lookup fd = none := by
  cases hlookup : s.poller.channels.lookup fd with
  | none => rfl
  | some c =>
      obtain ⟨hreg, heq⟩ := h.wired.table.lookup_iff.mp hlookup
      exact absurd (heq ▸ h.registered_open hreg) hfd

/-- The table takes a new channel on a descriptor that is not open. This is `addChannel_of_table` in
a loop that runs: channels are numbered by when they are made, so the next number is registered
nowhere. -/
theorem addChannel_spec (h : s.Inv) {fd : Int} (hnonneg : 0 ≤ fd) (hfd : fd ∉ s.openFds) :
    ∃ p', addChannel s.poller s.owners.length fd = some p' ∧ p'.Table ∧
      p'.Registered s.owners.length ∧ (p'.channel s.owners.length).fd = fd ∧
      (p'.channel s.owners.length).ReadsOnly ∧ p'.On s.owners.length ∧
      Poller.Others s.poller p' s.owners.length := by
  refine addChannel_of_table h.wired.table (fun hreg => ?_) hnonneg (h.lookup_of_not_open hfd)
  exact Nat.lt_irrefl _ (h.wired.owned _ hreg)

end Inv

/-- Owners and table still fit when a channel joins them. Both functions of this file use it: for a
service `hservice` asks for the descriptor to be among those of the services, and for a connection
`hconns` asks the new object to be wired itself. The old channels are in the frame `hothers`. The
last two hypotheses are about the descriptors as numbers: no two are the same, and the new one is an
`int`. -/
theorem Wired.of_added (h : s.Wired) (ho : s.Objects) {o : Owner}
    (howners : s'.owners = s.owners ++ [o]) (htable : s'.poller.Table)
    (hreg : s'.poller.Registered s.owners.length)
    (hon : s'.poller.On s.owners.length)
    (hreads : (s'.poller.channel s.owners.length).ReadsOnly)
    (hothers : Poller.Others s.poller s'.poller s.owners.length)
    (hfds : ∀ fd ∈ s.serviceFds, fd ∈ s'.serviceFds)
    (hservice : (∀ id, o ≠ .connection id) →
      (s'.poller.channel s.owners.length).fd ∈ s'.serviceFds)
    (hconns : ∀ (id : Nat) k, s'.conns[id]? = some k → s.conns[id]? = some k ∨ k.Wired s'.poller)
    (hdistinct : s'.openFds.Nodup)
    (hsockets : ∀ fd ∈ s'.sockets, fd ∈ s.sockets ∨ 0 ≤ fd ∧ fd < 2 ^ 31) : s'.Wired where
  table := htable
  owned c hc := by
    rw [howners, List.length_append]
    by_cases hne : c = s.owners.length
    · rw [hne]
      exact Nat.lt_succ_self _
    · exact Nat.lt_succ_of_lt (h.owned c ((hothers.registered c hne).mp hc))
  reads c hc := by
    rw [howners, List.length_append, List.length_singleton] at hc
    by_cases hne : c = s.owners.length
    · rw [hne]
      exact hreads
    · have hold := h.reads c (by omega)
      obtain ⟨i, hi⟩ := hothers.channel c hne
      rw [hi]
      exact ⟨hold.read, hold.write, hold.error, hold.close⟩
  service c o' hc hnot := by
    rw [howners] at hc
    by_cases hne : c = s.owners.length
    · rw [hne, List.getElem?_concat_length, Option.some.injEq] at hc
      rw [hne]
      exact ⟨hreg, hon, hservice (hc ▸ hnot)⟩
    · -- an old service: the frame keeps its entry on, and its descriptor
      have hlt : c < s.owners.length := by
        have hlt' := (List.getElem?_eq_some_iff.mp hc).1
        rw [List.length_append, List.length_singleton] at hlt'
        omega
      rw [List.getElem?_append_left hlt] at hc
      obtain ⟨hold, honc, hfd⟩ := h.service c o' hc hnot
      rw [hothers.fd hne]
      exact ⟨(hothers.registered c hne).mpr hold, hothers.on hne hold honc, hfds _ hfd⟩
  conn id k hk := by
    rcases hconns id k hk with hold | hnew
    · have hlt := (List.getElem?_eq_some_iff.mp (ho.channel id k hold)).1
      exact (h.conn id k hold).of_others hothers (Nat.ne_of_lt hlt)
    · exact hnew
  distinct := hdistinct
  ints fd hfd := (hsockets fd hfd).elim (h.ints fd) id

/-- A batch is not touched by a new channel. `activeChannels_` was filled before the channel was
made, so the channel is not in it, and the channels that are in it stay registered with their
owners. This is what lets the acceptor accept in the middle of a batch. -/
theorem Dispatched.of_added (h : s.Dispatched) (hw : s.Wired) {o : Owner}
    (howners : s'.owners = s.owners ++ [o]) (hactive : s'.activeChannels = s.activeChannels)
    (hpc : s'.pc = s.pc) (hothers : Poller.Others s.poller s'.poller s.owners.length)
    (hstages : ∀ id, s.stageOf id = some .established → s'.stageOf id = some .established) :
    s'.Dispatched := by
  refine h.of_same hactive (by rw [hpc]; exact fun hd => hd) (by rw [hpc])
    (by rw [hpc]; exact fun _ hx => hx) ?_ ?_
  · intro _ c _ hc
    exact (hothers.registered c (Nat.ne_of_lt (hw.owned c hc))).mpr hc
  · intro c hc id hid
    refine ⟨?_, hstages id⟩
    rw [howners] at hid
    rcases getElem?_concat_cases hid with hold | ⟨hce, -⟩
    · exact hold
    · -- The channels of the batch are old ones.
      rw [hpc] at hc
      have hdispatch : s.pc.isDispatch = true := by
        cases hs : s.pc with
        | dispatch current rest => rfl
        | poll => simp [hs, LoopPc.todo] at hc
        | doPendingFunctors done rest => simp [hs, LoopPc.todo] at hc
      have hreg := h.batch hdispatch c (h.sub c hc)
      exact absurd hce (Nat.ne_of_lt (hw.owned c hreg))

/-- One more connection, with the next number. `Numbered` counts the accepts of a server exactly as
long as there are fewer than `2 ^ 31 - 1`; the bound makes the increment of `nextConnId_`, which is
done in `int`, an increment. Beyond it `Numbered` says nothing about the server. -/
theorem Numbered.of_accepted (h : s.Numbered) {i : Nat} {server : TcpServer}
    (hserver : s.servers[i]? = some server) {k : ConnectionObject}
    {connections : AList fun _ : String => TcpConnectionPtr}
    (hservers : s'.servers
      = s.servers.set i { server with nextConnId := server.nextId, connections })
    (hconns : s'.conns = s.conns ++ [{ k with server := i }])
    (hplaces : ∀ id, s'.placeOf id
      = if id = s.conns.length then some (i, server.connName) else s.placeOf id) :
    s'.Numbered := by
  intro j server' hj hlt
  -- Server `i` has one accept more, and the others as many as before.
  have haccepts : s'.accepts j = s.accepts j + if j = i then 1 else 0 := by
    rw [accepts, accepts, hconns, List.countP_append]
    by_cases hij : j = i
    · simp [hij]
    · simp [hij, Ne.symm hij]
  rw [haccepts] at hlt ⊢
  rw [hservers, List.getElem?_set] at hj
  by_cases hij : j = i
  · have hilt := (List.getElem?_eq_some_iff.mp hserver).1
    rw [if_pos hij.symm, if_pos hilt, Option.some.injEq] at hj
    rw [if_pos hij] at hlt ⊢
    rw [hij] at hlt ⊢
    obtain ⟨hnext, hnames⟩ := h i server hserver (by omega)
    rw [← hj]
    refine ⟨?_, ?_⟩
    · -- No overflow yet.
      show server.nextId = _
      rw [TcpServer.nextId, hnext, Int.bmod_eq_of_le (by omega) (by omega)]
      omega
    · -- The new name has the new number, and the old ones are smaller.
      intro id name hid
      rw [hplaces] at hid
      split at hid
      · cases hid
        exact ⟨s.accepts i + 1, Nat.le_refl _, by rw [TcpServer.connName, hnext]; rfl⟩
      · obtain ⟨n, hn, hname⟩ := hnames id name hid
        exact ⟨n, by omega, hname⟩
  · rw [if_neg (Ne.symm hij)] at hj
    rw [if_neg hij, Nat.add_zero] at hlt ⊢
    obtain ⟨hnext, hnames⟩ := h j server' hj hlt
    refine ⟨hnext, fun id name hid => ?_⟩
    rw [hplaces] at hid
    split at hid
    · cases hid
      exact absurd rfl hij
    · exact hnames id name hid

/-! ### `startServer` -/

/-- The owner of one more channel is no connection, so the connections keep their channels, and no
connection gains one. -/
theorem Objects.of_service (h : s.Objects) {o : Owner} (ho : ∀ id, o ≠ .connection id)
    (howners : s'.owners = s.owners ++ [o]) (hconns : s'.conns = s.conns) : s'.Objects where
  ok := by
    rw [hconns]
    exact h.ok
  channel id k hk := by
    rw [hconns] at hk
    have hold := h.channel id k hk
    rw [howners, List.getElem?_append_left (List.getElem?_eq_some_iff.mp hold).1]
    exact hold
  owner c id hc := by
    rw [howners] at hc
    rw [hconns]
    rcases getElem?_concat_cases hc with hold | ⟨-, heq⟩
    · exact h.owner c id hold
    · exact absurd heq.symm (ho id)

/-- No connection belongs to a server that is not made yet. `startServer` gives its server the next
index, and the connections made so far have smaller ones. -/
theorem Listed.nobody (h : s.Listed) (id : Nat) (name : String) :
    s.placeOf id ≠ some (s.servers.length, name) :=
  fun hid => Nat.lt_irrefl _ (h.server id _ name hid)

/-- The map of a new server is empty, which is right because it has no connections. The maps
of the others stay. -/
theorem Listed.of_startServer (h : s.Listed) {name : String} {fd : Int}
    (howners : s'.owners = s.owners ++ [.acceptor s.servers.length])
    (hservers : s'.servers = s.servers ++ [.new name fd])
    (hconns : s'.conns = s.conns) : s'.Listed := by
  have hplaces : ∀ id, s'.placeOf id = s.placeOf id := fun id => by rw [placeOf, placeOf, hconns]
  have hstages : ∀ id, s'.stageOf id = s.stageOf id := fun id => by rw [stageOf, stageOf, hconns]
  have hlength : s'.servers.length = s.servers.length + 1 := by
    rw [hservers, List.length_append, List.length_singleton]
  refine ⟨?_, ?_, ?_⟩
  · intro i server name' id hi
    rw [hservers] at hi
    rw [hplaces, hstages]
    rcases getElem?_concat_cases hi with hold | ⟨rfl, rfl⟩
    · exact h.listed i server name' id hold
    · exact iff_of_false (by simp [TcpServer.new]) fun hboth => h.nobody id name' hboth.1
  · intro id i name' hid
    rw [hplaces] at hid
    rw [hlength]
    exact Nat.lt_succ_of_lt (h.server id i name' hid)
  · intro c i hc
    rw [howners] at hc
    rw [hlength]
    rcases getElem?_concat_cases hc with hold | ⟨-, heq⟩
    · exact Nat.lt_succ_of_lt (h.acceptor c i hold)
    · cases heq
      exact Nat.lt_succ_self _

/-- `nextConnId_` starts from one, and a new server has accepted nothing, so its counter is right
before its first accept. The other servers keep theirs. -/
theorem Numbered.of_startServer (h : s.Numbered) (hl : s.Listed) {name : String} {fd : Int}
    (hservers : s'.servers = s.servers ++ [.new name fd])
    (hconns : s'.conns = s.conns) : s'.Numbered := by
  have hplaces : ∀ id, s'.placeOf id = s.placeOf id := fun id => by rw [placeOf, placeOf, hconns]
  have haccepts : ∀ i, s'.accepts i = s.accepts i := fun i => by rw [accepts, accepts, hconns]
  intro i server hi hlt
  rw [hservers] at hi
  rw [haccepts] at hlt ⊢
  rcases getElem?_concat_cases hi with hold | ⟨rfl, rfl⟩
  · obtain ⟨hnext, hnames⟩ := h i server hold hlt
    exact ⟨hnext, fun id name' hid => hnames id name' (hplaces id ▸ hid)⟩
  · -- the new server: no connection made so far is its own
    have hzero : s.accepts s.servers.length = 0 := by
      refine List.countP_eq_zero.mpr fun k hk heq => ?_
      obtain ⟨id, hid⟩ := List.getElem?_of_mem hk
      have hserver : k.server = s.servers.length := by simpa using heq
      refine hl.nobody id k.name ?_
      rw [placeOf, hid, ← hserver]
      rfl
    refine ⟨?_, fun id name' hid => absurd (hplaces id ▸ hid) (hl.nobody id name')⟩
    rw [hzero]
    rfl

namespace Inv

/-- `start` of a server whose listening descriptor the kernel just gave out. The table takes
the acceptor's channel, and the new server has no connections. Since the server may be made by a
callback, in the middle of a batch or of the functors, nothing is assumed about where the loop
is. -/
theorem inv_startServer (h : s.Inv) (name : String) {fd : Int} (hnonneg : 0 ≤ fd)
    (hint : fd < 2 ^ 31) (hfd : fd ∉ s.openFds) :
    ∃ s', s.stepBody (.startServer name fd) = some s' ∧ s'.Inv := by
  obtain ⟨p', hcall, htable, hreg, hpfd, hreads, hon, hothers⟩ := h.addChannel_spec hnonneg hfd
  let s₁ : EventLoop := { s with
    poller := p'
    owners := s.owners ++ [.acceptor s.servers.length]
    servers := s.servers ++ [.new name fd] }
  have hfds : s₁.serviceFds = s.serviceFds ++ [fd] := by
    show s.timerfd :: s.wakeupFd :: (s.servers ++ [TcpServer.new name fd]).map (·.acceptSocket)
      = _
    rw [List.map_append]
    rfl
  -- The listening descriptor joins those that were open, in front of the connections.
  have hperm : s₁.openFds.Perm (fd :: s.openFds) := by
    rw [openFds, hfds, List.append_assoc]
    exact List.perm_middle
  have hwired : s₁.Wired := by
    refine h.wired.of_added h.objects rfl htable hreg hon hreads hothers ?_ ?_
      (fun id k hk => Or.inl hk) (hperm.nodup_iff.mpr (List.nodup_cons.mpr ⟨hfd, h.wired.distinct⟩))
      ?_
    · intro fd' hfd'
      rw [hfds]
      exact List.mem_append_left _ hfd'
    · -- the acceptor is a service, so its descriptor has to be one of theirs
      intro _
      rw [hfds, hpfd]
      exact List.mem_append_right _ (List.mem_singleton.mpr rfl)
    · intro x hx
      have hmem : x ∈ (s.servers ++ [TcpServer.new name fd]).map (·.acceptSocket)
          ++ s.conns.filterMap openFd := hx
      rw [List.map_append, List.append_assoc, List.mem_append, List.mem_append] at hmem
      rcases hmem with hserver | hnew | hconn
      · exact Or.inl (List.mem_append_left _ hserver)
      · rw [List.mem_singleton.mp hnew]
        exact Or.inr ⟨hnonneg, hint⟩
      · exact Or.inl (List.mem_append_right _ hconn)
  exact ⟨s₁, by rw [stepBody, startServer, hcall]; rfl,
    h.objects.of_service (by simp) rfl rfl, hwired, h.listed.of_startServer rfl rfl rfl,
    h.queued.of_same (fun _ => rfl) (fun _ hid => hid) (fun _ => Iff.rfl) rfl h.queued.poll
      (le_refl _) (fun _ => Iff.rfl) (fun _ => Iff.rfl),
    h.dispatched.of_added h.wired rfl rfl rfl hothers fun _ hid => hid,
    h.numbered.of_startServer h.listed rfl rfl⟩

end Inv

/-! ### `newConnection` -/

/-- The object that `newConnection` makes, after `connectEstablished`. Its history has the two
events that an established connection starts with. It has no reference of the user yet: the callback
that runs next gets one to use, and takes one of its own with `addRef` if it wants to keep it. -/
def accepted (s : EventLoop) (i : Nat) (server : TcpServer) (fd : Int) : ConnectionObject where
  conn := ((TcpConnection.new s.poller s.owners.length fd).2).setState .kConnected
  name := server.connName
  server := i
  userRefs := 0
  destroyed := false
  trace := [.connectEstablished, .connectionCallback true]

/-- The new object is in order: both buffers are fresh, and its history is the opening of a
connection that has seen no message. -/
theorem accepted_ok (s : EventLoop) (i : Nat) (server : TcpServer) (fd : Int) :
    (accepted s i server fd).Ok where
  history := ⟨0, rfl⟩
  state := Or.inl rfl
  destroyed := by simp [accepted, stage]
  input := Buffer.new_wf
  output := Buffer.new_wf

/-- The loop after `newConnection`, at the start of the connection callback. The map has the new
connection under its name, whatever was there before. -/
def afterAccept (s : EventLoop) (i : Nat) (server : TcpServer) (fd : Int) (p' : Poller) :
    EventLoop :=
  { s with
    poller := p'
    owners := s.owners ++ [.connection s.conns.length]
    servers := s.servers.set i { server with
      nextConnId := server.nextId
      connections := server.connections.insert server.connName s.conns.length }
    conns := s.conns ++ [accepted s i server fd]
    frame := some (.connectEstablished s.conns.length) }

/-- `newConnection` returns once the table takes the channel, with the new object behind the others.
The assertion of `connectEstablished` is about a state that the constructor has just set. -/
theorem newConnection_returns {i : Nat} {server : TcpServer}
    (hserver : s.servers[i]? = some server) {fd : Int} {p' : Poller}
    (hcall : addChannel s.poller s.owners.length fd = some p') :
    s.newConnection i fd = some (s.afterAccept i server fd p') := by
  have hest : (TcpConnection.new s.poller s.owners.length fd).2.connectEstablished
      (TcpConnection.new s.poller s.owners.length fd).1
      = some (p', (TcpConnection.new s.poller s.owners.length fd).2.setState .kConnected) :=
    TcpConnection.connectEstablished_returns rfl hcall
  rw [newConnection]
  simp only [hserver, Option.bind_eq_bind, Option.bind_some, hest]
  rfl

/-- Only the connection's channel is new. -/
private theorem acceptor_of_concat {owners : List Owner} {id c j : Nat}
    (h : (owners ++ [Owner.connection id])[c]? = some (.acceptor j)) :
    owners[c]? = some (.acceptor j) := by
  rcases getElem?_concat_cases h with hold | ⟨-, heq⟩
  · exact hold
  · cases heq

/-- The map has the new connection under a name that was free, and its number is new. This is where
the name has to be free (`hname`): otherwise the connection that had it would still be established,
and its server's map would say otherwise. The places and stages of all connections enter as
equations, so that the maps of the other servers need no word. -/
theorem Listed.of_accept (h : s.Listed) {i : Nat} {server : TcpServer}
    (hserver : s.servers[i]? = some server) (hname : server.connName ∉ server.connections)
    (hservers : s'.servers = s.servers.set i { server with
      nextConnId := server.nextId
      connections := server.connections.insert server.connName s.conns.length })
    (howners : ∀ (c j : Nat), s'.owners[c]? = some (.acceptor j) →
      s.owners[c]? = some (.acceptor j))
    (hnostage : s.stageOf s.conns.length = none)
    (hplaces : ∀ j, s'.placeOf j
      = if j = s.conns.length then some (i, server.connName) else s.placeOf j)
    (hstages : ∀ j, s'.stageOf j
      = if j = s.conns.length then some .established else s.stageOf j) : s'.Listed := by
  refine h.of_server hserver hservers howners ?_ ?_ ?_
  · -- whoever has a place had it, or is the new one, whose server is an old one
    intro j i' name hj
    rw [hplaces] at hj
    split at hj
    · cases hj
      exact Or.inr rfl
    · exact Or.inl hj
  · -- The map of `server` has one entry more, under a name that it did not have.
    intro name j
    rw [hplaces, hstages]
    show (server.connections.insert server.connName s.conns.length).lookup name = some j ↔ _
    have hnone : server.connections.lookup server.connName = none :=
      AList.lookup_eq_none.mpr hname
    by_cases hn : name = server.connName
    · rw [hn, AList.lookup_insert]
      by_cases hj : j = s.conns.length
      · rw [if_pos hj, if_pos hj, hj]
        simp
      · rw [if_neg hj, if_neg hj, ← h.listed i server _ j hserver, hnone]
        simp [Ne.symm hj]
    · rw [AList.lookup_insert_ne hn]
      by_cases hj : j = s.conns.length
      · rw [if_pos hj, if_pos hj, hj, h.listed i server _ _ hserver, hnostage]
        simp [Ne.symm hn]
      · rw [if_neg hj, if_neg hj]
        exact h.listed i server name j hserver
  · -- The other maps neither gain nor lose: the new connection is not theirs.
    intro i' name j hi'
    rw [hplaces, hstages]
    by_cases hj : j = s.conns.length
    · rw [if_pos hj, if_pos hj, hj, hnostage]
      simp [Ne.symm hi']
    · rw [if_neg hj, if_neg hj]

/-- One more connection, on a channel of its own. The old objects keep their numbers, since the new
one comes behind them. -/
theorem Objects.of_accept (h : s.Objects) {k : ConnectionObject} (hok : k.Ok)
    (hchannel : k.conn.channel = s.owners.length)
    (howners : s'.owners = s.owners ++ [.connection s.conns.length])
    (hconns : s'.conns = s.conns ++ [k]) : s'.Objects where
  ok j d hd := by
    rw [hconns] at hd
    rcases getElem?_concat_cases hd with hd | ⟨-, rfl⟩
    · exact h.ok j d hd
    · exact hok
  channel j d hd := by
    rw [hconns] at hd
    rw [howners]
    rcases getElem?_concat_cases hd with hd | ⟨rfl, rfl⟩
    · have hc := h.channel j d hd
      rw [List.getElem?_append_left (List.getElem?_eq_some_iff.mp hc).1]
      exact hc
    · rw [hchannel]
      exact List.getElem?_concat_length
  owner c j hc := by
    rw [howners] at hc
    rw [hconns]
    rcases getElem?_concat_cases hc with hc | ⟨hce, heq⟩
    · obtain ⟨d, hd, hdc⟩ := h.owner c j hc
      exact ⟨d, (List.getElem?_append_left (List.getElem?_eq_some_iff.mp hd).1).trans hd, hdc⟩
    · cases heq
      exact ⟨k, List.getElem?_concat_length, hchannel.trans hce.symm⟩

/-- The socket of the new connection is open besides those that were. It comes last, because the
connections come behind the services and the new one behind the others. -/
theorem openFds_accept {k : ConnectionObject} {fd : Int} (hfds : s'.serviceFds = s.serviceFds)
    (hconns : s'.conns = s.conns ++ [k]) (hopen : k.openFd = some fd) :
    s'.openFds = s.openFds ++ [fd] := by
  rw [openFds, openFds, hfds, hconns, List.filterMap_append, List.append_assoc]
  simp [hopen]

/-- A new connection is established, so every other stage has whom it had. -/
theorem stageOf_accept_iff (hstages : ∀ j, s'.stageOf j
      = if j = s.conns.length then some .established else s.stageOf j)
    {stage : Stage} (hne : stage ≠ .established) (j : Nat) :
    s'.stageOf j = some stage ↔ s.stageOf j = some stage := by
  rw [hstages]
  by_cases hj : j = s.conns.length
  · have hnostage : s.stageOf s.conns.length = none := by
      rw [stageOf, List.getElem?_eq_none (Nat.le_refl _)]
      rfl
    rw [if_pos hj, hj, hnostage]
    simp [Ne.symm hne]
  · rw [if_neg hj]

/-- The user code that `connectEstablished` calls is in front of no `connectDestroyed`, and the new
connection waits for none. So the functors that are due stay due, one for each connection that is
closing. -/
theorem Queued.of_accept (h : s.Queued) (hframe : s.frame = none) (hpc : s.pc ≠ .poll)
    (hpc' : s'.pc = s.pc) (hpending : s'.pendingFunctors = s.pendingFunctors) {id : Nat}
    (hframe' : s'.frame = some (.connectEstablished id))
    (hstages : ∀ j, s'.stageOf j
      = if j = s.conns.length then some .established else s.stageOf j) : s'.Queued := by
  refine h.of_same ?_ ?_ ?_ (by rw [hpc']) ?_ (by rw [hpc'])
    (stageOf_accept_iff hstages (by simp)) (stageOf_accept_iff hstages (by simp))
  · rw [hpending, hpc']
    exact fun _ => rfl
  · rw [hpending]
    exact fun _ hid => hid
  · intro j
    rw [hframe, hframe']
    simp
  · rw [hpc']
    exact fun hp => absurd hp hpc

namespace Inv

/-- The acceptor got a descriptor that was not open, and the server's map has nothing under
the next name. The new connection is established from here on, and the loop is inside its
connection callback. Each part of the invariant has its lemma above; what is left here is what the
new object and the new descriptor are. The rest of the batch is untouched, so the acceptor may be
anywhere in it. -/
theorem inv_newConnection (h : s.Inv) (hframe : s.frame = none) (hpc : s.pc ≠ .poll) {i : Nat}
    {server : TcpServer} (hserver : s.servers[i]? = some server)
    (hname : server.connName ∉ server.connections) {fd : Int} (hnonneg : 0 ≤ fd)
    (hint : fd < 2 ^ 31) (hfd : fd ∉ s.openFds) :
    ∃ s', s.newConnection i fd = some s' ∧ s'.Inv := by
  obtain ⟨p', hcall, htable, hreg, hpfd, hreads, hon, hothers⟩ := h.addChannel_spec hnonneg hfd
  let k := accepted s i server fd
  let s₁ := s.afterAccept i server fd p'
  have hconns : s₁.conns = s.conns ++ [k] := rfl
  have hstages : ∀ j, s₁.stageOf j
      = if j = s.conns.length then some .established else s.stageOf j := stageOf_concat hconns
  have hplaces : ∀ j, s₁.placeOf j
      = if j = s.conns.length then some (i, server.connName) else s.placeOf j :=
    placeOf_concat hconns
  have hnostage : s.stageOf s.conns.length = none := by
    rw [stageOf, List.getElem?_eq_none (Nat.le_refl _)]
    rfl
  -- The batch may have old connections ahead. They keep their stage.
  have hkept : ∀ j, s.stageOf j = some .established → s₁.stageOf j = some .established := by
    intro j hj
    rw [hstages]
    split
    · rfl
    · exact hj
  have hfds : s₁.serviceFds = s.serviceFds := serviceFds_set hserver rfl rfl rfl rfl
  have hopen : s₁.openFds = s.openFds ++ [fd] := openFds_accept hfds hconns rfl
  have hwired : s₁.Wired := by
    refine h.wired.of_added h.objects rfl htable hreg hon hreads hothers ?_ ?_ ?_ ?_ ?_
    · intro fd' hfd'
      rw [hfds]
      exact hfd'
    · exact fun hnot => absurd rfl (hnot _)
    · -- its channel is registered under the descriptor that it was given
      intro j d hd
      rcases getElem?_concat_cases (hconns ▸ hd) with hd | ⟨-, rfl⟩
      · exact Or.inl hd
      · exact Or.inr ⟨hpfd, iff_of_true hreg rfl,
          (fun hs => by rcases hs with hs | hs <;> cases hs), fun hs => by cases hs⟩
    · -- the kernel hands out no descriptor twice
      rw [hopen, ← List.concat_eq_append]
      exact List.Nodup.concat hfd h.wired.distinct
    · -- behind the timerfd and the eventfd, the sockets are the open descriptors
      intro x hx
      have hsockets : s₁.sockets = s.sockets ++ [fd] :=
        (List.cons.inj (List.cons.inj hopen).2).2
      rw [hsockets, List.mem_append, List.mem_singleton] at hx
      rcases hx with hold | rfl
      · exact Or.inl hold
      · exact Or.inr ⟨hnonneg, hint⟩
  exact ⟨s₁, newConnection_returns hserver hcall,
    h.objects.of_accept (accepted_ok s i server fd) rfl rfl hconns, hwired,
    -- here the name has to be free
    h.listed.of_accept hserver hname rfl (fun c j hc => acceptor_of_concat hc) hnostage hplaces
      hstages,
    h.queued.of_accept hframe hpc rfl rfl rfl hstages,
    h.dispatched.of_added h.wired rfl rfl rfl hothers hkept,
    h.numbered.of_accepted hserver (k := k) rfl rfl hplaces⟩

end Inv

end EventLoop

end SecondGear
