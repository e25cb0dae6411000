import SecondGear.Proofs.LifeCycle

/-!
# `SecondGear.Proofs.LoopObjects`: what a step keeps of the objects

A step of the loop changes at most one connection, or makes one. Whatever it does, a
connection keeps its socket, its history only grows, and a destroyed one stays destroyed.
The loop, the servers and the owners of the channels stay. None of this needs the invariant.

* `stepBody_change`: every action keeps the objects, or makes one connection or one server.
* `step_kept`: the objects after a step of the loop.
* `Kept.openFds`: the descriptors that are open after it.
* `later_of_run`: a connection at the end of a run.

## Two descriptions

`Change` is exact where an object is made: it has the new object, the server that made it and the
map behind it. `Proofs/ConnectionNames.lean` needs all of this to follow the names. `Kept` is what
most others need: objects that were there are there later, and descriptors that are open were open
or are the one that the kernel just gave. A step with its destructors is a `Change` and a `Same`,
one after the other.
-/

set_option autoImplicit false

namespace SecondGear

open SecondGear.Lib

/-! ### The socket of a connection -/

namespace TcpConnection

variable {p p' : Poller} {conn conn' : TcpConnection}

/-- `sendInLoop` writes to the socket of the connection, and leaves it where it is. -/
theorem sendInLoop_sockfd {message : List Byte} {result : WriteResult}
    (h : conn.sendInLoop p message result = some (p', conn')) :
    conn'.socket.sockfd = conn.socket.sockfd := by
  rw [sendInLoop] at h
  dsimp only at h
  generalize hdirect : (!isWriting p conn && conn.outputBuffer.readableBytes == 0) = direct at h
  have hsocket : (if direct then conn.socket.write message result else conn.socket).sockfd
      = conn.socket.sockfd := by
    cases direct <;> rfl
  generalize (if direct then conn.socket.write message result else conn.socket) = socket
    at h hsocket
  generalize (if direct then result.taken else 0) = nwrote at h
  split at h
  · -- Something is left for the buffer.
    obtain ⟨b, -, h⟩ := bind_eq_some_iff.mp h
    split at h
    · obtain ⟨p₁, -, h⟩ := bind_eq_some_iff.mp h
      cases h
      exact hsocket
    · cases h
      exact hsocket
  · cases h
    exact hsocket

/-- So does `handleWrite`, with the half-close that may come behind the last byte. -/
theorem handleWrite_sockfd {result : WriteResult}
    (h : conn.handleWrite p result = some (p', conn')) :
    conn'.socket.sockfd = conn.socket.sockfd := by
  have hshutdown : ∀ (q : Poller) (c : TcpConnection),
      (if c.state = .kDisconnecting then c.shutdownInLoop q else c).socket.sockfd
        = c.socket.sockfd := by
    intro q c
    rw [shutdownInLoop_eq]
    split
    · show Socket.sockfd (if _ then _ else _) = _
      split <;> rfl
    · rfl
  rw [handleWrite] at h
  dsimp only at h
  split at h
  · split at h
    · obtain ⟨b, -, h⟩ := bind_eq_some_iff.mp h
      split at h
      · obtain ⟨p₁, -, h⟩ := bind_eq_some_iff.mp h
        cases h
        exact hshutdown p' { conn with
          socket := conn.socket.write conn.outputBuffer.content result, outputBuffer := b }
      · cases h
        rfl
    · cases h
      rfl
  · cases h
    rfl

/-- No callback gives a connection another socket. -/
theorem runHandler_sockfd {readv : ReadvResult} {write : WriteResult} {handler : Handler}
    {callback : Option Callback}
    (h : conn.runHandler p readv write handler = some (p', conn', callback)) :
    conn'.socket.sockfd = conn.socket.sockfd := by
  cases handler with
  | handleRead =>
      obtain ⟨b, n, errno, -, rfl, -⟩ := handleRead_spec h
      rfl
  | handleWrite =>
      obtain ⟨⟨p₁, conn₁⟩, hwrite, heq⟩ := Option.map_eq_some_iff.mp h
      cases heq
      exact handleWrite_sockfd hwrite
  | handleClose =>
      obtain ⟨⟨p₁, conn₁⟩, hclose, heq⟩ := Option.map_eq_some_iff.mp h
      cases heq
      rw [(handleClose_spec hclose).2.1]
  | handleError =>
      cases h
      rfl

end TcpConnection

/-! ### The same connection later -/

/-- What a connection object keeps for good. The descriptor stays the same number when it is closed:
the object does not forget it. -/
structure ConnectionObject.Later (k k' : ConnectionObject) : Prop where
  sockfd : k'.conn.socket.sockfd = k.conn.socket.sockfd
  trace : k.trace <+: k'.trace
  destroyed : k.destroyed = true → k'.destroyed = true

namespace ConnectionObject.Later

variable {k k' k'' : ConnectionObject}

/-- No time passes. -/
theorem refl (k : ConnectionObject) : k.Later k := ⟨rfl, List.prefix_refl _, fun h => h⟩

/-- One time after the other. -/
theorem trans (h : k.Later k') (h' : k'.Later k'') : k.Later k'' where
  sockfd := h'.sockfd.trans h.sockfd
  trace := h.trace.trans h'.trace
  destroyed hd := h'.destroyed (h.destroyed hd)

/-- Something happens to it. -/
theorem record (h : k.Later k') (events : List ConnectionEvent) : k.Later (k'.record events) where
  sockfd := h.sockfd
  trace := h.trace.trans (List.prefix_append _ _)
  destroyed := h.destroyed

/-- A method was called. -/
theorem setConn (k : ConnectionObject) {conn : TcpConnection}
    (hsockfd : conn.socket.sockfd = k.conn.socket.sockfd) : k.Later (k.setConn conn) :=
  ⟨hsockfd, List.prefix_refl _, fun h => h⟩

/-- The user copied or dropped a reference. -/
theorem userRefs (k : ConnectionObject) (n : Nat) : k.Later { k with userRefs := n } :=
  ⟨rfl, List.prefix_refl _, fun h => h⟩

end ConnectionObject.Later

/-- The same connection later, of the same server and under the same name. A connection is never
handed over, and has no way to change its name. -/
structure ConnectionObject.Continues (k k' : ConnectionObject) : Prop where
  later : k.Later k'
  server : k'.server = k.server
  name : k'.name = k.name

/-- What a server is, apart from its map. The counter is part of it: only an accept moves it. -/
def TcpServer.identity (server : TcpServer) : String × Int × Int :=
  (server.name, server.acceptSocket, server.nextConnId)

namespace EventLoop

open ConnectionObject

variable {s s' t : EventLoop} {accepted listening : Option Int}

/-- The objects stay: no connection and no server is made, and no map gets an entry. A map may lose
one (`maps`), and the connections may go on. -/
structure Same (s s' : EventLoop) : Prop where
  timerfd : s'.timerfd = s.timerfd
  wakeupFd : s'.wakeupFd = s.wakeupFd
  owners : s'.owners = s.owners
  servers : s'.servers.map TcpServer.identity = s.servers.map TcpServer.identity
  maps : ∀ (i : Nat) server', s'.servers[i]? = some server' → ∃ server,
    s.servers[i]? = some server ∧ server'.connections.entries ⊆ server.connections.entries
  conns : ∀ id : Nat, Option.Rel Continues s.conns[id]? s'.conns[id]?

/-- What the loop keeps, while it may make a connection on one descriptor and a server on
another. The two are options: a step makes at most one of either, and most steps make none. -/
structure Kept (accepted listening : Option Int) (s s' : EventLoop) : Prop where
  timerfd : s'.timerfd = s.timerfd
  wakeupFd : s'.wakeupFd = s.wakeupFd
  owners : s.owners <+: s'.owners
  servers : s'.servers.map (·.acceptSocket)
    = s.servers.map (·.acceptSocket) ++ listening.toList
  conns : ∀ (id : Nat) k, s.conns[id]? = some k → ∃ k', s'.conns[id]? = some k' ∧ k.Later k'
  added : ∀ (id : Nat) k', s'.conns[id]? = some k' → s.conns[id]? = none →
    k'.conn.socket.sockfd ∈ accepted

/-- The descriptor of a connection that an action may make, if the callback is that of an acceptor
and `accept` succeeds. -/
def acceptedBy : LoopAction → Option Int
  | .runHandler connfd _ _ => some connfd
  | _ => none

/-- The descriptor of a server that an action makes. -/
def listeningBy : LoopAction → Option Int
  | .startServer _ acceptSocket => some acceptSocket
  | _ => none

/-- What one thing that happens in the loop does to the objects, in front of the destructors. The
case of a new connection has what the server did: the name under which it is entered, the counter
behind, and the map with the entry, whether or not the name was there. -/
inductive Change (s s' : EventLoop) : LoopAction → Prop
  | same (a : LoopAction) (ha : listeningBy a = none) (hsame : Same s s') : Change s s' a
  /-- an acceptor's callback: the connection `k`, under the next name of the server -/
  | newConnection (connfd : Int) (readv : ReadvResult) (write : WriteResult) (i : Nat)
      (server : TcpServer) (k : ConnectionObject) (hserver : s.servers[i]? = some server)
      (hsockfd : k.conn.socket.sockfd = connfd) (hi : k.server = i)
      (hname : k.name = server.connName) (htimerfd : s'.timerfd = s.timerfd)
      (hwakeupFd : s'.wakeupFd = s.wakeupFd)
      (howners : s'.owners = s.owners ++ [.connection s.conns.length])
      (hservers : s'.servers
        = s.servers.set i { server with
            nextConnId := server.nextId
            connections := server.connections.insert server.connName s.conns.length })
      (hconns : s'.conns = s.conns ++ [k]) : Change s s' (.runHandler connfd readv write)
  /-- a server with an empty map -/
  | startServer (name : String) (acceptSocket : Int) (htimerfd : s'.timerfd = s.timerfd)
      (hwakeupFd : s'.wakeupFd = s.wakeupFd)
      (howners : s'.owners = s.owners ++ [.acceptor s.servers.length])
      (hservers : s'.servers = s.servers ++ [.new name acceptSocket])
      (hconns : s'.conns = s.conns) : Change s s' (.startServer name acceptSocket)

namespace Same

/-- Nothing that counts here changed. -/
theorem of_eq (htimerfd : s'.timerfd = s.timerfd) (hwakeupFd : s'.wakeupFd = s.wakeupFd)
    (howners : s'.owners = s.owners) (hservers : s'.servers = s.servers)
    (hconns : s'.conns = s.conns) : Same s s' where
  timerfd := htimerfd
  wakeupFd := hwakeupFd
  owners := howners
  servers := by rw [hservers]
  maps i server' hi := ⟨server', hservers ▸ hi, List.Subset.refl _⟩
  conns id := by
    rw [hconns]
    cases s.conns[id]? with
    | none => exact .none
    | some k => exact .some ⟨.refl k, rfl, rfl⟩

/-- One connection changes in its place, and the others do not. -/
theorem conns_of_set {id : Nat} {k k' : ConnectionObject} (hk : s.conns[id]? = some k)
    (hcontinues : k.Continues k') (hconns : s'.conns = s.conns.set id k') (j : Nat) :
    Option.Rel Continues s.conns[j]? s'.conns[j]? := by
  rw [conns_set hk hconns]
  by_cases hj : j = id
  · rw [if_pos hj, hj, hk]
    exact .some hcontinues
  · rw [if_neg hj]
    cases s.conns[j]? with
    | none => exact .none
    | some d => exact .some ⟨.refl d, rfl, rfl⟩

/-- One connection changes, and the servers are left alone. -/
theorem of_set {id : Nat} {k k' : ConnectionObject} (hk : s.conns[id]? = some k)
    (hcontinues : k.Continues k') (htimerfd : s'.timerfd = s.timerfd)
    (hwakeupFd : s'.wakeupFd = s.wakeupFd) (howners : s'.owners = s.owners)
    (hservers : s'.servers = s.servers) (hconns : s'.conns = s.conns.set id k') : Same s s' where
  timerfd := htimerfd
  wakeupFd := hwakeupFd
  owners := howners
  servers := by rw [hservers]
  maps i server' hi := ⟨server', hservers ▸ hi, List.Subset.refl _⟩
  conns := conns_of_set hk hcontinues hconns

/-- One change after the other. Used for a close, which changes the object before and inside
`removeConnection`, and for the destructors behind a step. -/
theorem trans (h : Same s t) (h' : Same t s') : Same s s' where
  timerfd := h'.timerfd.trans h.timerfd
  wakeupFd := h'.wakeupFd.trans h.wakeupFd
  owners := h'.owners.trans h.owners
  servers := h'.servers.trans h.servers
  maps i server' hi := by
    obtain ⟨server₁, hi₁, hsub'⟩ := h'.maps i server' hi
    obtain ⟨server, hi₀, hsub⟩ := h.maps i server₁ hi₁
    exact ⟨server, hi₀, List.Subset.trans hsub' hsub⟩
  conns id := by
    have hfirst := h.conns id
    have hsecond := h'.conns id
    generalize s.conns[id]? = x at hfirst ⊢
    generalize t.conns[id]? = y at hfirst hsecond
    generalize s'.conns[id]? = z at hsecond ⊢
    cases hfirst with
    | none =>
        cases hsecond with
        | none => exact .none
    | some hfirst =>
        cases hsecond with
        | some hsecond =>
            exact .some ⟨hfirst.later.trans hsecond.later, hsecond.server.trans hfirst.server,
              hsecond.name.trans hfirst.name⟩

/-- The servers and the names of the connections, as the parts of the invariant want them. -/
theorem map_place (h : Same s s') :
    s'.conns.map (fun k => (k.server, k.name)) = s.conns.map fun k => (k.server, k.name) := by
  refine List.ext_getElem? fun id => ?_
  have hconn := h.conns id
  rw [List.getElem?_map, List.getElem?_map]
  generalize s.conns[id]? = x at hconn ⊢
  generalize s'.conns[id]? = y at hconn ⊢
  cases hconn with
  | none => rfl
  | some hcontinues => rw [Option.map_some, Option.map_some, hcontinues.server, hcontinues.name]

/-- A part of what the servers are. -/
theorem map_servers {β : Type} (h : Same s s') (f : String × Int × Int → β) :
    s'.servers.map (fun server => f server.identity)
      = s.servers.map fun server => f server.identity := by
  have hmap := congrArg (List.map f) h.servers
  rwa [List.map_map, List.map_map] at hmap

end Same

namespace Kept

/-- The same objects are kept. -/
theorem of_same (h : Same s s') : Kept accepted none s s' where
  timerfd := h.timerfd
  wakeupFd := h.wakeupFd
  owners := by rw [h.owners]
  servers := by
    rw [Option.toList_none, List.append_nil]
    exact h.map_servers fun x => x.2.1
  conns id k hk := by
    have hconn := h.conns id
    rw [hk] at hconn
    generalize s'.conns[id]? = y at hconn ⊢
    cases hconn with
    | some hcontinues => exact ⟨_, rfl, hcontinues.later⟩
  added id k' hk' hnone := by
    have hconn := h.conns id
    rw [hk', hnone] at hconn
    cases hconn

/-- One thing after the other. The second one makes nothing, as the destructors do. -/
theorem trans (h : Kept accepted listening s t) (h' : Kept none none t s') :
    Kept accepted listening s s' where
  timerfd := h'.timerfd.trans h.timerfd
  wakeupFd := h'.wakeupFd.trans h.wakeupFd
  owners := h.owners.trans h'.owners
  servers := by rw [h'.servers, h.servers, Option.toList_none, List.append_nil]
  conns id k hk := by
    obtain ⟨k', hk', hlater⟩ := h.conns id k hk
    obtain ⟨k'', hk'', hlater'⟩ := h'.conns id k' hk'
    exact ⟨k'', hk'', hlater.trans hlater'⟩
  added id k'' hk'' hnone := by
    cases hk' : t.conns[id]? with
    | none => exact absurd (h'.added id k'' hk'' hk') (by simp)
    | some k' =>
        obtain ⟨d, hd, hlater⟩ := h'.conns id k' hk'
        rw [hk'', Option.some.injEq] at hd
        rw [hd, hlater.sockfd]
        exact h.added id k' hk' hnone

/-- A server afterwards, unless one was made, was a server before with the same socket. -/
theorem exists_server (h : Kept accepted none s s') {i : Nat} {server' : TcpServer}
    (hi : s'.servers[i]? = some server') :
    ∃ server, s.servers[i]? = some server ∧ server.acceptSocket = server'.acceptSocket := by
  have hmap := congrArg (·[i]?) h.servers
  simp only [Option.toList_none, List.append_nil, List.getElem?_map, hi, Option.map_some] at hmap
  exact Option.map_eq_some_iff.mp hmap.symm

/-- There are as many as before. -/
theorem length_servers (h : Kept accepted none s s') : s'.servers.length = s.servers.length := by
  simpa using congrArg List.length h.servers

/-- The descriptors that are open afterwards. One that was not open before is the one on which the
step made a connection or a server: nothing is opened otherwise, and nothing that was closed is open
again. -/
theorem openFds (h : Kept accepted listening s s') {fd : Int} (hfd : fd ∈ s'.openFds) :
    fd ∈ s.openFds ∨ fd ∈ accepted ∨ fd ∈ listening := by
  rcases List.mem_append.mp hfd with hservice | hconn
  · rw [serviceFds, h.timerfd, h.wakeupFd, h.servers, ← List.cons_append, ← List.cons_append,
      List.mem_append, Option.mem_toList] at hservice
    rcases hservice with hold | hnew
    · exact Or.inl (List.mem_append_left _ hold)
    · exact Or.inr (Or.inr hnew)
  · obtain ⟨k', hmem, hopen⟩ := List.mem_filterMap.mp hconn
    obtain ⟨id, hk'⟩ := List.getElem?_of_mem hmem
    have hsockfd : k'.destroyed = false ∧ k'.conn.socket.sockfd = fd := by
      simpa [openFd] using hopen
    cases hk : s.conns[id]? with
    | none => exact Or.inr (Or.inl (hsockfd.2 ▸ h.added id k' hk' hk))
    | some k =>
        obtain ⟨d, hd, hlater⟩ := h.conns id k hk
        rw [hk', Option.some.injEq] at hd
        rw [← hd] at hlater
        refine Or.inl (List.mem_append_right _ (List.mem_filterMap.mpr
          ⟨k, List.mem_of_getElem? hk, ?_⟩))
        have halive : ¬ k.destroyed = true := fun hdestroyed => by
          rw [hlater.destroyed hdestroyed] at hsockfd
          cases hsockfd.1
        rw [openFd, if_neg halive, ← hlater.sockfd, hsockfd.2]

end Kept

/-! ### One step -/

/-- What a change of one server leaves of all. -/
theorem map_servers_set {β : Type} (f : TcpServer → β) {i : Nat} {server server' : TcpServer}
    (hserver : s.servers[i]? = some server) (hf : f server' = f server) :
    (s.servers.set i server').map f = s.servers.map f := by
  obtain ⟨hlt, hget⟩ := List.getElem?_eq_some_iff.mp hserver
  have hlt' : i < (s.servers.map f).length := by rwa [List.length_map]
  have hold : (s.servers.map f)[i] = f server := by
    rw [List.getElem_map, hget]
  rw [List.map_set, hf, ← hold, List.set_getElem_self]

/-- `removeConnection` erases an entry of one map, and touches neither the other maps nor what
the servers are apart from them. -/
theorem removeConnection_same {id : TcpConnectionPtr} (h : s.removeConnection id = some s') :
    Same s s' := by
  obtain ⟨k, hk, h⟩ := bind_eq_some_iff.mp h
  obtain ⟨server, hserver, h⟩ := bind_eq_some_iff.mp h
  obtain ⟨-, h⟩ := assert_bind_eq_some_iff.mp h
  cases h
  refine ⟨rfl, rfl, rfl, map_servers_set _ hserver rfl, fun i server' hi => ?_,
    Same.conns_of_set hk ⟨(Later.refl k).record _, rfl, rfl⟩ rfl⟩
  have hi' : (s.servers.set k.server { server with
      connections := server.connections.erase k.name })[i]? = some server' := hi
  rw [List.getElem?_set] at hi'
  split at hi'
  · rename_i hserver'
    rw [if_pos (List.getElem?_eq_some_iff.mp hserver).1, Option.some.injEq] at hi'
    rw [← hserver', ← hi']
    exact ⟨server, hserver, (List.kerase_sublist k.name _).subset⟩
  · exact ⟨server', hi', List.Subset.refl _⟩

/-- A callback of a connection keeps the objects. At the end of the stream the map of the server
loses an entry. -/
theorem connectionHandler_same {id : TcpConnectionPtr} {handler : Handler}
    {readv : ReadvResult} {write : WriteResult}
    (h : s.connectionHandler id handler readv write = some s') : Same s s' := by
  obtain ⟨k, hk, h⟩ := bind_eq_some_iff.mp h
  obtain ⟨-, h⟩ := assert_bind_eq_some_iff.mp h
  obtain ⟨⟨p, conn, callback⟩, hrun, h⟩ := bind_eq_some_iff.mp h
  have hlater := Later.setConn k (TcpConnection.runHandler_sockfd hrun)
  cases callback with
  | none =>
      cases h
      exact .of_set hk ⟨hlater, rfl, rfl⟩ rfl rfl rfl rfl rfl
  | some callback =>
      cases callback with
      | connectionCallback =>
          cases h
          exact .of_set hk ⟨hlater, rfl, rfl⟩ rfl rfl rfl rfl rfl
      | messageCallback =>
          cases h
          exact .of_set hk ⟨hlater.record _, rfl, rfl⟩ rfl rfl rfl rfl rfl
      | closeCallback =>
          -- The connection changes twice.
          refine Same.trans
            (.of_set hk ⟨hlater.record [.handleClose, .closeCallback], rfl, rfl⟩ ?_ ?_ ?_ ?_ ?_)
            (removeConnection_same h) <;> rfl

/-- `newConnection`, exactly. Neither `readv` nor `write` matters to it; they are arguments of the
action. -/
theorem newConnection_change {i : Nat} {connSockfd : Int} (readv : ReadvResult)
    (write : WriteResult) (h : s.newConnection i connSockfd = some s') :
    Change s s' (.runHandler connSockfd readv write) := by
  obtain ⟨server, hserver, h⟩ := bind_eq_some_iff.mp h
  obtain ⟨⟨p, conn⟩, hconnect, h⟩ := bind_eq_some_iff.mp h
  have hsockfd : conn.socket.sockfd = connSockfd := by
    rw [(TcpConnection.connectEstablished_spec hconnect).2.1]
    rfl
  cases h
  exact .newConnection connSockfd readv write i server _ hserver hsockfd rfl rfl rfl rfl rfl rfl
    rfl

/-- The callback of a channel: an accept, or no change. -/
theorem runHandler_change {c : ChannelPtr} {handler : Handler} {connfd : Int}
    {readv : ReadvResult} {write : WriteResult}
    (h : s.runHandler c handler connfd readv write = some s') :
    Change s s' (.runHandler connfd readv write) := by
  obtain ⟨owner, -, h⟩ := bind_eq_some_iff.mp h
  cases owner with
  | timerQueue =>
      cases h
      exact .same _ rfl (.of_eq rfl rfl rfl rfl rfl)
  | wakeup =>
      cases h
      exact .same _ rfl (.of_eq rfl rfl rfl rfl rfl)
  | acceptor i =>
      dsimp only at h
      split at h
      · exact newConnection_change readv write h
      · cases h
        exact .same _ rfl (.of_eq rfl rfl rfl rfl rfl)
  | connection id => exact .same _ rfl (connectionHandler_same h)

/-- A functor changes at most the connection that it is bound to. -/
theorem runFunctor_same {f : PendingFunctor} (h : s.runFunctor f = some s') : Same s s' := by
  cases f with
  | user =>
      cases h
      exact .of_eq rfl rfl rfl rfl rfl
  | connectDestroyed id =>
      obtain ⟨k, hk, h⟩ := bind_eq_some_iff.mp h
      obtain ⟨⟨p, conn⟩, hcall, h⟩ := bind_eq_some_iff.mp h
      have hsockfd : conn.socket.sockfd = k.conn.socket.sockfd := by
        rw [(TcpConnection.connectDestroyed_spec hcall).2.1]
        rfl
      cases h
      exact .of_set hk ⟨(Later.setConn k hsockfd).record _, rfl, rfl⟩ rfl rfl rfl rfl rfl

/-- So does what is behind a callback. -/
theorem callbackReturns_same {f : UserFrame} (h : s.callbackReturns f = some s') :
    Same s s' := by
  cases f with
  | connectDestroyed id =>
      obtain ⟨k, hk, h⟩ := bind_eq_some_iff.mp h
      obtain ⟨p, -, h⟩ := bind_eq_some_iff.mp h
      cases h
      exact .of_set hk ⟨(Later.refl k).record _, rfl, rfl⟩ rfl rfl rfl rfl rfl
  | _ =>
      cases h
      exact .of_eq rfl rfl rfl rfl rfl

/-- Every action is a change. By cases on the action, each of which changes nothing, changes one
connection, or is one of the two that make something. -/
theorem stepBody_change {a : LoopAction} (h : s.stepBody a = some s') : Change s s' a := by
  cases a with
  | poll answer numEvents =>
      obtain ⟨⟨p, active⟩, -, heq⟩ := Option.map_eq_some_iff.mp h
      cases heq
      exact .same _ rfl (.of_eq rfl rfl rfl rfl rfl)
  | handleEvent =>
      rw [stepBody] at h
      split at h
      · cases h
        exact .same _ rfl (.of_eq rfl rfl rfl rfl rfl)
      · cases h
  | runHandler connfd readv write =>
      rw [stepBody] at h
      split at h
      · -- The place in the batch is no object.
        cases runHandler_change h with
        | same _ ha hsame =>
            exact .same _ ha
              ⟨hsame.timerfd, hsame.wakeupFd, hsame.owners, hsame.servers, hsame.maps, hsame.conns⟩
        | newConnection _ _ _ i server k hserver hsockfd hi hname htimerfd hwakeupFd howners
            hservers hconns =>
            exact .newConnection _ _ _ i server k hserver hsockfd hi hname htimerfd hwakeupFd
              howners hservers hconns
      · cases h
  | doPendingFunctors =>
      cases h
      exact .same _ rfl (.of_eq rfl rfl rfl rfl rfl)
  | runFunctor =>
      rw [stepBody] at h
      split at h
      · have hsame := runFunctor_same h
        exact .same _ rfl
          ⟨hsame.timerfd, hsame.wakeupFd, hsame.owners, hsame.servers, hsame.maps, hsame.conns⟩
      · cases h
  | endFunctors =>
      cases h
      exact .same _ rfl (.of_eq rfl rfl rfl rfl rfl)
  | callbackReturns =>
      obtain ⟨frame, -, h⟩ := Option.bind_eq_some_iff.mp h
      exact .same _ rfl (callbackReturns_same h)
  | send id message result =>
      obtain ⟨k, hk, h⟩ := bind_eq_some_iff.mp h
      split at h
      · obtain ⟨⟨p, conn⟩, hcall, h⟩ := bind_eq_some_iff.mp h
        have hlater := Later.setConn k (TcpConnection.sendInLoop_sockfd hcall)
        cases h
        exact .same _ rfl (.of_set hk ⟨hlater, rfl, rfl⟩ rfl rfl rfl rfl rfl)
      · cases h
        exact .same _ rfl (.of_eq rfl rfl rfl rfl rfl)
  | shutdown id =>
      obtain ⟨k, hk, h⟩ := bind_eq_some_iff.mp h
      split at h
      · -- `shutdownWrite` is a call on the same socket.
        have hlater : k.Later (k.setConn
            ({ k.conn with state := .kDisconnecting }.shutdownInLoop s.poller)) := by
          refine .setConn k ?_
          rw [TcpConnection.shutdownInLoop_eq]
          show Socket.sockfd (if _ then _ else _) = _
          split <;> rfl
        cases h
        exact .same _ rfl (.of_set hk ⟨hlater, rfl, rfl⟩ rfl rfl rfl rfl rfl)
      · cases h
        exact .same _ rfl (.of_eq rfl rfl rfl rfl rfl)
  | input id op =>
      obtain ⟨k, hk, h⟩ := bind_eq_some_iff.mp h
      obtain ⟨b, -, h⟩ := bind_eq_some_iff.mp h
      have hlater : k.Later (k.setConn { k.conn with inputBuffer := b }) := .setConn k rfl
      cases h
      exact .same _ rfl (.of_set hk ⟨hlater, rfl, rfl⟩ rfl rfl rfl rfl rfl)
  | addRef id =>
      obtain ⟨k, hk, h⟩ := bind_eq_some_iff.mp h
      cases h
      exact .same _ rfl
        (.of_set hk ⟨.userRefs k (k.userRefs + 1), rfl, rfl⟩ rfl rfl rfl rfl rfl)
  | dropRef id =>
      obtain ⟨k, hk, h⟩ := bind_eq_some_iff.mp h
      cases h
      exact .same _ rfl
        (.of_set hk ⟨.userRefs k (k.userRefs - 1), rfl, rfl⟩ rfl rfl rfl rfl rfl)
  | queueInLoop =>
      cases h
      exact .same _ rfl (.of_eq rfl rfl rfl rfl rfl)
  | startServer name acceptSocket =>
      obtain ⟨p, -, h⟩ := bind_eq_some_iff.mp h
      cases h
      exact .startServer name acceptSocket rfl rfl rfl rfl rfl

/-- The objects after one thing happened, in front of the destructors. -/
theorem stepBody_kept {a : LoopAction} (h : s.stepBody a = some s') :
    Kept (acceptedBy a) (listeningBy a) s s' := by
  cases stepBody_change h with
  | same _ ha hsame =>
      rw [ha]
      exact .of_same hsame
  | newConnection connfd _ _ i server k hserver hsockfd _ _ htimerfd hwakeupFd howners hservers
      hconns =>
      -- The old connections stay where they are, and the new one is behind them.
      refine ⟨htimerfd, hwakeupFd, ?_, ?_, fun id d hd => ⟨d, ?_, .refl d⟩,
        fun id d hd hnone => ?_⟩
      · rw [howners]
        exact List.prefix_append _ _
      · -- The server keeps its socket, whatever its map and its counter are.
        rw [hservers]
        refine (map_servers_set _ hserver ?_).trans (List.append_nil _).symm
        rfl
      · rw [hconns]
        exact (List.getElem?_append_left (List.getElem?_eq_some_iff.mp hd).1).trans hd
      · rw [hconns, List.getElem?_append_right (List.getElem?_eq_none_iff.mp hnone)] at hd
        rw [List.mem_singleton.mp (List.mem_of_getElem? hd), hsockfd]
        exact rfl
  | startServer name acceptSocket htimerfd hwakeupFd howners hservers hconns =>
      refine ⟨htimerfd, hwakeupFd, ?_, ?_, fun id d hd => ⟨d, ?_, .refl d⟩,
        fun id d hd hnone => ?_⟩
      · rw [howners]
        exact List.prefix_append _ _
      · rw [hservers, List.map_append]
        rfl
      · rw [hconns]
        exact hd
      · rw [hconns, hnone] at hd
        cases hd

/-- A destructor only adds to the history, and marks the object. -/
theorem releaseObject_later (s : EventLoop) (id : TcpConnectionPtr) (k : ConnectionObject) :
    k.Later (s.releaseObject id k) := by
  rw [releaseObject]
  split
  · exact .refl k
  · exact ⟨rfl, List.prefix_append _ _, fun _ => rfl⟩

/-- The destructors of a step make nothing, and erase no entry: they run for connections that no map
has. -/
theorem release_same (s : EventLoop) : Same s s.release where
  timerfd := rfl
  wakeupFd := rfl
  owners := rfl
  servers := rfl
  maps _ server' hi := ⟨server', hi, List.Subset.refl _⟩
  conns id := by
    rw [getElem?_release]
    cases s.conns[id]? with
    | none => exact .none
    | some k =>
        obtain ⟨hserver, hname⟩ := s.releaseObject_place id k
        exact .some ⟨s.releaseObject_later id k, hserver, hname⟩

/-- The objects after a step of the loop. -/
theorem step_kept {a : LoopAction} (h : s.step a = some s') :
    Kept (acceptedBy a) (listeningBy a) s s' := by
  obtain ⟨t, hbody, rfl⟩ := Option.map_eq_some_iff.mp h
  exact (stepBody_kept hbody).trans (.of_same (release_same t))

/-- A connection at the end of a run, whatever the run did. It is stated for any machine that takes
the steps of the loop, so that it can be used under any condition on them. -/
theorem later_of_run {M : Machine EventLoop LoopAction} (hM : M.step = step)
    {as : List LoopAction} (h : M.Run s as s') {id : Nat} {k : ConnectionObject}
    (hk : s.conns[id]? = some k) : ∃ k', s'.conns[id]? = some k' ∧ k.Later k' := by
  refine h.invariant (I := fun t => ∃ k', t.conns[id]? = some k' ∧ k.Later k')
    ⟨k, hk, .refl k⟩ ?_
  rintro t a t' ⟨k', hk', hlater⟩ - hstep
  rw [hM] at hstep
  obtain ⟨k'', hk'', hlater'⟩ := (step_kept hstep).conns id k' hk'
  exact ⟨k'', hk'', hlater.trans hlater'⟩

end EventLoop

end SecondGear
