import SecondGear.Model.TcpConnection

/-!
# `SecondGear.Model.EventLoop`: one loop thread with its servers and their connections

`EventLoop::loop` (`EventLoop.cpp`) polls, dispatches the active channels and runs the
pending functors, over and over. The channels belong to the timer queue, to the wakeup
descriptor, to the acceptors of the servers (`Acceptor.cpp`, `TcpServer.cpp`) and to the
connections. `loopMachine` takes one step for each callback, so that user code can come in
wherever a user callback runs. User code sends on connections, shuts them down, reads their
input, queues functors, starts servers, and copies and drops references.

A `shared_ptr<TcpConnection>` is the number of the connection. The object lives while
somebody refers to it: a server's map, a queued functor, the functors that
`doPendingFunctors` holds, the argument of a callback, the user. `release` runs the
destructors after each step. `none` is a failed `assert`, or a callback bound to an object
that is gone.

Each connection carries the history of what happened to it.
-/

set_option autoImplicit false

namespace SecondGear

open SecondGear.Lib

/-- A `shared_ptr<TcpConnection>`: how many connections were made before. -/
abbrev TcpConnectionPtr := Nat

/-- What the callbacks of a channel are bound to. -/
inductive Owner where
  | timerQueue
  | wakeup
  | acceptor (server : Nat)
  | connection (conn : TcpConnectionPtr)
deriving DecidableEq, Repr

/-- What happens to a connection. -/
inductive ConnectionEvent where
  | connectEstablished
  /-- `connectionCallback_`, and what `connected()` says there -/
  | connectionCallback (connected : Bool)
  | messageCallback
  | handleClose
  | closeCallback
  /-- `removeConnection` erased this many elements of the map -/
  | erase (n : Nat)
  | connectDestroyed
  /-- `removeChannel`, and whether the loop was dispatching -/
  | removeChannel (dispatching : Bool)
  /-- the destructor closed the socket, and whether a channel for the descriptor was still
  registered -/
  | close (registered : Bool)
deriving DecidableEq, Repr

/-- A connection on the heap, with its name, its server, and the references of the user. -/
structure ConnectionObject where
  conn : TcpConnection
  name : String
  /-- the server that `closeCallback_` is bound to -/
  server : Nat
  userRefs : Nat
  destroyed : Bool
  trace : List ConnectionEvent
deriving DecidableEq, Repr

namespace ConnectionObject

def record (k : ConnectionObject) (events : List ConnectionEvent) : ConnectionObject :=
  { k with trace := k.trace ++ events }

def setConn (k : ConnectionObject) (conn : TcpConnection) : ConnectionObject := { k with conn }

/-- The descriptor, until the destructor closes it. -/
def openFd (k : ConnectionObject) : Option Int :=
  if k.destroyed then none else some k.conn.socket.sockfd

end ConnectionObject

structure TcpServer where
  name : String
  /-- the descriptor of `acceptSocket_` -/
  acceptSocket : Int
  /-- an `int` -/
  nextConnId : Int
  /-- `connections_`, a `std::map<std::string, TcpConnectionPtr>` -/
  connections : AList (fun _ : String => TcpConnectionPtr)

namespace TcpServer

def new (name : String) (acceptSocket : Int) : TcpServer where
  name := name
  acceptSocket := acceptSocket
  nextConnId := 1
  connections := ∅

/-- `name_ + buf`, for the next connection. -/
def connName (server : TcpServer) : String := server.name ++ ("#" ++ toString server.nextConnId)

/-- `++nextConnId_`, in 32 bits. -/
def nextId (server : TcpServer) : Int := (server.nextConnId + 1).bmod (2 ^ 32)

end TcpServer

/-- What waits in `pendingFunctors`. -/
inductive PendingFunctor where
  | connectDestroyed (conn : TcpConnectionPtr)
  /-- a functor of the user -/
  | user
deriving DecidableEq, Repr

/-- The user code that the loop thread is in. -/
inductive UserFrame where
  /-- `connectionCallback_`, called by `connectEstablished` -/
  | connectEstablished (conn : TcpConnectionPtr)
  /-- `messageCallback_` -/
  | message (conn : TcpConnectionPtr)
  /-- `connectionCallback_`, called by `connectDestroyed` -/
  | connectDestroyed (conn : TcpConnectionPtr)
  /-- a callback of a timer -/
  | timer
  /-- a functor of the user -/
  | functor
deriving DecidableEq, Repr

/-- The connection that a callback was called with. -/
def UserFrame.argument : UserFrame → Option TcpConnectionPtr
  | .connectEstablished conn | .message conn | .connectDestroyed conn => some conn
  | .timer | .functor => none

/-- Where the loop thread is in `loop`. -/
inductive LoopPc where
  /-- at the head of the loop -/
  | poll
  /-- the callbacks that the current `handleEvent` still has to run, and the channels after
  it -/
  | dispatch (current : List (ChannelPtr × Handler)) (rest : List ChannelPtr)
  /-- the functors that ran, and those still to run -/
  | doPendingFunctors (done rest : List PendingFunctor)
deriving DecidableEq, Repr

namespace LoopPc

def isDispatch : LoopPc → Bool
  | .dispatch _ _ => true
  | .poll | .doPendingFunctors _ _ => false

/-- In front of a channel's `handleEvent`. -/
def atChannel : LoopPc → Bool
  | .dispatch [] (_ :: _) => true
  | _ => false

/-- In front of a callback of a channel. -/
def atHandler : LoopPc → Bool
  | .dispatch (_ :: _) _ => true
  | _ => false

/-- The functors still to run. -/
def rest : LoopPc → List PendingFunctor
  | .doPendingFunctors _ rest => rest
  | .poll | .dispatch _ _ => []

/-- The vector `functors`. -/
def functors : LoopPc → List PendingFunctor
  | .doPendingFunctors done rest => done ++ rest
  | .poll | .dispatch _ _ => []

/-- `static_cast<int>(functors.size())` -/
def size (pc : LoopPc) : Int := (pc.functors.length : Int).bmod (2 ^ 32)

/-- In front of a functor: `i < static_cast<int>(functors.size())`. -/
def atFunctor (pc : LoopPc) : Bool :=
  match pc with
  | .doPendingFunctors done _ => (done.length : Int) < pc.size
  | .poll | .dispatch _ _ => false

/-- Behind the last functor that the loop over them comes to. -/
def atEnd (pc : LoopPc) : Bool :=
  match pc with
  | .doPendingFunctors done _ => ¬ (done.length : Int) < pc.size
  | .poll | .dispatch _ _ => false

end LoopPc

/-- A loop in use. -/
structure EventLoop where
  poller : Poller
  /-- the channels made so far, by what they are bound to -/
  owners : List Owner
  servers : List TcpServer
  /-- the connections made so far -/
  conns : List ConnectionObject
  activeChannels : List ChannelPtr
  pendingFunctors : List PendingFunctor
  pc : LoopPc
  frame : Option UserFrame
  timerfd : Int
  wakeupFd : Int

namespace EventLoop

/-- A new channel with a read callback, and `enableReading`. -/
def addChannel (p : Poller) (c : ChannelPtr) (fd : Int) : Option Poller :=
  (p.setChannel c ((Channel.new fd).setReadCallBack .handleRead)).enableReading c

/-- The constructor. It registers the timer queue and the wakeup descriptor. -/
def new (timerfd wakeupFd : Int) : Option EventLoop := do
  let p ← addChannel (Poller.new fun _ => Channel.new (-1)) 0 timerfd
  let p ← addChannel p 1 wakeupFd
  return {
    poller := p
    owners := [.timerQueue, .wakeup]
    servers := []
    conns := []
    activeChannels := []
    pendingFunctors := []
    pc := .poll
    frame := none
    timerfd := timerfd
    wakeupFd := wakeupFd }

/-- The descriptors of the loop and of the acceptors. -/
def serviceFds (s : EventLoop) : List Int :=
  s.timerfd :: s.wakeupFd :: s.servers.map (·.acceptSocket)

/-- The open descriptors. -/
def openFds (s : EventLoop) : List Int :=
  s.serviceFds ++ s.conns.filterMap ConnectionObject.openFd

def setConn (s : EventLoop) (id : TcpConnectionPtr) (k : ConnectionObject) : EventLoop :=
  { s with conns := s.conns.set id k }

/-! ### Servers -/

/-- The constructor of a server, and `start`. -/
def startServer (s : EventLoop) (name : String) (acceptSocket : Int) : Option EventLoop := do
  let p ← addChannel s.poller s.owners.length acceptSocket
  return { s with
    poller := p
    owners := s.owners ++ [.acceptor s.servers.length]
    servers := s.servers ++ [.new name acceptSocket] }

/-- `newConnection`, up to the call of `connectionCallback_` by `connectEstablished`. -/
def newConnection (s : EventLoop) (i : Nat) (connSockfd : Int) : Option EventLoop := do
  let server ← s.servers[i]?
  let id := s.conns.length
  let (p, conn) := TcpConnection.new s.poller s.owners.length connSockfd
  -- `connections_[connName] = conn` replaces what the map has under the name
  let connections := server.connections.insert server.connName id
  let (p, conn) ← conn.connectEstablished p
  return { s with
    poller := p
    owners := s.owners ++ [.connection id]
    servers := s.servers.set i { server with nextConnId := server.nextId, connections }
    conns := s.conns ++ [{
      conn := conn
      name := server.connName
      server := i
      userRefs := 0
      destroyed := false
      trace := [.connectEstablished, .connectionCallback conn.connected] }]
    frame := some (.connectEstablished id) }

def removeConnection (s : EventLoop) (id : TcpConnectionPtr) : Option EventLoop := do
  let k ← s.conns[id]?
  let server ← s.servers[k.server]?
  let n := if k.name ∈ server.connections then 1 else 0
  assert (n = 1)
  let connections := server.connections.erase k.name
  return { s.setConn id (k.record [.erase n]) with
    servers := s.servers.set k.server { server with connections }
    pendingFunctors := s.pendingFunctors ++ [.connectDestroyed id] }

/-! ### Callbacks of channels -/

/-- A callback of a connection's channel. It is bound to the object itself. -/
def connectionHandler (s : EventLoop) (id : TcpConnectionPtr) (h : Handler)
    (readv : ReadvResult) (write : WriteResult) : Option EventLoop := do
  let k ← s.conns[id]?
  -- nothing in the source checks it: a call on a destroyed object has no result here
  assert (k.destroyed = false)
  let (p, conn, callback) ← k.conn.runHandler s.poller readv write h
  let k := k.setConn conn
  match callback with
  | some .messageCallback =>
      return { s.setConn id (k.record [.messageCallback]) with
        poller := p, frame := some (.message id) }
  | some .closeCallback =>
      -- `closeCallback_` is the server's `removeConnection`, with no user code in between
      let s := s.setConn id (k.record [.handleClose, .closeCallback])
      { s with poller := p }.removeConnection id
  | _ => return { s.setConn id k with poller := p }

/-- One callback of a channel, with what the kernel returns to it. Only connections have
others than the read callback. -/
def runHandler (s : EventLoop) (c : ChannelPtr) (h : Handler) (connfd : Int)
    (readv : ReadvResult) (write : WriteResult) : Option EventLoop := do
  match ← s.owners[c]? with
  | .timerQueue => return { s with frame := some .timer }
  | .wakeup => return s
  -- `accept` may fail, and then nothing is made
  | .acceptor i => if connfd ≥ 0 then s.newConnection i connfd else return s
  | .connection id => s.connectionHandler id h readv write

/-! ### Functors -/

/-- `functors[i]()`. `connectDestroyed` is run up to its call of `connectionCallback_`. -/
def runFunctor (s : EventLoop) : PendingFunctor → Option EventLoop
  | .user => some { s with frame := some .functor }
  | .connectDestroyed id => do
      let k ← s.conns[id]?
      let (p, conn) ← k.conn.connectDestroyed s.poller
      let k := (k.setConn conn).record [.connectDestroyed, .connectionCallback conn.connected]
      return { s.setConn id k with poller := p, frame := some (.connectDestroyed id) }

/-- A user callback returns. `connectDestroyed` goes on with `removeChannel`. -/
def callbackReturns (s : EventLoop) : UserFrame → Option EventLoop
  | .connectDestroyed id => do
      let k ← s.conns[id]?
      let p ← k.conn.connectDestroyedRemove s.poller
      return { s.setConn id (k.record [.removeChannel s.pc.isDispatch]) with
        poller := p, frame := none }
  | _ => some { s with frame := none }

/-! ### References -/

/-- Somebody outside the user's code refers to the connection. -/
def Referenced (s : EventLoop) (id : TcpConnectionPtr) : Prop :=
  (∃ server ∈ s.servers, ∃ e ∈ server.connections.entries, e.2 = id) ∨
    .connectDestroyed id ∈ s.pendingFunctors ++ s.pc.functors ∨
    ∃ frame ∈ s.frame, frame.argument = some id

instance (s : EventLoop) (id : TcpConnectionPtr) : Decidable (s.Referenced id) :=
  inferInstanceAs (Decidable (_ ∨ _ ∨ _))

/-- The destructor of a connection without references. -/
def releaseObject (s : EventLoop) (id : TcpConnectionPtr) (k : ConnectionObject) :
    ConnectionObject :=
  if k.destroyed = true ∨ 0 < k.userRefs ∨ s.Referenced id then k
  else { k.record [.close (s.poller.channels.lookup k.conn.socket.sockfd).isSome] with
    destroyed := true }

def release (s : EventLoop) : EventLoop := { s with conns := s.conns.mapIdx s.releaseObject }

end EventLoop

/-! ### Runs of the loop -/

/-- What the loop thread does next, with what the kernel returns to it. -/
inductive LoopAction where
  | poll (answer : List (BitVec 16)) (numEvents : Int)
  /-- the next channel's `handleEvent` starts -/
  | handleEvent
  /-- its next callback, or the part of it in front of a user callback -/
  | runHandler (connfd : Int) (readv : ReadvResult) (write : WriteResult)
  /-- `doPendingFunctors`: the swap -/
  | doPendingFunctors
  | runFunctor
  /-- the end of `doPendingFunctors` -/
  | endFunctors
  | callbackReturns
  /-- user code from here on -/
  | send (id : TcpConnectionPtr) (message : List Byte) (result : WriteResult)
  | shutdown (id : TcpConnectionPtr)
  | input (id : TcpConnectionPtr) (op : Buffer.Op)
  | addRef (id : TcpConnectionPtr)
  | dropRef (id : TcpConnectionPtr)
  | queueInLoop
  | startServer (name : String) (acceptSocket : Int)

namespace EventLoop

/-- The object exists. -/
def Alive (s : EventLoop) (id : TcpConnectionPtr) : Prop :=
  ∃ k ∈ s.conns[id]?, k.destroyed = false

instance (s : EventLoop) (id : TcpConnectionPtr) : Decidable (s.Alive id) :=
  inferInstanceAs (Decidable (∃ k ∈ s.conns[id]?, _))

/-- One answer for each entry of the table, and none for those that are switched off. -/
def Answers (p : Poller) (answer : List (BitVec 16)) : Prop :=
  answer.length = p.pollfds.length ∧
    ∀ e ∈ p.pollfds.zip answer, e.1.fd < 0 → e.2 = 0

instance (p : Poller) (answer : List (BitVec 16)) : Decidable (Answers p answer) :=
  inferInstanceAs (Decidable (_ ∧ _))

/-- The loop thread does one thing after the other, and user code runs in callbacks. It uses
connections that it holds a reference to. The kernel hands out descriptors that are `int`s and not
open, and takes no more bytes than it is given. -/
def Legal (s : EventLoop) : LoopAction → Prop
  | .poll answer _ => s.pc = .poll ∧ s.frame = none ∧ Answers s.poller answer
  | .handleEvent => s.frame = none ∧ s.pc.atChannel
  | .runHandler connfd _ _ =>
      s.frame = none ∧ s.pc.atHandler ∧ (0 ≤ connfd → connfd < 2 ^ 31 ∧ connfd ∉ s.openFds)
  | .doPendingFunctors => s.frame = none ∧ s.pc = .dispatch [] []
  | .runFunctor => s.frame = none ∧ s.pc.atFunctor
  | .endFunctors => s.frame = none ∧ s.pc.atEnd
  | .callbackReturns => s.frame ≠ none
  | .send id message result => s.frame ≠ none ∧ s.Alive id ∧ result.taken ≤ message.length
  | .shutdown id => s.frame ≠ none ∧ s.Alive id
  | .input id op => s.frame ≠ none ∧ s.Alive id ∧
      ∀ k ∈ s.conns[id]?, k.conn.inputBuffer.Legal op
  | .addRef id => s.frame ≠ none ∧ s.Alive id
  | .dropRef id => s.frame ≠ none ∧ ∃ k ∈ s.conns[id]?, 0 < k.userRefs
  | .queueInLoop => True
  | .startServer _ acceptSocket => (s.pc = .poll ∨ s.frame ≠ none) ∧
      0 ≤ acceptSocket ∧ acceptSocket < 2 ^ 31 ∧ acceptSocket ∉ s.openFds

instance (s : EventLoop) : (a : LoopAction) → Decidable (s.Legal a)
  | .poll _ _ | .doPendingFunctors => inferInstanceAs (Decidable (_ ∧ _))
  | .handleEvent | .runFunctor | .endFunctors => inferInstanceAs (Decidable (_ ∧ _ = true))
  | .runHandler _ _ _ => inferInstanceAs (Decidable (_ ∧ _ = true ∧ (_ → _ ∧ _)))
  | .callbackReturns => inferInstanceAs (Decidable (s.frame ≠ none))
  | .send _ _ _ => inferInstanceAs (Decidable (_ ∧ _ ∧ _))
  | .shutdown _ | .addRef _ => inferInstanceAs (Decidable (_ ∧ _))
  | .input _ _ => inferInstanceAs (Decidable (_ ∧ _ ∧ ∀ k ∈ _, _))
  | .dropRef _ => inferInstanceAs (Decidable (_ ∧ ∃ k ∈ _, _))
  | .queueInLoop => isTrue trivial
  | .startServer _ _ => inferInstanceAs (Decidable ((_ ∨ _) ∧ _ ∧ _ ∧ _))

/-- One step, without the destructors that run in it. -/
def stepBody (s : EventLoop) : LoopAction → Option EventLoop
  | .poll answer numEvents =>
      (s.poller.poll answer numEvents).map fun (p, activeChannels) =>
        { s with poller := p, activeChannels, pc := .dispatch [] activeChannels }
  | .handleEvent =>
      match s.pc with
      | .dispatch [] (c :: rest) =>
          some { s with pc := .dispatch ((s.poller.channel c).handleEvent.map (c, ·)) rest }
      | _ => none
  | .runHandler connfd readv write =>
      match s.pc with
      | .dispatch ((c, h) :: current) rest =>
          { s with pc := .dispatch current rest }.runHandler c h connfd readv write
      | _ => none
  | .doPendingFunctors =>
      -- what is queued from here on runs in the next turn of the loop
      some { s with pc := .doPendingFunctors [] s.pendingFunctors, pendingFunctors := [] }
  | .runFunctor =>
      match s.pc with
      | .doPendingFunctors done (f :: rest) =>
          { s with pc := .doPendingFunctors (done ++ [f]) rest }.runFunctor f
      | _ => none
  -- the vector is destroyed with what it still holds
  | .endFunctors => some { s with pc := .poll }
  | .callbackReturns => s.frame.bind s.callbackReturns
  | .send id message result => do
      let k ← s.conns[id]?
      if k.conn.state = .kConnected then
        let (p, conn) ← k.conn.sendInLoop s.poller message result
        return { s.setConn id (k.setConn conn) with poller := p }
      else return s
  | .shutdown id => do
      let k ← s.conns[id]?
      if k.conn.state = .kConnected then
        return s.setConn id
          (k.setConn ((k.conn.setState .kDisconnecting).shutdownInLoop s.poller))
      else return s
  | .input id op => do
      let k ← s.conns[id]?
      let inputBuffer ← k.conn.inputBuffer.apply op
      return s.setConn id (k.setConn { k.conn with inputBuffer })
  | .addRef id => do
      let k ← s.conns[id]?
      return s.setConn id { k with userRefs := k.userRefs + 1 }
  | .dropRef id => do
      let k ← s.conns[id]?
      return s.setConn id { k with userRefs := k.userRefs - 1 }
  | .queueInLoop => some { s with pendingFunctors := s.pendingFunctors ++ [.user] }
  | .startServer name acceptSocket => s.startServer name acceptSocket

def step (s : EventLoop) (a : LoopAction) : Option EventLoop := (s.stepBody a).map release

end EventLoop

def loopMachine : Machine EventLoop LoopAction where
  legal := EventLoop.Legal
  step := EventLoop.step

instance (s : EventLoop) (a : LoopAction) : Decidable (loopMachine.legal s a) :=
  inferInstanceAs (Decidable (s.Legal a))

end SecondGear
