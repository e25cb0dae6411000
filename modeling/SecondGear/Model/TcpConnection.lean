import SecondGear.Lib.Machine
import SecondGear.Model.Buffer
import SecondGear.Model.Poller

/-!
# `SecondGear.Model.TcpConnection`: one connection and the threads that use it

`TcpConnection` (`TcpConnection.h`, `TcpConnection.cpp`) ties a socket, its channel and two
buffers together. Its methods are functions of the table and the connection. `none` is a
failed `assert`. A method that ends in a user callback or a server callback returns before
the callback: the caller of the model runs it. `connectDestroyed` calls back in its middle
and is in two parts.

`connectionMachine` runs one connection: the loop thread calls the methods, other threads
call `send` and `shutdown`, which test `state_` first and queue a functor later. The
functors run in the order of the queue.
-/

set_option autoImplicit false

namespace SecondGear

open SecondGear.Lib

/-! ### The socket -/

/-- What `::write` returns: a count, or a negative value with `errno` set. -/
inductive WriteResult where
  | ok (n : Nat)
  | error (errno : Int)
deriving DecidableEq, Repr

namespace WriteResult

/-- The returned value. -/
def toInt : WriteResult → Int
  | .ok n => n
  | .error _ => -1

/-- How many bytes the kernel took. -/
def taken : WriteResult → Nat
  | .ok n => n
  | .error _ => 0

end WriteResult

/-- A system call on the writing side of a socket. -/
inductive SocketCall where
  | write (data : List Byte) (result : WriteResult)
  | shutdownWrite
deriving DecidableEq, Repr

/-- The bytes that a call handed to the kernel. -/
def SocketCall.accepted : SocketCall → List Byte
  | .write data result => data.take result.taken
  | .shutdownWrite => []

/-- `Socket`, with the history of the calls made on its writing side. -/
structure Socket where
  sockfd : Int
  calls : List SocketCall
deriving DecidableEq, Repr

namespace Socket

/-- `::write(sockfd, data, len)` -/
def write (socket : Socket) (data : List Byte) (result : WriteResult) : Socket :=
  { socket with calls := socket.calls ++ [.write data result] }

def shutdownWrite (socket : Socket) : Socket :=
  { socket with calls := socket.calls ++ [.shutdownWrite] }

/-- The bytes accepted by `::write` so far. -/
def accepted (socket : Socket) : List Byte := socket.calls.flatMap SocketCall.accepted

end Socket

/-! ### The connection -/

inductive StateE where
  | kConnecting
  | kConnected
  | kDisconnecting
  | kDisconnected
deriving DecidableEq, Repr

/-- The callbacks that the server installs in a connection. -/
inductive Callback where
  | connectionCallback
  | messageCallback
  | closeCallback
deriving DecidableEq, Repr

structure TcpConnection where
  state : StateE
  socket : Socket
  channel : ChannelPtr
  inputBuffer : Buffer
  outputBuffer : Buffer
deriving DecidableEq, Repr

namespace TcpConnection

/-- The constructor. It makes the channel and installs the read callback in it. -/
def new (p : Poller) (channel : ChannelPtr) (sockfd : Int) : Poller × TcpConnection :=
  (p.setChannel channel ((Channel.new sockfd).setReadCallBack .handleRead),
   { state := .kConnecting
     socket := { sockfd := sockfd, calls := [] }
     channel := channel
     inputBuffer := Buffer.new
     outputBuffer := Buffer.new })

def connected (conn : TcpConnection) : Bool := conn.state == .kConnected

def setState (conn : TcpConnection) (s : StateE) : TcpConnection := { conn with state := s }

/-- `channel_->isWriting()` -/
def isWriting (p : Poller) (conn : TcpConnection) : Bool := (p.channel conn.channel).isWriting

/-- `connectEstablished`, up to its call of `connectionCallback_`. -/
def connectEstablished (p : Poller) (conn : TcpConnection) : Option (Poller × TcpConnection) := do
  assert (conn.state = .kConnecting)
  let conn := conn.setState .kConnected
  let p ← p.enableReading conn.channel
  return (p, conn)

/-- `connectDestroyed`, up to its call of `connectionCallback_`. -/
def connectDestroyed (p : Poller) (conn : TcpConnection) : Option (Poller × TcpConnection) := do
  assert (conn.state = .kConnected ∨ conn.state = .kDisconnecting)
  let conn := conn.setState .kDisconnected
  let p ← p.disableAll conn.channel
  return (p, conn)

/-- The rest of `connectDestroyed`, after the callback. -/
def connectDestroyedRemove (p : Poller) (conn : TcpConnection) : Option Poller :=
  p.removeChannel conn.channel

/-- `handleClose`, up to its call of `closeCallback_`. -/
def handleClose (p : Poller) (conn : TcpConnection) : Option (Poller × TcpConnection) := do
  assert (conn.state = .kConnected ∨ conn.state = .kDisconnecting)
  let p ← p.disableAll conn.channel
  return (p, conn)

/-- `handleRead`, up to the callback that it ends with, if any. `handleError` only reads
and prints the error of the socket. -/
def handleRead (p : Poller) (conn : TcpConnection) (result : ReadvResult) :
    Option (Poller × TcpConnection × Option Callback) := do
  let (inputBuffer, n, _) ← conn.inputBuffer.readFd 0 result
  let conn := { conn with inputBuffer }
  if n > 0 then
    return (p, conn, some .messageCallback)
  else if n = 0 then
    let (p, conn) ← handleClose p conn
    return (p, conn, some .closeCallback)
  else
    -- `handleError`, whatever `errno` is: `EAGAIN` comes here too
    return (p, conn, none)

def shutdownInLoop (p : Poller) (conn : TcpConnection) : TcpConnection :=
  if !isWriting p conn then { conn with socket := conn.socket.shutdownWrite } else conn

/-- `handleWrite`, for one result of `::write`. -/
def handleWrite (p : Poller) (conn : TcpConnection) (result : WriteResult) :
    Option (Poller × TcpConnection) :=
  if isWriting p conn then
    let conn := { conn with socket := conn.socket.write conn.outputBuffer.content result }
    if result.toInt > 0 then do
      let outputBuffer ← conn.outputBuffer.retrieve result.taken
      let conn := { conn with outputBuffer }
      if conn.outputBuffer.readableBytes = 0 then
        let p ← p.disableWriting conn.channel
        -- the shutdown that waited for the output
        let conn := if conn.state = .kDisconnecting then shutdownInLoop p conn else conn
        return (p, conn)
      else
        return (p, conn)
    -- an error is printed, and the entry stays as it is
    else some (p, conn)
  else some (p, conn)

/-- `sendInLoop`, for one result of `::write`, which it may not need. -/
def sendInLoop (p : Poller) (conn : TcpConnection) (message : List Byte)
    (result : WriteResult) : Option (Poller × TcpConnection) := do
  -- if nothing is in the output queue, try writing directly
  let direct := !isWriting p conn && conn.outputBuffer.readableBytes == 0
  let socket := if direct then conn.socket.write message result else conn.socket
  let conn := { conn with socket }
  -- a negative result counts as nothing written, so `nwrote >= 0`
  let nwrote := if direct then result.taken else 0
  if nwrote < message.length then
    let outputBuffer ← conn.outputBuffer.append (message.drop nwrote)
    let conn := { conn with outputBuffer }
    let p ← if !isWriting p conn then p.enableWriting conn.channel else some p
    return (p, conn)
  else
    return (p, conn)

/-- One callback of the channel, with what the kernel returns to it. -/
def runHandler (p : Poller) (conn : TcpConnection) (readv : ReadvResult) (write : WriteResult) :
    Handler → Option (Poller × TcpConnection × Option Callback)
  | .handleRead => handleRead p conn readv
  | .handleWrite => (handleWrite p conn write).map fun (p, conn) => (p, conn, none)
  | .handleClose => (handleClose p conn).map fun (p, conn) => (p, conn, some .closeCallback)
  | .handleError => some (p, conn, none)

end TcpConnection

/-! ### One connection in use -/

/-- The loop thread, or another one. -/
inductive ThreadId where
  | loop
  | other (t : Nat)
deriving DecidableEq, Repr

/-- A call of `send`: the calling thread, how many calls it made before, the message. -/
structure SendCall where
  thread : ThreadId
  seq : Nat
  message : List Byte
deriving DecidableEq, Repr

/-- What `send` and `shutdown` queue. -/
inductive Functor where
  | sendInLoop (call : SendCall)
  | shutdownInLoop
deriving DecidableEq, Repr

/-- The result of `::write` that a functor gets fits what it writes. -/
def Functor.Fits (result : WriteResult) : Functor → Prop
  | .sendInLoop call => result.taken ≤ call.message.length
  | .shutdownInLoop => True

instance (result : WriteResult) : (f : Functor) → Decidable (f.Fits result)
  | .sendInLoop call => inferInstanceAs (Decidable (result.taken ≤ call.message.length))
  | .shutdownInLoop => isTrue trivial

/-- Where another thread is, inside `send` or `shutdown`. -/
inductive ThreadPc where
  /-- `state_` was tested, `setState(kDisconnecting)` comes next -/
  | setDisconnecting
  /-- `queueInLoop` comes next -/
  | queueInLoop (f : Functor)
deriving DecidableEq, Repr

/-- A connection in use. -/
structure ConnectionRun where
  poller : Poller
  conn : TcpConnection
  pendingFunctors : List Functor
  /-- the other threads that are inside a call -/
  threads : Nat → Option ThreadPc
  /-- all calls of `send` so far -/
  sends : List SendCall
  /-- the calls whose `sendInLoop` was executed, in this order -/
  executed : List SendCall
  /-- `handleClose` or `connectDestroyed` has run -/
  closed : Bool

namespace ConnectionRun

/-- A connection right after its constructor. -/
def new (p : Poller) (channel : ChannelPtr) (sockfd : Int) : ConnectionRun where
  poller := (TcpConnection.new p channel sockfd).1
  conn := (TcpConnection.new p channel sockfd).2
  pendingFunctors := []
  threads _ := none
  sends := []
  executed := []
  closed := false

/-- The next call of `send` by a thread. -/
def nextSend (s : ConnectionRun) (thread : ThreadId) (message : List Byte) : SendCall where
  thread := thread
  seq := (s.sends.filter (·.thread = thread)).length
  message := message

def recordSend (s : ConnectionRun) (call : SendCall) : ConnectionRun :=
  { s with sends := s.sends ++ [call] }

def setThread (s : ConnectionRun) (t : Nat) (pc : Option ThreadPc) : ConnectionRun :=
  { s with threads := Function.update s.threads t pc }

/-- `sendInLoop` of a call. -/
def sendInLoop (s : ConnectionRun) (call : SendCall) (result : WriteResult) :
    Option ConnectionRun :=
  (s.conn.sendInLoop s.poller call.message result).map fun (p, conn) =>
    { s with poller := p, conn := conn, executed := s.executed ++ [call] }

/-- The state after a handler, with the callback that it ended with. -/
def afterHandler (s : ConnectionRun) :
    Poller × TcpConnection × Option Callback → ConnectionRun
  | (p, conn, callback) =>
      { s with poller := p, conn := conn
               closed := s.closed || callback == some .closeCallback }

/-- The callbacks of one `handleEvent`, one after the other. -/
def runHandlers (readv : ReadvResult) (write : WriteResult) (s : ConnectionRun) :
    List Handler → Option ConnectionRun
  | [] => some s
  | h :: hs => do
      let after ← s.conn.runHandler s.poller readv write h
      (s.afterHandler after).runHandlers readv write hs

end ConnectionRun

/-- What can happen to a connection. -/
inductive ConnectionAction where
  | connectEstablished
  /-- the loop thread calls `send` -/
  | send (message : List Byte) (result : WriteResult)
  /-- the loop thread calls `shutdown` -/
  | shutdown
  /-- another thread calls `send` and tests `state_` -/
  | sendFrom (t : Nat) (message : List Byte)
  /-- another thread calls `shutdown` and tests `state_` -/
  | shutdownFrom (t : Nat)
  /-- another thread goes on with its call -/
  | resume (t : Nat)
  /-- the loop thread runs the first functor of the queue -/
  | runFunctor (result : WriteResult)
  /-- the loop dispatches a result of `poll` -/
  | handleEvent (revents : Events) (readv : ReadvResult) (write : WriteResult)
  | handleRead (result : ReadvResult)
  | handleWrite (result : WriteResult)
  | handleClose
  | shutdownInLoop
  | connectDestroyed
  | connectDestroyedRemove
  /-- the user reads from the input buffer -/
  | input (op : Buffer.Op)
  /-- a call on another channel of the loop -/
  | other (op : PollerOp)

namespace ConnectionRun

/-- The kernel takes no more than it was given, each thread makes one call at a time, and
another channel does not come with a descriptor that is in use. -/
def Legal (s : ConnectionRun) : ConnectionAction → Prop
  | .send message result => result.taken ≤ message.length
  | .sendFrom t _ | .shutdownFrom t => s.threads t = none
  | .resume t => s.threads t ≠ none
  | .runFunctor result => ∃ f ∈ s.pendingFunctors.head?, f.Fits result
  | .handleEvent _ _ result | .handleWrite result =>
      result.taken ≤ s.conn.outputBuffer.readableBytes
  | .input op => s.conn.inputBuffer.Legal op
  | .other op => op.target ≠ s.conn.channel ∧
      ((s.poller.channel op.target).index < 0 →
        0 ≤ (s.poller.channel op.target).fd ∧
          s.poller.channels.lookup (s.poller.channel op.target).fd = none)
  | _ => True

instance (s : ConnectionRun) : (a : ConnectionAction) → Decidable (s.Legal a)
  | .send message result => inferInstanceAs (Decidable (result.taken ≤ message.length))
  | .sendFrom t _ | .shutdownFrom t => inferInstanceAs (Decidable (s.threads t = none))
  | .resume t => inferInstanceAs (Decidable (s.threads t ≠ none))
  | .runFunctor result =>
      inferInstanceAs (Decidable (∃ f ∈ s.pendingFunctors.head?, f.Fits result))
  | .handleEvent _ _ result | .handleWrite result =>
      inferInstanceAs (Decidable (result.taken ≤ s.conn.outputBuffer.readableBytes))
  | .input op => inferInstanceAs (Decidable (s.conn.inputBuffer.Legal op))
  | .other _ => inferInstanceAs (Decidable (_ ∧ (_ → _ ∧ _)))
  | .connectEstablished | .shutdown | .handleRead _ | .handleClose | .shutdownInLoop
  | .connectDestroyed | .connectDestroyedRemove => isTrue trivial

def step (s : ConnectionRun) : ConnectionAction → Option ConnectionRun
  | .connectEstablished =>
      (s.conn.connectEstablished s.poller).map fun (p, conn) => { s with poller := p, conn := conn }
  | .send message result =>
      let call := s.nextSend .loop message
      if s.conn.state = .kConnected then (s.recordSend call).sendInLoop call result
      -- a message that comes too late is dropped
      else some (s.recordSend call)
  | .shutdown =>
      if s.conn.state = .kConnected then
        some { s with conn := (s.conn.setState .kDisconnecting).shutdownInLoop s.poller }
      else some s
  | .sendFrom t message =>
      let call := s.nextSend (.other t) message
      if s.conn.state = .kConnected then
        some ((s.recordSend call).setThread t (some (.queueInLoop (.sendInLoop call))))
      else some (s.recordSend call)
  | .shutdownFrom t =>
      if s.conn.state = .kConnected then some (s.setThread t (some .setDisconnecting))
      else some s
  | .resume t =>
      match s.threads t with
      | none => some s
      | some .setDisconnecting =>
          -- `state_` may have changed since the test
          some ({ s with conn := s.conn.setState .kDisconnecting }.setThread t
            (some (.queueInLoop .shutdownInLoop)))
      | some (.queueInLoop f) =>
          some ({ s with pendingFunctors := s.pendingFunctors ++ [f] }.setThread t none)
  | .runFunctor result =>
      match s.pendingFunctors with
      | [] => some s
      | .sendInLoop call :: rest => { s with pendingFunctors := rest }.sendInLoop call result
      | .shutdownInLoop :: rest =>
          some { s with pendingFunctors := rest, conn := s.conn.shutdownInLoop s.poller }
  | .handleEvent revents readv write =>
      let p := s.poller.setRevents s.conn.channel revents
      { s with poller := p }.runHandlers readv write (p.channel s.conn.channel).handleEvent
  | .handleRead result => (s.conn.handleRead s.poller result).map s.afterHandler
  | .handleWrite result =>
      (s.conn.handleWrite s.poller result).map fun (p, conn) => { s with poller := p, conn := conn }
  | .handleClose =>
      (s.conn.handleClose s.poller).map fun (p, conn) =>
        { s with poller := p, conn := conn, closed := true }
  | .shutdownInLoop => some { s with conn := s.conn.shutdownInLoop s.poller }
  | .connectDestroyed =>
      (s.conn.connectDestroyed s.poller).map fun (p, conn) =>
        { s with poller := p, conn := conn, closed := true }
  | .connectDestroyedRemove =>
      (s.conn.connectDestroyedRemove s.poller).map fun p => { s with poller := p, closed := true }
  | .input op =>
      (s.conn.inputBuffer.apply op).map fun b => { s with conn := { s.conn with inputBuffer := b } }
  | .other op => (op.apply s.poller).map fun p => { s with poller := p }

end ConnectionRun

def connectionMachine : Machine ConnectionRun ConnectionAction where
  legal := ConnectionRun.Legal
  step := ConnectionRun.step

instance (s : ConnectionRun) (a : ConnectionAction) : Decidable (connectionMachine.legal s a) :=
  inferInstanceAs (Decidable (s.Legal a))

end SecondGear
