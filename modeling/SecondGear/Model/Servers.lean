import SecondGear.Model.EventLoop

/-!
# `SecondGear.Model.Servers`: servers that are created, started and destroyed

`loopMachine` knows a server from its `start` on. Here the `TcpServer` objects come before
that and go after it (`TcpServer.cpp`, `Acceptor.cpp`). The constructor of the `Acceptor`
opens the listening socket. `start` makes it listen and registers its channel. The body of
`~TcpServer` is empty, so a destroyed server only destroys its members: the map drops its
references, the connections that nobody else refers to close their sockets, and the acceptor
closes its own. The `Poller` has its own references to the channels.

`serverMachine` runs a loop with its servers. The kernel hands out every descriptor that is
closed. `none` is also a callback of a channel whose owner is gone.
-/

set_option autoImplicit false

namespace SecondGear

open SecondGear.Lib

/-- A `TcpServer` object. -/
structure ServerObject where
  name : String
  /-- the descriptor of the acceptor's socket -/
  acceptSocket : Int
  /-- its number among the started servers of the loop, when the acceptor listens -/
  started : Option Nat
  destroyed : Bool
deriving DecidableEq, Repr

namespace ServerObject

/-- The constructor. -/
def new (name : String) (acceptSocket : Int) : ServerObject where
  name := name
  acceptSocket := acceptSocket
  started := none
  destroyed := false

/-- The acceptor listens, as number `i`. -/
def listen (o : ServerObject) (i : Nat) : ServerObject := { o with started := some i }

/-- The acceptor's socket is closed. -/
def close (o : ServerObject) : ServerObject := { o with destroyed := true }

/-- The descriptor, until the destructor closes it. -/
def openFd (o : ServerObject) : Option Int := if o.destroyed then none else some o.acceptSocket

end ServerObject

/-- A loop with its servers. -/
structure ServerLoop where
  loop : EventLoop
  /-- the servers created so far -/
  objects : List ServerObject

/-- What happens next. -/
inductive ServerAction where
  /-- an action of the loop, or of user code on connections -/
  | loop (a : LoopAction)
  /-- the constructor of a server -/
  | create (name : String) (acceptSocket : Int)
  | start (j : Nat)
  /-- the destructor -/
  | destroy (j : Nat)

namespace ServerLoop

def new (timerfd wakeupFd : Int) : Option ServerLoop :=
  (EventLoop.new timerfd wakeupFd).map fun loop => { loop := loop, objects := [] }

/-- The open descriptors. -/
def openFds (s : ServerLoop) : List Int :=
  s.loop.timerfd :: s.loop.wakeupFd :: (s.objects.filterMap ServerObject.openFd ++
    s.loop.conns.filterMap ConnectionObject.openFd)

/-- The object that a channel's callback is bound to is still there. -/
def OwnerAlive (s : ServerLoop) : Owner → Prop
  | .timerQueue | .wakeup => True
  | .acceptor i => ∃ o ∈ s.objects, o.started = some i ∧ o.destroyed = false
  | .connection id => s.loop.Alive id

instance (s : ServerLoop) : (owner : Owner) → Decidable (s.OwnerAlive owner)
  | .timerQueue | .wakeup => isTrue trivial
  | .acceptor i =>
      inferInstanceAs (Decidable (∃ o ∈ s.objects, o.started = some i ∧ o.destroyed = false))
  | .connection id => inferInstanceAs (Decidable (s.loop.Alive id))

/-- The owner of the channel whose callback is next. -/
def currentOwner (s : ServerLoop) : Option Owner :=
  match s.loop.pc with
  | .dispatch ((c, _) :: _) _ => s.loop.owners[c]?
  | _ => none

/-- The loop does not run into an object that is gone. -/
def FindsOwner (s : ServerLoop) : LoopAction → Prop
  | .runHandler _ _ _ => ∀ owner ∈ s.currentOwner, s.OwnerAlive owner
  | _ => True

instance (s : ServerLoop) : (a : LoopAction) → Decidable (s.FindsOwner a)
  | .runHandler _ _ _ => inferInstanceAs (Decidable (∀ owner ∈ s.currentOwner, _))
  | .poll _ _ | .handleEvent | .doPendingFunctors | .runFunctor | .endFunctors
  | .callbackReturns | .send _ _ _ | .shutdown _ | .input _ _ | .addRef _ | .dropRef _
  | .queueInLoop | .startServer _ _ => isTrue trivial

/-- The thread of the loop is in user code, or in front of `loop`. -/
def InUserCode (s : ServerLoop) : Prop := s.loop.pc = .poll ∨ s.loop.frame ≠ none

/-- The promises about an action of the loop. A server comes in through `start` only. -/
def LoopLegal (s : ServerLoop) : LoopAction → Prop
  | .startServer _ _ => False
  | .runHandler connfd _ _ =>
      s.loop.frame = none ∧ s.loop.pc.atHandler ∧
        (0 ≤ connfd → connfd < 2 ^ 31 ∧ connfd ∉ s.openFds)
  | a => s.loop.Legal a

instance (s : ServerLoop) : (a : LoopAction) → Decidable (s.LoopLegal a)
  | .startServer _ _ => isFalse id
  | .runHandler _ _ _ => inferInstanceAs (Decidable (_ ∧ _ = true ∧ (_ → _ ∧ _)))
  | .poll answer n => inferInstanceAs (Decidable (s.loop.Legal (.poll answer n)))
  | .handleEvent => inferInstanceAs (Decidable (s.loop.Legal .handleEvent))
  | .doPendingFunctors => inferInstanceAs (Decidable (s.loop.Legal .doPendingFunctors))
  | .runFunctor => inferInstanceAs (Decidable (s.loop.Legal .runFunctor))
  | .endFunctors => inferInstanceAs (Decidable (s.loop.Legal .endFunctors))
  | .callbackReturns => inferInstanceAs (Decidable (s.loop.Legal .callbackReturns))
  | .send id m r => inferInstanceAs (Decidable (s.loop.Legal (.send id m r)))
  | .shutdown id => inferInstanceAs (Decidable (s.loop.Legal (.shutdown id)))
  | .input id op => inferInstanceAs (Decidable (s.loop.Legal (.input id op)))
  | .addRef id => inferInstanceAs (Decidable (s.loop.Legal (.addRef id)))
  | .dropRef id => inferInstanceAs (Decidable (s.loop.Legal (.dropRef id)))
  | .queueInLoop => inferInstanceAs (Decidable (s.loop.Legal .queueInLoop))

/-- Servers are used until they are destroyed, and the kernel hands out descriptors that are
`int`s and not open. -/
def Legal (s : ServerLoop) : ServerAction → Prop
  | .loop a => s.LoopLegal a
  | .create _ acceptSocket => s.InUserCode ∧
      0 ≤ acceptSocket ∧ acceptSocket < 2 ^ 31 ∧ acceptSocket ∉ s.openFds
  | .start j | .destroy j => s.InUserCode ∧ ∃ o ∈ s.objects[j]?, o.destroyed = false

instance (s : ServerLoop) : Decidable s.InUserCode := inferInstanceAs (Decidable (_ ∨ _))

instance (s : ServerLoop) : (a : ServerAction) → Decidable (s.Legal a)
  | .loop a => inferInstanceAs (Decidable (s.LoopLegal a))
  | .create _ _ => inferInstanceAs (Decidable (_ ∧ _ ∧ _ ∧ _))
  | .start j | .destroy j =>
      inferInstanceAs (Decidable (_ ∧ ∃ o ∈ s.objects[j]?, o.destroyed = false))

/-- `start`, in the loop thread. -/
def start (s : ServerLoop) (j : Nat) : Option ServerLoop := do
  let o ← s.objects[j]?
  match o.started with
  | some _ => return s
  | none =>
      let loop ← s.loop.step (.startServer o.name o.acceptSocket)
      return { loop := loop, objects := s.objects.set j (o.listen s.loop.servers.length) }

/-- The members of a started server are destroyed. The map drops its references. -/
def destroyMembers (loop : EventLoop) (i : Nat) : Option EventLoop := do
  let server ← loop.servers[i]?
  let servers := loop.servers.set i { server with connections := ∅ }
  return { loop with servers := servers }.release

/-- `~TcpServer` -/
def destroy (s : ServerLoop) (j : Nat) : Option ServerLoop := do
  let o ← s.objects[j]?
  let objects := s.objects.set j o.close
  match o.started with
  | none => return { s with objects := objects }
  | some i =>
      let loop ← destroyMembers s.loop i
      return { loop := loop, objects := objects }

def step (s : ServerLoop) : ServerAction → Option ServerLoop
  | .loop a => do
      assert (s.FindsOwner a)
      let loop ← s.loop.step a
      return { s with loop := loop }
  | .create name acceptSocket =>
      some { s with objects := s.objects ++ [.new name acceptSocket] }
  | .start j => s.start j
  | .destroy j => s.destroy j

end ServerLoop

def serverMachine : Machine ServerLoop ServerAction where
  legal := ServerLoop.Legal
  step := ServerLoop.step

instance (s : ServerLoop) (a : ServerAction) : Decidable (serverMachine.legal s a) :=
  inferInstanceAs (Decidable (s.Legal a))

end SecondGear
