import SecondGear.Model.LoopThread

/-!
# `SecondGear.Model.ServerStart`: `TcpServer::start` from any thread

`start` tests `listenning()` of the acceptor, and if it is false hands `Acceptor::listen` to the
loop: in the thread of the loop `listen` runs inside the call, in another thread it is queued.
The flag is set in `listen`, so a test and the execution of its `listen` are far apart. `start`
also sets `started_`, which nothing reads.

`serverStartMachine` puts one acceptor and the threads that call `start` beside the loop. The
test, the push and the execution are separate steps.
-/

set_option autoImplicit false

namespace SecondGear

open SecondGear.Lib

/-- The functors in the queue of the loop. -/
inductive ServerFunctor where
  /-- the lambda of `start`: `acceptor_->listen()` -/
  | startListenning
  /-- of other users of the loop -/
  | other
deriving DecidableEq, Repr

/-- A server whose `start` is called, and the loop. -/
structure ServerStart where
  loop : LoopThread ServerFunctor
  poller : Poller
  acceptChannel : ChannelPtr
  /-- `started_` -/
  started : Bool
  /-- `acceptor_->listenning_` -/
  listenning : Bool
  /-- the other threads that found `listenning()` false and come to `queueInLoop` next -/
  testing : List Nat
  /-- how many calls of `start` found `listenning()` false -/
  found : Nat
  /-- how many calls of `start` have executed or queued their `listen`, or needed none -/
  made : Nat
  /-- how often `Acceptor::listen` was executed -/
  listens : Nat

namespace ServerStart

/-- A loop that nobody has used, and a server that was not started. -/
def new (loop : LoopThread ServerFunctor) (poller : Poller) (acceptChannel : ChannelPtr) :
    ServerStart where
  loop := loop
  poller := poller
  acceptChannel := acceptChannel
  started := false
  listenning := false
  testing := []
  found := 0
  made := 0
  listens := 0

/-- `Acceptor::listen` in a thread. -/
def listen (s : ServerStart) (thread : ThreadId) : Option ServerStart := do
  -- `assertInLoopThread`
  assert (thread = .loop)
  let poller ← s.poller.enableReading s.acceptChannel
  return { s with listenning := true, poller, listens := s.listens + 1 }

/-- The loop calls a functor, if it calls one. -/
def callFunctor (s : ServerStart) : Option ServerFunctor → Option ServerStart
  | some .startListenning => s.listen s.loop.runner
  | _ => some s

end ServerStart

inductive ServerStartAction where
  /-- a step of the loop, or of a thread that uses it for something else -/
  | loop (a : LoopThreadAction ServerFunctor)
  /-- another thread calls `start`, up to the test of `listenning()` -/
  | start (t : Nat)
  /-- it goes on to `queueInLoop`, up to the end of the locked push -/
  | queueInLoop (t : Nat)
  /-- the thread of the loop calls `start` -/
  | startInThread

namespace ServerStart

/-- A thread that has tested is inside `start`. -/
def Idle (s : ServerStart) : ThreadId → Prop
  | .loop => True
  | .other t => t ∉ s.testing

instance (s : ServerStart) : (u : ThreadId) → Decidable (s.Idle u)
  | .loop => isTrue trivial
  | .other t => inferInstanceAs (Decidable (t ∉ s.testing))

/-- A thread inside `start` makes no other call of the loop, and nobody else queues its
lambda. -/
def LoopLegal (s : ServerStart) : LoopThreadAction ServerFunctor → Prop
  | .queueInLoop u f => s.Idle u ∧ f = .other
  | .loop u | .quit u => s.Idle u
  | .advance | .handleRead | .finish _ | .startLoop => True

instance (s : ServerStart) : (a : LoopThreadAction ServerFunctor) → Decidable (s.LoopLegal a)
  | .queueInLoop _ _ => inferInstanceAs (Decidable (_ ∧ _))
  | .loop u | .quit u => inferInstanceAs (Decidable (s.Idle u))
  | .advance | .handleRead | .finish _ | .startLoop => isTrue trivial

/-- The threads call `start` where they can call the loop. -/
def Legal (s : ServerStart) : ServerStartAction → Prop
  | .loop a => s.loop.Legal a ∧ s.LoopLegal a
  | .start t => s.Idle (.other t) ∧ s.loop.CanCall (.other t)
  | .queueInLoop t => t ∈ s.testing ∧ s.loop.CanCall (.other t)
  | .startInThread => s.loop.CanCall .loop

instance (s : ServerStart) : (a : ServerStartAction) → Decidable (s.Legal a)
  | .loop _ | .start _ | .queueInLoop _ => inferInstanceAs (Decidable (_ ∧ _))
  | .startInThread => inferInstanceAs (Decidable (s.loop.CanCall .loop))

/-- A call of `start` that finds the acceptor listening returns. -/
def returnFromStart (s : ServerStart) : ServerStart :=
  { s with started := true, made := s.made + 1 }

def step (s : ServerStart) : ServerStartAction → Option ServerStart
  | .loop a => do
      let loop ← s.loop.step a
      let after ← s.callFunctor (s.loop.calledBy a)
      return { after with loop }
  | .start t =>
      if s.listenning then some s.returnFromStart
      else some { s with started := true, testing := t :: s.testing, found := s.found + 1 }
  | .queueInLoop t => do
      let loop ← s.loop.step (.queueInLoop (.other t) .startListenning)
      return { s with loop, testing := s.testing.erase t, made := s.made + 1 }
  | .startInThread =>
      if s.listenning then some s.returnFromStart
      else { s.returnFromStart with found := s.found + 1 }.listen .loop

end ServerStart

def serverStartMachine : Machine ServerStart ServerStartAction where
  legal := ServerStart.Legal
  step := ServerStart.step

instance (s : ServerStart) (a : ServerStartAction) : Decidable (serverStartMachine.legal s a) :=
  inferInstanceAs (Decidable (s.Legal a))

end SecondGear
