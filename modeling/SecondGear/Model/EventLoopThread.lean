import SecondGear.Model.LoopThread

/-!
# `SecondGear.Model.EventLoopThread`: a thread with a loop on its stack, and its owner

`EventLoopThread` (`EventLoopThread.cpp`) starts a thread whose `threadFunc` constructs an
`EventLoop` on its stack, publishes its address in `loop_` and runs it. The owner calls
`startLoop`, which waits for the address, uses the loop, and destroys the `EventLoopThread`:
`loop_->quit()` and `thread_.join()`.

`eventLoopThreadMachine` puts the owner beside `loopThreadMachine`. The two halves of a call on
the loop are two steps of the owner, as they are for any other thread there. `none` is a failed
`assert`, or a step of the owner on a loop that is not there.
-/

set_option autoImplicit false

namespace SecondGear

open SecondGear.Lib

/-- The part of a `Thread` that the owner sees. -/
structure Thread where
  started : Bool
  joined : Bool
deriving DecidableEq, Repr

namespace Thread

def new : Thread where
  started := false
  joined := false

/-- `start`, with what `pthread_create` returns. -/
def start (t : Thread) (ok : Bool) : Option Thread := do
  assert (t.started = false)
  return { t with started := ok }

/-- `join`, up to `pthread_join`. -/
def join (t : Thread) : Option Thread := do
  assert (t.started = true)
  assert (t.joined = false)
  return { t with joined := true }

end Thread

/-- Where the owner is. -/
inductive OwnerPc where
  /-- behind the constructor, `startLoop` was not called -/
  | constructed
  /-- in `startLoop`, behind `thread_.start()` -/
  | startLoop
  /-- `startLoop` has returned the pointer -/
  | running
  /-- in the destructor, inside `loop_->quit()` -/
  | quit
  /-- in the destructor, `thread_.join()` comes next -/
  | join
  /-- in `thread_.join()`, or behind it -/
  | joined
deriving DecidableEq, Repr

/-- An `EventLoopThread` and its owner. `F` is the type of the functors. -/
structure EventLoopThread (F : Type) where
  thread : Thread
  /-- the thread in `threadFunc`, with its loop, and `loop_` -/
  loop : LoopThread F
  /-- `exiting_` -/
  exiting : Bool
  owner : OwnerPc

inductive EventLoopThreadAction (F : Type) where
  /-- the owner calls `startLoop`, and `thread_.start()` in it returns -/
  | startLoop (ok : Bool)
  /-- `loop_` is set, and `startLoop` returns it -/
  | startLoopReturns
  /-- a step of the thread of the loop, or of a third thread -/
  | loop (a : LoopThreadAction F)
  /-- the owner calls `queueInLoop` on the pointer, up to the end of the locked push -/
  | queueInLoop (f : F)
  /-- the owner calls `quit` on the pointer, up to `quit_ = true` -/
  | quit
  /-- the owner goes on with its call and returns -/
  | finish
  /-- the destructor, up to `quit_ = true` -/
  | destroy
  /-- the destructor goes on with `quit` -/
  | finishQuit
  /-- the destructor calls `thread_.join()` -/
  | join

namespace EventLoopThread

variable {F : Type}

/-- The thread of the owner. -/
def ownerThread : ThreadId := .other 0

/-- The constructor. -/
def new : EventLoopThread F where
  thread := .new
  loop := .start
  exiting := false
  owner := .constructed

/-- `loop_` is not null, and the loop that it points to is not destroyed. -/
def LoopAlive (s : EventLoopThread F) : Prop :=
  s.loop.published = true ∧ s.loop.pc.hasLoop = true

instance (s : EventLoopThread F) : Decidable s.LoopAlive :=
  inferInstanceAs (Decidable (_ ∧ _))

/-- A step of a thread other than the owner. -/
def OfOthers : LoopThreadAction F → Prop
  | .loop t | .queueInLoop t _ | .quit t | .finish t => t ≠ ownerThread
  | .startLoop => False
  | .advance | .handleRead => True

instance : (a : LoopThreadAction F) → Decidable (OfOthers a)
  | .loop _ | .queueInLoop _ _ | .quit _ | .finish _ => inferInstanceAs (Decidable (_ ≠ _))
  | .startLoop => isFalse fun h => h
  | .advance | .handleRead => isTrue trivial

/-- The owner is inside a call on the loop. -/
def inCall (s : EventLoopThread F) : Bool := (s.loop.calls ownerThread).isSome

/-- The owner does one thing after the other: at most one `startLoop`, then calls on the loop,
and the destructor at any time. -/
def Legal (s : EventLoopThread F) : EventLoopThreadAction F → Prop
  | .startLoop _ => s.owner = .constructed
  | .startLoopReturns => s.owner = .startLoop ∧ s.loop.published = true
  | .loop a => s.thread.started = true ∧ OfOthers a ∧ s.loop.Legal a
  | .queueInLoop _ | .quit => s.owner = .running ∧ s.inCall = false
  | .finish => s.owner = .running ∧ s.inCall = true
  | .destroy => (s.owner = .constructed ∨ s.owner = .running) ∧ s.inCall = false
  | .finishQuit => s.owner = .quit
  | .join => s.owner = .join

instance (s : EventLoopThread F) : (a : EventLoopThreadAction F) → Decidable (s.Legal a)
  | .startLoop _ | .finishQuit | .join => inferInstanceAs (Decidable (_ = _))
  | .startLoopReturns | .queueInLoop _ | .quit | .finish | .destroy =>
      inferInstanceAs (Decidable (_ ∧ _))
  | .loop _ => inferInstanceAs (Decidable (_ ∧ _ ∧ _))

/-- A step of the owner through `loop_`, or through the pointer that it got from it. -/
def onLoop (s : EventLoopThread F) (a : LoopThreadAction F) : Option (EventLoopThread F) := do
  assert s.LoopAlive
  let loop ← s.loop.step a
  return { s with loop }

def step (s : EventLoopThread F) : EventLoopThreadAction F → Option (EventLoopThread F)
  | .startLoop ok => do
      -- `assert(thread_.isStarted() == false)`
      assert (s.thread.started = false)
      let thread ← s.thread.start ok
      return { s with thread, owner := .startLoop }
  | .startLoopReturns => do
      let loop ← s.loop.step .startLoop
      return { s with loop, owner := .running }
  | .loop a => do
      let loop ← s.loop.step a
      return { s with loop }
  | .queueInLoop f => s.onLoop (.queueInLoop ownerThread f)
  | .quit => s.onLoop (.quit ownerThread)
  | .finish => s.onLoop (.finish ownerThread)
  | .destroy => { s with exiting := true, owner := .quit }.onLoop (.quit ownerThread)
  | .finishQuit => { s with owner := .join }.onLoop (.finish ownerThread)
  | .join => do
      let thread ← s.thread.join
      return { s with thread, owner := .joined }

end EventLoopThread

def eventLoopThreadMachine (F : Type) :
    Machine (EventLoopThread F) (EventLoopThreadAction F) where
  legal := EventLoopThread.Legal
  step := EventLoopThread.step

instance {F : Type} (s : EventLoopThread F) (a : EventLoopThreadAction F) :
    Decidable ((eventLoopThreadMachine F).legal s a) :=
  inferInstanceAs (Decidable (s.Legal a))

end SecondGear
