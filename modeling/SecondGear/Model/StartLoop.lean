import SecondGear.Lib.Monitor
import SecondGear.Model.EventLoopThread

/-!
# `SecondGear.Model.StartLoop`: how `startLoop` gets the pointer

In `eventLoopThreadMachine` the pointer is there when `startLoop` returns. Here `startLoop` and
`threadFunc` (`EventLoopThread.cpp`) use `mutex_` and `cond_` one statement at a time: the owner
locks, tests `loop_ == nullptr`, parks, unlocks and reads `loop_` behind the guard, and the new
thread locks, stores the address of its loop, wakes one thread and unlocks. All other steps are
those of `eventLoopThreadMachine`.
-/

set_option autoImplicit false

namespace SecondGear

open SecondGear.Lib

/-- `startLoop` and `threadFunc`, on whether `loop_` is set. -/
def startLoopCode : MonitorCode Bool Unit where
  -- `loop_ == nullptr`
  blocked loop := !loop
  store _ _ := true
  notifies _ := true
  -- `cond_.notify()`
  all := false

/-- The two threads that use `mutex_`. -/
inductive Party where
  | owner
  | threadFunc
deriving DecidableEq, Repr

/-- `loop_ = &loop` comes next, behind the guard. -/
def LoopThreadPc.atPublish {F : Type} : LoopThreadPc F → Bool
  | .publish => true
  | _ => false

/-- An `EventLoopThread` with its mutex, its condition and `loop_`. -/
structure StartLoop (F : Type) where
  thread : EventLoopThread F
  monitor : Monitor Party Bool Unit

inductive StartLoopAction (F : Type) where
  /-- the owner calls `startLoop`, and `thread_.start()` in it returns -/
  | startLoop (ok : Bool)
  /-- `threadFunc` comes to its section under the mutex -/
  | publish
  /-- the next statement of a thread in its section -/
  | next (t : Party) (woken : Option Party)
  /-- `cond_.wait()` returns by itself -/
  | spurious (t : Party)
  /-- behind the section: `return loop_` -/
  | startLoopReturns
  /-- any other step of the owner, of the loop or of a third thread -/
  | other (a : EventLoopThreadAction F)

namespace StartLoop

variable {F : Type}

/-- The constructor. -/
def new : StartLoop F where
  thread := .new
  monitor := .start false

/-- A step of the thread of the loop itself. -/
def Own : LoopThreadAction F → Prop
  | .advance | .handleRead => True
  | .loop t | .queueInLoop t _ | .quit t | .finish t => t = .loop
  | .startLoop => False

instance : (a : LoopThreadAction F) → Decidable (Own a)
  | .advance | .handleRead => isTrue trivial
  | .loop _ | .queueInLoop _ _ | .quit _ | .finish _ => inferInstanceAs (Decidable (_ = _))
  | .startLoop => isFalse id

/-- The steps outside of the two sections. The thread of the loop is not in its section, nor
about to enter it. -/
def Rest (s : StartLoop F) : EventLoopThreadAction F → Prop
  | .startLoop _ | .startLoopReturns => False
  | .loop a => Own a →
      s.monitor.threads .threadFunc = .outside ∧ s.thread.loop.pc.atPublish = false
  | .queueInLoop _ | .quit | .finish | .destroy | .finishQuit | .join => True

instance (s : StartLoop F) : (a : EventLoopThreadAction F) → Decidable (s.Rest a)
  | .startLoop _ | .startLoopReturns => isFalse id
  | .loop _ => inferInstanceAs (Decidable (_ → _))
  | .queueInLoop _ | .quit | .finish | .destroy | .finishQuit | .join => isTrue trivial

/-- Each thread goes on where it is. -/
def Legal (s : StartLoop F) : StartLoopAction F → Prop
  | .startLoop ok => s.thread.Legal (.startLoop ok)
  | .publish => s.thread.thread.started = true ∧ s.thread.loop.pc.atPublish = true ∧
      s.monitor.threads .threadFunc = .outside
  | .next t woken => s.monitor.Legal (.next t woken)
  | .spurious t => s.monitor.Legal (.spurious t)
  | .startLoopReturns => s.thread.owner = .startLoop ∧ s.monitor.threads .owner = .outside
  | .other a => s.thread.Legal a ∧ s.Rest a

instance (s : StartLoop F) : (a : StartLoopAction F) → Decidable (s.Legal a)
  | .startLoop ok => inferInstanceAs (Decidable (s.thread.Legal (.startLoop ok)))
  | .publish | .startLoopReturns | .other _ => inferInstanceAs (Decidable (_ ∧ _))
  | .next t woken => inferInstanceAs (Decidable (s.monitor.Legal (.next t woken)))
  | .spurious t => inferInstanceAs (Decidable (s.monitor.Legal (.spurious t)))

/-- The thread, when one of the two goes on in its section: the store is `loop_ = &loop`. -/
def stored (s : StartLoop F) (t : Party) : EventLoopThread F :=
  match s.monitor.threads t with
  | .store _ => { s.thread with loop := s.thread.loop.advance }
  | _ => s.thread

def step (s : StartLoop F) : StartLoopAction F → Option (StartLoop F)
  | .startLoop ok => do
      let thread ← s.thread.step (.startLoop ok)
      return { thread, monitor := s.monitor.step startLoopCode (.await .owner) }
  | .publish =>
      some { s with monitor := s.monitor.step startLoopCode (.update .threadFunc ()) }
  | .next t woken =>
      some { thread := s.stored t, monitor := s.monitor.next startLoopCode t woken }
  | .spurious t => some { s with monitor := s.monitor.step startLoopCode (.spurious t) }
  | .startLoopReturns => do
      let thread ← s.thread.step .startLoopReturns
      return { s with thread }
  | .other a => do
      let thread ← s.thread.step a
      return { s with thread }

end StartLoop

def startLoopMachine (F : Type) : Machine (StartLoop F) (StartLoopAction F) where
  legal := StartLoop.Legal
  step := StartLoop.step

instance {F : Type} (s : StartLoop F) (a : StartLoopAction F) :
    Decidable ((startLoopMachine F).legal s a) :=
  inferInstanceAs (Decidable (s.Legal a))

end SecondGear
