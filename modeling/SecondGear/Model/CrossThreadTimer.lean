import SecondGear.Model.LoopThread
import SecondGear.Model.TimerQueue

/-!
# `SecondGear.Model.CrossThreadTimer`: `addTimer` from any thread

`addTimer` keeps the new `Timer` in a local `TimerPtr` and hands `addTimerInLoop` to the loop in
a lambda that captures this local by reference. In the thread of the loop the lambda runs
inside the call, in another thread it is queued. `crossTimerMachine` puts the calls and the
queue of timers beside the loop: the local of a call is a cell that holds a pointer until the
call returns.

The calls of `addTimer` are numbered in their order, and so are the timers that they make. The
number stands for the callback. Outside of `addTimer` the queue goes on as in `timerMachine`.
-/

set_option autoImplicit false

namespace SecondGear

open SecondGear.Lib

/-- The functors in the queue of the loop. -/
inductive TimerFunctor where
  /-- `[&]`: the local `timer` of a call of `addTimer` -/
  | moveAddTimerToIo (call : Nat)
  /-- of other users of the loop -/
  | other
deriving DecidableEq, Repr

/-- Where a thread is, inside `addTimer`. -/
inductive AddTimerPc where
  /-- `queueInLoop` comes next -/
  | queueInLoop (call : Nat)
  /-- `return timerid` comes next -/
  | returnTimerId (call : Nat)
deriving DecidableEq, Repr

namespace AddTimerPc

def isQueueInLoop : AddTimerPc → Bool
  | .queueInLoop _ => true
  | .returnTimerId _ => false

def isReturn : AddTimerPc → Bool
  | .queueInLoop _ => false
  | .returnTimerId _ => true

end AddTimerPc

/-- The calls of `addTimer`, the queue of timers, and the loop. -/
structure CrossTimer where
  loop : LoopThread TimerFunctor
  timers : TimerRun
  /-- the timers that the calls of `addTimer` made, in their order -/
  made : List Timer
  /-- the local `timer` of each call, while it exists -/
  locals : Nat → Option TimerPtr
  /-- the threads that are inside `addTimer` -/
  threads : Nat → Option AddTimerPc
  /-- the runs of the lambda: its call, and the timer that it added, if its pointer was valid -/
  executions : List (Nat × Option Timer)

namespace CrossTimer

/-- A loop that nobody has used, without timers. -/
def new (loop : LoopThread TimerFunctor) (heap : TimerPtr → Timer) : CrossTimer where
  loop := loop
  timers := .new heap
  made := []
  locals _ := none
  threads _ := none
  executions := []

def setThread (s : CrossTimer) (t : Nat) (pc : Option AddTimerPc) : CrossTimer :=
  { s with threads := Function.update s.threads t pc }

def setLocal (s : CrossTimer) (call : Nat) (timer : Option TimerPtr) : CrossTimer :=
  { s with locals := Function.update s.locals call timer }

/-- `TimerPtr timer(new Timer(cb, when, interval))` -/
def makeTimer (s : CrossTimer) (ptr : TimerPtr) (when : Timestamp) (repeats : Bool)
    (delta : Nat) : CrossTimer :=
  let timer : Timer := { expiration := when, delta, repeats, serial := s.made.length }
  { s.setLocal s.made.length (some ptr) with
    timers.queue := s.timers.queue.setTimer ptr timer
    made := s.made ++ [timer] }

/-- The lambda of a call: `addTimerInLoop` of what its local holds. -/
def moveAddTimerToIo (s : CrossTimer) (call : Nat) (clock : Timestamp) : Option CrossTimer :=
  match s.locals call with
  | some ptr => do
      let timer := s.timers.queue.timer ptr
      let queue ← s.timers.queue.addTimerInLoop ptr clock
      return { s with
        timers := { s.timers with queue, added := s.timers.added ++ [timer] }
        executions := s.executions ++ [(call, some timer)] }
  -- The local is gone: the lambda copies no valid pointer.
  | none => some { s with executions := s.executions ++ [(call, none)] }

/-- The loop calls a functor, if it calls one. -/
def callFunctor (s : CrossTimer) (clock : Timestamp) : Option TimerFunctor → Option CrossTimer
  | some (.moveAddTimerToIo call) => s.moveAddTimerToIo call clock
  | _ => some s

end CrossTimer

inductive CrossTimerAction where
  /-- a step of the loop or of a thread that uses it for something else, with the clock that
  `resetTimerfd` reads if it runs a lambda of `addTimer` -/
  | loop (a : LoopThreadAction TimerFunctor) (clock : Timestamp)
  /-- another thread calls `addTimer` and makes the timer at an address -/
  | addTimer (t : Nat) (ptr : TimerPtr) (when : Timestamp) (repeats : Bool) (delta : Nat)
  /-- it goes on to `queueInLoop`, up to the end of the locked push -/
  | queueInLoop (t : Nat)
  /-- it returns, and its local is destroyed -/
  | returnTimerId (t : Nat)
  /-- the thread of the loop calls `addTimer` -/
  | addTimerInThread (ptr : TimerPtr) (when : Timestamp) (repeats : Bool) (delta : Nat)
      (clock : Timestamp)
  /-- the timerfd and `TimerQueue::handleRead` -/
  | timer (a : TimerAction)

namespace CrossTimer

/-- The allocator hands out an address that no timer in use has: none in the queue, and none
that a local points to. -/
def Free (s : CrossTimer) (ptr : TimerPtr) : Prop :=
  ptr ≠ 0 ∧ (∀ e ∈ s.timers.queue.timers.toList ++ s.timers.phase.expired, e.second ≠ ptr) ∧
    ∀ call < s.made.length, s.locals call ≠ some ptr

instance (s : CrossTimer) (ptr : TimerPtr) : Decidable (s.Free ptr) :=
  inferInstanceAs (Decidable (_ ∧ _ ∧ _))

/-- Another thread is inside no call of `addTimer`. -/
def Idle (s : CrossTimer) : ThreadId → Prop
  | .loop => True
  | .other t => s.threads t = none

instance (s : CrossTimer) : (u : ThreadId) → Decidable (s.Idle u)
  | .loop => isTrue trivial
  | .other t => inferInstanceAs (Decidable (s.threads t = none))

/-- A thread inside `addTimer` makes no other call of the loop, nobody else queues its lambdas,
and the loop goes on when `TimerQueue::handleRead` has returned. -/
def LoopLegal (s : CrossTimer) : LoopThreadAction TimerFunctor → Prop
  | .queueInLoop u f => s.Idle u ∧ f = .other
  | .loop u | .quit u => s.Idle u
  | .advance | .handleRead => s.timers.phase.isIdle = true
  | .finish _ | .startLoop => True

instance (s : CrossTimer) : (a : LoopThreadAction TimerFunctor) → Decidable (s.LoopLegal a)
  | .queueInLoop _ _ => inferInstanceAs (Decidable (_ ∧ _))
  | .loop u | .quit u => inferInstanceAs (Decidable (s.Idle u))
  | .advance | .handleRead => inferInstanceAs (Decidable (_ = true))
  | .finish _ | .startLoop => isTrue trivial

/-- `TimerQueue::handleRead` runs among the handlers of an iteration, and the timerfd by
itself. -/
def TimerLegal (s : CrossTimer) : TimerAction → Prop
  | .expire => s.timers.Legal .expire
  | .addTimer _ _ _ _ _ => False
  | a => s.timers.Legal a ∧ s.loop.CanCall .loop ∧ s.loop.pc.inPass = false ∧
      s.loop.pc.inCallback = true

instance (s : CrossTimer) : (a : TimerAction) → Decidable (s.TimerLegal a)
  | .expire => inferInstanceAs (Decidable (s.timers.Legal .expire))
  | .addTimer _ _ _ _ _ => isFalse id
  | .handleRead now => inferInstanceAs (Decidable (s.timers.Legal (.handleRead now) ∧ _ ∧ _ ∧ _))
  | .run => inferInstanceAs (Decidable (s.timers.Legal .run ∧ _ ∧ _ ∧ _))
  | .reset clock => inferInstanceAs (Decidable (s.timers.Legal (.reset clock) ∧ _ ∧ _ ∧ _))

/-- A thread inside `addTimer` goes on there. -/
def Legal (s : CrossTimer) : CrossTimerAction → Prop
  | .loop a _ => s.loop.Legal a ∧ s.LoopLegal a
  | .addTimer t ptr _ _ _ => s.Idle (.other t) ∧ s.loop.CanCall (.other t) ∧ s.Free ptr
  | .queueInLoop t =>
      (s.threads t).any AddTimerPc.isQueueInLoop = true ∧ s.loop.CanCall (.other t)
  | .returnTimerId t =>
      (s.threads t).any AddTimerPc.isReturn = true ∧ s.loop.calls (.other t) = none
  | .addTimerInThread ptr _ _ _ _ => s.loop.CanCall .loop ∧ s.Free ptr
  | .timer a => s.TimerLegal a

instance (s : CrossTimer) : (a : CrossTimerAction) → Decidable (s.Legal a)
  | .loop a _ => inferInstanceAs (Decidable (s.loop.Legal a ∧ s.LoopLegal a))
  | .addTimer _ _ _ _ _ => inferInstanceAs (Decidable (_ ∧ _ ∧ _))
  | .queueInLoop _ | .returnTimerId _ => inferInstanceAs (Decidable (_ = true ∧ _))
  | .addTimerInThread _ _ _ _ _ => inferInstanceAs (Decidable (_ ∧ _))
  | .timer a => inferInstanceAs (Decidable (s.TimerLegal a))

def step (s : CrossTimer) : CrossTimerAction → Option CrossTimer
  | .loop a clock => do
      let loop ← s.loop.step a
      let after ← s.callFunctor clock (s.loop.calledBy a)
      return { after with loop }
  | .addTimer t ptr when repeats delta =>
      some ((s.makeTimer ptr when repeats delta).setThread t (some (.queueInLoop s.made.length)))
  | .queueInLoop t =>
      match s.threads t with
      | some (.queueInLoop call) => do
          let loop ← s.loop.step (.queueInLoop (.other t) (.moveAddTimerToIo call))
          return { s.setThread t (some (.returnTimerId call)) with loop }
      | _ => some s
  | .returnTimerId t =>
      match s.threads t with
      | some (.returnTimerId call) => some ((s.setThread t none).setLocal call none)
      | _ => some s
  | .addTimerInThread ptr when repeats delta clock => do
      -- `runInLoop` runs the lambda, and the call returns.
      let after ← (s.makeTimer ptr when repeats delta).moveAddTimerToIo s.made.length clock
      return after.setLocal s.made.length none
  | .timer a => (s.timers.step a).map fun timers => { s with timers }

end CrossTimer

def crossTimerMachine : Machine CrossTimer CrossTimerAction where
  legal := CrossTimer.Legal
  step := CrossTimer.step

instance (s : CrossTimer) (a : CrossTimerAction) : Decidable (crossTimerMachine.legal s a) :=
  inferInstanceAs (Decidable (s.Legal a))

end SecondGear
