import Mathlib.Logic.Function.Basic
import SecondGear.Lib.Assert
import SecondGear.Lib.Machine

/-!
# `SecondGear.Model.CurrentLoop`: the loops of a program and their threads

A thread has at most one loop. The constructor of `EventLoop` (`EventLoop.cpp`) asserts it with
`t_loopInThisThread`, a variable of the thread, and keeps the id of the thread in `threadId_`, which
`isInLoopThread` compares with `CurrentThread::tid()`. The destructor sets `t_loopInThisThread` of
the thread that runs it.

`currentLoopMachine` has any number of threads and loops. The kernel gives a new thread an id that
no living thread has, possibly that of a thread that has ended. `none` is a failed `assert`.
-/

set_option autoImplicit false

namespace SecondGear

open SecondGear.Lib

structure ThreadLocals where
  /-- `CurrentThread::tid()`, until the thread ends -/
  tid : Option Nat
  /-- `t_loopInThisThread` -/
  loopInThisThread : Option Nat
deriving DecidableEq, Repr

structure LoopObject where
  /-- the thread that ran the constructor -/
  creator : Nat
  /-- `threadId_` -/
  threadId : Nat
  /-- the thread that is in `loop()`: `looping_` says whether there is one -/
  runner : Option Nat
  /-- the destructor did not run -/
  alive : Bool
deriving DecidableEq, Repr

/-- The threads and the loops, each numbered in the order of their start. -/
structure CurrentLoop where
  threads : Nat
  thread : Nat → ThreadLocals
  loops : Nat
  loop : Nat → LoopObject

inductive CurrentLoopAction where
  /-- a new thread gets an id from the kernel -/
  | spawn (tid : Nat)
  /-- a thread ends -/
  | exit (t : Nat)
  /-- a thread constructs a loop -/
  | construct (t : Nat)
  /-- a thread calls `loop()` -/
  | loop (t l : Nat)
  /-- `loop()` returns -/
  | loopReturns (l : Nat)
  /-- a thread runs the destructor of a loop -/
  | destroy (t l : Nat)
deriving DecidableEq, Repr

namespace CurrentLoop

/-- `main`, in a thread with some id. -/
def new (tid : Nat) : CurrentLoop where
  threads := 1
  thread t := { tid := if t = 0 then some tid else none, loopInThisThread := none }
  loops := 0
  loop _ := { creator := 0, threadId := 0, runner := none, alive := false }

def Living (s : CurrentLoop) (t : Nat) : Prop := (s.thread t).tid.isSome = true

instance (s : CurrentLoop) (t : Nat) : Decidable (s.Living t) :=
  inferInstanceAs (Decidable (_ = true))

/-- `isInLoopThread` of a loop, called in a thread. -/
def isInLoopThread (s : CurrentLoop) (t l : Nat) : Bool :=
  (s.thread t).tid = some (s.loop l).threadId

def setThread (s : CurrentLoop) (t : Nat) (thread : ThreadLocals) : CurrentLoop :=
  { s with thread := Function.update s.thread t thread }

def setLoop (s : CurrentLoop) (l : Nat) (loop : LoopObject) : CurrentLoop :=
  { s with loop := Function.update s.loop l loop }

/-- Living threads use loops that are not destroyed, each of them once. -/
def Legal (s : CurrentLoop) : CurrentLoopAction → Prop
  | .spawn tid => ∀ t < s.threads, (s.thread t).tid ≠ some tid
  | .exit t => s.Living t ∧ ∀ l < s.loops, (s.loop l).runner ≠ some t
  | .construct t => s.Living t
  | .loop t l => s.Living t ∧ (s.loop l).alive = true
  | .loopReturns l => (s.loop l).runner.isSome = true
  | .destroy t l => s.Living t ∧ (s.loop l).alive = true

instance (s : CurrentLoop) : (a : CurrentLoopAction) → Decidable (s.Legal a)
  | .spawn tid => inferInstanceAs (Decidable (∀ t < s.threads, (s.thread t).tid ≠ some tid))
  | .exit t => inferInstanceAs (Decidable
      (s.Living t ∧ ∀ l < s.loops, (s.loop l).runner ≠ some t))
  | .construct t => inferInstanceAs (Decidable (s.Living t))
  | .loop _ _ | .destroy _ _ => inferInstanceAs (Decidable (_ ∧ _))
  | .loopReturns _ => inferInstanceAs (Decidable (_ = true))

def step (s : CurrentLoop) : CurrentLoopAction → Option CurrentLoop
  | .spawn tid =>
      some { s.setThread s.threads { tid := some tid, loopInThisThread := none } with
        threads := s.threads + 1 }
  | .exit t => some (s.setThread t { s.thread t with tid := none })
  | .construct t => do
      assert ((s.thread t).loopInThisThread = none)
      let tid ← (s.thread t).tid
      let loop : LoopObject := { creator := t, threadId := tid, runner := none, alive := true }
      return { (s.setLoop s.loops loop).setThread t
          { s.thread t with loopInThisThread := some s.loops } with
        loops := s.loops + 1 }
  | .loop t l => do
      assert ((s.loop l).runner = none)
      -- `assertInLoopThread`
      assert (s.isInLoopThread t l = true)
      return s.setLoop l { s.loop l with runner := some t }
  | .loopReturns l => some (s.setLoop l { s.loop l with runner := none })
  | .destroy t l => do
      assert ((s.loop l).runner = none)
      return (s.setLoop l { s.loop l with alive := false }).setThread t
        { s.thread t with loopInThisThread := none }

end CurrentLoop

def currentLoopMachine : Machine CurrentLoop CurrentLoopAction where
  legal := CurrentLoop.Legal
  step := CurrentLoop.step

instance (s : CurrentLoop) (a : CurrentLoopAction) : Decidable (currentLoopMachine.legal s a) :=
  inferInstanceAs (Decidable (s.Legal a))

end SecondGear
