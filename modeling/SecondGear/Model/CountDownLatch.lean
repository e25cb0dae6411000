import Mathlib.Algebra.Group.Int.Defs
import Mathlib.Algebra.Group.Nat.Defs
import Mathlib.Logic.Function.Basic
import SecondGear.Lib.Assert
import SecondGear.Lib.Machine

/-!
# `SecondGear.Model.CountDownLatch`: the latch, and the thread that starts another one

`CountDownLatch` (`thread/CountDownLatch.cpp`) is a count under a mutex with a condition. The
sections under the mutex are the steps of `latchMachine`: `cond.wait()` releases the mutex and
parks in the step that found the count positive, and a thread that is woken takes the mutex and
tests again. `pthread_cond_wait` may also return by itself.

`Thread::start` (`thread/Thread.cpp`) waits on a latch of one until the new thread has stored
its id. `threadStartMachine` runs both threads over `latchMachine`. `none` is a failed `assert`.
-/

set_option autoImplicit false

namespace SecondGear

open SecondGear.Lib

/-- Where a thread is, inside `wait`. -/
inductive LatchPc where
  | outside
  /-- `while(count > 0)` comes next, with the mutex -/
  | test
  /-- in `cond.wait()` -/
  | parked
  /-- in `cond.wait()`, with a notification to come back to the test -/
  | notified
deriving DecidableEq, Repr

namespace LatchPc

/-- The test of the count is the next step. -/
def canTest : LatchPc → Bool
  | .test | .notified => true
  | .outside | .parked => false

/-- `notifyAll` as the thread sees it. -/
def notify : LatchPc → LatchPc
  | .parked => .notified
  | pc => pc

end LatchPc

/-- A latch and the threads that wait on it. -/
structure Latch where
  /-- an `int` -/
  count : Int
  threads : Nat → LatchPc
  /-- how many calls of `countDown` have decremented the count -/
  countDowns : Nat
  /-- for each return of `wait`: how many calls had decremented the count by then -/
  returns : List Nat

inductive LatchAction where
  /-- a thread calls `wait` -/
  | wait (t : Nat)
  /-- it takes the mutex and tests the count: it parks, or `wait` returns -/
  | test (t : Nat)
  /-- it comes back from `cond.wait()` without a notification -/
  | spurious (t : Nat)
  /-- some thread calls `countDown` -/
  | countDown
deriving DecidableEq, Repr

namespace Latch

/-- The constructor. -/
def new (count : Int) : Latch where
  count := count
  threads _ := .outside
  countDowns := 0
  returns := []

def setThread (s : Latch) (t : Nat) (pc : LatchPc) : Latch :=
  { s with threads := Function.update s.threads t pc }

/-- `countDown`, all of it under the mutex. -/
def countDown (s : Latch) : Latch :=
  let count := (s.count - 1).bmod (2 ^ 32)
  { s with
    count := count
    threads := if count = 0 then fun t => (s.threads t).notify else s.threads
    countDowns := s.countDowns + 1 }

/-- The threads go on where they are. `countDown` is called fewer than `2 ^ 31` times. -/
def Legal (s : Latch) : LatchAction → Prop
  | .wait t => s.threads t = .outside
  | .test t => (s.threads t).canTest = true
  | .spurious t => s.threads t = .parked
  | .countDown => s.countDowns + 1 < 2 ^ 31

instance (s : Latch) : (a : LatchAction) → Decidable (s.Legal a)
  | .wait _ | .test _ | .spurious _ => inferInstanceAs (Decidable (_ = _))
  | .countDown => inferInstanceAs (Decidable (_ < _))

def step (s : Latch) : LatchAction → Latch
  | .wait t => s.setThread t .test
  | .test t =>
      if s.count > 0 then s.setThread t .parked
      else { s.setThread t .outside with returns := s.returns ++ [s.countDowns] }
  | .spurious t => s.setThread t .test
  | .countDown => s.countDown

end Latch

def latchMachine : Machine Latch LatchAction where
  legal := Latch.Legal
  step s a := some (s.step a)

instance (s : Latch) (a : LatchAction) : Decidable (latchMachine.legal s a) :=
  inferInstanceAs (Decidable (s.Legal a))

/-! ### `Thread::start` -/

/-- Where the thread is that calls `start`. -/
inductive StarterPc where
  /-- outside of `start` -/
  | outside
  /-- `pthread_create` comes next -/
  | create
  /-- in `latch.wait()` -/
  | wait
  /-- `assert(tid > 0)` comes next -/
  | check
  /-- `start` has returned after a successful `pthread_create` -/
  | returned
deriving DecidableEq, Repr

/-- Where the new thread is, in `runInThread`. -/
inductive RunInThreadPc where
  /-- not created yet -/
  | absent
  /-- `*tid = CurrentThread::tid()` comes next -/
  | storeTid
  /-- `latch->countDown()` comes next -/
  | countDown
  /-- behind it: the name, and `func()` -/
  | run
deriving DecidableEq, Repr

/-- A `Thread` with the two threads that use it. -/
structure ThreadStart where
  started : Bool
  tid : Int
  latch : Latch
  starter : StarterPc
  runInThread : RunInThreadPc

inductive ThreadStartAction where
  /-- `start` is called, up to `pthread_create` -/
  | start
  /-- `pthread_create` returns -/
  | create (ok : Bool)
  /-- a step inside `latch.wait()` -/
  | latch (a : LatchAction)
  /-- `assert(tid > 0)`, and `start` returns -/
  | check
  /-- the new thread stores its id -/
  | storeTid (tid : Int)
  /-- it counts the latch down -/
  | countDown
deriving DecidableEq, Repr

namespace ThreadStart

/-- The thread number of the starter at the latch. -/
def starterThread : Nat := 0

/-- The constructor. -/
def new : ThreadStart where
  started := false
  tid := 0
  latch := Latch.new 1
  starter := .outside
  runInThread := .absent

/-- Both threads go on where they are, and a thread id is positive. -/
def Legal (s : ThreadStart) : ThreadStartAction → Prop
  | .start => s.starter = .outside ∨ s.starter = .returned
  | .create _ => s.starter = .create
  | .latch a => s.starter = .wait ∧ (a = .test starterThread ∨ a = .spurious starterThread) ∧
      s.latch.Legal a
  | .check => s.starter = .check
  | .storeTid tid => s.runInThread = .storeTid ∧ 0 < tid
  | .countDown => s.runInThread = .countDown

instance (s : ThreadStart) : (a : ThreadStartAction) → Decidable (s.Legal a)
  | .start => inferInstanceAs (Decidable (_ ∨ _))
  | .create _ | .check | .countDown => inferInstanceAs (Decidable (_ = _))
  | .latch _ | .storeTid _ => inferInstanceAs (Decidable (_ ∧ _))

def step (s : ThreadStart) : ThreadStartAction → Option ThreadStart
  | .start => do
      assert (s.started = false)
      return { s with started := true, starter := .create }
  | .create ok =>
      if ok then
        some { s with
          starter := .wait
          latch := s.latch.step (.wait starterThread)
          runInThread := .storeTid }
      else some { s with started := false, starter := .outside }
  | .latch a =>
      let latch := s.latch.step a
      -- Back outside of `wait`, the starter is at the assertion.
      some { s with
        latch := latch
        starter := if latch.threads starterThread = .outside then .check else .wait }
  | .check => do
      assert (s.tid > 0)
      return { s with starter := .returned }
  | .storeTid tid => some { s with tid := tid, runInThread := .countDown }
  | .countDown => some { s with latch := s.latch.countDown, runInThread := .run }

end ThreadStart

def threadStartMachine : Machine ThreadStart ThreadStartAction where
  legal := ThreadStart.Legal
  step := ThreadStart.step

instance (s : ThreadStart) (a : ThreadStartAction) : Decidable (threadStartMachine.legal s a) :=
  inferInstanceAs (Decidable (s.Legal a))

end SecondGear
