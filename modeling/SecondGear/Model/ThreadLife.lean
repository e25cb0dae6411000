import SecondGear.Model.CountDownLatch

/-!
# `SecondGear.Model.ThreadLife`: a `Thread` from its constructor to its destructor

`Thread::start` (`thread/Thread.cpp`) puts a `ThreadData` on the heap, with a copy of the function
and pointers to the `tid` and the `latch` of the `Thread`. The new thread writes through these
pointers, calls the function and deletes the `ThreadData`. When `pthread_create` fails, `start`
deletes it. The user joins the thread or not, and destroys the `Thread`, which detaches a thread
that was not joined.

`threadLifeMachine` runs all of it over `threadStartMachine`. `none` is a failed `assert`, or a
use of memory that is not there: a second `delete` of a `ThreadData`, a write into a `Thread` that
is destroyed, a handle that was already given back.
-/

set_option autoImplicit false

namespace SecondGear

open SecondGear.Lib

/-- What has become of the handle of a thread. -/
inductive PthreadHandle where
  /-- no thread was created -/
  | none
  | joinable
  | joined
  | detached
deriving DecidableEq, Repr

/-- Where the new thread is, behind `latch->countDown()`. -/
inductive ThreadBodyPc where
  /-- not behind `func()` -/
  | func
  /-- `delete data` comes next -/
  | delete
  | exited
deriving DecidableEq, Repr

/-- A `Thread`, its thread and its user. -/
structure ThreadLife where
  /-- both threads in `start` and `runInThread` -/
  start : ThreadStart
  joined : Bool
  /-- the `Thread` is not destroyed -/
  alive : Bool
  /-- the user is inside `pthread_join` -/
  joining : Bool
  /-- all `ThreadData` so far: whether they are still on the heap -/
  data : List Bool
  /-- the `ThreadData` of the new thread -/
  given : Nat
  body : ThreadBodyPc
  handle : PthreadHandle
  /-- how often `func` was called -/
  calls : Nat

inductive ThreadLifeAction where
  /-- `start` is called, up to `pthread_create` -/
  | start
  /-- `pthread_create` returns -/
  | create (ok : Bool)
  /-- a step inside `latch.wait()` -/
  | latch (a : LatchAction)
  /-- `assert(tid > 0)`, and `start` returns -/
  | check
  /-- the new thread stores its id -/
  | storeTid (tid : Int)
  /-- it counts the latch down -/
  | countDown
  /-- it calls `func`, which returns -/
  | func
  /-- it deletes its `ThreadData`, and ends -/
  | deleteData
  /-- `join` is called, up to `pthread_join` -/
  | join
  /-- `pthread_join` returns -/
  | joinReturns
  /-- the destructor -/
  | destroy
deriving DecidableEq, Repr

namespace ThreadLife

/-- The constructor. -/
def new : ThreadLife where
  start := .new
  joined := false
  alive := true
  joining := false
  data := []
  given := 0
  body := .func
  handle := .none
  calls := 0

/-- `delete` of one of the `ThreadData`. -/
def free (data : List Bool) (i : Nat) : Option (List Bool) := do
  assert (data[i]? = some true)
  return data.set i false

/-- The user has the `Thread` and is in none of its methods. -/
def Idle (s : ThreadLife) : Prop :=
  s.alive = true ∧ s.joining = false ∧ (s.start.starter = .outside ∨ s.start.starter = .returned)

instance (s : ThreadLife) : Decidable s.Idle := inferInstanceAs (Decidable (_ ∧ _ ∧ _))

/-- Both threads go on where they are. `pthread_join` returns when the new thread has ended. -/
def Legal (s : ThreadLife) : ThreadLifeAction → Prop
  | .start => s.Idle
  | .create ok => s.start.Legal (.create ok)
  | .latch a => s.start.Legal (.latch a)
  | .check => s.start.Legal .check
  | .storeTid tid => s.start.Legal (.storeTid tid)
  | .countDown => s.start.Legal .countDown
  | .func => s.start.runInThread = .run ∧ s.body = .func
  | .deleteData => s.body = .delete
  | .join => s.Idle
  | .joinReturns => s.joining = true ∧ s.body = .exited
  | .destroy => s.Idle

instance (s : ThreadLife) : (a : ThreadLifeAction) → Decidable (s.Legal a)
  | .start | .join | .destroy => inferInstanceAs (Decidable s.Idle)
  | .create ok => inferInstanceAs (Decidable (s.start.Legal (.create ok)))
  | .latch a => inferInstanceAs (Decidable (s.start.Legal (.latch a)))
  | .check => inferInstanceAs (Decidable (s.start.Legal .check))
  | .storeTid tid => inferInstanceAs (Decidable (s.start.Legal (.storeTid tid)))
  | .countDown => inferInstanceAs (Decidable (s.start.Legal .countDown))
  | .func | .joinReturns => inferInstanceAs (Decidable (_ ∧ _))
  | .deleteData => inferInstanceAs (Decidable (_ = _))

/-- What the assertions ask of the user: `start` on a `Thread` that is not started, `join` once on
one that is. -/
def Proper (s : ThreadLife) : ThreadLifeAction → Prop
  | .start => s.start.started = false
  | .join => s.start.started = true ∧ s.joined = false
  | .create _ | .latch _ | .check | .storeTid _ | .countDown | .func | .deleteData | .joinReturns
  | .destroy => True

instance (s : ThreadLife) : (a : ThreadLifeAction) → Decidable (s.Proper a)
  | .start => inferInstanceAs (Decidable (_ = _))
  | .join => inferInstanceAs (Decidable (_ ∧ _))
  | .create _ | .latch _ | .check | .storeTid _ | .countDown | .func | .deleteData | .joinReturns
  | .destroy => isTrue trivial

/-- A step of `start` or `runInThread`. -/
def onStart (s : ThreadLife) (a : ThreadStartAction) : Option ThreadLife := do
  let start ← s.start.step a
  return { s with start }

def step (s : ThreadLife) : ThreadLifeAction → Option ThreadLife
  | .start => do
      let s ← s.onStart .start
      -- `new ThreadData`
      return { s with data := s.data ++ [true] }
  | .create ok => do
      let s ← s.onStart (.create ok)
      if ok then return { s with given := s.data.length - 1, handle := .joinable }
      else
        let data ← free s.data (s.data.length - 1)
        return { s with data }
  | .latch a => s.onStart (.latch a)
  | .check => s.onStart .check
  | .storeTid tid => do
      -- `tid` points into the `Thread`, and so does `latch`.
      assert (s.alive = true)
      s.onStart (.storeTid tid)
  | .countDown => do
      assert (s.alive = true)
      s.onStart .countDown
  | .func => some { s with body := .delete, calls := s.calls + 1 }
  | .deleteData => do
      let data ← free s.data s.given
      return { s with data, body := .exited }
  | .join => do
      assert (s.start.started = true)
      assert (s.joined = false)
      return { s with joined := true, joining := true }
  | .joinReturns => do
      assert (s.handle = .joinable)
      return { s with joining := false, handle := .joined }
  | .destroy =>
      if s.start.started = true ∧ s.joined = false then do
        assert (s.handle = .joinable)
        return { s with alive := false, handle := .detached }
      else some { s with alive := false }

end ThreadLife

def threadLifeMachine : Machine ThreadLife ThreadLifeAction where
  legal := ThreadLife.Legal
  step := ThreadLife.step

instance (s : ThreadLife) (a : ThreadLifeAction) : Decidable (threadLifeMachine.legal s a) :=
  inferInstanceAs (Decidable (s.Legal a))

end SecondGear
