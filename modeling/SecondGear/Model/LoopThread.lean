import Mathlib.Logic.Function.Basic
import SecondGear.Lib.Assert
import SecondGear.Lib.Machine
import SecondGear.Model.TcpConnection

/-!
# `SecondGear.Model.LoopThread`: one loop and the threads around it

`loopThreadMachine` runs one `EventLoop` (`EventLoop.h`, `EventLoop.cpp`) between the steps of
all threads: the loop thread in `loop()`, any number of other threads in `queueInLoop` and
`quit`, and the owner of an `EventLoopThread` in `startLoop`. A push and the `wakeup` that
follows it are two steps, and so are `quit_ = true` and its `wakeup`. The functors are of any
type: what they do to the loop is in the steps that the loop thread takes while it is inside
one.

The counter of the eventfd is the one of the kernel: a write adds one, up to the largest
value, a read takes it all, and `poll` reports the channel exactly while it is positive.
`none` is a failed `assert`.
-/

set_option autoImplicit false

namespace SecondGear

open SecondGear.Lib

/-- Where the thread of the loop is. `F` is the type of the functors. -/
inductive LoopThreadPc (F : Type) where
  /-- in `threadFunc`, the loop is constructed next -/
  | construct
  /-- in `threadFunc`, `loop_ = &loop` comes next -/
  | publish
  /-- outside of `loop()` -/
  | outside
  /-- in `loop()`, `quit_ = false` comes next -/
  | reset
  /-- `while(!quit_)` -/
  | test
  /-- in `poll` -/
  | poll
  /-- in the handlers of one iteration, with the wakeup channel among those to come or not -/
  | dispatch (wakeup : Bool)
  /-- `callingPendingFunctors_ = true` comes next -/
  | doPendingFunctors
  /-- the locked swap comes next -/
  | swap
  /-- `i < static_cast<int>(functors.size())` -/
  | functors (functors : List F) (i : Nat)
  /-- inside `functors[i]()` -/
  | functor (functors : List F) (i : Nat)
  /-- `callingPendingFunctors_ = false` comes next -/
  | clear (functors : List F)
  /-- `threadFunc` has returned, the loop is gone -/
  | finished

namespace LoopThreadPc

variable {F : Type}

/-- The loop is constructed and not destroyed. -/
def hasLoop : LoopThreadPc F → Bool
  | .construct | .finished => false
  | _ => true

/-- Inside `loop()`. -/
def inLoop : LoopThreadPc F → Bool
  | .construct | .publish | .outside | .finished => false
  | _ => true

/-- Inside `loop()`, after `quit_ = false`. -/
def entered : LoopThreadPc F → Bool
  | .construct | .publish | .outside | .reset | .finished => false
  | _ => true

def isOutside : LoopThreadPc F → Bool
  | .outside => true
  | _ => false

/-- The locked swap comes next. -/
def atSwap : LoopThreadPc F → Bool
  | .swap => true
  | _ => false

/-- At or in `poll`. -/
def inPoll : LoopThreadPc F → Bool
  | .poll => true
  | _ => false

/-- `callingPendingFunctors_` is up. -/
def inPass : LoopThreadPc F → Bool
  | .swap | .functors _ _ | .functor _ _ | .clear _ => true
  | _ => false

/-- Inside a handler or a functor, which may call the loop. -/
def inCallback : LoopThreadPc F → Bool
  | .dispatch _ | .functor _ _ => true
  | _ => false

/-- There is a next step that is not a call of `loop()`. The handlers end after the one of
the wakeup channel. -/
def canAdvance : LoopThreadPc F → Bool
  | .outside | .finished => false
  | .dispatch wakeup => !wakeup
  | _ => true

/-- The wakeup channel is to be handled. -/
def canRead : LoopThreadPc F → Bool
  | .dispatch wakeup => wakeup
  | _ => false

end LoopThreadPc

/-- Where a thread is, inside `queueInLoop` or `quit`: the test that decides on `wakeup`
comes next. -/
inductive CallPc where
  | queueInLoop
  | quit
deriving DecidableEq, Repr

/-- A loop and its threads. -/
structure LoopThread (F : Type) where
  /-- `looping_` -/
  looping : Bool
  /-- `quit_` -/
  quit : Bool
  /-- `callingPendingFunctors_` -/
  callingPendingFunctors : Bool
  pendingFunctors : List F
  /-- the counter behind `wakeupFd_` -/
  eventfd : Nat
  pc : LoopThreadPc F
  /-- the thread that called `loop()` -/
  runner : ThreadId
  /-- the threads that are inside a call -/
  calls : ThreadId → Option CallPc
  /-- `EventLoopThread::threadFunc` runs the loop -/
  threadFunc : Bool
  /-- `EventLoopThread::loop_` is set -/
  published : Bool
  /-- the other threads have the pointer: `startLoop` has returned -/
  known : Bool
  /-- all functors pushed so far, in the order of the mutex -/
  pushed : List F
  /-- the functors executed so far, each with its thread -/
  executed : List (ThreadId × F)
  /-- how many were executed before the last swap -/
  executedAtSwap : Nat
  /-- each finished call of `doPendingFunctors`: what the swap took, what was executed -/
  passes : List (List F × List F)
  /-- the threads whose calls of `quit` have returned -/
  quits : List ThreadId

namespace LoopThread

variable {F : Type}

/-- A loop that its own thread has constructed. -/
def new : LoopThread F where
  looping := false
  quit := false
  callingPendingFunctors := false
  pendingFunctors := []
  eventfd := 0
  pc := .outside
  runner := .loop
  calls _ := none
  threadFunc := false
  published := true
  known := true
  pushed := []
  executed := []
  executedAtSwap := 0
  passes := []
  quits := []

/-- The thread of an `EventLoopThread` after `thread_.start()`. -/
def start : LoopThread F :=
  { new with pc := .construct, threadFunc := true, published := false, known := false }

/-- A loop that nobody has used. -/
def Unused (s : LoopThread F) : Prop := s = new ∨ s = start

/-- The largest value of an eventfd counter. -/
def maxEventfd : Nat := 2 ^ 64 - 2

/-- `wakeup`: at the largest value the write fails and leaves the counter. -/
def wakeup (s : LoopThread F) : LoopThread F :=
  { s with eventfd := min (s.eventfd + 1) maxEventfd }

def setPc (s : LoopThread F) (pc : LoopThreadPc F) : LoopThread F := { s with pc := pc }

/-- A thread enters a call, or returns from it. -/
def setCall (s : LoopThread F) (t : ThreadId) (pc : Option CallPc) : LoopThread F :=
  { s with calls := Function.update s.calls t pc }

/-- `static_cast<int>` of a size. -/
def toInt32 (n : Nat) : Int := (n : Int).bmod (2 ^ 32)

/-- The functor that the next step of the loop thread calls. -/
def next (s : LoopThread F) : Option F :=
  match s.pc with
  | .functors fs i => if (i : Int) < toInt32 fs.length then fs[i]? else none
  | _ => none

/-- The functor that the loop thread is in. -/
def running (s : LoopThread F) : Option F :=
  match s.pc with
  | .functor fs i => fs[i]?
  | _ => none

/-- The functors that exist: the vector of the pass, until its end, and the pending ones. -/
def held (s : LoopThread F) : List F :=
  match s.pc with
  | .functors fs _ | .functor fs _ | .clear fs => fs ++ s.pendingFunctors
  | _ => s.pendingFunctors

/-- The rest of `queueInLoop` after the push. -/
def finishQueueInLoop (s : LoopThread F) (t : ThreadId) : LoopThread F :=
  -- `!isInLoopThread() || callingPendingFunctors_`
  (if t ≠ .loop ∨ s.callingPendingFunctors then s.wakeup else s).setCall t none

/-- The rest of `quit` after `quit_ = true`. -/
def finishQuit (s : LoopThread F) (t : ThreadId) : LoopThread F :=
  { (if t ≠ .loop then s.wakeup else s).setCall t none with quits := s.quits ++ [t] }

/-- The next step of the thread of the loop, in `threadFunc`, `loop` and
`doPendingFunctors`. -/
def advance (s : LoopThread F) : LoopThread F :=
  match s.pc with
  | .construct => s.setPc .publish
  | .publish => { s.setPc .outside with published := true }
  | .outside => s
  | .reset => { s.setPc .test with quit := false }
  | .test =>
      if !s.quit then s.setPc .poll
      else { s.setPc (if s.threadFunc then .finished else .outside) with looping := false }
  | .poll => s.setPc (.dispatch (decide (0 < s.eventfd)))
  | .dispatch _ => s.setPc .doPendingFunctors
  | .doPendingFunctors => { s.setPc .swap with callingPendingFunctors := true }
  | .swap =>
      { s.setPc (.functors s.pendingFunctors 0) with
        pendingFunctors := []
        executedAtSwap := s.executed.length }
  | .functors fs i =>
      if (i : Int) < toInt32 fs.length then
        { s.setPc (.functor fs i) with
          executed := s.executed ++ fs[i]?.toList.map fun f => (s.runner, f) }
      else s.setPc (.clear fs)
  | .functor fs i => s.setPc (.functors fs (i + 1))
  | .clear fs =>
      { s.setPc .test with
        callingPendingFunctors := false
        passes := s.passes ++ [(fs, (s.executed.drop s.executedAtSwap).map Prod.snd)] }
  | .finished => s

end LoopThread

/-- A step of one of the threads. -/
inductive LoopThreadAction (F : Type) where
  /-- a thread calls `loop()` -/
  | loop (t : ThreadId)
  /-- the next step of the thread of the loop -/
  | advance
  /-- the wakeup channel is dispatched: `handleRead` reads the eventfd -/
  | handleRead
  /-- a thread calls `queueInLoop`, up to the end of the locked push -/
  | queueInLoop (t : ThreadId) (f : F)
  /-- a thread calls `quit`, up to `quit_ = true` -/
  | quit (t : ThreadId)
  /-- a thread goes on with its call and returns -/
  | finish (t : ThreadId)
  /-- `startLoop` returns the pointer to the owner -/
  | startLoop

namespace LoopThread

variable {F : Type}

/-- A thread can call the loop: the thread of the loop from its handlers and functors and, when
it is not the one of an `EventLoopThread`, outside of `loop()`; the others once they have the
pointer and while the loop exists. -/
def CanCall (s : LoopThread F) (t : ThreadId) : Prop :=
  s.calls t = none ∧
    if t = .loop then s.pc.inCallback = true ∨ (s.threadFunc = false ∧ s.pc.isOutside = true)
    else s.known = true ∧ s.pc.hasLoop = true

instance (s : LoopThread F) (t : ThreadId) : Decidable (s.CanCall t) := by
  unfold CanCall
  infer_instance

/-- The thread of the loop steps when it is not inside a call. `loop()` can be called by any
thread that has the loop. The owner has the pointer once it is published. -/
def Legal (s : LoopThread F) : LoopThreadAction F → Prop
  | .loop t => s.CanCall t ∨ (t = .loop ∧ s.pc.isOutside = true)
  | .advance => s.calls .loop = none ∧ s.pc.canAdvance = true
  | .handleRead => s.calls .loop = none ∧ s.pc.canRead = true
  | .queueInLoop t _ | .quit t => s.CanCall t
  | .finish t => s.calls t ≠ none
  | .startLoop => s.published = true

instance (s : LoopThread F) : (a : LoopThreadAction F) → Decidable (s.Legal a)
  | .loop _ => inferInstanceAs (Decidable (_ ∨ _))
  | .advance | .handleRead => inferInstanceAs (Decidable (_ ∧ _))
  | .queueInLoop t _ | .quit t => inferInstanceAs (Decidable (s.CanCall t))
  | .finish _ => inferInstanceAs (Decidable (_ ≠ _))
  | .startLoop => inferInstanceAs (Decidable (_ = _))

/-- The functor that a step calls. -/
def calledBy (s : LoopThread F) : LoopThreadAction F → Option F
  | .advance => s.next
  | _ => none

def step (s : LoopThread F) : LoopThreadAction F → Option (LoopThread F)
  | .loop t => do
      assert (s.looping = false)
      -- `assertInLoopThread`
      assert (t = .loop)
      return { s.setPc .reset with looping := true, runner := t }
  | .advance => some s.advance
  | .handleRead => some { s.setPc (.dispatch false) with eventfd := 0 }
  | .queueInLoop t f =>
      some { s.setCall t (some .queueInLoop) with
        pendingFunctors := s.pendingFunctors ++ [f]
        pushed := s.pushed ++ [f] }
  | .quit t => some { s.setCall t (some .quit) with quit := true }
  | .finish t =>
      match s.calls t with
      | none => some s
      | some .queueInLoop => some (s.finishQueueInLoop t)
      | some .quit => some (s.finishQuit t)
  | .startLoop => some { s with known := true }

end LoopThread

def loopThreadMachine (F : Type) : Machine (LoopThread F) (LoopThreadAction F) where
  legal := LoopThread.Legal
  step := LoopThread.step

instance {F : Type} (s : LoopThread F) (a : LoopThreadAction F) :
    Decidable ((loopThreadMachine F).legal s a) :=
  inferInstanceAs (Decidable (s.Legal a))

end SecondGear
