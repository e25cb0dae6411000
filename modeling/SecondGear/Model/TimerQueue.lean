import Mathlib.Algebra.Group.Int.Defs
import Mathlib.Algebra.Group.Nat.Defs
import Mathlib.Data.Prod.Lex
import SecondGear.Lib.Assert
import SecondGear.Lib.Machine
import SecondGear.Lib.OrderedSet

/-!
# `SecondGear.Model.TimerQueue`: timers, and the descriptor that wakes the loop for them

`TimerQueue` (`TimerQueue.h`, `TimerQueue.cpp`) keeps its timers in a set of pairs of an
expiration and a pointer, and one timerfd armed for the first of them. The timers are
objects on the heap, and `restart` changes the expiration of one, so the heap is part of
the state. `none` is a failed `assert`.

`handleRead` calls user code between the expired timers, and that code may add timers.
`timerMachine` therefore runs it in steps: its start, one step for each expired timer, its
end. Additions may come at any point between them.

Times are whole microseconds. The sum of `restart` and the difference of `howMuchTimeFromNow` are
in 64 bits.
-/

set_option autoImplicit false

namespace SecondGear

open SecondGear.Lib

/-- `microSecondsSinceEpoch_` -/
abbrev Timestamp := Int

def kMicroSecondsPerSecond : Int := 1000 * 1000

/-- `Timestamp::valid` -/
def Timestamp.valid (t : Timestamp) : Bool := t > 0

/-- A `shared_ptr<Timer>`: an address, `0` for the null pointer. -/
abbrev TimerPtr := Nat

/-- A timer. `delta` is `interval_` in the whole microseconds that `addTime` adds. -/
structure Timer where
  expiration : Timestamp
  delta : Nat
  repeats : Bool
  /-- which timer this is, whatever its address: how many were made before it -/
  serial : Nat
deriving DecidableEq, Repr

namespace Timer

/-- `restart`, with the `int64_t` sum of `addTime`. -/
def restart (timer : Timer) (now : Timestamp) : Timer :=
  if timer.repeats then { timer with expiration := (now + timer.delta).bmod (2 ^ 64) }
  else { timer with expiration := 0 }

end Timer

/-! ### The timerfd -/

structure Timespec where
  tv_sec : Int
  tv_nsec : Int
deriving DecidableEq, Repr

/-- `howMuchTimeFromNow`, with the clock it reads. -/
def howMuchTimeFromNow (when clock : Timestamp) : Timespec :=
  let microseconds := (when - clock).bmod (2 ^ 64)
  let microseconds := if microseconds < 100 then 100 else microseconds
  { tv_sec := microseconds.tdiv kMicroSecondsPerSecond
    tv_nsec := microseconds.tmod kMicroSecondsPerSecond * 1000 }

/-- The kernel side of the timerfd. -/
structure TimerFd where
  /-- the expiration that the last setting was made for, until it fires -/
  armed : Option Timestamp
  readable : Bool
deriving DecidableEq, Repr

namespace TimerFd

/-- `timerfd_settime` replaces the setting and clears what was not read. A zero time
disarms. -/
def settime (value : Timespec) (expiration : Timestamp) : TimerFd where
  armed := if value.tv_sec = 0 ∧ value.tv_nsec = 0 then none else some expiration
  readable := false

def resetTimerfd (expiration clock : Timestamp) : TimerFd :=
  settime (howMuchTimeFromNow expiration clock) expiration

/-- `readTimerfd`: the read clears readability. -/
def readTimerfd (fd : TimerFd) : TimerFd := { fd with readable := false }

end TimerFd

/-! ### The queue -/

/-- An `Entry`, ordered by time and then by pointer. -/
abbrev TimerEntry := Timestamp ×ₗ TimerPtr

def TimerEntry.first (e : TimerEntry) : Timestamp := (ofLex e).1

def TimerEntry.second (e : TimerEntry) : TimerPtr := (ofLex e).2

/-- The queue, with the heap of timers beside it. -/
structure TimerQueue where
  timer : TimerPtr → Timer
  /-- `timers_` -/
  timers : OrderedSet TimerEntry
  timerfd : TimerFd

namespace TimerQueue

/-- Write one timer of the heap. -/
def setTimer (q : TimerQueue) (ptr : TimerPtr) (timer : Timer) : TimerQueue :=
  { q with timer := Function.update q.timer ptr timer }

def insert (q : TimerQueue) (timer : TimerPtr) : Option (TimerQueue × Bool) := do
  let when := (q.timer timer).expiration
  -- `it == end()` or `when < it->first`
  let earliestChanged := q.timers.begin?.all fun it => when < it.first
  let (timers, inserted) := q.timers.insert (toLex (when, timer))
  assert inserted
  return ({ q with timers }, earliestChanged)

/-- `addTimerInLoop`, with the clock that `resetTimerfd` reads. -/
def addTimerInLoop (q : TimerQueue) (timer : TimerPtr) (clock : Timestamp) :
    Option TimerQueue := do
  let (q, earliestChanged) ← q.insert timer
  if earliestChanged then
    return { q with timerfd := .resetTimerfd (q.timer timer).expiration clock }
  else
    return q

def getExpired (q : TimerQueue) (now : Timestamp) : Option (List TimerEntry × TimerQueue) := do
  let sentry : TimerEntry := toLex (now, 0)
  let timers := q.timers.eraseBelow sentry
  assert (∀ it ∈ timers.begin?, now < it.first)
  let expired := q.timers.takeBelow sentry
  return (expired, { q with timers })

/-- The loop of `reset`: the repeating timers are restarted and inserted. -/
def restartAll (q : TimerQueue) (now : Timestamp) : List TimerEntry → Option TimerQueue
  | [] => some q
  | it :: expired =>
      if (q.timer it.second).repeats then do
        let q := q.setTimer it.second ((q.timer it.second).restart now)
        let (q, _) ← q.insert it.second
        q.restartAll now expired
      else q.restartAll now expired

/-- `reset`, with the clock that `resetTimerfd` reads. -/
def reset (q : TimerQueue) (expired : List TimerEntry) (now clock : Timestamp) :
    Option TimerQueue := do
  let q ← q.restartAll now expired
  let nextExpire : Timestamp :=
    match q.timers.begin? with
    | none => 0
    | some it => (q.timer it.second).expiration
  if nextExpire.valid then
    return { q with timerfd := .resetTimerfd nextExpire clock }
  else
    return q

end TimerQueue

/-! ### The queue in use -/

/-- Where the loop thread is in `handleRead`. -/
inductive TimerPhase where
  | idle
  /-- the vector `expired`, taken out at `now`: in front of the iterator and from it on -/
  | running (done rest : List TimerEntry) (now : Timestamp)

namespace TimerPhase

/-- Outside `handleRead`. -/
def isIdle : TimerPhase → Bool
  | .idle => true
  | .running _ _ _ => false

/-- An expired timer is still to run. -/
def hasNext : TimerPhase → Bool
  | .running _ (_ :: _) _ => true
  | _ => false

/-- All expired timers ran. -/
def allRan : TimerPhase → Bool
  | .running _ [] _ => true
  | _ => false

/-- The expired timers that ran. -/
def done : TimerPhase → List TimerEntry
  | .idle => []
  | .running done _ _ => done

/-- The expired timers that are still to run. -/
def rest : TimerPhase → List TimerEntry
  | .idle => []
  | .running _ rest _ => rest

/-- The vector `expired`. -/
def expired (phase : TimerPhase) : List TimerEntry := phase.done ++ phase.rest

end TimerPhase

/-- A callback that ran: the timer, and the `now` of its `handleRead`. -/
structure TimerCall where
  serial : Nat
  now : Timestamp
deriving DecidableEq, Repr

/-- The queue with its history. -/
structure TimerRun where
  queue : TimerQueue
  phase : TimerPhase
  /-- the timers as they were added -/
  added : List Timer
  /-- the callbacks that ran -/
  calls : List TimerCall

inductive TimerAction where
  /-- `addTimerInLoop` of a new timer at an address -/
  | addTimer (ptr : TimerPtr) (expiration : Timestamp) (repeats : Bool) (delta : Nat)
      (clock : Timestamp)
  /-- the timerfd becomes readable -/
  | expire
  /-- `handleRead`, up to the first callback -/
  | handleRead (now : Timestamp)
  /-- `it->second->run()` -/
  | run
  /-- the end of `handleRead` -/
  | reset (clock : Timestamp)
deriving DecidableEq, Repr

namespace TimerRun

def new (heap : TimerPtr → Timer) : TimerRun where
  queue := { timer := heap, timers := .empty, timerfd := { armed := none, readable := false } }
  phase := .idle
  added := []
  calls := []

/-- The allocator hands out an address that no timer in use has, the timerfd fires only
when it is armed, and the clock is after the epoch. -/
def Legal (s : TimerRun) : TimerAction → Prop
  | .addTimer ptr _ _ _ _ =>
      ptr ≠ 0 ∧ ∀ e ∈ s.queue.timers.toList ++ s.phase.expired, e.second ≠ ptr
  | .expire => s.queue.timerfd.armed ≠ none
  | .handleRead now => 0 < now ∧ s.phase.isIdle
  | .run => s.phase.hasNext
  | .reset _ => s.phase.allRan

instance (s : TimerRun) : (a : TimerAction) → Decidable (s.Legal a)
  | .addTimer ptr _ _ _ _ => inferInstanceAs (Decidable
      (ptr ≠ 0 ∧ ∀ e ∈ s.queue.timers.toList ++ s.phase.expired, e.second ≠ ptr))
  | .expire => inferInstanceAs (Decidable (s.queue.timerfd.armed ≠ none))
  | .handleRead now => inferInstanceAs (Decidable (0 < now ∧ s.phase.isIdle))
  | .run => inferInstanceAs (Decidable (s.phase.hasNext = true))
  | .reset _ => inferInstanceAs (Decidable (s.phase.allRan = true))

def step (s : TimerRun) : TimerAction → Option TimerRun
  | .addTimer ptr expiration repeats delta clock =>
      let timer : Timer := { expiration, delta, repeats, serial := s.added.length }
      ((s.queue.setTimer ptr timer).addTimerInLoop ptr clock).map fun q =>
        { s with queue := q, added := s.added ++ [timer] }
  | .expire => some { s with queue.timerfd := { armed := none, readable := true } }
  | .handleRead now =>
      ({ s.queue with timerfd := s.queue.timerfd.readTimerfd }.getExpired now).map
        fun (expired, q) => { s with queue := q, phase := .running [] expired now }
  | .run =>
      match s.phase with
      | .running done (it :: rest) now =>
          some { s with
            phase := .running (done ++ [it]) rest now
            calls := s.calls ++ [{ serial := (s.queue.timer it.second).serial, now }] }
      | _ => none
  | .reset clock =>
      match s.phase with
      | .running expired [] now =>
          (s.queue.reset expired now clock).map fun q => { s with queue := q, phase := .idle }
      | _ => none

end TimerRun

def timerMachine : Machine TimerRun TimerAction where
  legal := TimerRun.Legal
  step := TimerRun.step

instance (s : TimerRun) (a : TimerAction) : Decidable (timerMachine.legal s a) :=
  inferInstanceAs (Decidable (s.Legal a))

end SecondGear
