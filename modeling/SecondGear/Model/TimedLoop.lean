import SecondGear.Model.TimerQueue

/-!
# `SecondGear.Model.TimedLoop`: the timers of a loop, and the time it takes

`timerMachine` leaves open when the timerfd fires and when `handleRead` comes. Here the loop
thread (`EventLoop.cpp`) goes from `poll` to the handlers of the active channels and back, time
passes while it does, and the kernel makes the timerfd readable at the time that
`timerfd_settime` was given. `poll` returns for the timerfd, or for something else.

The clock is that of `Timestamp::now()`, and the timerfd runs at the same speed. Between the
clock that `howMuchTimeFromNow` reads and the setting some time is lost, at most `slack`.
`none` is a failed `assert`, as in `timerMachine`: a timer that expires exactly at the `now` of a
`handleRead`.
-/

set_option autoImplicit false

namespace SecondGear

open SecondGear.Lib

/-- When a timerfd fires that is set at a time. -/
def TimerFd.firesAt (clock : Timestamp) (value : Timespec) : Timestamp :=
  clock + value.tv_sec * kMicroSecondsPerSecond + value.tv_nsec / 1000

/-- Where the loop thread is. -/
inductive TimedLoopPc where
  /-- in `poll` -/
  | poll
  /-- anywhere else; `active` says that the timerfd is among `activeChannels_`, and that its
  `handleRead` is still to come -/
  | work (active : Bool)
  /-- in `handleRead`, which has read the clock -/
  | handleRead (now : Timestamp)
deriving DecidableEq, Repr

namespace TimedLoopPc

def isWork : TimedLoopPc → Bool
  | .work _ => true
  | .poll | .handleRead _ => false

/-- The clock that `handleRead` has read. -/
def now? : TimedLoopPc → Option Timestamp
  | .handleRead now => some now
  | .poll | .work _ => none

end TimedLoopPc

structure TimedLoop where
  timers : TimerRun
  /-- `Timestamp::now()` -/
  clock : Timestamp
  /-- when the kernel will make the timerfd readable -/
  deadline : Option Timestamp
  /-- when it last did -/
  readableSince : Timestamp
  pc : TimedLoopPc
  /-- when `poll` was last called, or returned -/
  since : Timestamp

inductive TimedLoopAction where
  /-- time passes -/
  | tick (d : Nat)
  /-- the timerfd becomes readable -/
  | expire
  | poll
  /-- `poll` returns -/
  | wake
  /-- `handleRead` reads the clock -/
  | now
  /-- it reads the timerfd and takes out what has expired -/
  | handleRead
  /-- a callback: `addTimerInLoop` of a new timer, with the time it takes to set the timerfd -/
  | addTimer (ptr : TimerPtr) (expiration : Timestamp) (repeats : Bool) (delta : Nat) (late : Nat)
  /-- `it->second->run()` -/
  | run
  /-- the end of `handleRead` -/
  | reset (late : Nat)
deriving DecidableEq, Repr

namespace TimedLoop

/-- The constructor. No thread is in `loop` yet, but timers may be added. -/
def new (heap : TimerPtr → Timer) (clock : Timestamp) : TimedLoop where
  timers := .new heap
  clock := clock
  deadline := none
  readableSince := clock
  pc := .work false
  since := clock

/-- The expiration that `resetTimerfd` is called with in a step of the queue, if it is called. -/
def resetsFor (s s' : TimerRun) : TimerAction → Option Timestamp
  | .addTimer _ expiration _ _ _ =>
      if s.queue.timers.begin?.all fun it => expiration < it.first then some expiration else none
  | .reset _ =>
      match s'.queue.timers.begin? with
      | none => none
      | some it =>
          let nextExpire := (s'.queue.timer it.second).expiration
          if nextExpire.valid then some nextExpire else none
  | .expire | .handleRead _ | .run => none

/-- What `resetTimerfd` does to the clock and the kernel. -/
def resetTimerfd (s : TimedLoop) (late : Nat) : Option Timestamp → TimedLoop
  | none => s
  | some expiration =>
      let clock := s.clock + late
      { s with
        clock
        deadline := some (TimerFd.firesAt clock (howMuchTimeFromNow expiration s.clock)) }

/-- A step of the queue. -/
def onTimers (s : TimedLoop) (a : TimerAction) (late : Nat) : Option TimedLoop := do
  let timers ← s.timers.step a
  return resetTimerfd { s with timers } late (resetsFor s.timers timers a)

/-- The kernel is on time, so no time passes behind a deadline. The clock does not overflow, and the
expiration of a new timer is an `int64_t`. -/
def Legal (slack : Nat) (s : TimedLoop) : TimedLoopAction → Prop
  | .tick d => s.clock + (d : Int) < 2 ^ 63 ∧ ∀ t ∈ s.deadline, s.clock + (d : Int) ≤ t
  | .expire => ∃ t ∈ s.deadline, t ≤ s.clock
  | .poll => s.pc = .work false ∧ s.timers.phase.isIdle
  | .wake => s.pc = .poll
  | .now => s.pc = .work true
  | .handleRead => s.pc.now?.isSome
  | .addTimer ptr expiration repeats delta late =>
      s.pc.isWork ∧ s.timers.Legal (.addTimer ptr expiration repeats delta s.clock) ∧
      -2 ^ 63 ≤ expiration ∧ expiration < 2 ^ 63 ∧
      late ≤ slack ∧ s.clock + (late : Int) < 2 ^ 63
  | .run => s.timers.Legal .run
  | .reset late =>
      s.timers.Legal (.reset s.clock) ∧ late ≤ slack ∧ s.clock + (late : Int) < 2 ^ 63

instance (slack : Nat) (s : TimedLoop) : (a : TimedLoopAction) → Decidable (s.Legal slack a)
  | .tick _ | .poll | .reset _ => inferInstanceAs (Decidable (_ ∧ _))
  | .addTimer _ _ _ _ _ => inferInstanceAs (Decidable (_ ∧ _))
  | .expire => inferInstanceAs (Decidable (∃ t ∈ s.deadline, t ≤ s.clock))
  | .wake | .now | .handleRead => inferInstanceAs (Decidable (_ = _))
  | .run => inferInstanceAs (Decidable (s.timers.Legal .run))

def step (s : TimedLoop) : TimedLoopAction → Option TimedLoop
  | .tick d => some { s with clock := s.clock + d }
  | .expire => do
      let timers ← s.timers.step .expire
      return { s with timers, deadline := none, readableSince := s.clock }
  | .poll => some { s with pc := .poll, since := s.clock }
  | .wake => some { s with pc := .work s.timers.queue.timerfd.readable, since := s.clock }
  | .now => some { s with pc := .handleRead s.clock }
  | .handleRead => do
      let now ← s.pc.now?
      let s ← s.onTimers (.handleRead now) 0
      return { s with pc := .work false }
  | .addTimer ptr expiration repeats delta late =>
      s.onTimers (.addTimer ptr expiration repeats delta s.clock) late
  | .run => s.onTimers .run 0
  | .reset late => s.onTimers (.reset s.clock) late

end TimedLoop

def timedLoopMachine (slack : Nat) : Machine TimedLoop TimedLoopAction where
  legal := TimedLoop.Legal slack
  step := TimedLoop.step

instance (slack : Nat) (s : TimedLoop) (a : TimedLoopAction) :
    Decidable ((timedLoopMachine slack).legal s a) :=
  inferInstanceAs (Decidable (s.Legal slack a))

end SecondGear
