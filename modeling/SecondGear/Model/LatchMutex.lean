import SecondGear.Lib.Monitor
import SecondGear.Model.CountDownLatch

/-!
# `SecondGear.Model.LatchMutex`: the latch, one statement at a time

`latchMachine` takes what `CountDownLatch` does under its mutex as one step. Here `wait` and
`countDown` (`thread/CountDownLatch.cpp`) lock, test, park, decrement, notify and unlock as steps
of their own, for any number of threads.
-/

set_option autoImplicit false

namespace SecondGear

open SecondGear.Lib

/-- `wait` and `countDown`. -/
def latchCode : MonitorCode Int Unit where
  blocked count := decide (count > 0)
  -- `--count` of an `int`
  store _ count := (count - 1).bmod (2 ^ 32)
  notifies count := decide (count = 0)
  all := true

/-- The count is decremented fewer than `2 ^ 31` times. -/
def FewCountDowns (s : Monitor Nat Int Unit) : MonitorAction Nat Unit → Prop
  | .next t _ => s.threads t = .store () → s.stores.length + 1 < 2 ^ 31
  | .await _ | .update _ _ | .spurious _ => True

instance (s : Monitor Nat Int Unit) : (a : MonitorAction Nat Unit) → Decidable (FewCountDowns s a)
  | .next _ _ => inferInstanceAs (Decidable (_ → _))
  | .await _ | .update _ _ | .spurious _ => isTrue trivial

/-- Threads that use the latch. -/
def latchMutexMachine : Machine (Monitor Nat Int Unit) (MonitorAction Nat Unit) :=
  (monitorMachine latchCode).restrict FewCountDowns

instance (s : Monitor Nat Int Unit) (a : MonitorAction Nat Unit) :
    Decidable (latchMutexMachine.legal s a) :=
  inferInstanceAs (Decidable (_ ∧ _))

end SecondGear
