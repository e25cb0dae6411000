import Mathlib.Data.Option.Basic

/-!
# `SecondGear.Lib.Assert`: code that can die

Code with `assert`s runs in `Option`: `none` is a failed assertion, which aborts the
process. `assert c` dies unless `c` holds. The lemmas take such code apart, one statement
at a time.
-/

set_option autoImplicit false

namespace SecondGear.Lib

variable {α β : Type}

/-- `assert(c)`: go on if `c` holds, abort otherwise. -/
def assert (c : Prop) [Decidable c] : Option Unit := if c then some () else none

@[simp] theorem assert_eq_some_iff (c : Prop) [Decidable c] (u : Unit) :
    assert c = some u ↔ c := by
  simp [assert]

/-- An assertion that holds does nothing. -/
theorem assert_pos {c : Prop} [Decidable c] (h : c) : assert c = some () := by
  simp [h]

/-- Code behind an assertion that holds. -/
theorem assert_bind_pos {c : Prop} [Decidable c] (h : c) (f : Unit → Option β) :
    (assert c >>= f) = f () := by
  rw [assert_pos h]
  rfl

/-- Code after an assertion returns exactly when the assertion holds and the rest
returns. -/
theorem assert_bind_eq_some_iff {c : Prop} [Decidable c] {f : Unit → Option β} {b : β} :
    (assert c >>= f) = some b ↔ c ∧ f () = some b := by
  by_cases h : c <;> simp [assert, h]

/-- Two statements in sequence. -/
theorem bind_eq_some_iff {x : Option α} {f : α → Option β} {b : β} :
    (x >>= f) = some b ↔ ∃ a, x = some a ∧ f a = some b :=
  Option.bind_eq_some_iff

end SecondGear.Lib
