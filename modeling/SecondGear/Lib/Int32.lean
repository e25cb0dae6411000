import Mathlib.Data.Int.Interval
import Mathlib.Data.Finset.Card

/-!
# `SecondGear.Lib.Int32`: sizes that are cast to an `int`

A loop that counts with an `int` compares its index with the size of a container, cast to
`int`. The cast keeps a size below `2 ^ 31`. It makes a larger size smaller, and never larger.

Containers that hold different `int`s in a range are no larger than the range.
-/

set_option autoImplicit false

namespace SecondGear.Lib

/-- The cast makes no size larger, so an index in front of the cast is in front of the size. -/
theorem bmod_natCast_le (n m : Nat) : (n : Int).bmod m ≤ n := by
  have hmod : ((n % m : Nat) : Int) ≤ n := Int.ofNat_le.mpr (Nat.mod_le n m)
  rw [Int.bmod_def, ← Int.natCast_emod]
  split <;> omega

/-- Below `2 ^ 31` the cast keeps the value. -/
theorem bmod_natCast_eq {n : Nat} (h : n < 2 ^ 31) : (n : Int).bmod (2 ^ 32) = n :=
  Int.bmod_eq_of_le (by omega) (by omega)

/-- There are `n` integers from zero on and below `n`, so a list of different ones among them
has at most `n` elements. -/
theorem length_le_of_nodup {l : List Int} {n : Nat} (hnodup : l.Nodup)
    (hrange : ∀ x ∈ l, 0 ≤ x ∧ x < n) : l.length ≤ n := by
  have hsub : l.toFinset ⊆ Finset.Ico 0 (n : Int) := by
    intro x hx
    rw [Finset.mem_Ico]
    exact hrange x (List.mem_toFinset.mp hx)
  have hcard := Finset.card_le_card hsub
  rw [List.toFinset_card_of_nodup hnodup, Int.card_Ico] at hcard
  omega

/-- A list shorter than the range leaves something of it out. -/
theorem exists_notMem_of_length_lt {l : List Int} {n : Nat} (h : l.length < n) :
    ∃ x : Int, 0 ≤ x ∧ x < n ∧ x ∉ l := by
  have hcard : l.toFinset.card < (Finset.Ico 0 (n : Int)).card := by
    have hle := l.toFinset_card_le
    rw [Int.card_Ico]
    omega
  obtain ⟨x, hx, hnot⟩ := Finset.exists_mem_notMem_of_card_lt_card hcard
  obtain ⟨hnonneg, hlt⟩ := Finset.mem_Ico.mp hx
  exact ⟨x, hnonneg, hlt, fun hmem => hnot (List.mem_toFinset.mpr hmem)⟩

end SecondGear.Lib
