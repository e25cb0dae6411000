import Mathlib.Data.List.Basic

/-!
# `SecondGear.Lib.SwapRemove`: removal from a dense list

A dense list gives up one element by swapping it with the last one and dropping the last.
`getElem?_swapRemove` says what each position holds afterwards: the last element at the
freed position, everything else where it was.
-/

set_option autoImplicit false

namespace SecondGear.Lib

variable {α : Type}

/-- `iter_swap(begin + i, begin + j)`. -/
def iterSwap (l : List α) (i j : Nat) : List α :=
  match l[i]?, l[j]? with
  | some a, some b => (l.set i b).set j a
  | _, _ => l

@[simp] theorem length_iterSwap (l : List α) (i j : Nat) :
    (iterSwap l i j).length = l.length := by
  unfold iterSwap
  split
  · rw [List.length_set, List.length_set]
  · rfl

/-- Swap position `i` with the last position and drop the last. -/
def swapRemove (l : List α) (i : Nat) : List α :=
  (iterSwap l i (l.length - 1)).dropLast

@[simp] theorem length_swapRemove (l : List α) (i : Nat) :
    (swapRemove l i).length = l.length - 1 := by
  rw [swapRemove, List.length_dropLast, length_iterSwap]

/-- The positions after a removal that is not at the end. -/
theorem getElem?_swapRemove (l : List α) {i : Nat} (hi : i < l.length - 1) (k : Nat) :
    (swapRemove l i)[k]?
      = if k < l.length - 1 then (if k = i then l[l.length - 1]? else l[k]?) else none := by
  have hlast : l.length - 1 < l.length := by omega
  rw [swapRemove, List.getElem?_dropLast, length_iterSwap]
  split
  · rename_i hk
    rw [iterSwap, List.getElem?_eq_getElem hlast,
      List.getElem?_eq_getElem (show i < l.length by omega)]
    show ((l.set i l[l.length - 1]).set (l.length - 1) l[i])[k]? = _
    rw [List.getElem?_set_ne (show l.length - 1 ≠ k by omega)]
    by_cases hki : k = i
    · subst hki
      rw [if_pos rfl, List.getElem?_set_self (by omega)]
    · rw [if_neg hki, List.getElem?_set_ne (Ne.symm hki)]
  · rfl

end SecondGear.Lib
