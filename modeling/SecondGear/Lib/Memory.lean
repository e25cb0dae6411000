import Mathlib.Data.List.Basic

/-!
# `SecondGear.Lib.Memory`: copies into a block of memory

A block of memory is a list. `store` writes a sequence of values from a position on, and
`copyWithin` copies one range of the block over another. Both write one cell after the
other, lowest first, as a forward copy loop does. The ranges of `copyWithin` may overlap.

`window mem i j` reads the cells from `i` up to `j`. The theorems say what a window reads
after a copy:

* `window_store`: the stored values, over their own range;
* `window_store_of_le` / `window_store_of_ge`: the old values, beside that range;
* `window_copyWithin`: the source values as they were before the copy, when the
  destination does not start after the source.
-/

set_option autoImplicit false

namespace SecondGear.Lib

variable {α : Type}

/-- Write `xs` into the block, one cell after the other from position `i`. -/
def store (mem : List α) (i : Nat) : List α → List α
  | [] => mem
  | x :: xs => store (mem.set i x) (i + 1) xs

/-- Copy `n` cells from position `src` to position `dst`, lowest cell first. -/
def copyWithin [Inhabited α] (mem : List α) (src dst : Nat) : Nat → List α
  | 0 => mem
  | n + 1 => copyWithin (mem.set dst (mem[src]?.getD default)) (src + 1) (dst + 1) n

/-- The cells from `i` up to, but not including, `j`. -/
def window (mem : List α) (i j : Nat) : List α := (mem.take j).drop i

/-! ### Windows -/

theorem getElem?_window (mem : List α) (i j k : Nat) :
    (window mem i j)[k]? = if i + k < j then mem[i + k]? else none := by
  rw [window, List.getElem?_drop, List.getElem?_take]

theorem length_window (mem : List α) (i j : Nat) (hj : j ≤ mem.length) :
    (window mem i j).length = j - i := by
  rw [window, List.length_drop, List.length_take, Nat.min_eq_left hj]

@[simp] theorem window_self (mem : List α) (i : Nat) : window mem i i = [] := by
  rw [window, List.drop_eq_nil_iff, List.length_take]
  exact Nat.min_le_left _ _

/-- Two adjacent windows. -/
theorem window_append (mem : List α) {i j k : Nat} (hij : i ≤ j) (hjk : j ≤ k)
    (hk : k ≤ mem.length) : window mem i j ++ window mem j k = window mem i k := by
  apply List.ext_getElem?
  intro m
  have hlen : (window mem i j).length = j - i := length_window mem i j (by omega)
  rw [List.getElem?_append, hlen, getElem?_window, getElem?_window, getElem?_window]
  split
  · rw [if_pos (by omega), if_pos (by omega)]
  · rw [show j + (m - (j - i)) = i + m from by omega]

/-- Dropping from a window moves its start. -/
theorem drop_window (mem : List α) (i j n : Nat) :
    (window mem i j).drop n = window mem (i + n) j := by
  rw [window, window, List.drop_drop]

/-- Cells appended to the block are outside every window that was inside. -/
theorem window_append_right (mem tail : List α) {i j : Nat} (hj : j ≤ mem.length) :
    window (mem ++ tail) i j = window mem i j := by
  rw [window, window, List.take_append_of_le_length hj]

/-- Two blocks that agree on a range have the same window there. -/
theorem window_congr {mem mem' : List α} {i j : Nat}
    (h : ∀ k, i ≤ k → k < j → mem[k]? = mem'[k]?) : window mem i j = window mem' i j := by
  apply List.ext_getElem?
  intro m
  rw [getElem?_window, getElem?_window]
  split
  · exact h _ (by omega) (by assumption)
  · rfl

/-! ### Storing -/

@[simp] theorem length_store (mem : List α) (i : Nat) (xs : List α) :
    (store mem i xs).length = mem.length := by
  induction xs generalizing mem i with
  | nil => rfl
  | cons x xs ih => rw [store, ih, List.length_set]

/-- What a cell holds after a store that fits: the stored value inside the range, the old
value outside. -/
theorem getElem?_store (mem : List α) (i : Nat) (xs : List α)
    (hfit : i + xs.length ≤ mem.length) (k : Nat) :
    (store mem i xs)[k]? = if i ≤ k ∧ k < i + xs.length then xs[k - i]? else mem[k]? := by
  induction xs generalizing mem i with
  | nil =>
      rw [store, if_neg]
      simp only [List.length_nil]
      omega
  | cons x xs ih =>
      rw [List.length_cons] at hfit ⊢
      rw [store, ih _ _ (by rw [List.length_set]; omega)]
      by_cases hk : k = i
      · subst hk
        rw [if_neg (by omega), if_pos (by omega), Nat.sub_self, List.getElem?_cons_zero,
          List.getElem?_set_self (by omega)]
      · by_cases hin : i + 1 ≤ k ∧ k < i + 1 + xs.length
        · rw [if_pos hin, if_pos (by omega), show k - i = k - (i + 1) + 1 from by omega,
            List.getElem?_cons_succ]
        · rw [if_neg hin, if_neg (by omega), List.getElem?_set_ne (Ne.symm hk)]

/-- A stored sequence reads back over its own range. -/
theorem window_store (mem : List α) (i : Nat) (xs : List α)
    (hfit : i + xs.length ≤ mem.length) :
    window (store mem i xs) i (i + xs.length) = xs := by
  apply List.ext_getElem?
  intro m
  rw [getElem?_window, getElem?_store mem i xs hfit]
  by_cases hm : m < xs.length
  · rw [if_pos (by omega), if_pos (by omega), Nat.add_sub_cancel_left]
  · rw [if_neg (by omega), List.getElem?_eq_none (by omega)]

/-- A store does not reach below its start. -/
theorem window_store_of_le (mem : List α) {i j : Nat} (xs : List α) (a : Nat)
    (hfit : i + xs.length ≤ mem.length) (hj : j ≤ i) :
    window (store mem i xs) a j = window mem a j := by
  apply window_congr
  intro k _ hk
  rw [getElem?_store mem i xs hfit, if_neg (by omega)]

/-- A store does not reach past its end. -/
theorem window_store_of_ge (mem : List α) {i a : Nat} (xs : List α) (j : Nat)
    (hfit : i + xs.length ≤ mem.length) (ha : i + xs.length ≤ a) :
    window (store mem i xs) a j = window mem a j := by
  apply window_congr
  intro k hk _
  rw [getElem?_store mem i xs hfit, if_neg (by omega)]

/-! ### Copying inside the block -/

variable [Inhabited α]

@[simp] theorem length_copyWithin (mem : List α) (src dst n : Nat) :
    (copyWithin mem src dst n).length = mem.length := by
  induction n generalizing mem src dst with
  | zero => rfl
  | succ n ih => rw [copyWithin, ih, List.length_set]

/-- What a cell holds after a forward copy. A destination at or below the source never
overwrites a source cell before the loop has read it. -/
theorem getElem?_copyWithin (mem : List α) {src dst : Nat} (n : Nat) (hle : dst ≤ src)
    (hfit : src + n ≤ mem.length) (k : Nat) :
    (copyWithin mem src dst n)[k]?
      = if dst ≤ k ∧ k < dst + n then mem[k - dst + src]? else mem[k]? := by
  induction n generalizing mem src dst with
  | zero => rw [copyWithin, if_neg (by omega)]
  | succ n ih =>
      rw [copyWithin, ih _ (by omega) (by rw [List.length_set]; omega)]
      by_cases hk : k = dst
      · subst hk
        rw [if_neg (by omega), if_pos (by omega), List.getElem?_set_self (by omega),
          Nat.sub_self, Nat.zero_add, List.getElem?_eq_getElem (by omega)]
        rfl
      · by_cases hin : dst + 1 ≤ k ∧ k < dst + 1 + n
        · rw [if_pos hin, if_pos (by omega),
            show k - (dst + 1) + (src + 1) = k - dst + src from by omega,
            List.getElem?_set_ne (by omega)]
        · rw [if_neg hin, if_neg (by omega), List.getElem?_set_ne (Ne.symm hk)]

/-- A forward copy moves the source window, as it was, to the destination. -/
theorem window_copyWithin (mem : List α) {src dst : Nat} (n : Nat) (hle : dst ≤ src)
    (hfit : src + n ≤ mem.length) :
    window (copyWithin mem src dst n) dst (dst + n) = window mem src (src + n) := by
  apply List.ext_getElem?
  intro m
  rw [getElem?_window, getElem?_window, getElem?_copyWithin mem n hle hfit]
  by_cases hm : m < n
  · rw [if_pos (by omega), if_pos (by omega), if_pos (by omega),
      show dst + m - dst + src = src + m from by omega]
  · rw [if_neg (by omega), if_neg (by omega)]

end SecondGear.Lib
