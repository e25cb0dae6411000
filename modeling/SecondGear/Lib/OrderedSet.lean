import Mathlib.Data.List.Sort

/-!
# `SecondGear.Lib.OrderedSet`: a `std::set`

A set over a linear order as the list of its elements, in order. The order is a field of the
structure, so every value is a set. The operations are those of `std::set`: `insert` reports
whether it inserted, `begin?` is the least element, and a lower bound splits the set into
the part in front of it, `takeBelow`, and the part from it on, `eraseBelow`.

* `insert_snd`, `perm_insert`: insertion succeeds exactly for a new element, and adds it.
* `le_of_begin?`: `begin?` is a least element.
* `takeBelow_append_eraseBelow`, `mem_eraseBelow`: the split at a lower bound.
-/

set_option autoImplicit false

namespace SecondGear.Lib

variable {α : Type} [LinearOrder α]

/-- A set over a linear order. -/
structure OrderedSet (α : Type) [LinearOrder α] where
  /-- the elements, in order -/
  toList : List α
  sorted : toList.Pairwise (· < ·)

namespace OrderedSet

def empty : OrderedSet α where
  toList := []
  sorted := List.Pairwise.nil

/-- A new element at its place keeps the order. -/
private theorem pairwise_orderedInsert {l : List α} (h : l.Pairwise (· < ·)) {x : α}
    (hx : x ∉ l) : (l.orderedInsert (· ≤ ·) x).Pairwise (· < ·) := by
  have hle : (l.orderedInsert (· ≤ ·) x).Pairwise (· ≤ ·) :=
    (h.imp le_of_lt).orderedInsert x l
  have hne : (l.orderedInsert (· ≤ ·) x).Pairwise (· ≠ ·) :=
    (List.perm_orderedInsert (· ≤ ·) x l).nodup_iff.mpr (List.nodup_cons.mpr ⟨hx, h.imp ne_of_lt⟩)
  exact (hle.and hne).imp fun hboth => lt_of_le_of_ne hboth.1 hboth.2

/-- `insert`: the set with the element, and whether it is new. -/
def insert (s : OrderedSet α) (x : α) : OrderedSet α × Bool :=
  if hx : x ∈ s.toList then (s, false)
  else ({ toList := s.toList.orderedInsert (· ≤ ·) x
          sorted := pairwise_orderedInsert s.sorted hx }, true)

/-- `*begin()`, if there is one. -/
def begin? (s : OrderedSet α) : Option α := s.toList.head?

/-- The elements in front of `lower_bound(x)`. -/
def takeBelow (s : OrderedSet α) (x : α) : List α := s.toList.takeWhile (· < x)

/-- `erase(begin(), lower_bound(x))` -/
def eraseBelow (s : OrderedSet α) (x : α) : OrderedSet α where
  toList := s.toList.dropWhile (· < x)
  sorted := s.sorted.sublist (List.dropWhile_sublist _)

/-! ### Insertion -/

theorem insert_snd (s : OrderedSet α) (x : α) : (s.insert x).2 = true ↔ x ∉ s.toList := by
  by_cases hx : x ∈ s.toList <;> simp [insert, hx]

theorem perm_insert {s : OrderedSet α} {x : α} (hx : x ∉ s.toList) :
    (s.insert x).1.toList.Perm (x :: s.toList) := by
  rw [insert, dif_neg hx]
  exact List.perm_orderedInsert (· ≤ ·) x s.toList

/-! ### The least element -/

theorem begin?_eq_none {s : OrderedSet α} : s.begin? = none ↔ s.toList = [] :=
  List.head?_eq_none_iff

theorem mem_of_begin? {s : OrderedSet α} {b : α} (h : s.begin? = some b) : b ∈ s.toList :=
  List.mem_of_head? h

theorem le_of_begin? {s : OrderedSet α} {b x : α} (h : s.begin? = some b)
    (hx : x ∈ s.toList) : b ≤ x := by
  obtain ⟨l, hl⟩ : ∃ l, s.toList = b :: l := List.head?_eq_some_iff.mp h
  have hsorted := s.sorted
  rw [hl] at hx hsorted
  rcases List.mem_cons.mp hx with rfl | hx'
  · exact le_refl x
  · exact le_of_lt (List.rel_of_pairwise_cons hsorted hx')

/-! ### The split at a lower bound -/

theorem takeBelow_append_eraseBelow (s : OrderedSet α) (x : α) :
    s.takeBelow x ++ (s.eraseBelow x).toList = s.toList :=
  List.takeWhile_append_dropWhile

/-- In an ordered list the elements below `x` come first. -/
private theorem takeWhile_eq_filter {l : List α} (h : l.Pairwise (· < ·)) (x : α) :
    l.takeWhile (· < x) = l.filter (· < x) ∧
      l.dropWhile (· < x) = l.filter fun y => !decide (y < x) := by
  induction l with
  | nil => exact ⟨rfl, rfl⟩
  | cons y l ih =>
      have hl := ih (List.Pairwise.of_cons h)
      by_cases hy : y < x
      · simp [hy, hl.1, hl.2]
      · -- Everything after `y` is at least `x` too.
        have hrest : ∀ z ∈ l, ¬ z < x := fun z hz hzx =>
          hy ((List.rel_of_pairwise_cons h hz).trans hzx)
        have hnone : l.filter (· < x) = [] := by simpa using hrest
        have hall : (l.filter fun z => !decide (z < x)) = l := by simpa using hrest
        simp [hy, hnone, hall]

theorem takeBelow_eq_filter (s : OrderedSet α) (x : α) :
    s.takeBelow x = s.toList.filter (· < x) :=
  (takeWhile_eq_filter s.sorted x).1

theorem mem_eraseBelow {s : OrderedSet α} {x y : α} :
    y ∈ (s.eraseBelow x).toList ↔ y ∈ s.toList ∧ x ≤ y := by
  show y ∈ s.toList.dropWhile (· < x) ↔ _
  rw [(takeWhile_eq_filter s.sorted x).2]
  simp

end OrderedSet

end SecondGear.Lib
