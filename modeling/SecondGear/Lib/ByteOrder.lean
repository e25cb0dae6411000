import Mathlib.Algebra.Group.Nat.Defs
import Mathlib.Data.List.Basic

/-!
# `SecondGear.Lib.ByteOrder`: numbers in memory

A number of `n` bytes lies in memory with its lowest byte first or with its highest byte
first. The network sends the highest byte first, so a machine of the other kind swaps the
bytes on the way out and on the way in.

* `load_store`, `store_load`: what was stored is loaded, and the other way round.
* `store_hton`: after the conversion the bytes in memory are those of the network, on every
  machine.
* `hton_hton`: the conversion out is the conversion in.
-/

set_option autoImplicit false

namespace SecondGear.Lib

/-- Which byte a machine stores first. -/
inductive ByteOrder where
  | little
  | big
deriving DecidableEq, Repr

/-- The bytes of a number, the lowest one first. -/
def littleBytes : Nat → Nat → List UInt8
  | 0, _ => []
  | n + 1, x => UInt8.ofNat x :: littleBytes n (x / 256)

/-- The number that the bytes make, the lowest one first. -/
def ofLittleBytes : List UInt8 → Nat
  | [] => 0
  | b :: bs => b.toNat + 256 * ofLittleBytes bs

namespace ByteOrder

/-- The bytes of a number in the memory of a machine. -/
def store (order : ByteOrder) (n x : Nat) : List UInt8 :=
  match order with
  | little => littleBytes n x
  | big => (littleBytes n x).reverse

/-- The number that a machine reads. -/
def load (order : ByteOrder) (bytes : List UInt8) : Nat :=
  match order with
  | little => ofLittleBytes bytes
  | big => ofLittleBytes bytes.reverse

/-- The bytes in the other order. -/
def swap (n x : Nat) : Nat := ofLittleBytes (littleBytes n x).reverse

/-- The conversion from the host to the network. -/
def hton (order : ByteOrder) (n x : Nat) : Nat :=
  match order with
  | little => swap n x
  | big => x

variable {order : ByteOrder} {n x : Nat}

@[simp] theorem length_littleBytes (n x : Nat) : (littleBytes n x).length = n := by
  induction n generalizing x with
  | zero => rfl
  | succ n ih => rw [littleBytes, List.length_cons, ih]

@[simp] theorem length_store (order : ByteOrder) (n x : Nat) : (order.store n x).length = n := by
  cases order with
  | little => exact length_littleBytes n x
  | big => rw [store, List.length_reverse, length_littleBytes]

theorem ofLittleBytes_lt (bytes : List UInt8) : ofLittleBytes bytes < 256 ^ bytes.length := by
  induction bytes with
  | nil => exact Nat.one_pos
  | cons b bs ih =>
      have hb := b.toNat_lt
      rw [ofLittleBytes, List.length_cons, Nat.pow_succ]
      omega

theorem ofLittleBytes_littleBytes (h : x < 256 ^ n) : ofLittleBytes (littleBytes n x) = x := by
  induction n generalizing x with
  | zero =>
      rw [Nat.pow_zero] at h
      rw [littleBytes, ofLittleBytes]
      omega
  | succ n ih =>
      rw [Nat.pow_succ] at h
      have hbyte : (UInt8.ofNat x).toNat = x % 256 := UInt8.toNat_ofNat'
      rw [littleBytes, ofLittleBytes, ih (by omega), hbyte]
      omega

theorem littleBytes_ofLittleBytes (bytes : List UInt8) :
    littleBytes bytes.length (ofLittleBytes bytes) = bytes := by
  induction bytes with
  | nil => rfl
  | cons b bs ih =>
      have hb := b.toNat_lt
      have hdiv : (b.toNat + 256 * ofLittleBytes bs) / 256 = ofLittleBytes bs := by omega
      have hbyte : UInt8.ofNat (b.toNat + 256 * ofLittleBytes bs) = b := by
        refine UInt8.toNat_inj.mp ?_
        rw [UInt8.toNat_ofNat']
        omega
      rw [List.length_cons, ofLittleBytes, littleBytes, hdiv, ih, hbyte]

/-- What a machine stored it loads. -/
theorem load_store (h : x < 256 ^ n) : order.load (order.store n x) = x := by
  cases order with
  | little => exact ofLittleBytes_littleBytes h
  | big =>
      rw [load, store, List.reverse_reverse]
      exact ofLittleBytes_littleBytes h

/-- What a machine loaded it stores. -/
theorem store_load {bytes : List UInt8} (h : bytes.length = n) :
    order.store n (order.load bytes) = bytes := by
  cases order with
  | little =>
      rw [load, store, ← h]
      exact littleBytes_ofLittleBytes bytes
  | big =>
      rw [load, store, ← h, ← List.length_reverse, littleBytes_ofLittleBytes,
        List.reverse_reverse]

theorem load_lt (bytes : List UInt8) : order.load bytes < 256 ^ bytes.length := by
  cases order with
  | little => exact ofLittleBytes_lt bytes
  | big =>
      rw [load, ← List.length_reverse]
      exact ofLittleBytes_lt bytes.reverse

theorem hton_lt (h : x < 256 ^ n) : order.hton n x < 256 ^ n := by
  cases order with
  | little =>
      have hlt := ofLittleBytes_lt (littleBytes n x).reverse
      rwa [List.length_reverse, length_littleBytes] at hlt
  | big => exact h

/-- The bytes of the network. -/
theorem store_hton (order : ByteOrder) (n x : Nat) :
    order.store n (order.hton n x) = big.store n x := by
  cases order with
  | little =>
      have hlen : (littleBytes n x).reverse.length = n := by simp
      show littleBytes n (ofLittleBytes _) = _
      exact (congrArg (littleBytes · _) hlen.symm).trans (littleBytes_ofLittleBytes _)
  | big => rfl

/-- The conversion twice is no conversion. -/
theorem hton_hton (h : x < 256 ^ n) : order.hton n (order.hton n x) = x := by
  cases order with
  | little =>
      have hbytes : littleBytes n (swap n x) = (littleBytes n x).reverse :=
        store_hton little n x
      rw [hton, hton, swap, hbytes, List.reverse_reverse]
      exact ofLittleBytes_littleBytes h
  | big => rfl

end ByteOrder

end SecondGear.Lib
