import Mathlib.Algebra.Group.Nat.Defs
import SecondGear.Model.Buffer

/-!
# `SecondGear.Model.WrappingBuffer`: the buffer in `size_t`

The methods of `Buffer.h` and `Buffer.cpp` once more, as a 64-bit build computes them: every
sum and difference of lengths is taken modulo `2 ^ 64`, and a vector that cannot be had throws.
`SecondGear.Model.Buffer` is the same code without these two.

A call that does not die ends in one of two ways, both with a buffer: it returns, or it throws
and leaves behind what it had done so far. `none` is a failed `assert`, or a copy that leaves
the vector. `memory` says whether the allocator can serve the request of a call.
-/

set_option autoImplicit false

namespace SecondGear

open SecondGear.Lib

namespace Wrapping

open Buffer (kCheapPrepend)

/-- The sum of two `size_t`. -/
def add (m n : Nat) : Nat := (m + n) % 2 ^ 64

/-- The difference of two `size_t`. -/
def sub (m n : Nat) : Nat := (m + 2 ^ 64 - n) % 2 ^ 64

/-- `max_size()` of a vector of `char`. -/
def maxSize : Nat := 2 ^ 63 - 1

/-- How a call ends that does not die, with the buffer it leaves. -/
inductive Ending where
  | returned (b : Buffer)
  | threw (b : Buffer)
deriving DecidableEq, Repr

namespace Ending

def buffer : Ending → Buffer
  | .returned b => b
  | .threw b => b

/-- The rest of a call. An exception skips it. -/
def andThen (ending : Ending) (rest : Buffer → Option Ending) : Option Ending :=
  match ending with
  | .returned b => rest b
  | .threw b => some (.threw b)

end Ending

/-- A vector of `n` bytes can be had. -/
def Available (n : Nat) (memory : Bool) : Prop := n ≤ maxSize ∧ memory = true

instance (n : Nat) (memory : Bool) : Decidable (Available n memory) :=
  inferInstanceAs (Decidable (_ ∧ _))

/-- `buffer_.resize(n)`: only a longer vector can fail. -/
def vectorResize (b : Buffer) (n : Nat) (memory : Bool) : Ending :=
  if b.buffer.length < n ∧ ¬ Available n memory then .threw b
  else .returned { b with buffer := resize b.buffer n }

/-- `std::copy` into the vector. -/
def copyInto (v : List Byte) (i : Nat) (data : List Byte) : Option (List Byte) := do
  assert (i + data.length ≤ v.length)
  return store v i data

def readableBytes (b : Buffer) : Nat := sub b.writerIndex b.readerIndex

def writableBytes (b : Buffer) : Nat := sub b.buffer.length b.writerIndex

def prependableBytes (b : Buffer) : Nat := b.readerIndex

def retrieve (b : Buffer) (len : Nat) : Option Buffer := do
  assert (len ≤ readableBytes b)
  return { b with readerIndex := add b.readerIndex len }

/-- `retrieveUntil(end)`, with `end` as an index into the vector. -/
def retrieveUntil (b : Buffer) (endIndex : Nat) : Option Buffer := do
  assert (b.readerIndex ≤ endIndex)
  assert (endIndex ≤ b.writerIndex)
  retrieve b (endIndex - b.readerIndex)

def makeSpace (b : Buffer) (len : Nat) (memory : Bool) : Option Ending :=
  if add (writableBytes b) (prependableBytes b) < add len kCheapPrepend then
    some (vectorResize b (add b.writerIndex len) memory)
  else do
    -- move readable data to the front, make space inside buffer
    assert (kCheapPrepend < b.readerIndex)
    let readable := readableBytes b
    let b' : Buffer :=
      { buffer := copyWithin b.buffer b.readerIndex kCheapPrepend
          (b.writerIndex - b.readerIndex)
        readerIndex := kCheapPrepend
        writerIndex := add kCheapPrepend readable }
    assert (readable = readableBytes b')
    return .returned b'

def ensureWritableBytes (b : Buffer) (len : Nat) (memory : Bool) : Option Ending := do
  let ending ←
    if writableBytes b < len then makeSpace b len memory else some (.returned b)
  ending.andThen fun b => do
    assert (len ≤ writableBytes b)
    return .returned b

def hasWritten (b : Buffer) (len : Nat) : Buffer :=
  { b with writerIndex := add b.writerIndex len }

/-- The bytes `data` copied to `beginWrite()`. -/
def copyToBeginWrite (b : Buffer) (data : List Byte) : Option Buffer := do
  let buffer ← copyInto b.buffer b.writerIndex data
  return { b with buffer }

def append (b : Buffer) (data : List Byte) (memory : Bool) : Option Ending := do
  let ending ← ensureWritableBytes b data.length memory
  ending.andThen fun b => do
    let b ← copyToBeginWrite b data
    return .returned (hasWritten b data.length)

def prepend (b : Buffer) (data : List Byte) : Option Buffer := do
  assert (data.length ≤ prependableBytes b)
  let readerIndex := sub b.readerIndex data.length
  let buffer ← copyInto b.buffer readerIndex data
  return { b with readerIndex, buffer }

/-- `shrink`: the old vector is only given up when the new one holds the readable bytes. -/
def shrink (b : Buffer) (reserve : Nat) (memory : Bool) : Option Ending :=
  let size := add (add kCheapPrepend (readableBytes b)) reserve
  if Available size memory then do
    assert (b.readerIndex + readableBytes b ≤ b.buffer.length)
    let readable := window b.buffer b.readerIndex (b.readerIndex + readableBytes b)
    let buf ← copyInto (List.replicate size 0) kCheapPrepend readable
    return .returned { b with buffer := buf }
  else
    some (.threw b)

/-- `readFd`, for one result of `readv` over the writable bytes and `extrabuf`. -/
def readFd (b : Buffer) (memory : Bool) : ReadvResult → Option Ending
  | .error _ => some (.returned b)
  | .bytes bs => do
      let writable := writableBytes b
      let b ← copyToBeginWrite b (bs.take writable)
      let extrabuf := bs.drop writable
      if bs.length ≤ writable then
        return .returned { b with writerIndex := add b.writerIndex bs.length }
      else
        append { b with writerIndex := b.buffer.length } extrabuf memory

/-! ### The methods as actions -/

/-- One call of a method, with what the caller, the kernel and the allocator pass in. -/
inductive Op where
  | call (op : Buffer.Op) (memory : Bool)
  | shrink (reserve : Nat) (memory : Bool)
deriving DecidableEq, Repr

/-- The lengths are `size_t`, and what is copied lies in memory. -/
def Sized : Op → Prop
  | .call (.append data) _ | .call (.prepend data) _ | .call (.hasWritten data) _ =>
      data.length ≤ maxSize
  | .call (.ensureWritableBytes len) _ => len < 2 ^ 64
  | .call _ _ => True
  | .shrink reserve _ => reserve < 2 ^ 64

/-- What the callers and the kernel promise about a call. -/
def Legal (b : Buffer) : Op → Prop
  | .call op memory => b.Legal op ∧ Sized (.call op memory)
  | .shrink reserve memory => Sized (.shrink reserve memory)

instance : (op : Op) → Decidable (Sized op)
  | .call (.append data) _ | .call (.prepend data) _ | .call (.hasWritten data) _ =>
      inferInstanceAs (Decidable (data.length ≤ maxSize))
  | .call (.ensureWritableBytes len) _ => inferInstanceAs (Decidable (len < 2 ^ 64))
  | .call (.retrieve _) _ | .call (.retrieveUntil _) _ | .call .retrieveAll _
  | .call .retrieveAsString _ | .call (.readFd _ _) _ => isTrue trivial
  | .shrink reserve _ => inferInstanceAs (Decidable (reserve < 2 ^ 64))

instance (b : Buffer) : (op : Op) → Decidable (Legal b op)
  | .call op memory => inferInstanceAs (Decidable (b.Legal op ∧ Sized (.call op memory)))
  | .shrink reserve memory => inferInstanceAs (Decidable (Sized (.shrink reserve memory)))

/-- The end of one call. -/
def apply (b : Buffer) : Op → Option Ending
  | .call (.append data) memory => append b data memory
  | .call (.retrieve len) _ => (retrieve b len).map .returned
  | .call (.retrieveUntil len) _ => (retrieveUntil b (b.readerIndex + len)).map .returned
  | .call .retrieveAll _ => some (.returned b.retrieveAll)
  | .call .retrieveAsString _ => some (.returned b.retrieveAll)
  | .call (.prepend data) _ => (prepend b data).map .returned
  | .call (.ensureWritableBytes len) memory => ensureWritableBytes b len memory
  | .call (.hasWritten data) _ =>
      (copyToBeginWrite b data).map fun b => .returned (hasWritten b data.length)
  | .call (.readFd _ result) memory => readFd b memory result
  | .shrink reserve memory => shrink b reserve memory

/-- A call on one of several buffers, or a swap of two of them. -/
inductive Action (ι : Type) where
  | call (i : ι) (op : Op)
  | swap (i j : ι)

/-- Buffers named by `ι`. After an exception they are used on. -/
def machine (ι : Type) [DecidableEq ι] : Machine (ι → Buffer) (Action ι) where
  legal
    | bufs, .call i op => Legal (bufs i) op
    | _, .swap _ _ => True
  step
    | bufs, .call i op =>
        (apply (bufs i) op).map fun ending => Function.update bufs i ending.buffer
    | bufs, .swap i j =>
        let (bi, bj) := (bufs i).swap (bufs j)
        some (Function.update (Function.update bufs i bi) j bj)

instance {ι : Type} [DecidableEq ι] (bufs : ι → Buffer) :
    (a : Action ι) → Decidable ((machine ι).legal bufs a)
  | .call i op => inferInstanceAs (Decidable (Legal (bufs i) op))
  | .swap _ _ => isTrue trivial

end Wrapping

end SecondGear
