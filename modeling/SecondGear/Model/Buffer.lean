import SecondGear.Lib.Assert
import SecondGear.Lib.Machine
import SecondGear.Lib.Memory

/-!
# `SecondGear.Model.Buffer`: the growing byte buffer

`Buffer` (`Buffer.h`, `Buffer.cpp`) keeps its bytes in one vector, with a reader index and
a writer index into it:

    0  <=  readerIndex  <=  writerIndex  <=  buffer.length

The readable bytes lie between the indices, the room for new bytes after `writerIndex`,
and the room for prepended bytes in front of `readerIndex`. Every method below is the
method of the same name. `none` is a failed `assert`. Indices and lengths are exact
natural numbers, so the sums are those of `size_t` as long as these do not wrap.
-/

set_option autoImplicit false

namespace SecondGear

open SecondGear.Lib

/-- A `char` of a message. -/
abbrev Byte := UInt8

/-- `vector::resize`: cut at the end, or fill up with zeros. -/
def resize (v : List Byte) (n : Nat) : List Byte :=
  v.take n ++ List.replicate (n - v.length) 0

/-- What `readv` returns: the bytes it stored, or a negative value with `errno` set. -/
inductive ReadvResult where
  | bytes (bs : List Byte)
  | error (errno : Int)
deriving DecidableEq, Repr

/-- The members of the class: `buffer_`, `readerIndex_`, `writerIndex_`. -/
structure Buffer where
  buffer : List Byte
  readerIndex : Nat
  writerIndex : Nat
deriving DecidableEq, Repr

namespace Buffer

def kCheapPrepend : Nat := 8

def kInitialSize : Nat := 1024

/-- `sizeof extrabuf` in `readFd`. -/
def kExtrabuf : Nat := 65536

/-- The constructor. -/
def new : Buffer where
  buffer := List.replicate (kCheapPrepend + kInitialSize) 0
  readerIndex := kCheapPrepend
  writerIndex := kCheapPrepend

def swap (b rhs : Buffer) : Buffer × Buffer :=
  ({ buffer := rhs.buffer, readerIndex := rhs.readerIndex, writerIndex := rhs.writerIndex },
   { buffer := b.buffer, readerIndex := b.readerIndex, writerIndex := b.writerIndex })

def readableBytes (b : Buffer) : Nat := b.writerIndex - b.readerIndex

def writableBytes (b : Buffer) : Nat := b.buffer.length - b.writerIndex

def prependableBytes (b : Buffer) : Nat := b.readerIndex

/-- The readable bytes: `readableBytes()` bytes from `peek()` on. -/
def content (b : Buffer) : List Byte := window b.buffer b.readerIndex b.writerIndex

def retrieve (b : Buffer) (len : Nat) : Option Buffer := do
  assert (len ≤ b.readableBytes)
  return { b with readerIndex := b.readerIndex + len }

/-- `retrieveUntil(end)`, with `end` as an index into the vector. -/
def retrieveUntil (b : Buffer) (endIndex : Nat) : Option Buffer := do
  assert (b.readerIndex ≤ endIndex)
  assert (endIndex ≤ b.writerIndex)
  b.retrieve (endIndex - b.readerIndex)

def retrieveAll (b : Buffer) : Buffer :=
  { b with readerIndex := kCheapPrepend, writerIndex := kCheapPrepend }

def retrieveAsString (b : Buffer) : List Byte × Buffer := (b.content, b.retrieveAll)

def makeSpace (b : Buffer) (len : Nat) : Option Buffer :=
  if b.writableBytes + b.prependableBytes < len + kCheapPrepend then
    some { b with buffer := resize b.buffer (b.writerIndex + len) }
  else do
    -- move readable data to the front, make space inside buffer
    assert (kCheapPrepend < b.readerIndex)
    let readable := b.readableBytes
    let b' : Buffer :=
      { buffer := copyWithin b.buffer b.readerIndex kCheapPrepend
          (b.writerIndex - b.readerIndex)
        readerIndex := kCheapPrepend
        writerIndex := kCheapPrepend + readable }
    assert (readable = b'.readableBytes)
    return b'

def ensureWritableBytes (b : Buffer) (len : Nat) : Option Buffer := do
  let b ← if b.writableBytes < len then b.makeSpace len else some b
  assert (len ≤ b.writableBytes)
  return b

def hasWritten (b : Buffer) (len : Nat) : Buffer :=
  { b with writerIndex := b.writerIndex + len }

/-- The bytes `data` stored from `beginWrite()` on. -/
def storeAtBeginWrite (b : Buffer) (data : List Byte) : Buffer :=
  { b with buffer := store b.buffer b.writerIndex data }

def append (b : Buffer) (data : List Byte) : Option Buffer := do
  let b ← b.ensureWritableBytes data.length
  return (b.storeAtBeginWrite data).hasWritten data.length

def prepend (b : Buffer) (data : List Byte) : Option Buffer := do
  assert (data.length ≤ b.prependableBytes)
  let readerIndex := b.readerIndex - data.length
  return { b with readerIndex, buffer := store b.buffer readerIndex data }

/-- `readFd`, for one result of `readv` over the writable bytes and `extrabuf`. The
kernel fills the writable bytes first. Returns the buffer, the value of the call and
`*savedErrno`. -/
def readFd (b : Buffer) (savedErrno : Int) : ReadvResult → Option (Buffer × Int × Int)
  | .error errno => some (b, -1, errno)
  | .bytes bs => do
      let writable := b.writableBytes
      let b := b.storeAtBeginWrite (bs.take writable)
      let extrabuf := bs.drop writable
      if bs.length ≤ writable then
        return ({ b with writerIndex := b.writerIndex + bs.length }, bs.length, savedErrno)
      else
        let b ← { b with writerIndex := b.buffer.length }.append extrabuf
        return (b, bs.length, savedErrno)

/-! ### The methods as actions -/

/-- One call of a method, with what the caller and the kernel pass in. -/
inductive Op where
  | append (data : List Byte)
  | retrieve (len : Nat)
  /-- `retrieveUntil(peek() + len)` -/
  | retrieveUntil (len : Nat)
  | retrieveAll
  | retrieveAsString
  | prepend (data : List Byte)
  | ensureWritableBytes (len : Nat)
  /-- `hasWritten` after the caller stored `data` at `beginWrite()` -/
  | hasWritten (data : List Byte)
  | readFd (savedErrno : Int) (result : ReadvResult)
deriving DecidableEq, Repr

/-- What the methods assert about their arguments, what `hasWritten` leaves to its
caller, and how many bytes `readv` can return. -/
def Legal (b : Buffer) : Op → Prop
  | .append _ => True
  | .retrieve len => len ≤ b.readableBytes
  | .retrieveUntil len => len ≤ b.readableBytes
  | .retrieveAll => True
  | .retrieveAsString => True
  | .prepend data => data.length ≤ b.prependableBytes
  | .ensureWritableBytes _ => True
  | .hasWritten data => data.length ≤ b.writableBytes
  | .readFd _ (.bytes bs) => bs.length ≤ b.writableBytes + kExtrabuf
  | .readFd _ (.error _) => True

instance (b : Buffer) : (op : Op) → Decidable (b.Legal op)
  | .append _ | .retrieveAll | .retrieveAsString | .ensureWritableBytes _
  | .readFd _ (.error _) => isTrue trivial
  | .retrieve len | .retrieveUntil len =>
      inferInstanceAs (Decidable (len ≤ b.readableBytes))
  | .prepend data => inferInstanceAs (Decidable (data.length ≤ b.prependableBytes))
  | .hasWritten data => inferInstanceAs (Decidable (data.length ≤ b.writableBytes))
  | .readFd _ (.bytes bs) =>
      inferInstanceAs (Decidable (bs.length ≤ b.writableBytes + kExtrabuf))

/-- The buffer after one call. -/
def apply (b : Buffer) : Op → Option Buffer
  | .append data => b.append data
  | .retrieve len => b.retrieve len
  | .retrieveUntil len => b.retrieveUntil (b.readerIndex + len)
  | .retrieveAll => some b.retrieveAll
  | .retrieveAsString => some b.retrieveAsString.2
  | .prepend data => b.prepend data
  | .ensureWritableBytes len => b.ensureWritableBytes len
  | .hasWritten data => some ((b.storeAtBeginWrite data).hasWritten data.length)
  | .readFd savedErrno result => (b.readFd savedErrno result).map (·.1)

end Buffer

/-! ### Several buffers -/

/-- A call on one of several buffers, or a swap of two of them. -/
inductive BuffersAction (ι : Type) where
  | call (i : ι) (op : Buffer.Op)
  | swap (i j : ι)

/-- Buffers named by `ι`, each used through its methods and swapped at will. -/
def buffersMachine (ι : Type) [DecidableEq ι] : Machine (ι → Buffer) (BuffersAction ι) where
  legal
    | bufs, .call i op => (bufs i).Legal op
    | _, .swap _ _ => True
  step
    | bufs, .call i op => ((bufs i).apply op).map (Function.update bufs i)
    | bufs, .swap i j =>
        let (bi, bj) := (bufs i).swap (bufs j)
        some (Function.update (Function.update bufs i bi) j bj)

instance {ι : Type} [DecidableEq ι] (bufs : ι → Buffer) :
    (a : BuffersAction ι) → Decidable ((buffersMachine ι).legal bufs a)
  | .call i op => inferInstanceAs (Decidable ((bufs i).Legal op))
  | .swap _ _ => isTrue trivial

end SecondGear
