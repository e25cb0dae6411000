import SecondGear.Proofs.Buffer

/-!
# `SecondGear.Proofs.BufferGrowth`: how long the vector gets

`makeSpace` does not compact the vector before it makes it longer: it asks for
`writerIndex + len` bytes and carries the consumed prefix along. It does so only if the room
in the vector does not suffice, and then the prefix is shorter than the request and what is
readable together. So a vector that grew is at most twice as long as the load it grew for.

`Buffer.Grows b b' load` says this of one call. `peakMachine` runs one buffer and records the
peak of the load, and `storage_le_peak` is the bound for every run.
-/

set_option autoImplicit false

namespace SecondGear

open SecondGear.Lib

namespace Buffer

/-- The vector does not get shorter, and where it gets longer, the load asked for it. -/
structure Grows (b b' : Buffer) (load : Nat) : Prop where
  length_le : b.buffer.length ≤ b'.buffer.length
  le_load : b'.buffer.length ≤ max b.buffer.length (2 * load + kCheapPrepend)

variable {b b' : Buffer}

/-- A call that leaves the length of the vector alone. -/
theorem Grows.of_length_eq (h : b'.buffer.length = b.buffer.length) (load : Nat) :
    b.Grows b' load where
  length_le := Nat.le_of_eq h.symm
  le_load := h.symm ▸ Nat.le_max_left _ _

/-- A larger load. -/
theorem Grows.mono {load load' : Nat} (h : b.Grows b' load) (hle : load ≤ load') :
    b.Grows b' load' where
  length_le := h.length_le
  le_load := by
    have hload := h.le_load
    omega

/-- The branch condition of `makeSpace` bounds the prefix that a longer vector keeps. -/
theorem makeSpace_grows (h : b.Wf) {len : Nat} (hlen : b.writableBytes < len)
    (hcall : b.makeSpace len = some b') : b.Grows b' (b.readableBytes + len) := by
  have hreader := h.reader_le
  have hwriter := h.writer_le
  by_cases hgrow : b.writableBytes + b.prependableBytes < len + kCheapPrepend
  · rw [makeSpace, if_pos hgrow, Option.some.injEq] at hcall
    subst hcall
    unfold writableBytes prependableBytes at hgrow
    unfold writableBytes at hlen
    constructor
    · rw [length_resize]
      omega
    · -- `writerIndex + len` is the prefix, the readable bytes and the request.
      rw [length_resize]
      refine Nat.le_trans ?_ (Nat.le_max_right _ _)
      unfold readableBytes
      omega
  · rw [makeSpace, if_neg hgrow] at hcall
    obtain ⟨-, hcall⟩ := assert_bind_eq_some_iff.mp hcall
    obtain ⟨-, hcall⟩ := assert_bind_eq_some_iff.mp hcall
    obtain rfl := Option.some.inj hcall
    exact .of_length_eq (length_copyWithin _ _ _ _) _

theorem ensureWritableBytes_grows (h : b.Wf) {len : Nat}
    (hcall : b.ensureWritableBytes len = some b') : b.Grows b' (b.readableBytes + len) := by
  by_cases hlen : b.writableBytes < len
  · rw [ensureWritableBytes, if_pos hlen] at hcall
    obtain ⟨b₁, hspace, hcall⟩ := Option.bind_eq_some_iff.mp hcall
    obtain ⟨-, hcall⟩ := assert_bind_eq_some_iff.mp hcall
    obtain rfl := Option.some.inj hcall
    exact makeSpace_grows h hlen hspace
  · rw [ensureWritableBytes, if_neg hlen] at hcall
    obtain ⟨-, hcall⟩ := assert_bind_eq_some_iff.mp hcall
    obtain rfl := Option.some.inj hcall
    exact .of_length_eq rfl _

theorem append_grows (h : b.Wf) {data : List Byte} (hcall : b.append data = some b') :
    b.Grows b' (b.readableBytes + data.length) := by
  obtain ⟨b₁, hensure, hcall⟩ := Option.bind_eq_some_iff.mp hcall
  obtain rfl := Option.some.inj hcall
  have hgrows := ensureWritableBytes_grows h hensure
  have hsame : ((b₁.storeAtBeginWrite data).hasWritten data.length).buffer.length
      = b₁.buffer.length := length_store _ _ _
  exact ⟨hsame ▸ hgrows.length_le, hsame ▸ hgrows.le_load⟩

/-- When the read spills, the writable bytes are full, and `append` finds a buffer whose
readable bytes reach to the end of the vector. -/
theorem readFd_grows (h : b.Wf) {savedErrno n savedErrno' : Int} {bs : List Byte}
    (hcall : b.readFd savedErrno (.bytes bs) = some (b', n, savedErrno')) :
    b.Grows b' (b.readableBytes + bs.length) := by
  have hreader := h.reader_le
  have hwriter := h.writer_le
  rw [readFd] at hcall
  split at hcall
  · obtain ⟨rfl, -⟩ := Prod.mk.inj (Option.some.inj hcall)
    exact .of_length_eq (length_store _ _ _) _
  · rename_i hspill
    obtain ⟨b₁, happend, hcall⟩ := Option.bind_eq_some_iff.mp hcall
    obtain ⟨rfl, -⟩ := Prod.mk.inj (Option.some.inj hcall)
    have hroom : (bs.take b.writableBytes).length = b.writableBytes := by
      rw [List.length_take]
      omega
    have hfull : (b.storeAtBeginWrite (bs.take b.writableBytes)).buffer.length
        = b.buffer.length := length_store _ _ _
    have hend : b.writerIndex + b.writableBytes = b.buffer.length := by
      unfold writableBytes
      omega
    -- The buffer in front of the `append` is the one with the writable bytes written.
    have hwf := (h.write (Nat.le_of_eq hroom)).1
    rw [hroom, hasWritten] at hwf
    rw [hfull, ← hend] at happend
    have hgrows := append_grows hwf happend
    have hload : b.writerIndex + b.writableBytes - b.readerIndex
        + (bs.drop b.writableBytes).length = b.readableBytes + bs.length := by
      rw [List.length_drop]
      unfold readableBytes
      omega
    have hbound := hgrows.le_load
    rw [readableBytes] at hbound
    refine ⟨hfull ▸ hgrows.length_le, ?_⟩
    rw [← hload, ← hfull]
    exact hbound

/-! ### The load of a call -/

/-- The bytes a call asks to have room for, with what is readable before it. -/
def requested (b : Buffer) : Op → Nat
  | .ensureWritableBytes len => b.readableBytes + len
  | _ => 0

/-- The load at one call: what is readable after it, or what it asked for. -/
def load (b b' : Buffer) (op : Op) : Nat := max b'.readableBytes (b.requested op)

/-- What the queue holds after a call is what is readable after it. -/
theorem readableBytes_of_content (h : b'.Wf) {bytes : List Byte} (hcontent : b'.content = bytes) :
    b'.readableBytes = bytes.length := by
  rw [← h.length_content, hcontent]

/-- Every legal call grows the vector for its load at most. -/
theorem apply_grows (h : b.Wf) {op : Op} (hlegal : b.Legal op) (hcall : b.apply op = some b') :
    b.Grows b' (b.load b' op) := by
  obtain ⟨b₁, hcall₁, hwf, hcontent⟩ := apply_spec h hlegal
  obtain rfl := Option.some.inj (hcall₁.symm.trans hcall)
  have hreadable := readableBytes_of_content hwf hcontent
  cases op with
  | append data =>
      rw [ByteQueue.apply, List.length_append, h.length_content] at hreadable
      exact (append_grows h hcall).mono (hreadable ▸ Nat.le_max_left _ _)
  | retrieve len =>
      obtain ⟨-, hcall⟩ := assert_bind_eq_some_iff.mp hcall
      obtain rfl := Option.some.inj hcall
      refine .of_length_eq ?_ _
      rfl
  | retrieveUntil len =>
      obtain ⟨-, hcall⟩ := assert_bind_eq_some_iff.mp hcall
      obtain ⟨-, hcall⟩ := assert_bind_eq_some_iff.mp hcall
      obtain ⟨-, hcall⟩ := assert_bind_eq_some_iff.mp hcall
      obtain rfl := Option.some.inj hcall
      refine .of_length_eq ?_ _
      rfl
  | retrieveAll =>
      obtain rfl := Option.some.inj hcall
      refine .of_length_eq ?_ _
      rfl
  | retrieveAsString =>
      obtain rfl := Option.some.inj hcall
      refine .of_length_eq ?_ _
      rfl
  | prepend data =>
      obtain ⟨-, hcall⟩ := assert_bind_eq_some_iff.mp hcall
      obtain rfl := Option.some.inj hcall
      exact .of_length_eq (length_store _ _ _) _
  | ensureWritableBytes len =>
      exact (ensureWritableBytes_grows h hcall).mono (Nat.le_max_right _ _)
  | hasWritten data =>
      obtain rfl := Option.some.inj hcall
      exact .of_length_eq (length_store _ _ _) _
  | readFd savedErrno result =>
      obtain ⟨⟨b₂, n, errno'⟩, hread, rfl⟩ := Option.map_eq_some_iff.mp hcall
      cases result with
      | error errno =>
          obtain ⟨rfl, -⟩ := Prod.mk.inj (Option.some.inj hread)
          refine .of_length_eq ?_ _
          rfl
      | bytes bs =>
          rw [ByteQueue.apply, List.length_append, h.length_content] at hreadable
          exact (readFd_grows h hread).mono (hreadable ▸ Nat.le_max_left _ _)

/-! ### Calls that return -/

theorem retrieve_of_le {len : Nat} (hlen : len ≤ b.readableBytes) :
    b.retrieve len = some { b with readerIndex := b.readerIndex + len } :=
  assert_bind_pos hlen _

/-- There is room. -/
theorem append_of_le {data : List Byte} (hroom : data.length ≤ b.writableBytes) :
    b.append data = some ((b.storeAtBeginWrite data).hasWritten data.length) := by
  have hensure : b.ensureWritableBytes data.length = some b := by
    rw [ensureWritableBytes, if_neg (Nat.not_lt.mpr hroom)]
    exact assert_bind_pos hroom _
  rw [append, hensure]
  rfl

/-- There is none, with the prependable bytes either, and the vector grows. -/
theorem ensureWritableBytes_of_full {len : Nat} (hlen : b.writableBytes < len)
    (hfull : b.writableBytes + b.prependableBytes < len + kCheapPrepend) :
    b.ensureWritableBytes len
      = some { b with buffer := resize b.buffer (b.writerIndex + len) } := by
  have hroom : len
      ≤ ({ b with buffer := resize b.buffer (b.writerIndex + len) } : Buffer).writableBytes := by
    rw [writableBytes, length_resize]
    show len ≤ b.writerIndex + len - b.writerIndex
    omega
  rw [ensureWritableBytes, if_pos hlen, makeSpace, if_pos hfull]
  exact assert_bind_pos hroom _

end Buffer

/-! ### Runs -/

/-- A buffer, and the largest load of its run so far. -/
structure PeakBuffer where
  buffer : Buffer
  peak : Nat
deriving DecidableEq, Repr

/-- One buffer, used through its methods. -/
def peakMachine : Machine PeakBuffer Buffer.Op where
  legal s op := s.buffer.Legal op
  step s op := (s.buffer.apply op).map fun b =>
    { buffer := b, peak := max s.peak (s.buffer.load b op) }

instance (s : PeakBuffer) (op : Buffer.Op) : Decidable (peakMachine.legal s op) :=
  inferInstanceAs (Decidable (s.buffer.Legal op))

/-- The start of a run. -/
def PeakBuffer.new : PeakBuffer where
  buffer := Buffer.new
  peak := 0

namespace PeakBuffer

/-- The bound, with the invariant of the buffer. -/
structure Bounded (s : PeakBuffer) : Prop where
  wf : s.buffer.Wf
  length_le : s.buffer.buffer.length
    ≤ max (Buffer.kCheapPrepend + Buffer.kInitialSize) (2 * s.peak + Buffer.kCheapPrepend)

theorem new_bounded : new.Bounded where
  wf := Buffer.new_wf
  length_le := by
    simp only [new, Buffer.new, List.length_replicate]
    exact Nat.le_max_left _ _

variable {s s' : PeakBuffer} {op : Buffer.Op}

/-- A call that returns is a step. -/
theorem step_eq {b : Buffer} (hcall : s.buffer.apply op = some b) :
    peakMachine.step s op = some { buffer := b, peak := max s.peak (s.buffer.load b op) } := by
  simp [peakMachine, hcall]

/-- One step keeps the bound: what the vector grew by is covered by the load of this call, and
the peak counts that load. -/
theorem step_bounded (h : s.Bounded) (hlegal : peakMachine.legal s op)
    (hstep : peakMachine.step s op = some s') :
    s'.Bounded ∧ s.buffer.buffer.length ≤ s'.buffer.buffer.length := by
  obtain ⟨b, hcall, rfl⟩ := Option.map_eq_some_iff.mp hstep
  have hgrows := Buffer.apply_grows h.wf hlegal hcall
  obtain ⟨b₁, hcall₁, hwf, -⟩ := Buffer.apply_spec h.wf hlegal
  obtain rfl := Option.some.inj (hcall₁.symm.trans hcall)
  refine ⟨⟨hwf, ?_⟩, hgrows.length_le⟩
  have hbefore := h.length_le
  have hload := hgrows.le_load
  show b₁.buffer.length ≤ _
  dsimp only
  omega

end PeakBuffer

/-- The storage of a buffer is bounded by its peak load. In every run from the constructor the
vector is never longer than the initial one or twice the peak, and no call makes it shorter. -/
theorem storage_le_peak (ops : List Buffer.Op) (s : PeakBuffer)
    (hrun : peakMachine.Run PeakBuffer.new ops s) :
    s.buffer.buffer.length
      ≤ max (Buffer.kCheapPrepend + Buffer.kInitialSize) (2 * s.peak + Buffer.kCheapPrepend) ∧
    ∀ op, peakMachine.legal s op →
      ∃ s', peakMachine.step s op = some s' ∧
        s.buffer.buffer.length ≤ s'.buffer.buffer.length := by
  have hbounded : s.Bounded := hrun.invariant PeakBuffer.new_bounded
    fun _ _ _ hs hlegal hstep => (PeakBuffer.step_bounded hs hlegal hstep).1
  refine ⟨hbounded.length_le, fun op hlegal => ?_⟩
  obtain ⟨b, hcall, -⟩ := Buffer.apply_spec hbounded.wf hlegal
  have hstep := PeakBuffer.step_eq hcall
  exact ⟨_, hstep, (PeakBuffer.step_bounded hbounded hlegal hstep).2⟩

/-- The theorem at a run in which the consumed prefix is carried along. -/
theorem storage_le_peak_carried :
    ∃ s, peakMachine.Run PeakBuffer.new
        [.append (List.replicate 1000 1), .retrieve 900, .ensureWritableBytes 1000] s ∧
      s.buffer.buffer.length = 2008 ∧ 2008 ≤ max (8 + 1024) (2 * s.peak + 8) := by
  -- What the bytes are does not matter here, and they are too many to compute with.
  generalize hdata : List.replicate 1000 (1 : Byte) = data
  have hdata : data.length = 1000 := hdata ▸ List.length_replicate
  have hnew : Buffer.new.buffer.length = Buffer.kCheapPrepend + Buffer.kInitialSize :=
    List.length_replicate
  have hroom : data.length ≤ Buffer.new.writableBytes := by
    rw [Buffer.writableBytes, hnew, hdata]
    decide
  let b₁ : Buffer := (Buffer.new.storeAtBeginWrite data).hasWritten data.length
  have happend : Buffer.new.apply (.append data) = some b₁ :=
    Buffer.append_of_le hroom
  have hreadable : 900 ≤ b₁.readableBytes := by
    show 900 ≤ 8 + data.length - 8
    omega
  let b₂ : Buffer := { b₁ with readerIndex := 908 }
  have hretrieve : b₁.apply (.retrieve 900) = some b₂ := Buffer.retrieve_of_le hreadable
  have hspace : b₂.writableBytes = 24 := by
    have hlength : b₂.buffer.length = 8 + 1024 := (length_store _ _ _).trans hnew
    show b₂.buffer.length - (8 + data.length) = 24
    omega
  let b₃ : Buffer := { b₂ with buffer := resize b₂.buffer (b₂.writerIndex + 1000) }
  have hensure : b₂.apply (.ensureWritableBytes 1000) = some b₃ := by
    refine Buffer.ensureWritableBytes_of_full (by omega) ?_
    show b₂.writableBytes + 908 < 1000 + 8
    omega
  have hstep : peakMachine.step PeakBuffer.new (.append data) = some ⟨b₁, _⟩ :=
    PeakBuffer.step_eq (s := PeakBuffer.new) happend
  obtain ⟨peak, hrun⟩ : ∃ peak, peakMachine.Run PeakBuffer.new
      [.append data, .retrieve 900, .ensureWritableBytes 1000] ⟨b₃, peak⟩ :=
    ⟨_, ((Machine.Run.start.next trivial hstep).next
      (show peakMachine.legal ⟨b₁, _⟩ (.retrieve 900) from hreadable)
      (PeakBuffer.step_eq hretrieve)).next trivial (PeakBuffer.step_eq hensure)⟩
  have hend : b₃.buffer.length = 2008 := by
    refine (Buffer.length_resize _ _).trans ?_
    show 8 + data.length + 1000 = 2008
    omega
  have hbound := (storage_le_peak _ _ hrun).1
  rw [hend] at hbound
  exact ⟨_, hrun, hend, hbound⟩

end SecondGear
