import SecondGear.Model.WrappingBuffer
import SecondGear.Proofs.BufferGrowth

/-!
# `SecondGear.Proofs.WrappingBuffer`: where the arithmetic of `size_t` is exact

`Wrapping.Sound` is the invariant of a buffer in `size_t`: that of the exact buffer, a writer
index behind the room in front, and a vector that exists. In a sound buffer no difference wraps,
and a sum wraps only if a length that nobody backs with memory is part of it: the request of
`ensureWritableBytes`, or the reserve of `shrink`.

* `apply_cases`: a call that does not wrap is the exact call, unless it throws.
* `ensureWritableBytes_holds_iff`: the requests that are answered as they should be.
* `shrink_holds_iff`: the calls of `shrink` that keep the buffer.
-/

set_option autoImplicit false

namespace SecondGear

open SecondGear.Lib

namespace Wrapping

open Buffer (kCheapPrepend kInitialSize)

/-- A sum that fits. -/
theorem add_of_lt {m n : Nat} (h : m + n < 2 ^ 64) : add m n = m + n := Nat.mod_eq_of_lt h

/-- A sum that wraps once. -/
theorem add_of_ge {m n : Nat} (h : 2 ^ 64 ≤ m + n) (h' : m + n < 2 ^ 65) :
    add m n = m + n - 2 ^ 64 := by
  unfold add
  omega

/-- A difference that is one. -/
theorem sub_of_le {m n : Nat} (h : n ≤ m) (hm : m < 2 ^ 64) : sub m n = m - n := by
  unfold sub
  omega

/-- The invariant of a buffer in `size_t`. -/
structure Sound (b : Buffer) : Prop where
  wf : b.Wf
  front : kCheapPrepend ≤ b.writerIndex
  size_le : b.buffer.length ≤ maxSize

theorem new_sound : Sound Buffer.new where
  wf := Buffer.new_wf
  front := Nat.le_refl _
  size_le := by
    simp only [Buffer.new, List.length_replicate]
    decide

namespace Sound

variable {b : Buffer}

/-- All indices are below `2 ^ 63`. -/
theorem bounds (h : Sound b) : b.readerIndex ≤ b.writerIndex ∧
    b.writerIndex ≤ b.buffer.length ∧ b.buffer.length < 2 ^ 63 := by
  have hsize := h.size_le
  unfold maxSize at hsize
  exact ⟨h.wf.reader_le, h.wf.writer_le, by omega⟩

theorem readableBytes_eq (h : Sound b) : readableBytes b = b.readableBytes := by
  have hb := h.bounds
  exact sub_of_le hb.1 (by omega)

theorem writableBytes_eq (h : Sound b) : writableBytes b = b.writableBytes := by
  have hb := h.bounds
  exact sub_of_le hb.2.1 (by omega)

end Sound

variable {b b' : Buffer}

/-! ### A request -/

/-- What is expected of `ensureWritableBytes`. It throws and has changed nothing that is
readable, or it returns with the room it was asked for. In neither case is the vector shorter
than before. -/
def RequestHolds (b : Buffer) (len : Nat) (memory : Bool) : Prop :=
  ∃ ending, ensureWritableBytes b len memory = some ending ∧
    ending.buffer.content = b.content ∧ b.buffer.length ≤ ending.buffer.buffer.length ∧
    match ending with
    | .threw b' => b'.readerIndex = b.readerIndex ∧ b'.writerIndex = b.writerIndex
    | .returned b' => len ≤ writableBytes b' ∧ b'.readerIndex ≤ b'.writerIndex ∧
        b'.writerIndex ≤ b'.buffer.length

/-- A request that does not wrap takes the branch of the exact method. -/
theorem makeSpace_eq (h : Sound b) {len : Nat} (hlen : b.writableBytes < len)
    (hfits : b.writerIndex + len < 2 ^ 64) (memory : Bool) :
    makeSpace b len memory =
      if b.writableBytes + b.prependableBytes < len + kCheapPrepend ∧
          ¬ Available (b.writerIndex + len) memory then some (.threw b)
      else (b.makeSpace len).map .returned := by
  have hb := h.bounds
  have hfront := h.front
  have hroom : add (writableBytes b) (prependableBytes b)
      = b.writableBytes + b.prependableBytes := by
    rw [h.writableBytes_eq]
    unfold Buffer.writableBytes Buffer.prependableBytes prependableBytes
    exact add_of_lt (by omega)
  have hrequest : add len kCheapPrepend = len + kCheapPrepend := add_of_lt (by omega)
  rw [makeSpace, hroom, hrequest, add_of_lt hfits, Buffer.makeSpace]
  by_cases hgrow : b.writableBytes + b.prependableBytes < len + kCheapPrepend
  · -- The vector gets longer, so it may not be available.
    have hlonger : b.buffer.length < b.writerIndex + len := by
      unfold Buffer.writableBytes at hlen
      omega
    by_cases havail : Available (b.writerIndex + len) memory
      <;> simp [hgrow, vectorResize, hlonger, havail]
  · -- The move leaves `readable` bytes behind the room in front.
    have hcount : sub b.writerIndex b.readerIndex = b.writerIndex - b.readerIndex :=
      h.readableBytes_eq
    have hwriter : add kCheapPrepend (b.writerIndex - b.readerIndex)
        = kCheapPrepend + (b.writerIndex - b.readerIndex) :=
      add_of_lt (by unfold kCheapPrepend; omega)
    have hback : sub (kCheapPrepend + (b.writerIndex - b.readerIndex)) kCheapPrepend
        = b.writerIndex - b.readerIndex := by
      rw [sub_of_le (Nat.le_add_right _ _) (by unfold kCheapPrepend; omega),
        Nat.add_sub_cancel_left]
    by_cases hreader : kCheapPrepend < b.readerIndex
    · simp [hgrow, readableBytes, Buffer.readableBytes, hcount, hwriter, hback, hreader, assert]
    · simp [hgrow, hreader, assert]

/-- A move keeps the room in front and the length of the vector. -/
theorem makeSpace_front (h : kCheapPrepend ≤ b.writerIndex) {len : Nat}
    (hcall : b.makeSpace len = some b') :
    kCheapPrepend ≤ b'.writerIndex ∧
      (b'.buffer.length = b.buffer.length ∨
        b.writableBytes + b.prependableBytes < len + kCheapPrepend ∧
          b'.buffer.length = b.writerIndex + len) := by
  by_cases hgrow : b.writableBytes + b.prependableBytes < len + kCheapPrepend
  · rw [Buffer.makeSpace, if_pos hgrow, Option.some.injEq] at hcall
    subst hcall
    exact ⟨h, Or.inr ⟨hgrow, Buffer.length_resize _ _⟩⟩
  · rw [Buffer.makeSpace, if_neg hgrow] at hcall
    obtain ⟨-, hcall⟩ := assert_bind_eq_some_iff.mp hcall
    obtain ⟨-, hcall⟩ := assert_bind_eq_some_iff.mp hcall
    obtain rfl := Option.some.inj hcall
    exact ⟨Nat.le_add_right _ _, Or.inl (length_copyWithin _ _ _ _)⟩

/-- A request that does not wrap is the exact one, unless it throws before anything is
changed. -/
theorem ensureWritableBytes_cases (h : Sound b) {len : Nat}
    (hfits : b.writerIndex + len < 2 ^ 64) (memory : Bool) :
    ensureWritableBytes b len memory = some (.threw b) ∨
      ∃ b', ensureWritableBytes b len memory = some (.returned b') ∧
        b.ensureWritableBytes len = some b' ∧ Sound b' := by
  by_cases hlen : b.writableBytes < len
  · have hspace := makeSpace_eq h hlen hfits memory
    split at hspace
    · exact Or.inl (by simp [ensureWritableBytes, h.writableBytes_eq, hlen, hspace, Ending.andThen])
    · rename_i havail
      obtain ⟨b', hmake, hwf, -, hroom⟩ := Buffer.makeSpace_spec h.wf hlen
      obtain ⟨hfront, hlength⟩ := makeSpace_front h.front hmake
      -- A longer vector was available.
      have hsize : b'.buffer.length ≤ maxSize := by
        rcases hlength with hsame | ⟨hgrow, hlonger⟩
        · exact hsame ▸ h.size_le
        · exact hlonger ▸ (not_not.mp (not_and.mp havail hgrow)).1
      have hsound : Sound b' := ⟨hwf, hfront, hsize⟩
      refine Or.inr ⟨b', ?_, ?_, hsound⟩
      · simp [ensureWritableBytes, h.writableBytes_eq, hlen, hspace, hmake, Ending.andThen,
          hsound.writableBytes_eq, assert_pos hroom]
      · simp [Buffer.ensureWritableBytes, hlen, hmake, assert_pos hroom]
  · have hroom : len ≤ b.writableBytes := Nat.le_of_not_lt hlen
    refine Or.inr ⟨b, ?_, ?_, h⟩
    · simp [ensureWritableBytes, h.writableBytes_eq, hlen, Ending.andThen, assert_pos hroom]
    · simp [Buffer.ensureWritableBytes, hlen, assert_pos hroom]

/-- A request that wraps makes the vector shorter, or dies. The sum `writerIndex + len` is then
less than the writer index. Where the branch test wraps too, the data may be moved instead, and
that is not enough room. -/
theorem ensureWritableBytes_wraps (h : Sound b) {len : Nat} (hlen : len < 2 ^ 64)
    (hwraps : 2 ^ 64 ≤ b.writerIndex + len) (memory : Bool) {ending : Ending}
    (hcall : ensureWritableBytes b len memory = some ending) :
    ending.buffer.buffer.length < b.buffer.length := by
  have hb := h.bounds
  have hshort : writableBytes b < len := by
    rw [h.writableBytes_eq]
    unfold Buffer.writableBytes
    omega
  rw [ensureWritableBytes, if_pos hshort] at hcall
  obtain ⟨made, hmake, hcall⟩ := Option.bind_eq_some_iff.mp hcall
  rw [makeSpace] at hmake
  split at hmake
  · have hsum : add b.writerIndex len = b.writerIndex + len - 2 ^ 64 :=
      add_of_ge hwraps (by omega)
    have hless : b.writerIndex + len - 2 ^ 64 < b.buffer.length := by omega
    rw [vectorResize, hsum, if_neg fun hboth => absurd hboth.1 (by omega)] at hmake
    obtain rfl := Option.some.inj hmake
    obtain ⟨-, hcall⟩ := assert_bind_eq_some_iff.mp hcall
    obtain rfl := Option.some.inj hcall
    simpa [Ending.buffer] using hless
  · obtain ⟨hfront, hmake⟩ := assert_bind_eq_some_iff.mp hmake
    obtain ⟨-, hmake⟩ := assert_bind_eq_some_iff.mp hmake
    obtain rfl := Option.some.inj hmake
    obtain ⟨hroom, -⟩ := assert_bind_eq_some_iff.mp hcall
    -- No vector has as much room as was asked for.
    have hreadable : readableBytes b = b.writerIndex - b.readerIndex := h.readableBytes_eq
    simp only [writableBytes, length_copyWithin, hreadable] at hroom
    rw [add_of_lt (by omega), sub_of_le (by omega) (by omega)] at hroom
    omega

/-- A request is answered as it should be exactly when it does not wrap. -/
theorem requestHolds_iff (h : Sound b) {len : Nat} (hlen : len < 2 ^ 64) (memory : Bool) :
    RequestHolds b len memory ↔ b.writerIndex + len < 2 ^ 64 := by
  constructor
  · rintro ⟨ending, hcall, -, hlength, -⟩
    by_contra hwraps
    have hless := ensureWritableBytes_wraps h hlen (Nat.le_of_not_lt hwraps) memory hcall
    omega
  · intro hfits
    rcases ensureWritableBytes_cases h hfits memory with hthrew | ⟨b', hcall, hexact, hsound⟩
    · exact ⟨_, hthrew, rfl, Nat.le_refl _, rfl, rfl⟩
    · obtain ⟨b₁, hexact₁, -, hcontent, hroom⟩ := Buffer.ensureWritableBytes_spec h.wf len
      obtain rfl := Option.some.inj (hexact₁.symm.trans hexact)
      have hgrows := Buffer.ensureWritableBytes_grows h.wf hexact
      refine ⟨_, hcall, hcontent, hgrows.length_le, ?_, hsound.wf.reader_le, hsound.wf.writer_le⟩
      exact hsound.writableBytes_eq ▸ hroom

/-! ### `shrink` -/

/-- The length of the vector that `shrink` asks for. -/
def shrunkSize (b : Buffer) (reserve : Nat) : Nat :=
  add (add kCheapPrepend (readableBytes b)) reserve

/-- What is expected of `shrink`: the same readable bytes, behind the usual room in front and
with the reserve behind them. -/
structure Shrunk (b : Buffer) (reserve : Nat) (b' : Buffer) : Prop where
  reader_le : b'.readerIndex ≤ b'.writerIndex
  writer_le : b'.writerIndex ≤ b'.buffer.length
  content : b'.content = b.content
  prependable : prependableBytes b' = kCheapPrepend
  writable : writableBytes b' = reserve

/-- The sum in a sound buffer wraps at the reserve only. -/
theorem shrunkSize_eq (h : Sound b) (reserve : Nat) :
    shrunkSize b reserve = add (kCheapPrepend + b.readableBytes) reserve := by
  have hb := h.bounds
  have hreadable : kCheapPrepend + b.readableBytes < 2 ^ 64 := by
    unfold kCheapPrepend Buffer.readableBytes
    omega
  rw [shrunkSize, h.readableBytes_eq, add_of_lt hreadable]

/-- `shrink` copies the readable bytes and leaves the indices alone. -/
theorem shrink_eq (h : Sound b) {reserve : Nat} {memory : Bool}
    (havail : Available (shrunkSize b reserve) memory) :
    shrink b reserve memory =
      (copyInto (List.replicate (shrunkSize b reserve) 0) kCheapPrepend b.content).map
        fun buffer => .returned { b with buffer } := by
  have hb := h.bounds
  have hwriter : b.readerIndex + readableBytes b = b.writerIndex := by
    rw [h.readableBytes_eq]
    unfold Buffer.readableBytes
    omega
  have hinside : b.readerIndex + readableBytes b ≤ b.buffer.length := hwriter ▸ hb.2.1
  unfold shrink
  rw [← shrunkSize, if_pos havail, assert_bind_pos hinside, hwriter]
  exact (Option.map_eq_bind ..).symm

/-- A vector that cannot be had leaves the buffer as it was. -/
theorem shrink_threw {reserve : Nat} {memory : Bool}
    (havail : ¬ Available (shrunkSize b reserve) memory) :
    shrink b reserve memory = some (.threw b) := if_neg havail

/-- The bytes are copied if they fit. -/
theorem copyInto_eq_some_iff {v w : List Byte} {i : Nat} {data : List Byte} :
    copyInto v i data = some w ↔ i + data.length ≤ v.length ∧ store v i data = w := by
  rw [copyInto, assert_bind_eq_some_iff]
  simp

/-- A `shrink` of a buffer that stands at the room in front. The indices describe the copy too. -/
theorem shrink_aligned (h : Sound b) {reserve : Nat} {memory : Bool}
    (haligned : b.readerIndex = kCheapPrepend)
    (hfits : kCheapPrepend + b.readableBytes + reserve < 2 ^ 64)
    (havail : Available (shrunkSize b reserve) memory) :
    ∃ b', shrink b reserve memory = some (.returned b') ∧ Shrunk b reserve b' ∧ Sound b' := by
  have hb := h.bounds
  have hlength : b.content.length = b.readableBytes := h.wf.length_content
  have hwriter : kCheapPrepend + b.readableBytes = b.writerIndex := by
    unfold Buffer.readableBytes
    omega
  have hsize : shrunkSize b reserve = b.writerIndex + reserve := by
    rw [shrunkSize_eq h, add_of_lt hfits, hwriter]
  have hroom : kCheapPrepend + b.content.length
      ≤ (List.replicate (shrunkSize b reserve) (0 : Byte)).length := by
    rw [List.length_replicate, hsize, hlength, hwriter]
    exact Nat.le_add_right _ _
  have hcopy := window_store _ _ _ hroom
  rw [hlength, hwriter] at hcopy
  have hvector : (store (List.replicate (shrunkSize b reserve) (0 : Byte)) kCheapPrepend
      b.content).length = b.writerIndex + reserve := by
    rw [length_store, List.length_replicate, hsize]
  have hsound : Sound { b with
      buffer := store (List.replicate (shrunkSize b reserve) 0) kCheapPrepend b.content } := by
    refine ⟨⟨h.wf.reader_le, ?_, ?_⟩, h.front, ?_⟩
    · exact hvector ▸ Nat.le_add_right _ _
    · exact hvector ▸ Nat.le_trans h.front (Nat.le_add_right _ _)
    · exact hvector ▸ hsize ▸ havail.1
  refine ⟨_, ?_, ⟨hsound.wf.reader_le, hsound.wf.writer_le, ?_, haligned, ?_⟩, hsound⟩
  · rw [shrink_eq h havail, copyInto_eq_some_iff.mpr ⟨hroom, rfl⟩]
    rfl
  · -- The copy lies between the old indices.
    rw [Buffer.content, haligned]
    exact hcopy
  · rw [hsound.writableBytes_eq, Buffer.writableBytes, hvector]
    exact Nat.add_sub_cancel_left _ _

/-- `shrink` keeps a buffer exactly when its reader index is the room in front, and the sum of
its lengths does not wrap. -/
theorem shrinks_iff (h : Sound b) {reserve : Nat} {memory : Bool} (hreserve : reserve < 2 ^ 64)
    (havail : Available (shrunkSize b reserve) memory) :
    (∃ b', shrink b reserve memory = some (.returned b') ∧ Shrunk b reserve b') ↔
      b.readerIndex = kCheapPrepend ∧ kCheapPrepend + b.readableBytes + reserve < 2 ^ 64 := by
  constructor
  · rintro ⟨b', hcall, hshrunk⟩
    rw [shrink_eq h havail] at hcall
    obtain ⟨buffer, hcopy, hend⟩ := Option.map_eq_some_iff.mp hcall
    obtain rfl := Ending.returned.inj hend
    -- The indices are the old ones.
    refine ⟨hshrunk.prependable, ?_⟩
    by_contra hwraps
    have hroom := (copyInto_eq_some_iff.mp hcopy).1
    have hb := h.bounds
    have hreadable : b.readableBytes < 2 ^ 63 := by
      unfold Buffer.readableBytes
      omega
    rw [List.length_replicate, shrunkSize_eq h,
      add_of_ge (Nat.le_of_not_lt hwraps) (by unfold kCheapPrepend; omega),
      h.wf.length_content] at hroom
    omega
  · rintro ⟨haligned, hfits⟩
    obtain ⟨b', hcall, hshrunk, -⟩ := shrink_aligned h haligned hfits havail
    exact ⟨b', hcall, hshrunk⟩

/-! ### The other methods -/

/-- Bytes for which there is room are copied. -/
theorem copyToBeginWrite_eq (h : Sound b) {data : List Byte}
    (hroom : data.length ≤ b.writableBytes) :
    copyToBeginWrite b data = some (b.storeAtBeginWrite data) := by
  have hb := h.bounds
  have hfits : b.writerIndex + data.length ≤ b.buffer.length := by
    unfold Buffer.writableBytes at hroom
    omega
  rw [copyToBeginWrite, copyInto_eq_some_iff.mpr ⟨hfits, rfl⟩]
  rfl

/-- The writer index behind copied bytes. -/
theorem hasWritten_sound (h : Sound b) {data : List Byte}
    (hroom : data.length ≤ b.writableBytes) :
    hasWritten (b.storeAtBeginWrite data) data.length
        = (b.storeAtBeginWrite data).hasWritten data.length ∧
      Sound ((b.storeAtBeginWrite data).hasWritten data.length) := by
  have hb := h.bounds
  have hsum : add b.writerIndex data.length = b.writerIndex + data.length := by
    unfold Buffer.writableBytes at hroom
    exact add_of_lt (by omega)
  constructor
  · show ({ b.storeAtBeginWrite data with
        writerIndex := add b.writerIndex data.length } : Buffer) = _
    rw [hsum]
    rfl
  · refine ⟨(h.wf.write hroom).1, h.front.trans (Nat.le_add_right _ _), ?_⟩
    exact (length_store _ _ _).symm ▸ h.size_le

/-- The ends of a call in a sound buffer: it is the exact call, or it throws and leaves a sound
buffer too. -/
def Faithful (exact : Option Buffer) (call : Option Ending) : Prop :=
  (∃ b', call = some (.threw b') ∧ Sound b') ∨
    ∃ b', call = some (.returned b') ∧ exact = some b' ∧ Sound b'

theorem append_faithful (h : Sound b) {data : List Byte} (hdata : data.length ≤ maxSize)
    (memory : Bool) : Faithful (b.append data) (append b data memory) := by
  have hb := h.bounds
  have hfits : b.writerIndex + data.length < 2 ^ 64 := by
    unfold maxSize at hdata
    omega
  rcases ensureWritableBytes_cases h hfits memory with hthrew | ⟨b₁, hcall, hexact, hsound⟩
  · refine Or.inl ⟨b, ?_, h⟩
    simp [append, hthrew, Ending.andThen]
  · obtain ⟨b₂, hexact₂, -, -, hroom⟩ := Buffer.ensureWritableBytes_spec h.wf data.length
    obtain rfl := Option.some.inj (hexact₂.symm.trans hexact)
    obtain ⟨hwritten, hsound'⟩ := hasWritten_sound hsound hroom
    refine Or.inr ⟨_, ?_, ?_, hsound'⟩
    · simp [append, hcall, Ending.andThen, copyToBeginWrite_eq hsound hroom, hwritten]
    · simp [Buffer.append, hexact]

theorem readFd_faithful (h : Sound b) {bs : List Byte}
    (hlegal : bs.length ≤ b.writableBytes + Buffer.kExtrabuf) (savedErrno : Int)
    (memory : Bool) :
    Faithful ((b.readFd savedErrno (.bytes bs)).map (·.1)) (readFd b memory (.bytes bs)) := by
  have hb := h.bounds
  have hroom : (bs.take b.writableBytes).length ≤ b.writableBytes := by
    rw [List.length_take]
    exact Nat.min_le_left _ _
  have hcopy := copyToBeginWrite_eq h hroom
  obtain ⟨hwritten, hsound⟩ := hasWritten_sound h hroom
  by_cases hfits : bs.length ≤ b.writableBytes
  · rw [List.take_of_length_le hfits] at hcopy hwritten hsound
    refine Or.inr ⟨_, ?_, ?_, hsound⟩
    · rw [← hwritten]
      simp [readFd, h.writableBytes_eq, hfits, List.take_of_length_le hfits, hcopy]
      rfl
    · simp [Buffer.readFd, hfits, List.take_of_length_le hfits]
      rfl
  · -- The writable bytes are full, and `append` gets the rest.
    obtain ⟨b₁, hb₁⟩ : ∃ b₁, b₁ = b.storeAtBeginWrite (bs.take b.writableBytes) := ⟨_, rfl⟩
    have hfull : (bs.take b.writableBytes).length = b.writableBytes := by
      rw [List.length_take]
      omega
    have hend : b.writerIndex + b.writableBytes = b₁.buffer.length := by
      rw [hb₁, Buffer.storeAtBeginWrite, length_store]
      unfold Buffer.writableBytes
      omega
    have hwriter : b₁.writerIndex = b.writerIndex := hb₁ ▸ rfl
    have hrest : (bs.drop b.writableBytes).length ≤ maxSize := by
      rw [List.length_drop]
      unfold Buffer.kExtrabuf at hlegal
      unfold maxSize
      omega
    rw [hfull, ← hb₁, Buffer.hasWritten, hwriter, hend] at hsound
    rw [← hb₁] at hcopy
    have hexact : b.readFd savedErrno (.bytes bs)
        = (Buffer.append { b₁ with writerIndex := b₁.buffer.length }
            (bs.drop b.writableBytes)).map fun b => (b, (bs.length : Int), savedErrno) := by
      rw [Buffer.readFd, ← hb₁]
      simp only [if_neg hfits, Option.map_eq_bind]
      rfl
    have hcall : readFd b memory (.bytes bs)
        = append { b₁ with writerIndex := b₁.buffer.length } (bs.drop b.writableBytes)
            memory := by
      show (copyToBeginWrite b (bs.take (writableBytes b)) >>= fun b' =>
        if bs.length ≤ writableBytes b then
          some (.returned { b' with writerIndex := add b'.writerIndex bs.length })
        else
          append { b' with writerIndex := b'.buffer.length } (bs.drop (writableBytes b))
            memory) = _
      rw [h.writableBytes_eq, hcopy, Option.bind_eq_bind, Option.bind_some, if_neg hfits]
    have hfirst : ((·.1) ∘ fun b : Buffer => (b, (bs.length : Int), savedErrno)) = id := rfl
    rw [hexact, hcall, Option.map_map, hfirst, Option.map_id_fun, id_eq]
    exact append_faithful hsound hrest memory

/-! ### All methods together -/

/-- The call asks for no more than `size_t` can count, and a `shrink` finds the reader index at
the room in front. -/
def Fits (b : Buffer) : Op → Prop
  | .call (.ensureWritableBytes len) _ => b.writerIndex + len < 2 ^ 64
  | .call _ _ => True
  | .shrink reserve _ =>
      b.readerIndex = kCheapPrepend ∧ kCheapPrepend + b.readableBytes + reserve < 2 ^ 64

instance (b : Buffer) : (op : Op) → Decidable (Fits b op)
  | .call (.ensureWritableBytes len) _ =>
      inferInstanceAs (Decidable (b.writerIndex + len < 2 ^ 64))
  | .call (.append _) _ | .call (.prepend _) _ | .call (.hasWritten _) _
  | .call (.retrieve _) _ | .call (.retrieveUntil _) _ | .call .retrieveAll _
  | .call .retrieveAsString _ | .call (.readFd _ _) _ => isTrue trivial
  | .shrink reserve _ => inferInstanceAs (Decidable (b.readerIndex = kCheapPrepend ∧
      kCheapPrepend + b.readableBytes + reserve < 2 ^ 64))

theorem prepend_faithful (h : Sound b) {data : List Byte}
    (hlegal : data.length ≤ b.prependableBytes) :
    Faithful (b.prepend data) ((prepend b data).map .returned) := by
  have hb := h.bounds
  have hlen : data.length ≤ b.readerIndex := hlegal
  have hsum : sub b.readerIndex data.length = b.readerIndex - data.length :=
    sub_of_le hlen (by omega)
  have hcopy : copyInto b.buffer (b.readerIndex - data.length) data
      = some (store b.buffer (b.readerIndex - data.length) data) :=
    copyInto_eq_some_iff.mpr ⟨by omega, rfl⟩
  obtain ⟨b', hexact, hwf, -⟩ := Buffer.prepend_spec h.wf hlegal
  have hcall : prepend b data = some b' := by
    have hassert : data.length ≤ prependableBytes b := hlegal
    rw [← hexact, prepend, hsum, Buffer.prepend, assert_bind_pos hlegal, assert_bind_pos hassert]
    show (copyInto b.buffer (b.readerIndex - data.length) data >>= _) = _
    rw [hcopy]
    rfl
  obtain ⟨-, hvalue⟩ := assert_bind_eq_some_iff.mp hexact
  obtain rfl := Option.some.inj hvalue
  refine Or.inr ⟨_, by rw [hcall]; rfl, hexact, hwf, h.front, ?_⟩
  exact (length_store _ _ _).symm ▸ h.size_le

theorem retrieve_faithful (h : Sound b) {len : Nat} (hlegal : len ≤ b.readableBytes) :
    retrieve b len = b.retrieve len ∧
      Sound { b with readerIndex := b.readerIndex + len } := by
  have hb := h.bounds
  have hend : b.readerIndex + len ≤ b.writerIndex := by
    unfold Buffer.readableBytes at hlegal
    omega
  refine ⟨?_, ⟨hend, h.wf.writer_le, h.wf.prepend_le⟩, h.front, h.size_le⟩
  rw [retrieve, Buffer.retrieve, h.readableBytes_eq, add_of_lt (by omega)]

/-- A call that fits returns or throws, and leaves a sound buffer. Except for `shrink` it is
then the exact call. -/
theorem call_faithful (h : Sound b) {op : Buffer.Op} {memory : Bool}
    (hlegal : Legal b (.call op memory)) (hfits : Fits b (.call op memory)) :
    Faithful (b.apply op) (apply b (.call op memory)) := by
  obtain ⟨hlegal, hsized⟩ := hlegal
  have hall : Sound b.retrieveAll :=
    ⟨(Buffer.retrieveAll_spec h.wf).1, Nat.le_refl _, h.size_le⟩
  cases op with
  | append data => exact append_faithful h hsized memory
  | retrieve len =>
      obtain ⟨hsame, hsound⟩ := retrieve_faithful h hlegal
      have hexact : b.retrieve len = some { b with readerIndex := b.readerIndex + len } :=
        assert_bind_pos hlegal _
      exact Or.inr ⟨_, by rw [apply, hsame, hexact]; rfl, hexact, hsound⟩
  | retrieveUntil len =>
      obtain ⟨hsame, hsound⟩ := retrieve_faithful h hlegal
      have hend : b.readerIndex + len ≤ b.writerIndex := hsound.wf.reader_le
      have hexact : b.retrieve len = some { b with readerIndex := b.readerIndex + len } :=
        assert_bind_pos hlegal _
      refine Or.inr ⟨_, ?_, ?_, hsound⟩
      · rw [apply, retrieveUntil, assert_bind_pos (Nat.le_add_right _ _), assert_bind_pos hend,
          Nat.add_sub_cancel_left, hsame, hexact]
        rfl
      · rw [Buffer.apply, Buffer.retrieveUntil, assert_bind_pos (Nat.le_add_right _ _),
          assert_bind_pos hend, Nat.add_sub_cancel_left, hexact]
  | retrieveAll => exact Or.inr ⟨_, rfl, rfl, hall⟩
  | retrieveAsString => exact Or.inr ⟨_, rfl, rfl, hall⟩
  | prepend data => exact prepend_faithful h hlegal
  | ensureWritableBytes len =>
      rcases ensureWritableBytes_cases h hfits memory with hthrew | hreturned
      · exact Or.inl ⟨b, hthrew, h⟩
      · exact Or.inr hreturned
  | hasWritten data =>
      obtain ⟨hwritten, hsound⟩ := hasWritten_sound h hlegal
      refine Or.inr ⟨_, ?_, rfl, hsound⟩
      rw [apply, copyToBeginWrite_eq h hlegal, ← hwritten]
      rfl
  | readFd savedErrno result =>
      cases result with
      | error errno => exact Or.inr ⟨b, rfl, rfl, h⟩
      | bytes bs => exact readFd_faithful h hlegal savedErrno memory


/-- One call leaves a sound buffer. -/
theorem apply_sound (h : Sound b) {op : Op} (hlegal : Legal b op) (hfits : Fits b op)
    {ending : Ending} (hcall : apply b op = some ending) : Sound ending.buffer := by
  cases op with
  | call op memory =>
      rcases call_faithful h hlegal hfits with ⟨b', hthrew, hsound⟩ | ⟨b', hreturned, -, hsound⟩
      · obtain rfl := Option.some.inj (hthrew.symm.trans hcall)
        exact hsound
      · obtain rfl := Option.some.inj (hreturned.symm.trans hcall)
        exact hsound
  | shrink reserve memory =>
      by_cases havail : Available (shrunkSize b reserve) memory
      · obtain ⟨b', hreturned, -, hsound⟩ := shrink_aligned h hfits.1 hfits.2 havail
        obtain rfl := Option.some.inj (hreturned.symm.trans hcall)
        exact hsound
      · obtain rfl := Option.some.inj ((shrink_threw havail).symm.trans hcall)
        exact h

/-! ### Runs -/

section Runs

variable {ι : Type} [DecidableEq ι]

/-- Every call fits. -/
def StepFits (bufs : ι → Buffer) : Action ι → Prop
  | .call i op => Fits (bufs i) op
  | .swap _ _ => True

instance (bufs : ι → Buffer) : (a : Action ι) → Decidable (StepFits bufs a)
  | .call i op => inferInstanceAs (Decidable (Fits (bufs i) op))
  | .swap _ _ => isTrue trivial

/-- Runs whose calls fit keep all buffers sound. -/
theorem sound_of_run {as : List (Action ι)} {bufs : ι → Buffer}
    (hrun : ((machine ι).restrict StepFits).Run (fun _ => Buffer.new) as bufs) (i : ι) :
    Sound (bufs i) := by
  refine hrun.invariant (I := fun bufs => ∀ i, Sound (bufs i)) (fun _ => new_sound) ?_ i
  intro bufs a bufs' h hlegal hstep
  cases a with
  | call j op =>
      obtain ⟨ending, hcall, rfl⟩ := Option.map_eq_some_iff.mp hstep
      have hsound := apply_sound (h j) hlegal.1 hlegal.2 hcall
      intro k
      by_cases hk : k = j
      · subst hk
        simpa using hsound
      · simpa [hk] using h k
  | swap j l =>
      obtain rfl := Option.some.inj hstep
      intro k
      by_cases hkl : k = l
      · subst hkl
        simpa [Buffer.swap] using h j
      · by_cases hkj : k = j
        · subst hkj
          simpa [hkl, Buffer.swap] using h l
        · simpa [hkl, hkj] using h k

/-- In every run whose calls fit, a request for space is answered as it should be exactly when
`writerIndex + len` does not wrap. -/
theorem ensureWritableBytes_holds_iff (as : List (Action ι)) (bufs : ι → Buffer)
    (hrun : ((machine ι).restrict StepFits).Run (fun _ => Buffer.new) as bufs)
    (i : ι) (len : Nat) (hlen : len < 2 ^ 64) (memory : Bool) :
    RequestHolds (bufs i) len memory ↔ (bufs i).writerIndex + len < 2 ^ 64 :=
  requestHolds_iff (sound_of_run hrun i) hlen memory

/-- The theorem at a request that makes the vector longer. -/
theorem ensureWritableBytes_holds_iff_append :
    ∃ bufs : Unit → Buffer, ((machine Unit).restrict StepFits).Run (fun _ => Buffer.new)
        [.call () (.call (.append [1, 2, 3]) true)] bufs ∧ RequestHolds (bufs ()) 5000 true := by
  obtain ⟨bufs, hrun, hwriter⟩ := Machine.exists_run (M := (machine Unit).restrict StepFits)
    (P := fun bufs => (bufs ()).writerIndex = 11) (fun _ => Buffer.new)
    [.call () (.call (.append [1, 2, 3]) true)] (by decide +kernel)
  have hfits : (bufs ()).writerIndex + 5000 < 2 ^ 64 := by omega
  exact ⟨bufs, hrun,
    (ensureWritableBytes_holds_iff _ _ hrun () 5000 (by decide) true).mpr hfits⟩

/-- A buffer that holds three bytes and a request of `2 ^ 64 - 10` bytes: the sum is `1`, and the
vector is cut to one byte. -/
theorem ensureWritableBytes_cuts :
    ¬ ∀ (as : List (Action Unit)) (bufs : Unit → Buffer),
      (machine Unit).Run (fun _ => Buffer.new) as bufs →
      ∀ (i : Unit) (len : Nat), len < 2 ^ 64 → ∀ memory, RequestHolds (bufs i) len memory := by
  intro hall
  obtain ⟨bufs, hrun, hwriter⟩ := Machine.exists_run (M := (machine Unit).restrict StepFits)
    (P := fun bufs => (bufs ()).writerIndex = 11) (fun _ => Buffer.new)
    [.call () (.call (.append [1, 2, 3]) true)] (by decide +kernel)
  have hlen : 2 ^ 64 - 10 < 2 ^ 64 := by decide
  have hholds := hall _ bufs hrun.of_restrict () (2 ^ 64 - 10) hlen true
  have hfits := (requestHolds_iff (sound_of_run hrun ()) hlen true).mp hholds
  omega

/-- In every run whose calls fit, `shrink` keeps the buffer exactly when the reader index is the
room in front and the sum of the lengths does not wrap. -/
theorem shrink_holds_iff (as : List (Action ι)) (bufs : ι → Buffer)
    (hrun : ((machine ι).restrict StepFits).Run (fun _ => Buffer.new) as bufs)
    (i : ι) (reserve : Nat) (hreserve : reserve < 2 ^ 64) (memory : Bool)
    (havail : Available (shrunkSize (bufs i) reserve) memory) :
    (∃ b', shrink (bufs i) reserve memory = some (.returned b') ∧ Shrunk (bufs i) reserve b') ↔
      (bufs i).readerIndex = kCheapPrepend ∧
        kCheapPrepend + (bufs i).readableBytes + reserve < 2 ^ 64 :=
  shrinks_iff (sound_of_run hrun i) hreserve havail

/-- The theorem at a buffer that was never consumed. -/
theorem shrink_holds_iff_append :
    ∃ bufs : Unit → Buffer, ((machine Unit).restrict StepFits).Run (fun _ => Buffer.new)
        [.call () (.call (.append [1, 2, 3]) true)] bufs ∧
      ∃ b', shrink (bufs ()) 4 true = some (.returned b') ∧ Shrunk (bufs ()) 4 b' := by
  obtain ⟨bufs, hrun, hreader, havail, hsum⟩ :=
    Machine.exists_run (M := (machine Unit).restrict StepFits)
      (P := fun bufs => (bufs ()).readerIndex = kCheapPrepend ∧
        Available (shrunkSize (bufs ()) 4) true ∧
        kCheapPrepend + (bufs ()).readableBytes + 4 < 2 ^ 64) (fun _ => Buffer.new)
      [.call () (.call (.append [1, 2, 3]) true)] (by decide +kernel)
  exact ⟨bufs, hrun,
    (shrink_holds_iff _ _ hrun () 4 (by decide) true havail).mpr ⟨hreader, hsum⟩⟩

/-- A buffer from which one byte was retrieved: the reader index is `9`, and `shrink` copies the
readable bytes to `8`. -/
theorem shrink_moves_content :
    ¬ ∀ (as : List (Action Unit)) (bufs : Unit → Buffer),
      (machine Unit).Run (fun _ => Buffer.new) as bufs →
      ∀ (i : Unit) (reserve : Nat), reserve < 2 ^ 64 →
        ∀ memory, Available (shrunkSize (bufs i) reserve) memory →
          ∃ b', shrink (bufs i) reserve memory = some (.returned b') ∧
            Shrunk (bufs i) reserve b' := by
  intro hall
  obtain ⟨bufs, hrun, hreader, havail⟩ :=
    Machine.exists_run (M := (machine Unit).restrict StepFits)
      (P := fun bufs => (bufs ()).readerIndex = 9 ∧ Available (shrunkSize (bufs ()) 0) true)
      (fun _ => Buffer.new)
      [.call () (.call (.append [1, 2, 3]) true), .call () (.call (.retrieve 1) true)]
      (by decide +kernel)
  have hholds := hall _ bufs hrun.of_restrict () 0 (by decide) true havail
  have haligned := ((shrinks_iff (sound_of_run hrun ()) (by decide) havail).mp hholds).1
  rw [hreader] at haligned
  exact absurd haligned (by decide)

end Runs

end Wrapping

end SecondGear
