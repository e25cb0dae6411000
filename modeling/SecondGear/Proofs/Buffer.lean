import Mathlib.Logic.Function.Basic
import SecondGear.Model.Buffer

/-!
# `SecondGear.Proofs.Buffer`: the buffer is a byte queue

The abstract buffer is the list of its readable bytes. `ByteQueue.apply` says what each
method does to that list. `Buffer.Wf` is the representation invariant of `Buffer.h`.

Each method has one spec lemma, `..._spec`: under the invariant and the method's own
assertion it returns, keeps the invariant, and its content is that of the queue.
`apply_spec` collects them. `buffers_refine_byteQueues` lifts them to every run over any
number of buffers that may be swapped.
-/

set_option autoImplicit false

namespace SecondGear

open SecondGear.Lib

namespace ByteQueue

/-- What a call does to the queue of readable bytes. -/
def apply (q : List Byte) : Buffer.Op → List Byte
  | .append data => q ++ data
  | .retrieve len => q.drop len
  | .retrieveUntil len => q.drop len
  | .retrieveAll => []
  | .retrieveAsString => []
  | .prepend data => data ++ q
  | .ensureWritableBytes _ => q
  | .hasWritten data => q ++ data
  | .readFd _ (.bytes bs) => q ++ bs
  | .readFd _ (.error _) => q

/-- What a call or a swap does to several queues. -/
def applyAll {ι : Type} [DecidableEq ι] (qs : ι → List Byte) :
    BuffersAction ι → ι → List Byte
  | .call i op => Function.update qs i (apply (qs i) op)
  | .swap i j => Function.update (Function.update qs i (qs j)) j (qs i)

end ByteQueue

namespace Buffer

/-- `readerIndex <= writerIndex <= size`, and the vector never gets shorter than the room
that `retrieveAll` leaves in front. -/
structure Wf (b : Buffer) : Prop where
  reader_le : b.readerIndex ≤ b.writerIndex
  writer_le : b.writerIndex ≤ b.buffer.length
  prepend_le : kCheapPrepend ≤ b.buffer.length

theorem new_wf : new.Wf where
  reader_le := Nat.le_refl _
  writer_le := by simp [new]
  prepend_le := by simp [new]

@[simp] theorem new_content : new.content = [] := window_self _ _

@[simp] theorem length_resize (v : List Byte) (n : Nat) : (resize v n).length = n := by
  rw [resize, List.length_append, List.length_take, List.length_replicate]
  omega

/-- A longer vector keeps its windows. -/
theorem window_resize (v : List Byte) {n i j : Nat} (hn : v.length ≤ n)
    (hj : j ≤ v.length) : window (resize v n) i j = window v i j := by
  rw [resize, List.take_of_length_le hn, window_append_right v _ hj]

namespace Wf

variable {b : Buffer}

/-- `readableBytes()` counts the readable bytes. -/
theorem length_content (h : b.Wf) : b.content.length = b.readableBytes :=
  length_window _ _ _ h.writer_le

/-- The three regions fill the vector. -/
theorem regions (h : b.Wf) :
    b.prependableBytes + b.readableBytes + b.writableBytes = b.buffer.length := by
  have h1 := h.reader_le
  have h2 := h.writer_le
  unfold prependableBytes readableBytes writableBytes
  omega

/-- The content with room behind it: a longer vector has the same content. -/
theorem grow (h : b.Wf) {n : Nat} (hn : b.buffer.length ≤ n) :
    ({ b with buffer := resize b.buffer n } : Buffer).Wf ∧
      ({ b with buffer := resize b.buffer n } : Buffer).content = b.content := by
  refine ⟨⟨h.reader_le, ?_, ?_⟩, window_resize b.buffer hn h.writer_le⟩
  · rw [length_resize]
    exact h.writer_le.trans hn
  · rw [length_resize]
    exact h.prepend_le.trans hn

/-- Storing at `beginWrite()` and moving the writer index over it adds at the back. -/
theorem write (h : b.Wf) {data : List Byte} (hroom : data.length ≤ b.writableBytes) :
    ((b.storeAtBeginWrite data).hasWritten data.length).Wf ∧
      ((b.storeAtBeginWrite data).hasWritten data.length).content = b.content ++ data := by
  have h1 := h.reader_le
  have h2 := h.writer_le
  have hfit : b.writerIndex + data.length ≤ b.buffer.length := by
    unfold writableBytes at hroom
    omega
  refine ⟨⟨?_, ?_, ?_⟩, ?_⟩
  · exact h1.trans (Nat.le_add_right _ _)
  · simpa [hasWritten, storeAtBeginWrite] using hfit
  · simpa [hasWritten, storeAtBeginWrite] using h.prepend_le
  · show window (store b.buffer b.writerIndex data) b.readerIndex
        (b.writerIndex + data.length) = b.content ++ data
    rw [← window_append _ h1 (Nat.le_add_right _ _) (by simpa using hfit),
      window_store_of_le _ _ _ hfit (Nat.le_refl _), window_store _ _ _ hfit]
    rfl

end Wf

/-! ### One spec lemma for each method -/

variable {b : Buffer}

theorem retrieve_spec (h : b.Wf) {len : Nat} (hlen : len ≤ b.readableBytes) :
    ∃ b', b.retrieve len = some b' ∧ b'.Wf ∧ b'.content = b.content.drop len := by
  refine ⟨{ b with readerIndex := b.readerIndex + len }, assert_bind_pos hlen _,
    ⟨?_, h.writer_le, h.prepend_le⟩, ?_⟩
  · have h1 := h.reader_le
    unfold readableBytes at hlen
    show b.readerIndex + len ≤ b.writerIndex
    omega
  · exact (drop_window _ _ _ _).symm

theorem retrieveUntil_spec (h : b.Wf) {len : Nat} (hlen : len ≤ b.readableBytes) :
    ∃ b', b.retrieveUntil (b.readerIndex + len) = some b' ∧ b'.Wf ∧
      b'.content = b.content.drop len := by
  have hend : b.readerIndex + len ≤ b.writerIndex := by
    have h1 := h.reader_le
    unfold readableBytes at hlen
    omega
  have hcall : b.retrieveUntil (b.readerIndex + len) = b.retrieve len := by
    rw [retrieveUntil, assert_bind_pos (Nat.le_add_right _ _), assert_bind_pos hend,
      Nat.add_sub_cancel_left]
  rw [hcall]
  exact retrieve_spec h hlen

theorem retrieveAll_spec (h : b.Wf) : b.retrieveAll.Wf ∧ b.retrieveAll.content = [] :=
  ⟨⟨Nat.le_refl _, h.prepend_le, h.prepend_le⟩, window_self _ _⟩

/-- `makeSpace` is only called when the writable bytes do not suffice. Then the branch
that moves the data finds the reader index above `kCheapPrepend`. -/
theorem makeSpace_spec (h : b.Wf) {len : Nat} (hlen : b.writableBytes < len) :
    ∃ b', b.makeSpace len = some b' ∧ b'.Wf ∧ b'.content = b.content ∧
      len ≤ b'.writableBytes := by
  have hsum := h.regions
  have h1 := h.reader_le
  have h2 := h.writer_le
  by_cases hgrow : b.writableBytes + b.prependableBytes < len + kCheapPrepend
  · have hsize : b.buffer.length ≤ b.writerIndex + len := by
      unfold writableBytes at hlen
      omega
    refine ⟨_, by rw [makeSpace, if_pos hgrow], (h.grow hsize).1, (h.grow hsize).2, ?_⟩
    simp [writableBytes]
  · -- Not enough room behind the data, enough in both places together: the rest of the
    -- room is in front, so the reader index is above `kCheapPrepend`.
    have hfront : kCheapPrepend < b.readerIndex := by
      unfold prependableBytes at hgrow
      omega
    have hfit : b.readerIndex + b.readableBytes ≤ b.buffer.length := by
      unfold readableBytes
      omega
    have hmove := window_copyWithin b.buffer b.readableBytes (Nat.le_of_lt hfront) hfit
    have hreader : b.readerIndex + b.readableBytes = b.writerIndex := by
      unfold readableBytes
      omega
    have hcount : b.readableBytes = kCheapPrepend + b.readableBytes - kCheapPrepend :=
      (Nat.add_sub_cancel_left _ _).symm
    refine ⟨{ buffer := copyWithin b.buffer b.readerIndex kCheapPrepend b.readableBytes,
              readerIndex := kCheapPrepend, writerIndex := kCheapPrepend + b.readableBytes },
      ?_, ⟨?_, ?_, ?_⟩, ?_, ?_⟩
    · rw [makeSpace, if_neg hgrow, assert_bind_pos hfront]
      exact assert_bind_pos hcount _
    · exact Nat.le_add_right _ _
    · rw [length_copyWithin]
      show kCheapPrepend + b.readableBytes ≤ b.buffer.length
      omega
    · rw [length_copyWithin]
      exact h.prepend_le
    · show window (copyWithin b.buffer b.readerIndex kCheapPrepend b.readableBytes)
          kCheapPrepend (kCheapPrepend + b.readableBytes) = b.content
      rw [hmove, hreader]
      rfl
    · show len ≤ (copyWithin b.buffer b.readerIndex kCheapPrepend b.readableBytes).length
          - (kCheapPrepend + b.readableBytes)
      rw [length_copyWithin]
      unfold prependableBytes at hgrow hsum
      omega

theorem ensureWritableBytes_spec (h : b.Wf) (len : Nat) :
    ∃ b', b.ensureWritableBytes len = some b' ∧ b'.Wf ∧ b'.content = b.content ∧
      len ≤ b'.writableBytes := by
  by_cases hlen : b.writableBytes < len
  · obtain ⟨b', hcall, hwf, hcontent, hroom⟩ := makeSpace_spec h hlen
    refine ⟨b', ?_, hwf, hcontent, hroom⟩
    simp [ensureWritableBytes, hlen, hcall, assert_pos hroom]
  · have hroom : len ≤ b.writableBytes := Nat.le_of_not_lt hlen
    refine ⟨b, ?_, h, rfl, hroom⟩
    simp [ensureWritableBytes, hlen, assert_pos hroom]

theorem append_spec (h : b.Wf) (data : List Byte) :
    ∃ b', b.append data = some b' ∧ b'.Wf ∧ b'.content = b.content ++ data := by
  obtain ⟨b₁, hcall, hwf, hcontent, hroom⟩ := ensureWritableBytes_spec h data.length
  refine ⟨_, by simp [append, hcall], (hwf.write hroom).1, ?_⟩
  rw [(hwf.write hroom).2, hcontent]

theorem prepend_spec (h : b.Wf) {data : List Byte}
    (hlen : data.length ≤ b.prependableBytes) :
    ∃ b', b.prepend data = some b' ∧ b'.Wf ∧ b'.content = data ++ b.content := by
  have h1 := h.reader_le
  have h2 := h.writer_le
  have hend : b.readerIndex - data.length + data.length = b.readerIndex :=
    Nat.sub_add_cancel hlen
  have hfit : b.readerIndex - data.length + data.length ≤ b.buffer.length := by omega
  refine ⟨{ b with readerIndex := b.readerIndex - data.length,
                   buffer := store b.buffer (b.readerIndex - data.length) data },
    assert_bind_pos hlen _, ⟨?_, ?_, ?_⟩, ?_⟩
  · exact (Nat.sub_le _ _).trans h1
  · simpa using h2
  · simpa using h.prepend_le
  · show window (store b.buffer (b.readerIndex - data.length) data)
        (b.readerIndex - data.length) b.writerIndex = data ++ b.content
    have hdata := window_store b.buffer (b.readerIndex - data.length) data hfit
    have hrest := window_store_of_ge b.buffer (a := b.readerIndex) data b.writerIndex hfit
      (Nat.le_of_eq hend)
    rw [hend] at hdata
    rw [← window_append _ (Nat.sub_le b.readerIndex data.length) h1 (by simpa using h2),
      hdata, hrest]
    rfl

/-- `readFd` adds what the kernel returned, whether or not it spilled into `extrabuf`. A
failed `readFd` changes nothing and saves `errno`. -/
theorem readFd_spec (h : b.Wf) (savedErrno : Int) (bs : List Byte) :
    ∃ b' : Buffer, b.readFd savedErrno (.bytes bs) = some (b', (bs.length : Int), savedErrno) ∧
      b'.Wf ∧ b'.content = b.content ++ bs := by
  have hlen : (bs.take b.writableBytes).length ≤ b.writableBytes := by
    rw [List.length_take]
    exact Nat.min_le_left _ _
  obtain ⟨hwf, hcontent⟩ := h.write hlen
  by_cases hfits : bs.length ≤ b.writableBytes
  · rw [List.take_of_length_le hfits] at hwf hcontent
    exact ⟨_, by simp [readFd, hfits, List.take_of_length_le hfits]; rfl, hwf, hcontent⟩
  · -- The kernel filled the writable bytes and the rest went to `extrabuf`.
    have hfull : (bs.take b.writableBytes).length = b.writableBytes := by
      rw [List.length_take]
      omega
    have hend : (b.storeAtBeginWrite (bs.take b.writableBytes)).buffer.length
        = b.writerIndex + b.writableBytes := by
      have h2 := h.writer_le
      simp only [storeAtBeginWrite, length_store]
      unfold writableBytes
      omega
    obtain ⟨b', hcall, hwf', hcontent'⟩ := append_spec hwf (bs.drop b.writableBytes)
    refine ⟨b', ?_, hwf', ?_⟩
    · rw [hfull, hasWritten] at hcall
      simp only [readFd, if_neg hfits, hend]
      rw [show (b.storeAtBeginWrite (bs.take b.writableBytes)).writerIndex
        = b.writerIndex from rfl] at hcall
      rw [hcall]
      rfl
    · rw [hcontent', hcontent, List.append_assoc, List.take_append_drop]

/-! ### All methods together -/

/-- A legal call returns, keeps the invariant, and does to the content what it does to
the queue. -/
theorem apply_spec (h : b.Wf) {op : Op} (hlegal : b.Legal op) :
    ∃ b', b.apply op = some b' ∧ b'.Wf ∧ b'.content = ByteQueue.apply b.content op := by
  cases op with
  | append data => exact append_spec h data
  | retrieve len => exact retrieve_spec h hlegal
  | retrieveUntil len => exact retrieveUntil_spec h hlegal
  | retrieveAll => exact ⟨_, rfl, retrieveAll_spec h⟩
  | retrieveAsString => exact ⟨_, rfl, retrieveAll_spec h⟩
  | prepend data => exact prepend_spec h hlegal
  | ensureWritableBytes len =>
      obtain ⟨b', hcall, hwf, hcontent, -⟩ := ensureWritableBytes_spec h len
      exact ⟨b', hcall, hwf, hcontent⟩
  | hasWritten data => exact ⟨_, rfl, h.write hlegal⟩
  | readFd savedErrno result =>
      cases result with
      | error errno => exact ⟨b, rfl, h, rfl⟩
      | bytes bs =>
          obtain ⟨b', hcall, hwf, hcontent⟩ := readFd_spec h savedErrno bs
          exact ⟨b', by simp [apply, hcall], hwf, hcontent⟩

end Buffer

/-! ### Runs -/

section Runs

variable {ι : Type} [DecidableEq ι]

/-- All buffers meet the invariant. -/
def AllWf (bufs : ι → Buffer) : Prop := ∀ i, (bufs i).Wf

/-- The contents of all buffers. -/
def contents (bufs : ι → Buffer) : ι → List Byte := fun i => (bufs i).content

/-- Replacing one buffer replaces its content. -/
theorem contents_update (bufs : ι → Buffer) (i : ι) (b : Buffer) :
    contents (Function.update bufs i b) = Function.update (contents bufs) i b.content := by
  funext k
  by_cases hk : k = i
  · subst hk
    simp [contents]
  · simp [contents, hk]

theorem AllWf.update {bufs : ι → Buffer} (h : AllWf bufs) (i : ι) {b : Buffer}
    (hb : b.Wf) : AllWf (Function.update bufs i b) := by
  intro k
  by_cases hk : k = i
  · subst hk
    simpa using hb
  · simpa [hk] using h k

/-- One step over several buffers: it returns, keeps the invariant, and follows the
queues. -/
theorem buffers_step {bufs : ι → Buffer} (h : AllWf bufs) {a : BuffersAction ι}
    (hlegal : (buffersMachine ι).legal bufs a) :
    ∃ bufs', (buffersMachine ι).step bufs a = some bufs' ∧ AllWf bufs' ∧
      contents bufs' = ByteQueue.applyAll (contents bufs) a := by
  cases a with
  | call i op =>
      obtain ⟨b', hcall, hwf, hcontent⟩ := Buffer.apply_spec (h i) hlegal
      refine ⟨_, by simp [buffersMachine, hcall], h.update i hwf, ?_⟩
      rw [contents_update, hcontent]
      rfl
  | swap i j =>
      refine ⟨_, rfl, (h.update i (h j)).update j (h i), ?_⟩
      rw [contents_update, contents_update]
      rfl

/-- Buffers refine byte queues. In every run over any number of buffers that starts from
the constructor, no assertion fails, the indices stay ordered inside the vector, and the
readable bytes are those of the queues. -/
theorem buffers_refine_byteQueues (as : List (BuffersAction ι)) (bufs : ι → Buffer)
    (hrun : (buffersMachine ι).Run (fun _ => Buffer.new) as bufs) :
    (∀ i, (bufs i).readerIndex ≤ (bufs i).writerIndex ∧
      (bufs i).writerIndex ≤ (bufs i).buffer.length) ∧
    (∀ a, (buffersMachine ι).legal bufs a →
      ((buffersMachine ι).step bufs a).isSome) ∧
    (fun i => (bufs i).content) = as.foldl ByteQueue.applyAll (fun _ => []) := by
  have hinit : AllWf (fun _ : ι => Buffer.new) := fun _ => Buffer.new_wf
  have hstep : ∀ (s : ι → Buffer) a s', AllWf s → (buffersMachine ι).legal s a →
      (buffersMachine ι).step s a = some s' →
      AllWf s' ∧ contents s' = ByteQueue.applyAll (contents s) a := by
    intro s a s' hs hlegal hs'
    obtain ⟨t, ht, hwf, hcontent⟩ := buffers_step hs hlegal
    rw [hs', Option.some.injEq] at ht
    exact ht ▸ ⟨hwf, hcontent⟩
  have hwf : AllWf bufs := hrun.invariant hinit fun s a s' hs hl hs' => (hstep s a s' hs hl hs').1
  refine ⟨fun i => ⟨(hwf i).reader_le, (hwf i).writer_le⟩, ?_, ?_⟩
  · intro a hlegal
    obtain ⟨bufs', hcall, -⟩ := buffers_step hwf hlegal
    rw [hcall]
    rfl
  · have hfold := hrun.foldl_eq (f := contents) (g := ByteQueue.applyAll) hinit
      (fun s a s' hs hl hs' => (hstep s a s' hs hl hs').1)
      (fun s a s' hs hl hs' => (hstep s a s' hs hl hs').2)
    have hempty : contents (fun _ : ι => Buffer.new) = fun _ => [] := by
      funext i
      exact Buffer.new_content
    rw [hempty] at hfold
    exact hfold

end Runs

/-- The theorem at a run that appends, consumes, reads and swaps. -/
theorem buffers_refine_byteQueues_swap :
    ∃ bufs, (buffersMachine Bool).Run (fun _ => Buffer.new)
        [.call true (.append [1, 2, 3]), .call true (.retrieve 1),
          .call true (.readFd 0 (.bytes [4])), .swap true false] bufs ∧
      (bufs false).content = [2, 3, 4] := by
  have hexec : ((buffersMachine Bool).exec (fun _ => Buffer.new)
      [.call true (.append [1, 2, 3]), .call true (.retrieve 1),
        .call true (.readFd 0 (.bytes [4])), .swap true false]).isSome := by
    decide +kernel
  have hrun := Machine.Run.of_exec (Option.some_get hexec).symm
  exact ⟨_, hrun, congrFun (buffers_refine_byteQueues _ _ hrun).2.2 false⟩

end SecondGear
