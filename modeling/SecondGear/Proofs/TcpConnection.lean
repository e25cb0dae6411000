import SecondGear.Model.TcpConnection
import SecondGear.Proofs.Buffer
import SecondGear.Proofs.PollerCalls

/-!
# `SecondGear.Proofs.TcpConnection`: what one method does to the output

One spec lemma for each method that writes, `..._spec`: which bytes went to the socket,
which ones stay in the output buffer, and which call of the table came with it. They hold
over any table. `outputStream` is what the connection has sent and still has to send.

* `sendInLoop_spec`, `sendInLoop_stream`: `sendInLoop` adds its message to the stream.
* `handleWrite_spec`, `handleWrite_stream`: `handleWrite` moves bytes from the buffer to
  the socket and leaves the stream alone.
* `Channel.ReadsOnly`: the constructor installs the read callback and no other one, so
  `handleEvent` calls `handleRead` or nothing.
-/

set_option autoImplicit false

namespace SecondGear

open SecondGear.Lib

namespace Socket

@[simp] theorem accepted_write (socket : Socket) (data : List Byte) (result : WriteResult) :
    (socket.write data result).accepted = socket.accepted ++ data.take result.taken := by
  simp [accepted, write, SocketCall.accepted]

@[simp] theorem accepted_shutdownWrite (socket : Socket) :
    socket.shutdownWrite.accepted = socket.accepted := by
  simp [accepted, shutdownWrite, SocketCall.accepted]

end Socket

/-- The kernel takes a positive count exactly when the result is positive. -/
theorem WriteResult.toInt_pos_iff (result : WriteResult) : 0 < result.toInt ↔ 0 < result.taken := by
  cases result with
  | ok n => simp [toInt, taken]
  | error errno => simp [toInt, taken]

/-- No readable bytes, no content. -/
theorem Buffer.Wf.readableBytes_eq_zero {b : Buffer} (h : b.Wf) :
    b.readableBytes = 0 ↔ b.content = [] := by
  rw [← h.length_content, List.length_eq_zero_iff]

/-! ### The callbacks of the channel -/

/-- The read callback is installed, and no other one. -/
structure Channel.ReadsOnly (ch : Channel) : Prop where
  read : ch.readCallback = some .handleRead
  write : ch.writeCallback = none
  error : ch.errorCallback = none
  close : ch.closeCallback = none

/-- Such a channel calls `handleRead` when there is something to read, and nothing
otherwise. -/
theorem Channel.ReadsOnly.handleEvent_eq {ch : Channel} (h : ch.ReadsOnly) :
    ch.handleEvent
      = if ch.revents &&& (POLLIN ||| POLLPRI ||| POLLRDHUP) != 0#32 then [.handleRead]
        else [] := by
  simp [Channel.handleEvent, h.read, h.write, h.error, h.close]

/-- No call on the table installs or removes a callback. -/
theorem Poller.SameObjects.readsOnly {p p' : Poller} (h : SameObjects p p') {c : ChannelPtr}
    (hc : (p.channel c).ReadsOnly) : (p'.channel c).ReadsOnly := by
  obtain ⟨e, r, i, hd⟩ := h c
  rw [hd]
  exact ⟨hc.read, hc.write, hc.error, hc.close⟩

namespace TcpConnection

variable {p p' : Poller} {conn conn' : TcpConnection} {result : WriteResult}

/-- The constructor installs the read callback only. -/
theorem new_readsOnly (p : Poller) (c : ChannelPtr) (sockfd : Int) :
    ((new p c sockfd).1.channel c).ReadsOnly := by
  have hc : (new p c sockfd).1.channel c
      = (Channel.new sockfd).setReadCallBack .handleRead := Poller.setChannel_self p c _
  rw [hc]
  exact ⟨rfl, rfl, rfl, rfl⟩

/-- The bytes that the kernel took so far and those that wait in the output buffer. -/
def outputStream (conn : TcpConnection) : List Byte :=
  conn.socket.accepted ++ conn.outputBuffer.content

/-- `sendInLoop` writes directly when it is not writing and nothing waits. -/
def writesDirectly (p : Poller) (conn : TcpConnection) : Bool :=
  !isWriting p conn && conn.outputBuffer.readableBytes == 0

/-- How much of its message `sendInLoop` gets written directly. -/
def nwrote (p : Poller) (conn : TcpConnection) (result : WriteResult) : Nat :=
  if writesDirectly p conn then result.taken else 0

/-! ### `sendInLoop` -/

/-- What `sendInLoop` does: what was not written directly goes to the end of the output
buffer, and the first bytes left there turn on the write interest. -/
theorem sendInLoop_spec (hwf : conn.outputBuffer.Wf) {message : List Byte}
    (h : conn.sendInLoop p message result = some (p', conn')) :
    ∃ b, b.Wf ∧
      b.content = conn.outputBuffer.content ++ message.drop (nwrote p conn result) ∧
      conn' = { conn with
        socket := if writesDirectly p conn then conn.socket.write message result
          else conn.socket
        outputBuffer := b } ∧
      if nwrote p conn result < message.length ∧ isWriting p conn = false then
        p.enableWriting conn.channel = some p'
      else p' = p := by
  obtain ⟨b, happend, hb, hcontent⟩ :=
    Buffer.append_spec hwf (message.drop (nwrote p conn result))
  have hn : (if writesDirectly p conn then result.taken else 0) = nwrote p conn result := rfl
  rw [sendInLoop] at h
  simp only [show (!isWriting p conn && conn.outputBuffer.readableBytes == 0)
    = writesDirectly p conn from rfl, hn] at h
  by_cases hrest : nwrote p conn result < message.length
  · -- Something is left, which goes to the buffer.
    rw [if_pos hrest] at h
    obtain ⟨b', hb', h⟩ := bind_eq_some_iff.mp h
    rw [happend, Option.some.injEq] at hb'
    subst hb'
    have hsame : ∀ socket, isWriting p { conn with socket := socket, outputBuffer := b }
        = isWriting p conn := fun _ => rfl
    rw [hsame] at h
    cases hw : isWriting p conn with
    | true =>
        rw [hw] at h
        obtain ⟨rfl, rfl⟩ := Prod.mk.inj (Option.some.inj h)
        exact ⟨b, hb, hcontent, rfl, by simp⟩
    | false =>
        rw [hw] at h
        obtain ⟨p₁, hp₁, h⟩ := bind_eq_some_iff.mp h
        obtain ⟨rfl, rfl⟩ := Prod.mk.inj (Option.some.inj h)
        exact ⟨b, hb, hcontent, rfl, by rw [if_pos ⟨hrest, rfl⟩]; exact hp₁⟩
  · -- Everything was written: no buffer, no interest.
    have hall : message.drop (nwrote p conn result) = [] :=
      List.drop_eq_nil_of_le (Nat.le_of_not_lt hrest)
    rw [if_neg hrest] at h
    obtain ⟨rfl, rfl⟩ := Prod.mk.inj (Option.some.inj h)
    refine ⟨conn.outputBuffer, hwf, by rw [hall, List.append_nil], rfl, ?_⟩
    rw [if_neg (fun hlt => hrest hlt.1)]

/-- `sendInLoop` adds its message at the end of the stream, whatever `::write` returns. -/
theorem sendInLoop_stream (hwf : conn.outputBuffer.Wf) {message : List Byte}
    (h : conn.sendInLoop p message result = some (p', conn')) :
    conn'.outputBuffer.Wf ∧ conn'.outputStream = conn.outputStream ++ message ∧
      conn'.channel = conn.channel ∧ Poller.SameObjects p p' := by
  obtain ⟨b, hb, hcontent, rfl, hp⟩ := sendInLoop_spec hwf h
  have hobjects : Poller.SameObjects p p' := by
    split at hp
    · exact .of_apply (show (PollerOp.enableWriting _).apply p = some p' from hp)
    · exact hp ▸ .refl p
  refine ⟨hb, ?_, rfl, hobjects⟩
  show (if writesDirectly p conn then conn.socket.write message result
    else conn.socket).accepted ++ b.content = conn.outputStream ++ message
  rw [hcontent, nwrote, outputStream]
  cases hd : writesDirectly p conn with
  | true =>
      -- Nothing waits in the buffer, so the written prefix and the rest stay together.
      have hempty : conn.outputBuffer.content = [] := by
        have hzero : conn.outputBuffer.readableBytes = 0 := by
          simp [writesDirectly] at hd
          exact hd.2
        exact hwf.readableBytes_eq_zero.mp hzero
      simp [hempty]
  | false => simp

/-- `sendInLoop` returns when the table takes the write interest. -/
theorem sendInLoop_returns (hwf : conn.outputBuffer.Wf) (message : List Byte)
    (result : WriteResult) {p₁ : Poller} (hwriting : p.enableWriting conn.channel = some p₁) :
    ∃ p' conn', conn.sendInLoop p message result = some (p', conn') := by
  obtain ⟨b, happend, -⟩ := Buffer.append_spec hwf (message.drop (nwrote p conn result))
  have hn : (if writesDirectly p conn then result.taken else 0) = nwrote p conn result := rfl
  rw [sendInLoop]
  simp only [show (!isWriting p conn && conn.outputBuffer.readableBytes == 0)
    = writesDirectly p conn from rfl, hn]
  by_cases hrest : nwrote p conn result < message.length
  · have hsame : ∀ socket, isWriting p { conn with socket := socket, outputBuffer := b }
        = isWriting p conn := fun _ => rfl
    rw [if_pos hrest, happend]
    simp only [Option.bind_eq_bind, Option.bind_some, hsame]
    cases isWriting p conn with
    | true => exact ⟨_, _, rfl⟩
    | false =>
        rw [if_pos (by rfl), hwriting]
        exact ⟨_, _, rfl⟩
  · rw [if_neg hrest]
    exact ⟨_, _, rfl⟩

/-! ### `handleWrite` -/

/-- `shutdownInLoop` writes nothing and changes nothing but the socket. -/
theorem shutdownInLoop_eq (p : Poller) (conn : TcpConnection) :
    conn.shutdownInLoop p = { conn with
      socket := if isWriting p conn then conn.socket else conn.socket.shutdownWrite } := by
  rw [shutdownInLoop]
  cases hw : isWriting p conn with
  | true => rfl
  | false => rfl

/-- What `handleWrite` does while the channel is writing: it offers the whole buffer, and
when nothing is left it gives up the write interest and sends the end of the stream if
`shutdown` asked for it. -/
theorem handleWrite_spec (hwf : conn.outputBuffer.Wf)
    (hlen : result.taken ≤ conn.outputBuffer.readableBytes) (hw : isWriting p conn)
    (h : conn.handleWrite p result = some (p', conn')) :
    ∃ b, b.Wf ∧ b.content = conn.outputBuffer.content.drop result.taken ∧
      (if 0 < result.taken ∧ b.content = [] then p.disableWriting conn.channel = some p'
        else p' = p) ∧
      conn' = { conn with
        socket :=
          if 0 < result.taken ∧ b.content = [] ∧ conn.state = .kDisconnecting ∧
            isWriting p' conn = false
          then (conn.socket.write conn.outputBuffer.content result).shutdownWrite
          else conn.socket.write conn.outputBuffer.content result
        outputBuffer := b } := by
  obtain ⟨b, hretrieve, hb, hcontent⟩ := Buffer.retrieve_spec hwf hlen
  rw [handleWrite, if_pos hw] at h
  by_cases hpos : 0 < result.taken
  · rw [if_pos (result.toInt_pos_iff.mpr hpos)] at h
    obtain ⟨b', hb', h⟩ := bind_eq_some_iff.mp h
    rw [hretrieve, Option.some.injEq] at hb'
    subst hb'
    refine ⟨b, hb, hcontent, ?_⟩
    by_cases hdone : b.readableBytes = 0
    · have hnil : b.content = [] := hb.readableBytes_eq_zero.mp hdone
      rw [if_pos hdone] at h
      obtain ⟨p₁, hp₁, h⟩ := bind_eq_some_iff.mp h
      obtain ⟨rfl, rfl⟩ := Prod.mk.inj (Option.some.inj h)
      refine ⟨by rw [if_pos ⟨hpos, hnil⟩]; exact hp₁, ?_⟩
      by_cases hdis : conn.state = .kDisconnecting
      · have hsame : ∀ socket, isWriting p₁ { conn with socket := socket, outputBuffer := b }
            = isWriting p₁ conn := fun _ => rfl
        rw [if_pos hdis, shutdownInLoop_eq, hsame]
        cases hw₁ : isWriting p₁ conn with
        | true => simp
        | false => simp [hpos, hnil, hdis]
      · simp [hdis]
    · have hnil : b.content ≠ [] := hb.readableBytes_eq_zero.not.mp hdone
      rw [if_neg hdone] at h
      obtain ⟨rfl, rfl⟩ := Prod.mk.inj (Option.some.inj h)
      exact ⟨by rw [if_neg (fun hall => hnil hall.2)], by simp [hnil]⟩
  · -- A failed write removes nothing.
    have hzero : result.taken = 0 := Nat.eq_zero_of_not_pos hpos
    rw [if_neg (result.toInt_pos_iff.not.mpr hpos), Option.some.injEq] at h
    obtain ⟨rfl, rfl⟩ := Prod.mk.inj h
    refine ⟨conn.outputBuffer, hwf, by rw [hzero, List.drop_zero], ?_, ?_⟩
    · rw [if_neg (fun hall => hpos hall.1)]
    · rw [if_neg (fun hall => hpos hall.1)]

/-- Without write interest `handleWrite` does nothing. -/
theorem handleWrite_of_not_isWriting (hw : isWriting p conn = false) :
    conn.handleWrite p result = some (p, conn) := by
  rw [handleWrite, hw]
  rfl

/-- Writing or not, `handleWrite` changes the socket and the output buffer alone, and calls
the table at most once. -/
theorem handleWrite_frame (hwf : conn.outputBuffer.Wf)
    (hlen : result.taken ≤ conn.outputBuffer.readableBytes)
    (h : conn.handleWrite p result = some (p', conn')) :
    (∃ socket b, conn' = { conn with socket := socket, outputBuffer := b }) ∧
      (p' = p ∨ p.disableWriting conn.channel = some p') := by
  cases hw : isWriting p conn with
  | true =>
      obtain ⟨b, -, -, hp, hconn⟩ := handleWrite_spec hwf hlen hw h
      refine ⟨⟨_, b, hconn⟩, ?_⟩
      split at hp
      · exact Or.inr hp
      · exact Or.inl hp
  | false =>
      rw [handleWrite_of_not_isWriting hw, Option.some.injEq] at h
      obtain ⟨rfl, rfl⟩ := Prod.mk.inj h
      exact ⟨⟨_, _, rfl⟩, Or.inl rfl⟩

/-- `handleWrite` moves bytes from the buffer to the socket: the stream stays. -/
theorem handleWrite_stream (hwf : conn.outputBuffer.Wf)
    (hlen : result.taken ≤ conn.outputBuffer.readableBytes)
    (h : conn.handleWrite p result = some (p', conn')) :
    conn'.outputBuffer.Wf ∧ conn'.outputStream = conn.outputStream ∧
      conn'.channel = conn.channel ∧ Poller.SameObjects p p' := by
  cases hw : isWriting p conn with
  | true =>
      obtain ⟨b, hb, hcontent, hp, rfl⟩ := handleWrite_spec hwf hlen hw h
      refine ⟨hb, ?_, rfl, ?_⟩
      · rw [outputStream, outputStream, hcontent]
        split <;> simp
      · split at hp
        · exact .of_apply (show (PollerOp.disableWriting _).apply p = some p' from hp)
        · exact hp ▸ .refl p
  | false =>
      rw [handleWrite_of_not_isWriting hw, Option.some.injEq] at h
      obtain ⟨rfl, rfl⟩ := Prod.mk.inj h
      exact ⟨hwf, rfl, rfl, .refl p⟩

/-! ### The methods that write nothing -/

/-- `connectEstablished` sets the state and calls the table. -/
theorem connectEstablished_spec (h : conn.connectEstablished p = some (p', conn')) :
    conn.state = .kConnecting ∧ conn' = conn.setState .kConnected ∧
      p.enableReading conn.channel = some p' := by
  obtain ⟨hstate, h⟩ := assert_bind_eq_some_iff.mp h
  obtain ⟨p₁, hp₁, h⟩ := bind_eq_some_iff.mp h
  obtain ⟨rfl, rfl⟩ := Prod.mk.inj (Option.some.inj h)
  exact ⟨hstate, rfl, hp₁⟩

/-- `connectDestroyed` sets the state and calls the table. -/
theorem connectDestroyed_spec (h : conn.connectDestroyed p = some (p', conn')) :
    (conn.state = .kConnected ∨ conn.state = .kDisconnecting) ∧
      conn' = conn.setState .kDisconnected ∧ p.disableAll conn.channel = some p' := by
  obtain ⟨hstate, h⟩ := assert_bind_eq_some_iff.mp h
  obtain ⟨p₁, hp₁, h⟩ := bind_eq_some_iff.mp h
  obtain ⟨rfl, rfl⟩ := Prod.mk.inj (Option.some.inj h)
  exact ⟨hstate, rfl, hp₁⟩

/-- `handleClose` calls the table and leaves the connection as it is. -/
theorem handleClose_spec (h : conn.handleClose p = some (p', conn')) :
    (conn.state = .kConnected ∨ conn.state = .kDisconnecting) ∧ conn' = conn ∧
      p.disableAll conn.channel = some p' := by
  obtain ⟨hstate, h⟩ := assert_bind_eq_some_iff.mp h
  obtain ⟨p₁, hp₁, h⟩ := bind_eq_some_iff.mp h
  obtain ⟨rfl, rfl⟩ := Prod.mk.inj (Option.some.inj h)
  exact ⟨hstate, rfl, hp₁⟩

/-- The methods that test the state return when it is the right one and the table takes the
interest. -/
theorem connectEstablished_returns (hstate : conn.state = .kConnecting)
    (htable : p.enableReading conn.channel = some p') :
    conn.connectEstablished p = some (p', conn.setState .kConnected) := by
  rw [connectEstablished, assert_bind_pos hstate]
  show (p.enableReading conn.channel >>= _) = _
  rw [htable]
  rfl

theorem connectDestroyed_returns
    (hstate : conn.state = .kConnected ∨ conn.state = .kDisconnecting)
    (htable : p.disableAll conn.channel = some p') :
    conn.connectDestroyed p = some (p', conn.setState .kDisconnected) := by
  rw [connectDestroyed, assert_bind_pos hstate]
  show (p.disableAll conn.channel >>= _) = _
  rw [htable]
  rfl

theorem handleClose_returns (hstate : conn.state = .kConnected ∨ conn.state = .kDisconnecting)
    (htable : p.disableAll conn.channel = some p') :
    conn.handleClose p = some (p', conn) := by
  rw [handleClose, assert_bind_pos hstate, htable]
  rfl

/-- `handleRead` stores what it received. Then it ends in the message callback, in
`handleClose` at the end of the stream, or in nothing after an error. -/
theorem handleRead_spec {readv : ReadvResult} {callback : Option Callback}
    (h : conn.handleRead p readv = some (p', conn', callback)) :
    ∃ b n errno, conn.inputBuffer.readFd 0 readv = some (b, n, errno) ∧
      conn' = { conn with inputBuffer := b } ∧
      (0 < n ∧ callback = some .messageCallback ∧ p' = p ∨
        n = 0 ∧ callback = some .closeCallback ∧
          handleClose p { conn with inputBuffer := b } = some (p', conn') ∨
        n < 0 ∧ callback = none ∧ p' = p) := by
  obtain ⟨⟨b, n, errno⟩, hread, h⟩ := bind_eq_some_iff.mp h
  refine ⟨b, n, errno, hread, ?_⟩
  dsimp only at h
  by_cases hpos : 0 < n
  · rw [if_pos hpos] at h
    cases h
    exact ⟨rfl, Or.inl ⟨hpos, rfl, rfl⟩⟩
  · rw [if_neg hpos] at h
    by_cases hzero : n = 0
    · rw [if_pos hzero] at h
      obtain ⟨⟨p₁, conn₁⟩, hclose, h⟩ := bind_eq_some_iff.mp h
      cases h
      exact ⟨(handleClose_spec hclose).2.1, Or.inr (Or.inl ⟨hzero, rfl, hclose⟩)⟩
    · rw [if_neg hzero] at h
      cases h
      exact ⟨rfl, Or.inr (Or.inr ⟨by omega, rfl, rfl⟩)⟩

end TcpConnection

end SecondGear
