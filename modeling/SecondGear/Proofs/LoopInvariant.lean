import SecondGear.Lib.Int32
import SecondGear.Proofs.PollResult
import SecondGear.Proofs.TcpConnection

/-!
# `SecondGear.Proofs.LoopInvariant`: what holds between the parts of the loop

The last event of a connection's history says how far the connection is: its `Stage`. The
invariant ties everything else to the stages, one structure for each part of the state:

* `Objects`: the history has the form that its stage gives it, and `state_` fits;
* `Wired`: the channels of the connections are registered until they are removed, those of
  the loop and the acceptors always and switched on, and the open descriptors are different
  `int`s;
* `Listed`: the maps of the servers hold the established connections;
* `Queued`: a closing connection waits for its `connectDestroyed`, exactly once, and the loop
  does not poll before it ran, since `doPendingFunctors` comes to the end of its functors;
* `Dispatched`: the channels still to dispatch are different ones, and their connections are
  established.

The lemmas `..of_..` say which changes a part survives.
-/

set_option autoImplicit false

namespace SecondGear

open SecondGear.Lib

/-- Different numbers are written differently. -/
theorem toString_natCast_injective {m n : Nat} (h : toString (m : Int) = toString (n : Int)) :
    m = n := by
  have hdigits : Nat.toDigits 10 m = Nat.toDigits 10 n := by
    have hrepr : Nat.repr m = Nat.repr n := h
    rw [Nat.repr, Nat.repr] at hrepr
    exact String.ofList_injective hrepr
  rw [← Nat.ofDigitChars_toDigits (n := m) (b := 10) (by decide) (by decide), hdigits,
    Nat.ofDigitChars_toDigits (by decide) (by decide)]

/-- The sign is no digit, so this goes for negative numbers as well. -/
theorem toString_int_injective {a b : Int} (h : toString a = toString b) : a = b := by
  have hsign : ∀ m n : Nat, toString (Int.ofNat m) ≠ toString (Int.negSucc n) := by
    intro m n heq
    have hlist := congrArg String.toList (show Nat.repr m = "-" ++ Nat.repr (n + 1) from heq)
    rw [Nat.toList_repr, String.toList_append] at hlist
    have hmem : '-' ∈ Nat.toDigits 10 m := by
      rw [hlist]
      exact List.mem_append_left _ (by decide)
    exact absurd (Nat.isDigit_of_mem_toDigits (by decide) (by decide) hmem) (by decide)
  cases a with
  | ofNat m =>
      cases b with
      | ofNat n => exact congrArg Int.ofNat (toString_natCast_injective h)
      | negSucc n => exact absurd h (hsign m n)
  | negSucc m =>
      cases b with
      | ofNat n => exact absurd h.symm (hsign n m)
      | negSucc n =>
          have hdigits : Nat.repr (m + 1) = Nat.repr (n + 1) :=
            (String.append_right_inj "-").mp h
          have heq : m + 1 = n + 1 := toString_natCast_injective hdigits
          rw [Nat.succ.inj heq]

/-! ### Stages -/

/-- How far a connection is. -/
inductive Stage where
  | established
  /-- `handleClose` ran, and `connectDestroyed` is queued -/
  | closing
  /-- inside `connectDestroyed`, in its callback -/
  | destroying
  /-- the channel is removed -/
  | removed
  /-- the destructor ran -/
  | closed
deriving DecidableEq, Repr

namespace Stage

/-- In front of `connectDestroyed`. -/
def isOpen : Stage → Bool
  | .established | .closing => true
  | .destroying | .removed | .closed => false

/-- In front of `removeChannel`. -/
def isRegistered : Stage → Bool
  | .established | .closing | .destroying => true
  | .removed | .closed => false

/-- How many events there are from `handleClose` on. -/
def progress : Stage → Nat
  | .established => 0
  | .closing => 3
  | .destroying => 5
  | .removed => 6
  | .closed => 7

end Stage

namespace ConnectionObject

/-- What an established connection has seen: `n` messages. -/
def opening (n : Nat) : List ConnectionEvent :=
  [.connectEstablished, .connectionCallback true] ++ List.replicate n .messageCallback

/-- What happens at the end of a connection. -/
def ending : List ConnectionEvent :=
  [.handleClose, .closeCallback, .erase 1, .connectDestroyed, .connectionCallback false,
    .removeChannel false, .close false]

/-- The stage, read off the last event. -/
def stage (k : ConnectionObject) : Stage :=
  match k.trace.getLast? with
  | some (.erase _) => .closing
  | some (.connectionCallback false) => .destroying
  | some (.removeChannel _) => .removed
  | some (.close _) => .closed
  | _ => .established

/-- The history has the form that the stage gives it. -/
def History (k : ConnectionObject) : Prop :=
  ∃ n, k.trace = opening n ++ ending.take k.stage.progress

variable {k : ConnectionObject}

@[simp] theorem record_trace (k : ConnectionObject) (events : List ConnectionEvent) :
    (k.record events).trace = k.trace ++ events := rfl

@[simp] theorem record_conn (k : ConnectionObject) (events : List ConnectionEvent) :
    (k.record events).conn = k.conn := rfl

@[simp] theorem setConn_conn (k : ConnectionObject) (conn : TcpConnection) :
    (k.setConn conn).conn = conn := rfl

@[simp] theorem setConn_stage (k : ConnectionObject) (conn : TcpConnection) :
    (k.setConn conn).stage = k.stage := rfl

/-- The stage after an event. -/
theorem stage_record (k : ConnectionObject) (events : List ConnectionEvent)
    (e : ConnectionEvent) :
    (k.record (events ++ [e])).stage = match e with
      | .erase _ => .closing
      | .connectionCallback false => .destroying
      | .removeChannel _ => .removed
      | .close _ => .closed
      | _ => .established := by
  have hlast : (k.record (events ++ [e])).trace.getLast? = some e := by simp
  -- The stage looks at the last event only.
  rw [stage, hlast]
  cases e with
  | connectionCallback connected => cases connected <;> rfl
  | _ => rfl

/-- One more message. -/
theorem History.message (h : k.History) (hstage : k.stage = .established) :
    (k.record [.messageCallback]).History ∧
      (k.record [.messageCallback]).stage = .established := by
  have hnew : (k.record [.messageCallback]).stage = .established :=
    k.stage_record [] .messageCallback
  obtain ⟨n, hn⟩ := h
  rw [hstage] at hn
  refine ⟨⟨n + 1, ?_⟩, hnew⟩
  rw [hnew, record_trace, hn]
  simp [opening, Stage.progress, List.replicate_succ']

/-- The next events of the end. -/
theorem History.next (h : k.History) {events : List ConnectionEvent} {stage : Stage}
    (hnew : (k.record events).stage = stage)
    (htake : ending.take stage.progress = ending.take k.stage.progress ++ events) :
    (k.record events).History := by
  obtain ⟨n, hn⟩ := h
  refine ⟨n, ?_⟩
  rw [hnew, htake, record_trace, hn, List.append_assoc]

/-- What holds of every connection made so far. -/
structure Ok (k : ConnectionObject) : Prop where
  history : k.History
  state : if k.stage.isOpen then k.conn.state = .kConnected ∨ k.conn.state = .kDisconnecting
    else k.conn.state = .kDisconnected
  destroyed : k.destroyed = true ↔ k.stage = .closed
  input : k.conn.inputBuffer.Wf
  output : k.conn.outputBuffer.Wf

/-- In front of `connectDestroyed` the assertions about the state hold. -/
theorem Ok.state_of_isOpen (h : k.Ok) (hopen : k.stage.isOpen) :
    k.conn.state = .kConnected ∨ k.conn.state = .kDisconnecting := by
  have hstate := h.state
  rwa [if_pos hopen] at hstate

/-- A connection that is connected has not come to `connectDestroyed`. -/
theorem Ok.isOpen_of_connected (h : k.Ok) (hstate : k.conn.state = .kConnected) :
    k.stage.isOpen = true := by
  by_contra hnot
  have hdown := h.state
  rw [if_neg hnot, hstate] at hdown
  cases hdown

/-- An object that is gone has no descriptor. -/
theorem Ok.openFd_eq (h : k.Ok) :
    k.openFd = if k.stage = .closed then none else some k.conn.socket.sockfd := by
  rw [openFd]
  by_cases hstage : k.stage = .closed
  · rw [if_pos hstage, if_pos (h.destroyed.mpr hstage)]
  · rw [if_neg hstage, if_neg (h.destroyed.not.mpr hstage)]

/-- A method call that leaves the state open or does not change it. -/
theorem Ok.setConn (h : k.Ok) {conn : TcpConnection}
    (hstate : conn.state = k.conn.state ∨
      k.stage.isOpen = true ∧ (conn.state = .kConnected ∨ conn.state = .kDisconnecting))
    (hinput : conn.inputBuffer.Wf) (houtput : conn.outputBuffer.Wf) : (k.setConn conn).Ok where
  history := h.history
  state := by
    show if k.stage.isOpen then conn.state = .kConnected ∨ conn.state = .kDisconnecting
      else conn.state = .kDisconnected
    rcases hstate with hsame | ⟨hopen, hstate⟩
    · rw [hsame]
      exact h.state
    · rw [if_pos hopen]
      exact hstate
  destroyed := h.destroyed
  input := hinput
  output := houtput

/-- References of the user are not part of it. -/
theorem Ok.of_userRefs (h : k.Ok) (n : Nat) : Ok { k with userRefs := n } :=
  ⟨h.history, h.state, h.destroyed, h.input, h.output⟩

end ConnectionObject

namespace LoopPc

/-- The rest of the batch: the channels with callbacks still to run. -/
def todo : LoopPc → List ChannelPtr
  | .dispatch current rest => current.map Prod.fst ++ rest
  | .poll | .doPendingFunctors _ _ => []

/-- The callbacks of the current channel that are still to run. -/
def current : LoopPc → List (ChannelPtr × Handler)
  | .dispatch current _ => current
  | .poll | .doPendingFunctors _ _ => []

variable {pc : LoopPc}

/-- The cast makes no batch larger. -/
theorem size_le (pc : LoopPc) : pc.size ≤ pc.functors.length := bmod_natCast_le _ _

/-- The `int` holds the size of a batch below `2 ^ 31`. -/
theorem size_eq (hfits : pc.functors.length < 2 ^ 31) : pc.size = pc.functors.length :=
  bmod_natCast_eq hfits

/-- In front of a functor there is one, whatever the cast made of the size. -/
theorem rest_ne_nil (h : pc.atFunctor = true) : pc.rest ≠ [] := by
  cases hpc : pc with
  | poll => simp [hpc, atFunctor] at h
  | dispatch current rest => simp [hpc, atFunctor] at h
  | doPendingFunctors done rest =>
      have hle := pc.size_le
      simp only [hpc, atFunctor, decide_eq_true_eq] at h
      rw [hpc, functors, List.length_append] at hle
      rintro (rfl : rest = [])
      rw [List.length_nil] at hle
      omega

/-- Behind the last functor that the loop comes to there is none left, if the `int` holds the
size of the batch. Of a larger batch the loop may come to none at all. -/
theorem rest_eq_nil (h : pc.atEnd = true) (hfits : pc.functors.length < 2 ^ 31) :
    pc.rest = [] := by
  have hsize := size_eq hfits
  cases hpc : pc with
  | poll => rfl
  | dispatch current rest => rfl
  | doPendingFunctors done rest =>
      simp only [hpc, atEnd, decide_eq_true_eq] at h
      rw [hpc, functors, List.length_append] at hsize
      exact List.length_eq_zero_iff.mp (show rest.length = 0 by omega)

/-- In a batch that the `int` counts the loop comes to every functor. -/
theorem atFunctor_of_fits {done rest : List PendingFunctor} {f : PendingFunctor}
    (hpc : pc = .doPendingFunctors done (f :: rest)) (hfits : pc.functors.length < 2 ^ 31) :
    pc.atFunctor = true := by
  have hsize := size_eq hfits
  rw [hpc, functors, List.length_append, List.length_cons] at hsize
  simp only [hpc, atFunctor, decide_eq_true_eq]
  omega

/-- With nothing left to run the loop over the functors is over. -/
theorem atEnd_of_nil {done : List PendingFunctor} (hpc : pc = .doPendingFunctors done []) :
    pc.atEnd = true := by
  have hle := pc.size_le
  rw [hpc, functors, List.append_nil] at hle
  simp only [hpc, atEnd, decide_eq_true_eq]
  omega

end LoopPc

/-! ### The parts of the invariant -/

/-- The channel of a connection in the table, by the connection's stage. `off` says that the entry
of a connection on its way out is switched off (`-fd - 1`), which is what `removeChannel` asserts,
and `quiet` that nobody asked for events again since `connectDestroyed` took them all away. -/
structure ConnectionObject.Wired (p : Poller) (k : ConnectionObject) : Prop where
  sockfd : (p.channel k.conn.channel).fd = k.conn.socket.sockfd
  registered : p.Registered k.conn.channel ↔ k.stage.isRegistered
  off : k.stage = .closing ∨ k.stage = .destroying → p.Off k.conn.channel
  quiet : k.stage = .destroying → (p.channel k.conn.channel).events = Channel.kNoneEvent

/-- A call on another channel changes nothing of this, since `Others` is the frame of such a
call. -/
theorem ConnectionObject.Wired.of_others {p p' : Poller} {c : ChannelPtr} {k : ConnectionObject}
    (h : k.Wired p) (hothers : Poller.Others p p' c) (hne : k.conn.channel ≠ c) :
    k.Wired p' where
  sockfd := (hothers.fd hne).trans h.sockfd
  registered := (hothers.registered _ hne).trans h.registered
  off hstage := by
    refine hothers.off hne (h.registered.mpr ?_) (h.off hstage)
    rcases hstage with hstage | hstage <;> rw [hstage] <;> rfl
  quiet hstage := by
    obtain ⟨i, hi⟩ := hothers.channel _ hne
    rw [hi]
    exact h.quiet hstage

namespace EventLoop

/-- The stage of a connection, or none when there is no such connection yet. The parts of the
invariant speak of stages through this function, so that a step is described for them by one
equation. -/
def stageOf (s : EventLoop) (id : TcpConnectionPtr) : Option Stage :=
  (s.conns[id]?).map ConnectionObject.stage

/-- The server and the name of a connection. -/
def placeOf (s : EventLoop) (id : TcpConnectionPtr) : Option (Nat × String) :=
  (s.conns[id]?).map fun k => (k.server, k.name)

/-- The connections and their channels belong to each other, one to one. Every object is in order,
also one that was destroyed: the numbers of the objects are never used again. -/
structure Objects (s : EventLoop) : Prop where
  ok : ∀ (id : Nat) k, s.conns[id]? = some k → k.Ok
  channel : ∀ (id : Nat) k, s.conns[id]? = some k →
    s.owners[k.conn.channel]? = some (.connection id)
  owner : ∀ (c id : Nat), s.owners[c]? = some (.connection id) →
    ∃ k, s.conns[id]? = some k ∧ k.conn.channel = c

/-- The descriptors of the sockets: those of the acceptors, and those of the connections whose
destructor has not run. The timerfd and the eventfd of the loop are not among them. -/
def sockets (s : EventLoop) : List Int :=
  s.servers.map (·.acceptSocket) ++ s.conns.filterMap ConnectionObject.openFd

/-- The table and the owners of its channels fit. Services stay registered and switched on for good,
with a descriptor of their own; the channel of a connection is registered up to `removeChannel`. No
two open descriptors are the same, and the sockets among them are `int`s, which bounds how many
there are (`pending_fits` in `Proofs/LoopRuns.lean`). -/
structure Wired (s : EventLoop) : Prop where
  table : s.poller.Table
  owned : ∀ c, s.poller.Registered c → c < s.owners.length
  reads : ∀ c, c < s.owners.length → (s.poller.channel c).ReadsOnly
  service : ∀ (c : Nat) o, s.owners[c]? = some o → (∀ id, o ≠ .connection id) →
    s.poller.Registered c ∧ s.poller.On c ∧ (s.poller.channel c).fd ∈ s.serviceFds
  conn : ∀ (id : Nat) k, s.conns[id]? = some k → k.Wired s.poller
  distinct : s.openFds.Nodup
  ints : ∀ fd ∈ s.sockets, 0 ≤ fd ∧ fd < 2 ^ 31

/-- The map of each server holds its established connections, each under its own name, and nothing
else. So the name of a connection that is established is in the map of its server, with its number:
this is why `removeConnection` erases exactly one entry, and the right one. -/
structure Listed (s : EventLoop) : Prop where
  listed : ∀ (i : Nat) server name id, s.servers[i]? = some server →
    (server.connections.lookup name = some id ↔
      s.placeOf id = some (i, name) ∧ s.stageOf id = some .established)
  server : ∀ (id : Nat) i name, s.placeOf id = some (i, name) → i < s.servers.length
  acceptor : ∀ (c i : Nat), s.owners[c]? = some (.acceptor i) → i < s.servers.length

/-- What waits, and what runs, of the functors.

* `pending`: a closing connection waits for exactly one `connectDestroyed`, and nobody else waits.
* `frame`, `inFunctors`: the user callback inside `connectDestroyed` runs for the connection that is
  being destroyed, and outside the dispatch.
* `quiet`: only the dispatch queues a `connectDestroyed`. The swap empties the queue, and functors
  may queue functors, but of the user.
* `fits`: the `int` of `doPendingFunctors` holds the size of the batch. -/
structure Queued (s : EventLoop) : Prop where
  pending : ∀ id, (s.pendingFunctors ++ s.pc.rest).count (.connectDestroyed id)
    = if s.stageOf id = some .closing then 1 else 0
  frame : ∀ id, s.frame = some (.connectDestroyed id) ↔ s.stageOf id = some .destroying
  inFunctors : ∀ id, s.frame = some (.connectDestroyed id) → s.pc.isDispatch = false
  quiet : s.pc.isDispatch = false → ∀ id, .connectDestroyed id ∉ s.pendingFunctors
  poll : s.pc = .poll → s.frame = none
  fits : s.pc.functors.length < 2 ^ 31

/-- The batch that is being dispatched. Its channels are registered (`batch`) and different
(`nodup`), nothing but `handleRead` is to run (`reads`), and who is still ahead is established
(`live`). A connection that closes is not ahead any more, so `live` survives the closes of the
batch. -/
structure Dispatched (s : EventLoop) : Prop where
  batch : s.pc.isDispatch = true → ∀ c ∈ s.activeChannels, s.poller.Registered c
  sub : ∀ c ∈ s.pc.todo, c ∈ s.activeChannels
  nodup : s.pc.todo.Nodup
  reads : ∀ x ∈ s.pc.current, x.2 = .handleRead
  live : ∀ c ∈ s.pc.todo, ∀ id, s.owners[c]? = some (.connection id) →
    s.stageOf id = some .established

/-- How many connections a server accepted. -/
def accepts (s : EventLoop) (i : Nat) : Nat := s.conns.countP (·.server = i)

/-- The counter of a server is one more than its accepts, and the names of its connections have
smaller numbers. It says nothing about a server that has accepted `2 ^ 31 - 1` connections, where
the `int` overflows. -/
def Numbered (s : EventLoop) : Prop :=
  ∀ (i : Nat) server, s.servers[i]? = some server → s.accepts i < 2 ^ 31 - 1 →
    server.nextConnId = s.accepts i + 1 ∧
      ∀ id name, s.placeOf id = some (i, name) → ∃ n : Nat, n ≤ s.accepts i ∧
        name = server.name ++ ("#" ++ toString (n : Int))

/-- The invariant of the loop. -/
structure Inv (s : EventLoop) : Prop where
  objects : s.Objects
  wired : s.Wired
  listed : s.Listed
  queued : s.Queued
  dispatched : s.Dispatched
  numbered : s.Numbered

variable {s s' : EventLoop}

/-! ### Changes that the parts survive -/

/-- The stage of a connection that is given. -/
theorem stageOf_eq {id : Nat} {k : ConnectionObject} (hk : s.conns[id]? = some k) :
    s.stageOf id = some k.stage := by
  rw [stageOf, hk]
  rfl

/-- A stage belongs to a connection. -/
theorem exists_of_stageOf {id : Nat} {stage : Stage} (h : s.stageOf id = some stage) :
    ∃ k, s.conns[id]? = some k ∧ k.stage = stage :=
  Option.map_eq_some_iff.mp h

/-- The channels in front of a batch belong to established connections. `Dispatched.live`, for an
object in the hand. -/
theorem Dispatched.stage_eq (h : s.Dispatched) {c : ChannelPtr} (hc : c ∈ s.pc.todo) {id : Nat}
    (howner : s.owners[c]? = some (.connection id)) {k : ConnectionObject}
    (hk : s.conns[id]? = some k) : k.stage = .established := by
  have hlive := h.live c hc id howner
  rwa [stageOf_eq hk, Option.some.injEq] at hlive

/-- The object that a connection was replaced by. -/
theorem conns_set_self {id : Nat} {k : ConnectionObject} (hk : s.conns[id]? = some k)
    (k' : ConnectionObject) : (s.conns.set id k')[id]? = some k' :=
  List.getElem?_set_self (List.getElem?_eq_some_iff.mp hk).1

/-- Another connection object in the place of one. Most steps change one connection, and this is how
the lists are read behind them. -/
theorem conns_set {id : Nat} {k k' : ConnectionObject} (hk : s.conns[id]? = some k)
    (hconns : s'.conns = s.conns.set id k') (j : Nat) :
    s'.conns[j]? = if j = id then some k' else s.conns[j]? := by
  have hlt := (List.getElem?_eq_some_iff.mp hk).1
  rw [hconns, List.getElem?_set]
  by_cases hj : j = id
  · rw [if_pos hj.symm, if_pos hj, if_pos hlt]
  · rw [if_neg (Ne.symm hj), if_neg hj]

/-- A function of the connections that does not see the difference. -/
theorem map_conns_set {β : Type} {f : ConnectionObject → β} {id : Nat} {k k' : ConnectionObject}
    (hk : s.conns[id]? = some k) (hconns : s'.conns = s.conns.set id k') (hf : f k' = f k) :
    s'.conns.map f = s.conns.map f := by
  refine List.ext_getElem? fun j => ?_
  rw [List.getElem?_map, List.getElem?_map, conns_set hk hconns]
  by_cases hj : j = id
  · rw [if_pos hj, hj, hk]
    exact congrArg some hf
  · rw [if_neg hj]

/-- The stages when one connection changes. -/
theorem stageOf_set {id : Nat} {k k' : ConnectionObject} (hk : s.conns[id]? = some k)
    (hconns : s'.conns = s.conns.set id k') (j : Nat) :
    s'.stageOf j = if j = id then some k'.stage else s.stageOf j := by
  rw [stageOf, conns_set hk hconns]
  split
  · rfl
  · rfl

/-- A list with one more element at its end. -/
theorem getElem?_concat {α : Type} (xs : List α) (x : α) (i : Nat) :
    (xs ++ [x])[i]? = if i = xs.length then some x else xs[i]? := by
  by_cases hi : i = xs.length
  · rw [if_pos hi, hi, List.getElem?_concat_length]
  · rw [if_neg hi]
    rcases Nat.lt_or_ge i xs.length with hlt | hge
    · exact List.getElem?_append_left hlt
    · rw [List.getElem?_eq_none hge, List.getElem?_eq_none]
      rw [List.length_append, List.length_singleton]
      omega

/-- Its elements are the old ones and the new one. -/
theorem getElem?_concat_cases {α : Type} {xs : List α} {x y : α} {i : Nat}
    (h : (xs ++ [x])[i]? = some y) : xs[i]? = some y ∨ i = xs.length ∧ y = x := by
  rw [getElem?_concat] at h
  split at h
  · rename_i hi
    exact Or.inr ⟨hi, (Option.some.inj h).symm⟩
  · exact Or.inl h

/-- The stage of a new connection. -/
theorem stageOf_concat {k : ConnectionObject} (hconns : s'.conns = s.conns ++ [k]) (j : Nat) :
    s'.stageOf j = if j = s.conns.length then some k.stage else s.stageOf j := by
  rw [stageOf, hconns, getElem?_concat]
  split <;> rfl

/-- Its place. -/
theorem placeOf_concat {k : ConnectionObject} (hconns : s'.conns = s.conns ++ [k]) (j : Nat) :
    s'.placeOf j = if j = s.conns.length then some (k.server, k.name) else s.placeOf j := by
  rw [placeOf, hconns, getElem?_concat]
  split <;> rfl

/-- The stages stay when the connection keeps its own. -/
theorem stageOf_set_same {id : Nat} {k k' : ConnectionObject} (hk : s.conns[id]? = some k)
    (hconns : s'.conns = s.conns.set id k') (hstage : k'.stage = k.stage) (j : Nat) :
    s'.stageOf j = s.stageOf j := by
  rw [stageOf_set hk hconns]
  split
  · rename_i hj
    rw [hj, stageOf_eq hk, hstage]
  · rfl

/-- The places are a function of the connections' servers and names. -/
theorem placeOf_of_map
    (hmap : s'.conns.map (fun k => (k.server, k.name)) = s.conns.map fun k => (k.server, k.name))
    (j : Nat) : s'.placeOf j = s.placeOf j := by
  rw [placeOf, placeOf, ← List.getElem?_map, ← List.getElem?_map, hmap]

/-- And so is the number of accepts of each server. -/
theorem accepts_of_map
    (hmap : s'.conns.map (fun k => (k.server, k.name)) = s.conns.map fun k => (k.server, k.name))
    (i : Nat) : s'.accepts i = s.accepts i := by
  have hcount : ∀ l : List ConnectionObject, l.countP (·.server = i)
      = (l.map fun k => (k.server, k.name)).countP (·.1 = i) := by
    intro l
    rw [List.countP_map]
    rfl
  rw [accepts, accepts, hcount, hcount, hmap]

/-- One connection changed, in its own place. It keeps its channel, so the owners keep fitting. -/
theorem Objects.of_set (h : s.Objects) {id : Nat} {k k' : ConnectionObject}
    (hk : s.conns[id]? = some k) (howners : s'.owners = s.owners)
    (hconns : s'.conns = s.conns.set id k') (hok : k'.Ok)
    (hchannel : k'.conn.channel = k.conn.channel) : s'.Objects where
  ok j d hd := by
    rw [conns_set hk hconns] at hd
    split at hd
    · cases hd
      exact hok
    · exact h.ok j d hd
  channel j d hd := by
    rw [conns_set hk hconns] at hd
    rw [howners]
    split at hd
    · rename_i hj
      cases hd
      rw [hchannel, hj]
      exact h.channel id k hk
    · exact h.channel j d hd
  owner c j hc := by
    rw [howners] at hc
    obtain ⟨d, hd, hdc⟩ := h.owner c j hc
    rw [conns_set hk hconns]
    by_cases hj : j = id
    · rw [if_pos hj]
      rw [hj, hk, Option.some.injEq] at hd
      rw [← hd] at hdc
      exact ⟨k', rfl, hchannel.trans hdc⟩
    · rw [if_neg hj]
      exact ⟨d, hd, hdc⟩

/-- Nothing changed for the connections. -/
theorem Objects.of_eq (h : s.Objects) (howners : s'.owners = s.owners)
    (hconns : s'.conns = s.conns) : s'.Objects :=
  ⟨by rw [hconns]; exact h.ok, by rw [hconns, howners]; exact h.channel,
    by rw [hconns, howners]; exact h.owner⟩

/-- Different connections have different channels, since a channel has one owner. -/
theorem Objects.channel_ne (h : s.Objects) {i j : Nat} {k d : ConnectionObject}
    (hk : s.conns[i]? = some k) (hd : s.conns[j]? = some d) (hne : j ≠ i) :
    d.conn.channel ≠ k.conn.channel := by
  intro heq
  have hj := h.channel j d hd
  rw [heq, h.channel i k hk] at hj
  exact hne (Owner.connection.inj (Option.some.inj hj)).symm

/-- The open descriptors when one connection keeps its own. No step but an accept, a start and a
destructor changes them. -/
theorem openFds_set {id : Nat} {k k' : ConnectionObject} (hk : s.conns[id]? = some k)
    (hconns : s'.conns = s.conns.set id k') (hfds : s'.serviceFds = s.serviceFds)
    (hopen : k'.openFd = k.openFd) : s'.openFds = s.openFds := by
  have hmap : ∀ l : List ConnectionObject, l.filterMap ConnectionObject.openFd
      = (l.map ConnectionObject.openFd).filterMap fun fd => fd := by
    intro l
    rw [List.filterMap_map]
    rfl
  rw [openFds, openFds, hfds, hmap, hmap, map_conns_set hk hconns hopen]

/-- The open descriptors are those of the loop and of the sockets. -/
theorem sockets_eq (hopen : s'.openFds = s.openFds) : s'.sockets = s.sockets :=
  (List.cons.inj (List.cons.inj hopen).2).2

/-- One connection changed, with a call on its channel. The call is described by what it did to this
channel (`hreads`, `hwired`) and by its frame (`hothers`), which is all that the others need. -/
theorem Wired.of_set (h : s.Wired) (ho : s.Objects) {id : Nat} {k k' : ConnectionObject}
    (hk : s.conns[id]? = some k) (howners : s'.owners = s.owners)
    (hfds : s'.serviceFds = s.serviceFds) (hconns : s'.conns = s.conns.set id k')
    (htable : s'.poller.Table) (hothers : Poller.Others s.poller s'.poller k.conn.channel)
    (hreads : (s'.poller.channel k.conn.channel).ReadsOnly) (hopen : k'.openFd = k.openFd)
    (hwired : k'.Wired s'.poller) : s'.Wired where
  table := htable
  owned c hc := by
    rw [howners]
    -- The call may have registered the channel of the connection, which has an owner.
    by_cases hne : c = k.conn.channel
    · rw [hne]
      exact (List.getElem?_eq_some_iff.mp (ho.channel id k hk)).1
    · exact h.owned c ((hothers.registered c hne).mp hc)
  reads c hc := by
    rw [howners] at hc
    by_cases hne : c = k.conn.channel
    · rw [hne]
      exact hreads
    · obtain ⟨i, hi⟩ := hothers.channel c hne
      have hold := h.reads c hc
      rw [hi]
      exact ⟨hold.read, hold.write, hold.error, hold.close⟩
  service c o hc hservice := by
    rw [howners] at hc
    -- The channel of a connection serves nobody else.
    have hne : c ≠ k.conn.channel := by
      rintro rfl
      rw [ho.channel id k hk, Option.some.injEq] at hc
      exact hservice id hc.symm
    obtain ⟨hreg, hon, hfd⟩ := h.service c o hc hservice
    rw [hothers.fd hne, hfds]
    exact ⟨(hothers.registered c hne).mpr hreg, hothers.on hne hreg hon, hfd⟩
  conn j d hd := by
    rw [conns_set hk hconns] at hd
    split at hd
    · cases hd
      exact hwired
    · rename_i hj
      exact (h.conn j d hd).of_others hothers (ho.channel_ne hk hd hj)
  distinct := by
    rw [openFds_set hk hconns hfds hopen]
    exact h.distinct
  ints := by
    rw [sockets_eq (openFds_set hk hconns hfds hopen)]
    exact h.ints

/-- Nothing changed for the table and its channels. -/
theorem Wired.of_eq (h : s.Wired) (hpoller : s'.poller = s.poller)
    (howners : s'.owners = s.owners) (hfds : s'.serviceFds = s.serviceFds)
    (hconns : s'.conns = s.conns) : s'.Wired where
  table := by rw [hpoller]; exact h.table
  owned := by rw [hpoller, howners]; exact h.owned
  reads := by rw [hpoller, howners]; exact h.reads
  service := by rw [hpoller, howners, hfds]; exact h.service
  conn := by rw [hpoller, hconns]; exact h.conn
  distinct := by rw [openFds, hfds, hconns]; exact h.distinct
  ints := by
    have hopen : s'.openFds = s.openFds := by rw [openFds, openFds, hfds, hconns]
    rw [sockets_eq hopen]
    exact h.ints

/-- The maps stay, and so do the established connections. For steps in which others change, as from
closing to destroying. -/
theorem Listed.of_same (h : s.Listed) (howners : s'.owners = s.owners)
    (hservers : s'.servers = s.servers) (hplaces : ∀ id, s'.placeOf id = s.placeOf id)
    (hstages : ∀ id, s'.stageOf id = some .established ↔ s.stageOf id = some .established) :
    s'.Listed where
  listed i server name id hi := by
    rw [hservers] at hi
    rw [hplaces, hstages]
    exact h.listed i server name id hi
  server id i name hid := by
    rw [hplaces] at hid
    rw [hservers]
    exact h.server id i name hid
  acceptor c i hc := by
    rw [howners] at hc
    rw [hservers]
    exact h.acceptor c i hc

/-- The queue holds the same `connectDestroyed`s, and the connections that are closing or
inside `connectDestroyed` are the same. Functors of the user may come and go, which is why this is
about counts and not about the lists. The batch of functors does not grow behind the swap. -/
theorem Queued.of_same (h : s.Queued)
    (hpending : ∀ id, (s'.pendingFunctors ++ s'.pc.rest).count (.connectDestroyed id)
      = (s.pendingFunctors ++ s.pc.rest).count (.connectDestroyed id))
    (hmem : ∀ id, .connectDestroyed id ∈ s'.pendingFunctors →
      .connectDestroyed id ∈ s.pendingFunctors)
    (hframe : ∀ id, s'.frame = some (.connectDestroyed id) ↔
      s.frame = some (.connectDestroyed id))
    (hpc : s'.pc.isDispatch = s.pc.isDispatch) (hpoll : s'.pc = .poll → s'.frame = none)
    (hfunctors : s'.pc.functors.length ≤ s.pc.functors.length)
    (hclosing : ∀ id, s'.stageOf id = some .closing ↔ s.stageOf id = some .closing)
    (hdestroying : ∀ id, s'.stageOf id = some .destroying ↔ s.stageOf id = some .destroying) :
    s'.Queued where
  pending id := by
    rw [hpending, h.pending]
    exact if_congr (hclosing id).symm rfl rfl
  frame id := by
    rw [hframe, h.frame, hdestroying]
  inFunctors id hid := by
    rw [hpc]
    exact h.inFunctors id ((hframe id).mp hid)
  quiet hnot id hid := by
    rw [hpc] at hnot
    exact h.quiet hnot id (hmem id hid)
  poll := hpoll
  fits := lt_of_le_of_lt hfunctors h.fits

/-- The rest of the batch is a part of what it was, and its connections are still
established. The owners may have grown by a new channel, which is not in the batch. -/
theorem Dispatched.of_same (h : s.Dispatched) (hactive : s'.activeChannels = s.activeChannels)
    (hpc : s'.pc.isDispatch = true → s.pc.isDispatch = true)
    (htodo : s'.pc.todo.Sublist s.pc.todo) (hcurrent : ∀ x ∈ s'.pc.current, x ∈ s.pc.current)
    (hregistered : s'.pc.isDispatch = true → ∀ c ∈ s.activeChannels, s.poller.Registered c →
      s'.poller.Registered c)
    (hlive : ∀ c ∈ s'.pc.todo, ∀ id, s'.owners[c]? = some (.connection id) →
      s.owners[c]? = some (.connection id) ∧
        (s.stageOf id = some .established → s'.stageOf id = some .established)) :
    s'.Dispatched where
  batch hd c hc := by
    rw [hactive] at hc
    exact hregistered hd c hc (h.batch (hpc hd) c hc)
  sub c hc := by
    rw [hactive]
    exact h.sub c (htodo.subset hc)
  nodup := h.nodup.sublist htodo
  reads x hx := h.reads x (hcurrent x hx)
  live c hc id hid := by
    obtain ⟨howner, hstage⟩ := hlive c hc id hid
    exact hstage (h.live c (htodo.subset hc) id howner)

/-- Outside the dispatch there is no batch. -/
theorem Dispatched.of_not_dispatch (hpc : s.pc.isDispatch = false) : s.Dispatched := by
  have htodo : s.pc.todo = [] ∧ s.pc.current = [] := by
    cases hs : s.pc with
    | dispatch current rest => simp [hs, LoopPc.isDispatch] at hpc
    | poll => exact ⟨rfl, rfl⟩
    | doPendingFunctors done rest => exact ⟨rfl, rfl⟩
  refine ⟨?_, ?_, ?_, ?_, ?_⟩
  · rw [hpc]
    simp
  · rw [htodo.1]
    simp
  · rw [htodo.1]
    exact List.nodup_nil
  · rw [htodo.2]
    simp
  · rw [htodo.1]
    simp

/-- The counters stay, and so do the servers and the names of the connections. The maps may have
changed: the numbers do not look at them. -/
theorem Numbered.of_same (h : s.Numbered)
    (hservers : ∀ (i : Nat) server', s'.servers[i]? = some server' →
      ∃ server, s.servers[i]? = some server ∧ server'.name = server.name ∧
        server'.nextConnId = server.nextConnId)
    (hmap : s'.conns.map (fun k => (k.server, k.name))
      = s.conns.map fun k => (k.server, k.name)) : s'.Numbered := by
  intro i server' hi hlt
  obtain ⟨server, hserver, hname, hnext⟩ := hservers i server' hi
  rw [accepts_of_map hmap] at hlt ⊢
  obtain ⟨hcount, hnames⟩ := h i server hserver hlt
  refine ⟨hnext.trans hcount, fun id name hid => ?_⟩
  rw [placeOf_of_map hmap] at hid
  rw [hname]
  exact hnames id name hid

/-- A number is never given out twice, so the next name of a server is not in its map. This is why
the condition on names (`FreshName` in `Proofs/LoopRuns.lean`) holds for the first `2 ^ 31 - 1`
accepts of a server. -/
theorem Numbered.connName_fresh (h : s.Numbered) (hl : s.Listed) {i : Nat} {server : TcpServer}
    (hserver : s.servers[i]? = some server) (hlt : s.accepts i < 2 ^ 31 - 1) :
    server.connName ∉ server.connections := by
  intro hmem
  obtain ⟨id, hid⟩ := Option.isSome_iff_exists.mp (AList.lookup_isSome.mpr hmem)
  obtain ⟨hplace, -⟩ := (hl.listed i server _ id hserver).mp hid
  obtain ⟨hnext, hnames⟩ := h i server hserver hlt
  obtain ⟨n, hn, hname⟩ := hnames id _ hplace
  -- The names in the map have numbers up to `accepts i`, and the next number is one more.
  rw [TcpServer.connName, String.append_right_inj, String.append_right_inj, hnext] at hname
  have heq : s.accepts i + 1 = n := toString_natCast_injective hname
  omega

end EventLoop

end SecondGear
