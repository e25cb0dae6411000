import SecondGear.Proofs.LoopAccept

/-!
# `SecondGear.Proofs.LoopRuns`: runs of the loop

The remaining actions, the destructors that `release` runs, and the whole machine:

* `inv_runHandler`: the next callback of the batch, whatever its channel belongs to.
* `pending_fits`: a batch of functors without one of the user fits into an `int`.
* `inv_doPendingFunctors`, `inv_runFunctor`, `inv_callbackReturns`, `inv_endFunctors`: one round of
  functors, with `connectDestroyed` in its two halves.
* `inv_release`: only connections whose channel is removed lose their last reference.
* `new_inv`: the invariant holds of a new loop.
* `inv_step`, `inv_of_run`: every legal step that meets the two conditions below returns and keeps
  the invariant, and so does a run of such steps.

## The two conditions

Neither is something that the code checks, and each can fail only after very many steps.

* `FreshName`: no connection is accepted under a name that its server's map still has. The counter
  of a server must have come round for that.
* `FunctorsFit`: a batch with a functor of the user in it has fewer than `2 ^ 31` functors. A larger
  one is dropped, with every `connectDestroyed` that it holds. The connections of these stay
  registered, and `Queued` no longer holds.

Results about the life of connections assume both (`Proofs/LifeCycle.lean` and what imports it).
Results about the bytes of one connection assume neither (`Proofs/LoopStreams.lean`): they follow
the calls on it step by step, without the invariant of this file.
-/

set_option autoImplicit false

namespace SecondGear

open SecondGear.Lib

namespace EventLoop

open ConnectionObject

variable {s s' : EventLoop}

namespace Inv

/-! ### Callbacks of channels -/

/-- `handleRead` of an established connection at the end of the stream. `readv` returned zero, so
`handleClose` runs inside it: the connection leaves its server's map and its `connectDestroyed` is
queued. The channel is switched off but stays registered, since the batch that is being dispatched
still refers to it. `hdone` says that it is not ahead in that batch. -/
theorem inv_readClose (h : s.Inv) (hpc : s.pc.isDispatch = true) {id : Nat}
    {k : ConnectionObject} (hk : s.conns[id]? = some k) (hstage : k.stage = .established)
    (hdone : k.conn.channel ∉ s.pc.todo) {readv : ReadvResult} {b : Buffer} {errno : Int}
    (hread : k.conn.inputBuffer.readFd 0 readv = some (b, 0, errno)) (hb : b.Wf)
    (write : WriteResult) :
    ∃ p' server, s.servers[k.server]? = some server ∧
      s.connectionHandler id .handleRead readv write = some (s.afterClose id k server p' b) ∧
      (s.afterClose id k server p' b).Inv := by
  have halive : k.destroyed = false := by
    rw [← Bool.not_eq_true, (h.objects.ok id k hk).destroyed, hstage]
    simp
  obtain ⟨p', server, hserver, hclose, hremove, hinv⟩ := h.inv_handleClose hpc hk hstage hdone hb
  refine ⟨p', server, hserver, ?_, hinv⟩
  simp only [connectionHandler, show s.conns[id]? = some k from hk, Option.bind_eq_bind,
    Option.bind_some]
  rw [← Option.bind_eq_bind, assert_bind_pos halive]
  simp only [TcpConnection.runHandler, TcpConnection.handleRead, hread, Option.bind_eq_bind,
    Option.bind_some, if_neg (Int.lt_irrefl 0), if_pos, hclose]
  exact hremove

/-- `handleRead` of an established connection, whatever it received. Data go to the input buffer and
the message callback runs next; an error is only reported; and the end of the stream is
`inv_readClose`. In no case does an assertion fail. -/
theorem inv_connectionHandler (h : s.Inv) (hframe : s.frame = none)
    (hpc : s.pc.isDispatch = true) {id : Nat} {k : ConnectionObject}
    (hk : s.conns[id]? = some k) (hstage : k.stage = .established)
    (hdone : k.conn.channel ∉ s.pc.todo) (readv : ReadvResult) (write : WriteResult) :
    ∃ s', s.connectionHandler id .handleRead readv write = some s' ∧ s'.Inv := by
  have hok := h.objects.ok id k hk
  have halive : k.destroyed = false := by
    rw [← Bool.not_eq_true, hok.destroyed, hstage]
    simp
  have hnotPoll : s.pc ≠ .poll := by
    intro heq
    rw [heq] at hpc
    cases hpc
  obtain ⟨b, n, errno, hread, hb⟩ := readFd_returns hok.input readv
  have hbuffer : (k.setConn { k.conn with inputBuffer := b }).Ok :=
    hok.setConn (Or.inl rfl) hb hok.output
  by_cases hzero : n = 0
  · -- the end of the stream
    obtain ⟨p', server, -, hcall, hinv⟩ :=
      h.inv_readClose hpc hk hstage hdone (hzero ▸ hread) hb write
    exact ⟨_, hcall, hinv⟩
  simp only [connectionHandler, show s.conns[id]? = some k from hk, Option.bind_eq_bind,
    Option.bind_some]
  rw [← Option.bind_eq_bind, assert_bind_pos halive]
  simp only [TcpConnection.runHandler, TcpConnection.handleRead, hread, Option.bind_eq_bind,
    Option.bind_some]
  by_cases hpos : 0 < n
  · -- data
    simp only [if_pos hpos]
    obtain ⟨hhistory, hnew⟩ := hbuffer.history.message hstage
    have hok' : ((k.setConn { k.conn with inputBuffer := b }).record [.messageCallback]).Ok := by
      refine ⟨hhistory, ?_, ?_, hb, hok.output⟩
      · rw [hnew]
        exact hok.state_of_isOpen (by rw [hstage]; rfl)
      · rw [hnew]
        exact iff_of_false (by rw [← Bool.not_eq_true] at halive; exact halive) (by simp)
    have hmove := h.moves_same hk hok' ⟨rfl, rfl, rfl, rfl⟩ (hnew.trans hstage.symm)
    refine ⟨_, rfl, h.of_moves hk hmove (hnew.trans hstage.symm) ?_ rfl rfl rfl rfl⟩
    refine ⟨rfl, fun _ => rfl, fun _ hid => hid, ?_, rfl, fun hp => absurd hp hnotPoll, .refl _,
      fun _ hx => hx, le_refl _⟩
    intro j
    rw [hframe]
    show some (UserFrame.message id) = some (.connectDestroyed j) ↔ _
    simp
  · -- an error
    simp only [if_neg hpos, if_neg hzero]
    have hmove := h.moves_same hk hbuffer ⟨rfl, rfl, rfl, rfl⟩ rfl
    exact ⟨_, rfl, h.of_moves hk hmove rfl (.of_eq h.queued rfl rfl rfl rfl) rfl rfl rfl rfl⟩

end Inv

/-- The server whose acceptor is about to accept: the next callback is the one of its channel. In
any other place of the loop there is none. -/
def acceptingServer (s : EventLoop) : Option TcpServer :=
  match s.pc.current.head? with
  | some (c, _) =>
      match s.owners[c]? with
      | some (.acceptor i) => s.servers[i]?
      | _ => none
  | none => none

/-- No connection is accepted under a name that its server's map still has. It asks something of one
action only, the read callback of an acceptor, and only when `accept` succeeds (`0 ≤ connfd`). That
it holds for the first `2 ^ 31 - 1` accepts of each server is `FewAccepts.freshName`
(`Proofs/LifeCycle.lean`); when exactly it holds is in `Proofs/ConnectionNames.lean`. -/
def FreshName (s : EventLoop) : LoopAction → Prop
  | .runHandler connfd _ _ =>
      0 ≤ connfd → ∀ server ∈ s.acceptingServer, server.connName ∉ server.connections
  | _ => True

instance (s : EventLoop) : (a : LoopAction) → Decidable (FreshName s a)
  | .runHandler _ _ _ => inferInstanceAs (Decidable (_ → ∀ server ∈ _, _))
  | .poll _ _ | .handleEvent | .doPendingFunctors | .runFunctor | .endFunctors
  | .callbackReturns | .send _ _ _ | .shutdown _ | .input _ _ | .addRef _ | .dropRef _
  | .queueInLoop | .startServer _ _ => isTrue trivial

/-- A swap that takes a functor of the user takes fewer than `2 ^ 31` functors: the loop of
`doPendingFunctors` counts with an `int`, and does not come to the end of a larger batch, which is
then destroyed with what it still holds. A batch without functors of the user is never that large
(`pending_fits`), so nothing is asked of it, and a program that queues no functor meets the
condition in every run. -/
def FunctorsFit (s : EventLoop) : LoopAction → Prop
  | .doPendingFunctors => .user ∈ s.pendingFunctors → s.pendingFunctors.length < 2 ^ 31
  | _ => True

instance (s : EventLoop) : (a : LoopAction) → Decidable (FunctorsFit s a)
  | .doPendingFunctors => inferInstanceAs (Decidable (_ → _))
  | .poll _ _ | .handleEvent | .runHandler _ _ _ | .runFunctor | .endFunctors
  | .callbackReturns | .send _ _ _ | .shutdown _ | .input _ _ | .addRef _ | .dropRef _
  | .queueInLoop | .startServer _ _ => isTrue trivial

namespace Inv

/-- The next callback of the batch. It is `handleRead`, since nobody installs another callback, and
its owner decides what it does. `FreshName` is for the acceptor. For a connection, the batch says
that it is established (`Dispatched.live`) and that its channel does not come again
(`Dispatched.nodup`), so nothing ahead refers to a connection that this callback closes. -/
theorem inv_runHandler (h : s.Inv) (hframe : s.frame = none) (hat : s.pc.atHandler)
    {connfd : Int} (hfd : 0 ≤ connfd → connfd < 2 ^ 31 ∧ connfd ∉ s.openFds) (readv : ReadvResult)
    (write : WriteResult) (hfresh : FreshName s (.runHandler connfd readv write)) :
    ∃ s', s.stepBody (.runHandler connfd readv write) = some s' ∧ s'.Inv := by
  cases hpc : s.pc with
  | poll => simp [hpc, LoopPc.atHandler] at hat
  | doPendingFunctors done rest => simp [hpc, LoopPc.atHandler] at hat
  | dispatch current rest =>
      cases current with
      | nil => simp [hpc, LoopPc.atHandler] at hat
      | cons x current =>
          obtain ⟨c, handler⟩ := x
          have htail := h.of_dispatch_tail hpc
          have hread : handler = .handleRead :=
            h.dispatched.reads (c, handler) (by rw [hpc]; exact List.mem_cons_self)
          have htodo : c ∈ s.pc.todo := by
            rw [hpc]
            exact List.mem_append_left _ List.mem_cons_self
          have hlt : c < s.owners.length :=
            h.wired.owned c (h.dispatched.batch (by rw [hpc]; rfl) c (h.dispatched.sub c htodo))
          have howner : s.owners[c]? = some s.owners[c] := List.getElem?_eq_getElem hlt
          have hbody : s.stepBody (.runHandler connfd readv write)
              = ({ s with pc := .dispatch current rest } : EventLoop).runHandler c handler
                connfd readv write := by
            rw [stepBody, hpc]
          rw [hbody, hread, runHandler]
          simp only [howner, Option.bind_eq_bind, Option.bind_some]
          cases hs : s.owners[c] with
          | timerQueue =>
              exact ⟨_, rfl, htail.of_frame hframe (by simp) (by simp)⟩
          | wakeup => exact ⟨_, rfl, htail⟩
          | acceptor i =>
              rw [hs] at howner
              dsimp only
              by_cases hconnfd : 0 ≤ connfd
              · rw [if_pos (show connfd ≥ 0 from hconnfd)]
                have hi := h.listed.acceptor c i howner
                have hserver : s.servers[i]? = some s.servers[i] := List.getElem?_eq_getElem hi
                have haccepting : s.acceptingServer = some s.servers[i] := by
                  simp only [acceptingServer, hpc, LoopPc.current, List.head?_cons, howner,
                    hserver]
                exact htail.inv_newConnection hframe (by simp) hserver
                  (hfresh hconnfd _ haccepting) hconnfd (hfd hconnfd).1 (hfd hconnfd).2
              · rw [if_neg (show ¬ connfd ≥ 0 from hconnfd)]
                exact ⟨_, rfl, htail⟩
          | connection id =>
              rw [hs] at howner
              obtain ⟨k, hk, hkc⟩ := h.objects.owner c id howner
              have hstage := h.dispatched.stage_eq htodo howner hk
              -- No channel comes twice in a batch.
              have hdone : k.conn.channel ∉ (LoopPc.dispatch current rest).todo := by
                have hnodup := h.dispatched.nodup
                rw [hpc] at hnodup
                rw [hkc]
                exact (List.nodup_cons.mp hnodup).1
              exact htail.inv_connectionHandler hframe rfl hk hstage hdone readv write

end Inv

/-- No two elements give the same value, so the value tells the place. Used for sockets: two
connections with the same open descriptor are the same connection. -/
private theorem index_eq_of_filterMap {α β : Type} {g : α → Option β} {l : List α}
    (h : (l.filterMap g).Nodup) {i j : Nat} {a b : α} {x : β} (hi : l[i]? = some a)
    (hj : l[j]? = some b) (ha : g a = some x) (hb : g b = some x) : i = j := by
  have hpair := List.pairwise_iff_getElem.mp (List.pairwise_filterMap.mp h)
  obtain ⟨hil, rfl⟩ := List.getElem?_eq_some_iff.mp hi
  obtain ⟨hjl, rfl⟩ := List.getElem?_eq_some_iff.mp hj
  rcases Nat.lt_trichotomy i j with hlt | heq | hlt
  · exact absurd rfl (hpair i j hil hjl hlt x ha x hb)
  · exact heq
  · exact absurd rfl (hpair j i hjl hil hlt x hb x ha)

/-! ### `connectDestroyed` -/

/-- What `connectDestroyed` makes of a connection, up to its callback: the state is down, and the
callback will find `connected()` false. -/
def destroyingObject (k : ConnectionObject) : ConnectionObject :=
  (k.setConn (k.conn.setState .kDisconnected)).record
    [.connectDestroyed, .connectionCallback false]

/-- The stage between the two halves of `connectDestroyed`. -/
theorem destroyingObject_stage (k : ConnectionObject) :
    (destroyingObject k).stage = .destroying :=
  (k.setConn _).stage_record [.connectDestroyed] (.connectionCallback false)

/-- The object is in order in between. The history goes on from where `handleClose` left it, and
nothing has destroyed the object, because the functor holds a reference. -/
theorem destroyingObject_ok {k : ConnectionObject} (hok : k.Ok) (hstage : k.stage = .closing) :
    (destroyingObject k).Ok := by
  have hnew := destroyingObject_stage k
  have hold : (k.setConn (k.conn.setState .kDisconnected)).History := hok.history
  have halive : ¬ k.destroyed = true := by
    rw [hok.destroyed, hstage]
    simp
  refine ⟨hold.next hnew (by rw [setConn_stage, hstage]; rfl), ?_,
    iff_of_false halive (by rw [hnew]; simp), hok.input, hok.output⟩
  rw [hnew]
  rfl

/-- The loop after the first half of `connectDestroyed`. The functor counts as run (it stands behind
`done`), and the frame says that the method goes on when the callback returns. -/
def afterConnectDestroyed (s : EventLoop) (id : TcpConnectionPtr) (k : ConnectionObject)
    (p' : Poller) (done rest : List PendingFunctor) : EventLoop :=
  { s with
    poller := p'
    conns := s.conns.set id (destroyingObject k)
    pc := .doPendingFunctors (done ++ [.connectDestroyed id]) rest
    frame := some (.connectDestroyed id) }

/-- One `connectDestroyed` less waits, that of the connection whose callback runs now. It waited
exactly once, so afterwards it waits no more, and its stage, `destroying`, is the one for the frame.
Counting is over the queue and the rest of the batch together: a functor that the callback queues
would wait for the next turn, and `Queued.quiet` says that none of these is a `connectDestroyed`. -/
theorem Queued.of_connectDestroyed (h : s.Queued) (hframe : s.frame = none) {id : Nat}
    {done rest : List PendingFunctor}
    (hpc : s.pc = .doPendingFunctors done (.connectDestroyed id :: rest))
    (hclosing : s.stageOf id = some .closing)
    (hpending : s'.pendingFunctors = s.pendingFunctors)
    (hpc' : s'.pc = .doPendingFunctors (done ++ [.connectDestroyed id]) rest)
    (hframe' : s'.frame = some (.connectDestroyed id))
    (hstages : ∀ j, s'.stageOf j = if j = id then some .destroying else s.stageOf j) :
    s'.Queued where
  pending j := by
    have hcount := h.pending j
    rw [hpc] at hcount
    rw [hpending, hpc', hstages]
    show (s.pendingFunctors ++ rest).count (PendingFunctor.connectDestroyed j) = _
    have hcons : (s.pendingFunctors ++ LoopPc.rest (.doPendingFunctors done
        (.connectDestroyed id :: rest))).count (PendingFunctor.connectDestroyed j)
        = (s.pendingFunctors ++ rest).count (PendingFunctor.connectDestroyed j)
          + if j = id then 1 else 0 := by
      show (s.pendingFunctors ++ (PendingFunctor.connectDestroyed id :: rest)).count _ = _
      rw [List.count_append, List.count_append, List.count_cons]
      by_cases hj : j = id
      · simp [hj]
        omega
      · simp [hj, Ne.symm hj]
    rw [hcons] at hcount
    by_cases hj : j = id
    · rw [if_pos hj, hj, hclosing] at hcount
      rw [if_pos hj, hj]
      simpa using hcount
    · rw [if_neg hj] at hcount
      rw [if_neg hj]
      exact hcount
  frame j := by
    rw [hstages, hframe']
    by_cases hj : j = id
    · rw [if_pos hj, hj]
      exact iff_of_true rfl rfl
    · rw [if_neg hj, ← h.frame j, hframe]
      simp [Ne.symm hj]
  inFunctors _ _ := by
    rw [hpc']
    rfl
  quiet _ := by
    rw [hpending]
    exact h.quiet (by rw [hpc]; rfl)
  poll hp := by
    rw [hpc'] at hp
    cases hp
  fits := by
    -- The functor moves from the ones to run to the ones that ran.
    have hfits := h.fits
    rw [hpc] at hfits
    rw [hpc']
    show ((done ++ [PendingFunctor.connectDestroyed id]) ++ rest).length < 2 ^ 31
    rwa [List.append_assoc]

/-- The stage behind `removeChannel`, done outside the dispatch. -/
theorem removedObject_stage (k : ConnectionObject) :
    (k.record [.removeChannel false]).stage = .removed :=
  k.stage_record [] (.removeChannel false)

/-- The object is in order behind `removeChannel`: only its destructor is missing. -/
theorem removedObject_ok {k : ConnectionObject} (hok : k.Ok) (hstage : k.stage = .destroying) :
    (k.record [.removeChannel false]).Ok := by
  have hnew := removedObject_stage k
  have halive : ¬ k.destroyed = true := by
    rw [hok.destroyed, hstage]
    simp
  have hstate := hok.state
  rw [hstage] at hstate
  refine ⟨hok.history.next hnew (by rw [hstage]; rfl), ?_,
    iff_of_false halive (by rw [hnew]; simp), hok.input, hok.output⟩
  rw [hnew]
  exact hstate

/-- The loop after `removeChannel`, back among the functors. -/
def afterRemoveChannel (s : EventLoop) (id : TcpConnectionPtr) (k : ConnectionObject)
    (p' : Poller) : EventLoop :=
  { s with
    poller := p'
    conns := s.conns.set id (k.record [.removeChannel false])
    frame := none }

namespace Inv

/-! ### Functors -/

/-- Whoever waits for its `connectDestroyed` is closing: it is not established any more, and it was
not destroyed yet. This is `Queued.pending` read from the functor to the connection. -/
theorem closing_of_rest (h : s.Inv) {id : Nat}
    (hmem : .connectDestroyed id ∈ s.pendingFunctors ++ s.pc.rest) :
    ∃ k, s.conns[id]? = some k ∧ k.stage = .closing := by
  have hcount := h.queued.pending id
  have hpos := List.count_pos_iff.mpr hmem
  by_cases hclosing : s.stageOf id = some .closing
  · exact exists_of_stageOf hclosing
  · rw [if_neg hclosing] at hcount
    omega

end Inv

/-- The socket of the connection that a functor is bound to. The value for a functor of the user is
never looked at. -/
def functorFd (s : EventLoop) : PendingFunctor → Int
  | .connectDestroyed id => (s.conns[id]?).elim (-1) (·.conn.socket.sockfd)
  | .user => -1

namespace Inv

/-- In a queue without functors of the user, every functor is the `connectDestroyed` of a
connection that is closing. Its socket is still open. -/
theorem functorFd_spec (h : s.Inv) (huser : .user ∉ s.pendingFunctors) {f : PendingFunctor}
    (hf : f ∈ s.pendingFunctors) :
    ∃ id k, f = .connectDestroyed id ∧ s.conns[id]? = some k ∧
      k.openFd = some (s.functorFd f) := by
  cases f with
  | user => exact absurd hf huser
  | connectDestroyed id =>
      obtain ⟨k, hk, hstage⟩ := h.closing_of_rest (List.mem_append_left s.pc.rest hf)
      refine ⟨id, k, rfl, hk, ?_⟩
      rw [(h.objects.ok id k hk).openFd_eq, if_neg (by rw [hstage]; simp), functorFd, hk]
      rfl

/-- Such a queue has each `connectDestroyed` once, and different connections have different
sockets. So the sockets are as many as the functors. -/
theorem functorFd_nodup (h : s.Inv) (huser : .user ∉ s.pendingFunctors) :
    (s.pendingFunctors.map s.functorFd).Nodup := by
  refine List.Nodup.map_on ?_ ?_
  · intro f hf g hg heq
    obtain ⟨i, k, rfl, hk, hopen⟩ := h.functorFd_spec huser hf
    obtain ⟨j, d, rfl, hd, hopen'⟩ := h.functorFd_spec huser hg
    have hconns := (List.nodup_append.mp h.wired.distinct).2.1
    rw [index_eq_of_filterMap hconns hk hd hopen (heq ▸ hopen')]
  · refine List.nodup_iff_count_le_one.mpr fun f => ?_
    cases f with
    | user => rw [List.count_eq_zero.mpr huser]; exact Nat.zero_le 1
    | connectDestroyed id =>
        have hcount := h.queued.pending id
        rw [List.count_append] at hcount
        have hone : (if s.stageOf id = some .closing then 1 else 0) ≤ 1 := by
          split <;> omega
        omega

/-- The swap takes fewer than `2 ^ 31` functors if none of them is the user's. Then each is
bound to a connection with an open socket of its own, and besides them the acceptor that made
the connection has one. All these are different `int`s from zero on, and there are `2 ^ 31` of
those. This is what keeps `FunctorsFit` a condition on the user alone. -/
theorem pending_fits (h : s.Inv) (huser : .user ∉ s.pendingFunctors) :
    s.pendingFunctors.length < 2 ^ 31 := by
  cases hpending : s.pendingFunctors with
  | nil => exact Nat.two_pow_pos 31
  | cons f fs =>
      obtain ⟨id, k, -, hk, -⟩ :=
        h.functorFd_spec huser (by rw [hpending]; exact List.mem_cons_self)
      have hplace : s.placeOf id = some (k.server, k.name) := by
        rw [placeOf, hk]
        rfl
      have hlt := h.listed.server id _ _ hplace
      have haccept : s.servers[k.server].acceptSocket ∈ s.servers.map (·.acceptSocket) :=
        List.mem_map_of_mem (List.getElem_mem hlt)
      -- the sockets of the waiting connections, behind that of the acceptor
      have hmem : ∀ fd ∈ s.pendingFunctors.map s.functorFd,
          fd ∈ s.conns.filterMap openFd := by
        intro fd hfd
        obtain ⟨g, hg, rfl⟩ := List.mem_map.mp hfd
        obtain ⟨j, d, -, hd, hopen⟩ := h.functorFd_spec huser hg
        exact List.mem_filterMap.mpr ⟨d, List.mem_of_getElem? hd, hopen⟩
      have hnodup : (s.servers[k.server].acceptSocket ::
          s.pendingFunctors.map s.functorFd).Nodup := by
        refine List.nodup_cons.mpr ⟨fun hin => ?_, h.functorFd_nodup huser⟩
        exact (List.nodup_append.mp h.wired.distinct).2.2 _
          (List.mem_cons_of_mem _ (List.mem_cons_of_mem _ haccept)) _ (hmem _ hin) rfl
      have hlength := length_le_of_nodup (n := 2 ^ 31) hnodup fun fd hfd => by
        rcases List.mem_cons.mp hfd with rfl | hfd
        · exact h.wired.ints _ (List.mem_append_left _ haccept)
        · exact h.wired.ints _ (List.mem_append_right _ (hmem _ hfd))
      rw [List.length_cons, List.length_map, hpending] at hlength
      exact hlength

/-- The swap of `doPendingFunctors`. What is queued from here on waits for the next turn, and
the loop comes to everything that it took. -/
theorem inv_doPendingFunctors (h : s.Inv) (hframe : s.frame = none)
    (hpc : s.pc = .dispatch [] []) (hfit : FunctorsFit s .doPendingFunctors) :
    ∃ s', s.stepBody .doPendingFunctors = some s' ∧ s'.Inv := by
  have hlength : s.pendingFunctors.length < 2 ^ 31 := by
    by_cases huser : .user ∈ s.pendingFunctors
    · exact hfit huser
    · exact h.pending_fits huser
  refine ⟨_, rfl, h.objects.of_eq rfl rfl, h.wired.of_eq rfl rfl rfl rfl,
    h.listed.of_same rfl rfl (fun _ => rfl) (fun _ => Iff.rfl), ?_, .of_not_dispatch rfl,
    h.numbered⟩
  refine ⟨fun id => ?_, h.queued.frame, fun _ _ => rfl, fun _ id hid => ?_,
    fun _ => hframe, hlength⟩
  · have hcount := h.queued.pending id
    rw [hpc] at hcount
    simpa [LoopPc.rest, stageOf] using hcount
  · cases hid

/-- `connectDestroyed` of a closing connection, up to its callback. Its assertion on the state
holds, since nobody else sets the state down, and `disableAll` finds the channel registered. User
code runs next, in the connection callback, on a connection whose `connected()` is false. -/
theorem inv_connectDestroyed (h : s.Inv) (hframe : s.frame = none) {id : Nat}
    {done rest : List PendingFunctor}
    (hpc : s.pc = .doPendingFunctors done (.connectDestroyed id :: rest)) {k : ConnectionObject}
    (hk : s.conns[id]? = some k) (hstage : k.stage = .closing) :
    ∃ p', ({ s with pc := .doPendingFunctors (done ++ [.connectDestroyed id]) rest } :
        EventLoop).runFunctor (.connectDestroyed id)
          = some (s.afterConnectDestroyed id k p' done rest) ∧
      (s.afterConnectDestroyed id k p' done rest).Inv := by
  have hok := h.objects.ok id k hk
  have hstate := hok.state_of_isOpen (by rw [hstage]; rfl)
  obtain ⟨p', hcall, hmoves⟩ := h.moves_update hk (by rw [hstage]; rfl) (Or.inl rfl)
  have hreturns := TcpConnection.connectDestroyed_returns hstate hcall
  have hstage₁ := destroyingObject_stage k
  have hmove : Moves s.poller p' k (destroyingObject k) :=
    hmoves _ (destroyingObject_ok hok hstage) ⟨rfl, rfl, rfl, rfl⟩ (by rw [hstage₁]; rfl)
      (fun _ => Or.inl rfl) fun _ => rfl
  let s₁ := s.afterConnectDestroyed id k p' done rest
  have hparts : s₁.Objects ∧ s₁.Wired ∧ s₁.conns.map (fun k => (k.server, k.name))
      = s.conns.map fun k => (k.server, k.name) := h.parts_of_moves hk hmove rfl rfl rfl
  obtain ⟨hobjects, hwired, hplaces⟩ := hparts
  have hstages : ∀ j, s₁.stageOf j = if j = id then some .destroying else s.stageOf j := by
    rw [← hstage₁]
    exact stageOf_set hk rfl
  refine ⟨p', ?_, hobjects, hwired, ?_, ?_, .of_not_dispatch rfl, ?_⟩
  · -- the functor returns
    rw [runFunctor]
    simp only [hk, Option.bind_eq_bind, Option.bind_some, hreturns]
    rfl
  · -- listed
    refine h.listed.of_same rfl rfl (placeOf_of_map hplaces) fun j => ?_
    rw [hstages]
    by_cases hj : j = id
    · rw [if_pos hj, hj, stageOf_eq hk, hstage]
      simp
    · rw [if_neg hj]
  · -- queued
    exact h.queued.of_connectDestroyed hframe hpc ((stageOf_eq hk).trans (congrArg some hstage))
      rfl rfl rfl hstages
  · -- numbered
    exact h.numbered.of_same (fun i server hi => ⟨server, hi, rfl, rfl⟩) hplaces

/-- The next functor. One of the user is a frame of user code and changes nothing by itself. The
loop is in front of a functor even when the batch is too large for the `int` (`rest_ne_nil`), so
this step needs no condition. -/
theorem inv_runFunctor (h : s.Inv) (hframe : s.frame = none) (hat : s.pc.atFunctor) :
    ∃ s', s.stepBody .runFunctor = some s' ∧ s'.Inv := by
  cases hpc : s.pc with
  | poll => simp [hpc, LoopPc.atFunctor] at hat
  | dispatch current rest => simp [hpc, LoopPc.atFunctor] at hat
  | doPendingFunctors done rest =>
      cases rest with
      | nil => exact absurd (congrArg LoopPc.rest hpc) (LoopPc.rest_ne_nil hat)
      | cons f rest =>
          cases f with
          | user =>
              refine ⟨{ s with
                pc := .doPendingFunctors (done ++ [.user]) rest, frame := some .functor },
                by rw [stepBody, hpc]; rfl, h.of_calm ⟨rfl, ?_, fun _ hid => hid, ?_,
                by rw [hpc]; rfl, (fun hp => by cases hp), ?_, ?_, ?_⟩ rfl rfl rfl rfl rfl⟩
              · intro id
                rw [hpc]
                simp [LoopPc.rest]
              · intro id
                rw [hframe]
                simp
              · rw [hpc]
                exact .refl _
              · rw [hpc]
                exact fun _ hx => hx
              · rw [hpc]
                simp [LoopPc.functors]
          | connectDestroyed id =>
              have hmem : .connectDestroyed id ∈ s.pendingFunctors ++ s.pc.rest := by
                rw [hpc]
                simp [LoopPc.rest]
              obtain ⟨k, hk, hstage⟩ := h.closing_of_rest hmem
              obtain ⟨p', hrun, hinv⟩ := h.inv_connectDestroyed hframe hpc hk hstage
              exact ⟨_, by rw [stepBody, hpc]; exact hrun, hinv⟩

/-- The end of `doPendingFunctors`. Here the size of the batch matters: it fits (`Queued.fits`), so
the loop over it came to its end and no functor is dropped. With an empty rest and, by
`Queued.quiet`, no `connectDestroyed` in the queue, no connection is closing when the loop polls
again. -/
theorem inv_endFunctors (h : s.Inv) (hframe : s.frame = none) (hat : s.pc.atEnd) :
    ∃ s', s.stepBody .endFunctors = some s' ∧ s'.Inv := by
  cases hpc : s.pc with
  | poll => simp [hpc, LoopPc.atEnd] at hat
  | dispatch current rest => simp [hpc, LoopPc.atEnd] at hat
  | doPendingFunctors done rest =>
      cases rest with
      | cons f rest =>
          have hnil := LoopPc.rest_eq_nil hat h.queued.fits
          rw [hpc] at hnil
          cases hnil
      | nil =>
          refine ⟨_, rfl, h.of_calm ⟨rfl, ?_, fun _ hid => hid, fun _ => Iff.rfl,
            by rw [hpc]; rfl, fun _ => hframe, ?_, ?_, Nat.zero_le _⟩ rfl rfl rfl rfl rfl⟩
          · intro id
            rw [hpc]
            rfl
          · rw [hpc]
            exact .refl _
          · rw [hpc]
            exact fun _ hx => hx

/-- The callback of `connectDestroyed` returns, and the channel is removed. The assertions of
`removeChannel` hold: the channel is registered, it is switched off in the table as `disableAll`
left it, and the callback could not switch it on, because `send` tests the state
(`ConnectionObject.Wired.quiet`). The loop is not dispatching, so no batch refers to the channel. -/
theorem inv_removeChannel (h : s.Inv) {id : Nat}
    (hframe : s.frame = some (.connectDestroyed id)) {k : ConnectionObject}
    (hk : s.conns[id]? = some k) (hstage : k.stage = .destroying) :
    ∃ p', s.callbackReturns (.connectDestroyed id) = some (s.afterRemoveChannel id k p') ∧
      (s.afterRemoveChannel id k p').Inv := by
  have hok := h.objects.ok id k hk
  have hpc := h.queued.inFunctors id hframe
  have hold := h.wired.conn id k hk
  obtain ⟨p', hcall, hremoved⟩ := h.wired.table.remove
    (hold.registered.mpr (by rw [hstage]; rfl)) (hold.quiet hstage) (hold.off (Or.inr hstage))
  have hstage₁ := removedObject_stage k
  have hok₁ := removedObject_ok hok hstage
  have hplace : SamePlace k (k.record [.removeChannel false]) := ⟨rfl, rfl, rfl, rfl⟩
  have hmove : Moves s.poller p' k (k.record [.removeChannel false]) := by
    refine ⟨hok₁, rfl, hplace.openFd hok hok₁ (by rw [hstage₁, hstage]; simp), rfl, rfl,
      hremoved.table, hremoved.frame.others, ?_, ?_, ?_, ?_, ?_⟩
    · rw [hremoved.self]
      exact h.readsOnly hk
    · show (p'.channel k.conn.channel).fd = _
      rw [hremoved.self]
      exact hold.sockfd
    · exact iff_of_false hremoved.notRegistered (by rw [hstage₁]; simp [Stage.isRegistered])
    · rw [hstage₁]
      simp
    · rw [hstage₁]
      simp
  let s₁ := s.afterRemoveChannel id k p'
  have hparts : s₁.Objects ∧ s₁.Wired ∧ s₁.conns.map (fun k => (k.server, k.name))
      = s.conns.map fun k => (k.server, k.name) := h.parts_of_moves hk hmove rfl rfl rfl
  obtain ⟨hobjects, hwired, hplaces⟩ := hparts
  have hstages : ∀ j, s₁.stageOf j = if j = id then some .removed else s.stageOf j := by
    rw [← hstage₁]
    exact stageOf_set hk rfl
  -- Only the stage of being destroyed ends here.
  have hsame : ∀ stage, stage ≠ .destroying → stage ≠ .removed → ∀ j,
      (s₁.stageOf j = some stage ↔ s.stageOf j = some stage) := by
    intro stage hne hne' j
    rw [hstages]
    by_cases hj : j = id
    · rw [if_pos hj, hj, stageOf_eq hk, hstage]
      simp [Ne.symm hne, Ne.symm hne']
    · rw [if_neg hj]
  refine ⟨p', ?_, hobjects, hwired,
    h.listed.of_same rfl rfl (placeOf_of_map hplaces) (hsame _ (by simp) (by simp)), ?_,
    .of_not_dispatch hpc, ?_⟩
  · rw [callbackReturns]
    simp only [hk, Option.bind_eq_bind, Option.bind_some, TcpConnection.connectDestroyedRemove,
      hcall, hpc]
    rfl
  · refine ⟨fun j => ?_, fun j => ?_, (fun j hj => by cases hj), h.queued.quiet,
      fun _ => rfl, h.queued.fits⟩
    · rw [show s₁.pendingFunctors ++ s₁.pc.rest = s.pendingFunctors ++ s.pc.rest from rfl,
        h.queued.pending j]
      exact if_congr (hsame _ (by simp) (by simp) j).symm rfl rfl
    · refine iff_of_false (by simp [afterRemoveChannel]) ?_
      rw [hstages]
      by_cases hj : j = id
      · rw [if_pos hj]
        simp
      · rw [if_neg hj, ← h.queued.frame j, hframe]
        simp [Ne.symm hj]
  · exact h.numbered.of_same (fun i server hi => ⟨server, hi, rfl, rfl⟩) hplaces

/-- A user callback returns. For every callback but one the loop goes on where it was; behind that
of `connectDestroyed` the rest of the method comes first. -/
theorem inv_callbackReturns (h : s.Inv) (hframe : s.frame ≠ none) :
    ∃ s', s.stepBody .callbackReturns = some s' ∧ s'.Inv := by
  obtain ⟨f, hf⟩ := Option.ne_none_iff_exists'.mp hframe
  -- Every other callback returns to the loop at once.
  have hother : (∀ id, f ≠ .connectDestroyed id) → ({ s with frame := none } : EventLoop).Inv := by
    intro hnot
    refine h.of_calm ⟨rfl, fun _ => rfl, fun _ hid => hid, ?_, rfl, fun _ => rfl, .refl _,
      fun _ hx => hx, le_refl _⟩ rfl rfl rfl rfl rfl
    intro id
    rw [hf]
    simp [hnot id]
  simp only [stepBody, hf, Option.bind_some]
  cases f with
  | connectDestroyed id =>
      obtain ⟨k, hk, hstage⟩ := exists_of_stageOf ((h.queued.frame id).mp hf)
      obtain ⟨p', hcall, hinv⟩ := h.inv_removeChannel hf hk hstage
      exact ⟨_, hcall, hinv⟩
  | connectEstablished id => exact ⟨_, rfl, hother (by simp)⟩
  | message id => exact ⟨_, rfl, hother (by simp)⟩
  | timer => exact ⟨_, rfl, hother (by simp)⟩
  | functor => exact ⟨_, rfl, hother (by simp)⟩

end Inv

/-! ### Destructors -/

/-- A destructor touches the history and the descriptor, and no member of the connection. -/
@[simp] theorem releaseObject_conn (s : EventLoop) (id : TcpConnectionPtr)
    (k : ConnectionObject) : (s.releaseObject id k).conn = k.conn := by
  rw [releaseObject]
  split <;> rfl

/-- The object stays the one that its server accepted under its name. -/
theorem releaseObject_place (s : EventLoop) (id : TcpConnectionPtr) (k : ConnectionObject) :
    (s.releaseObject id k).server = k.server ∧ (s.releaseObject id k).name = k.name := by
  rw [releaseObject]
  split <;> exact ⟨rfl, rfl⟩

/-- `release` looks at each object by itself. -/
theorem getElem?_release (s : EventLoop) (id : Nat) :
    s.release.conns[id]? = (s.conns[id]?).map (s.releaseObject id) :=
  List.getElem?_mapIdx

/-- No object is made or moved by the destructors, so servers and names are where they were. -/
theorem map_place_release (s : EventLoop) :
    s.release.conns.map (fun k => (k.server, k.name))
      = s.conns.map fun k => (k.server, k.name) := by
  refine List.ext_getElem? fun id => ?_
  rw [List.getElem?_map, List.getElem?_map, getElem?_release]
  cases s.conns[id]? with
  | none => rfl
  | some k =>
      obtain ⟨hserver, hname⟩ := s.releaseObject_place id k
      simp [hserver, hname]

/-- Elements lose their value or keep it. So the values that are left stand in the old order,
without those that were lost. -/
private theorem filterMap_mapIdx_sublist {α β : Type} {g : α → Option β} (l : List α) :
    ∀ {f : Nat → α → α}, (∀ i a, g (f i a) = g a ∨ g (f i a) = none) →
      ((l.mapIdx f).filterMap g).Sublist (l.filterMap g) := by
  induction l with
  | nil => exact fun _ => .refl _
  | cons a l ih =>
      intro f hf
      have htail := ih fun i b => hf (i + 1) b
      rw [List.mapIdx_cons]
      rcases hf 0 a with hsame | hnone
      · rw [List.filterMap_cons, List.filterMap_cons, hsame]
        cases g a with
        | none => exact htail
        | some x => exact htail.cons_cons x
      · rw [List.filterMap_cons, hnone, List.filterMap_cons]
        cases g a with
        | none => exact htail
        | some x => exact htail.cons x

/-- The sockets of the destroyed connections are closed, and nothing is opened. -/
theorem openFd_release_sublist (s : EventLoop) :
    (s.release.conns.filterMap openFd).Sublist (s.conns.filterMap openFd) := by
  refine filterMap_mapIdx_sublist s.conns fun id k => ?_
  rw [releaseObject]
  split
  · exact Or.inl rfl
  · exact Or.inr rfl

/-- The destructors make no object. -/
theorem exists_of_release {id : Nat} {d : ConnectionObject}
    (hd : s.release.conns[id]? = some d) :
    ∃ k, s.conns[id]? = some k ∧ s.releaseObject id k = d := by
  rw [getElem?_release] at hd
  exact Option.map_eq_some_iff.mp hd

/-- The destructor is the last event. -/
theorem stage_destroyed (k : ConnectionObject) :
    ({ k.record [.close false] with destroyed := true } : ConnectionObject).stage = .closed :=
  k.stage_record [] (.close false)

/-- The functors that are still to run are held with the others. -/
theorem mem_functors {pc : LoopPc} {f : PendingFunctor}
    (h : f ∈ pc.rest) : f ∈ pc.functors := by
  cases pc with
  | poll => cases h
  | dispatch current rest => cases h
  | doPendingFunctors done rest => exact List.mem_append_right _ h

namespace Inv

/-- Until its channel is removed somebody refers to a connection: the map of its server, the
queued functor, or the callback of `connectDestroyed`. One after the other they carry the
`shared_ptr` from `newConnection` to the end of `connectDestroyed`, one for each stage. This is the
reason for `queueInLoop` in `removeConnection`, which the source asks about in a comment there. -/
theorem referenced (h : s.Inv) {id : Nat} {k : ConnectionObject} (hk : s.conns[id]? = some k)
    (hstage : k.stage.isRegistered) : s.Referenced id := by
  have hstageOf := stageOf_eq hk
  cases hs : k.stage with
  | established =>
      rw [hs] at hstageOf
      have hplace : s.placeOf id = some (k.server, k.name) := by
        rw [placeOf, hk]
        rfl
      have hi := h.listed.server id _ _ hplace
      have hserver := List.getElem?_eq_getElem hi
      have hlookup := (h.listed.listed _ _ k.name id hserver).mpr ⟨hplace, hstageOf⟩
      exact Or.inl ⟨_, List.getElem_mem hi, _, AList.mem_lookup_iff.mp hlookup, rfl⟩
  | closing =>
      rw [hs] at hstageOf
      have hcount := h.queued.pending id
      rw [if_pos hstageOf] at hcount
      have hmem : .connectDestroyed id ∈ s.pendingFunctors ++ s.pc.rest :=
        List.count_pos_iff.mp (by omega)
      refine Or.inr (Or.inl ?_)
      rcases List.mem_append.mp hmem with hpending | hrest
      · exact List.mem_append_left _ hpending
      · exact List.mem_append_right _ (mem_functors hrest)
  | destroying =>
      rw [hs] at hstageOf
      exact Or.inr (Or.inr ⟨_, (h.queued.frame id).mpr hstageOf, rfl⟩)
  | removed =>
      rw [hs] at hstage
      cases hstage
  | closed =>
      rw [hs] at hstage
      cases hstage

/-- When the channel is removed and the object is still there, nothing is registered under
its descriptor. The socket is still open, so the kernel has given its number to nobody else, and
whoever is registered has an open descriptor of its own. Hence the destructor closes a socket that
the `Poller` does not know, which is the `false` in the event that it records. -/
theorem lookup_of_removed (h : s.Inv) {id : Nat} {k : ConnectionObject}
    (hk : s.conns[id]? = some k) (hstage : k.stage = .removed) :
    s.poller.channels.lookup k.conn.socket.sockfd = none := by
  cases hlookup : s.poller.channels.lookup k.conn.socket.sockfd with
  | none => rfl
  | some c =>
      obtain ⟨hreg, hfd⟩ := h.wired.table.lookup_iff.mp hlookup
      obtain ⟨o, howner⟩ : ∃ o, s.owners[c]? = some o :=
        ⟨_, List.getElem?_eq_getElem (h.wired.owned c hreg)⟩
      have hopen : k.openFd = some k.conn.socket.sockfd := by
        rw [(h.objects.ok id k hk).openFd_eq, if_neg (by rw [hstage]; simp)]
      have hdistinct := List.nodup_append.mp h.wired.distinct
      -- A channel of the loop or of an acceptor has another descriptor.
      have hservice : (∀ j, o ≠ .connection j) → False := by
        intro hnot
        have hmem := (h.wired.service c _ howner hnot).2.2
        rw [hfd] at hmem
        exact hdistinct.2.2 _ hmem _
          (List.mem_filterMap.mpr ⟨k, List.mem_of_getElem? hk, hopen⟩) rfl
      cases o with
      | connection j =>
          obtain ⟨d, hd, hdc⟩ := h.objects.owner c j howner
          have hdwired := h.wired.conn j d hd
          have hdstage := hdwired.registered.mp (hdc ▸ hreg)
          have hdopen : d.openFd = some k.conn.socket.sockfd := by
            rw [(h.objects.ok j d hd).openFd_eq, if_neg, ← hdwired.sockfd, hdc, hfd]
            intro hclosed
            rw [hclosed] at hdstage
            cases hdstage
          have heq := index_eq_of_filterMap hdistinct.2.1 hd hk hdopen hopen
          rw [heq, hk, Option.some.injEq] at hd
          rw [← hd, hstage] at hdstage
          cases hdstage
      | timerQueue => exact (hservice (by simp)).elim
      | wakeup => exact (hservice (by simp)).elim
      | acceptor i => exact (hservice (by simp)).elim

/-- The destructor runs only after `removeChannel`. Before it, somebody refers to the object. This
is the one lemma about what `release` does to an object; the parts of the invariant below follow
from it. -/
theorem releaseObject_cases (h : s.Inv) {id : Nat} {k : ConnectionObject}
    (hk : s.conns[id]? = some k) :
    s.releaseObject id k = k ∨ k.stage = .removed ∧
      s.releaseObject id k = { k.record [.close false] with destroyed := true } := by
  rw [releaseObject]
  split
  · exact Or.inl rfl
  · rename_i hnot
    obtain ⟨halive, -, hunreferenced⟩ := not_or.mp hnot |>.imp_right not_or.mp
    have hstage : k.stage = .removed := by
      cases hs : k.stage with
      | removed => rfl
      | closed => exact absurd ((h.objects.ok id k hk).destroyed.mpr hs) halive
      | established => exact absurd (h.referenced hk (by rw [hs]; rfl)) hunreferenced
      | closing => exact absurd (h.referenced hk (by rw [hs]; rfl)) hunreferenced
      | destroying => exact absurd (h.referenced hk (by rw [hs]; rfl)) hunreferenced
    refine Or.inr ⟨hstage, ?_⟩
    rw [h.lookup_of_removed hk hstage]
    rfl

/-- What is in front of `removeChannel` stays what it is. All that maps, queue and batch say is
about such stages, so it is not affected by destructors. -/
theorem stageOf_release_iff (h : s.Inv) {stage : Stage} (hreg : stage.isRegistered = true)
    (id : Nat) : s.release.stageOf id = some stage ↔ s.stageOf id = some stage := by
  rw [stageOf, stageOf, getElem?_release]
  cases hk : s.conns[id]? with
  | none => simp
  | some k =>
      rcases h.releaseObject_cases hk with hsame | ⟨hstage, hnew⟩
      · simp [hsame]
      · rw [Option.map_some, Option.map_some, Option.map_some, hnew, stage_destroyed, hstage]
        refine iff_of_false ?_ ?_ <;> rw [Option.some.injEq] <;> rintro rfl <;> cases hreg

/-- The objects after the destructors. One that was destroyed has the last event in its history, and
the others are unchanged. -/
theorem objects_release (h : s.Inv) : s.release.Objects where
  ok id d hd := by
    obtain ⟨k, hk, rfl⟩ := exists_of_release hd
    have hok := h.objects.ok id k hk
    rcases h.releaseObject_cases hk with hsame | ⟨hstage, hnew⟩
    · rw [hsame]
      exact hok
    · -- the destructor of a connection that is out of the table
      have hstate := hok.state
      rw [hstage] at hstate
      rw [hnew]
      refine ⟨hok.history.next (stage_destroyed k) (by rw [hstage]; rfl), ?_,
        iff_of_true rfl (stage_destroyed k), hok.input, hok.output⟩
      rw [stage_destroyed]
      exact hstate
  channel id d hd := by
    obtain ⟨k, hk, rfl⟩ := exists_of_release hd
    rw [releaseObject_conn]
    exact h.objects.channel id k hk
  owner c id hc := by
    obtain ⟨k, hk, hkc⟩ := h.objects.owner c id hc
    exact ⟨s.releaseObject id k, by rw [getElem?_release, hk]; rfl, by rw [releaseObject_conn, hkc]⟩

/-- The table is not touched by destructors, and what they close was not registered. The open
descriptors stay different, since none is opened. -/
theorem wired_release (h : s.Inv) : s.release.Wired := by
  have hsockets := s.openFd_release_sublist
  refine ⟨h.wired.table, h.wired.owned, h.wired.reads, h.wired.service, ?_,
    h.wired.distinct.sublist (.append (.refl _) hsockets),
    fun fd hfd => h.wired.ints fd ((List.Sublist.append (.refl _) hsockets).subset hfd)⟩
  intro id d hd
  obtain ⟨k, hk, rfl⟩ := exists_of_release hd
  have hwired := h.wired.conn id k hk
  rcases h.releaseObject_cases hk with hsame | ⟨hstage, hnew⟩
  · rw [hsame]
    exact hwired
  · have hnot := hwired.registered
    rw [hstage] at hnot
    rw [hnew]
    exact ⟨hwired.sockfd, by rw [stage_destroyed]; exact hnot, by rw [stage_destroyed]; simp,
      by rw [stage_destroyed]; simp⟩

/-- The destructors that run in a step keep the invariant. -/
theorem inv_release (h : s.Inv) : s.release.Inv := by
  have hstages : ∀ stage : Stage, stage.isRegistered = true → ∀ id,
      (s.release.stageOf id = some stage ↔ s.stageOf id = some stage) :=
    fun _ hreg id => h.stageOf_release_iff hreg id
  have hplaces := s.map_place_release
  refine ⟨h.objects_release, h.wired_release,
    h.listed.of_same rfl rfl (placeOf_of_map hplaces) (hstages _ rfl), ?_, ?_, ?_⟩
  · -- queued
    exact h.queued.of_same (fun _ => rfl) (fun _ hid => hid) (fun _ => Iff.rfl) rfl
      h.queued.poll (le_refl _) (hstages _ rfl) (hstages _ rfl)
  · -- dispatched
    exact h.dispatched.of_same rfl (fun hd => hd) (.refl _) (fun _ hx => hx)
      (fun _ _ _ hc => hc) fun _ _ id hid => ⟨hid, (hstages _ rfl id).mpr⟩
  · -- numbered
    exact h.numbered.of_same (fun i server hi => ⟨server, hi, rfl, rfl⟩) hplaces

end Inv

/-! ### The constructor -/

/-- The invariant holds of a new loop. The constructor registers the channel of the timerfd and that
of the eventfd, and there is neither a server nor a connection. That the two descriptors differ is
all that is asked of the kernel. -/
theorem new_inv {timerfd wakeupFd : Int} (hnew : new timerfd wakeupFd = some s)
    (htimerfd : 0 ≤ timerfd) (hwakeupFd : 0 ≤ wakeupFd) (hne : timerfd ≠ wakeupFd) : s.Inv := by
  have hnobody : ∀ c, ¬ (Poller.new fun _ => Channel.new (-1)).Registered c := by
    simp [Poller.Registered, Poller.new]
  obtain ⟨p, hp, htable, hreg, hfd, hreads, hon, hothers⟩ :=
    addChannel_of_table (Poller.new_table fun _ => Or.inl rfl) (hnobody 0) htimerfd rfl
  -- After the timerfd, the table has its channel and no other.
  have honly : ∀ c, p.Registered c → c = 0 := by
    intro c hc
    by_contra hc0
    exact hnobody c ((hothers.registered c hc0).mp hc)
  -- So the descriptor of the wakeup channel is free in the map.
  have hlookup : p.channels.lookup wakeupFd = none := by
    cases hl : p.channels.lookup wakeupFd with
    | none => rfl
    | some c =>
        obtain ⟨hc, hcfd⟩ := htable.lookup_iff.mp hl
        rw [honly c hc, hfd] at hcfd
        exact absurd hcfd hne
  obtain ⟨p', hp', htable', hreg', hfd', hreads', hon', hothers'⟩ :=
    addChannel_of_table htable (fun hc => absurd (honly 1 hc) (by decide)) hwakeupFd hlookup
  rw [new, hp] at hnew
  simp only [Option.bind_eq_bind, Option.bind_some, hp'] at hnew
  cases hnew
  have hcases : ∀ (c : Nat) o, [Owner.timerQueue, .wakeup][c]? = some o →
      c = 0 ∧ o = .timerQueue ∨ c = 1 ∧ o = .wakeup := by
    intro c o hc
    rcases getElem?_concat_cases (show ([Owner.timerQueue] ++ [_])[c]? = _ from hc)
      with hold | hlast
    · obtain ⟨hlt, rfl⟩ := List.getElem?_eq_some_iff.mp hold
      have hc0 : c = 0 := Nat.lt_one_iff.mp hlt
      subst hc0
      exact Or.inl ⟨rfl, rfl⟩
    · exact Or.inr hlast
  have hzero : (0 : Nat) ≠ 1 := by decide
  refine ⟨⟨by simp, by simp, ?_⟩, ⟨htable', ?_, ?_, ?_, by simp, ?_, by simp [sockets]⟩,
    ⟨by simp, by simp [placeOf], ?_⟩,
    ⟨?_, ?_, by simp, by simp, fun _ => rfl, Nat.two_pow_pos 31⟩,
    .of_not_dispatch rfl, by intro i server hi; simp at hi⟩
  · -- no owner is a connection
    intro c id hc
    rcases hcases c _ hc with ⟨-, ho⟩ | ⟨-, ho⟩ <;> cases ho
  · -- owned
    intro c hc
    by_cases hc1 : c = 1
    · rw [hc1]
      exact Nat.lt_succ_self 1
    · rw [honly c ((hothers'.registered c hc1).mp hc)]
      exact Nat.zero_lt_two
  · -- reads
    intro c hc
    have hlt : c < 2 := hc
    by_cases hc1 : c = 1
    · rw [hc1]
      exact hreads'
    · have hc0 : c = 0 := by omega
      obtain ⟨i, hi⟩ := hothers'.channel c hc1
      rw [hi, hc0]
      exact ⟨hreads.read, hreads.write, hreads.error, hreads.close⟩
  · -- service
    intro c o hc _
    rcases hcases c o hc with ⟨rfl, -⟩ | ⟨rfl, -⟩
    · refine ⟨(hothers'.registered 0 hzero).mpr hreg, hothers'.on hzero hreg hon, ?_⟩
      rw [hothers'.fd hzero, hfd]
      exact List.mem_cons_self
    · refine ⟨hreg', hon', ?_⟩
      rw [hfd']
      exact List.mem_cons_of_mem _ List.mem_cons_self
  · -- distinct
    simpa [openFds, serviceFds] using hne
  · -- no acceptor yet
    intro c i hc
    rcases hcases c _ hc with ⟨-, ho⟩ | ⟨-, ho⟩ <;> cases ho
  · -- nothing is queued
    intro id
    simp [LoopPc.rest, stageOf]
  · -- no `connectDestroyed` runs
    intro id
    simp [stageOf]

namespace Inv

/-! ### The machine -/

/-- Every legal action that meets the two conditions returns, and keeps the invariant. One case for
each action; what is done here is to find the place of the loop that legality speaks of. -/
theorem inv_stepBody (h : s.Inv) {a : LoopAction} (hlegal : s.Legal a) (hfit : FunctorsFit s a)
    (hfresh : FreshName s a) : ∃ s', s.stepBody a = some s' ∧ s'.Inv := by
  cases a with
  | poll answer numEvents => exact h.inv_poll hlegal.1 hlegal.2.2 numEvents
  | handleEvent =>
      cases hpc : s.pc with
      | poll => simp [Legal, hpc, LoopPc.atChannel] at hlegal
      | doPendingFunctors done rest => simp [Legal, hpc, LoopPc.atChannel] at hlegal
      | dispatch current rest =>
          cases current with
          | cons x current => simp [Legal, hpc, LoopPc.atChannel] at hlegal
          | nil =>
              cases rest with
              | nil => simp [Legal, hpc, LoopPc.atChannel] at hlegal
              | cons c rest => exact h.inv_handleEvent hpc
  | runHandler connfd readv write =>
      exact h.inv_runHandler hlegal.1 hlegal.2.1 hlegal.2.2 readv write hfresh
  | doPendingFunctors => exact h.inv_doPendingFunctors hlegal.1 hlegal.2 hfit
  | runFunctor => exact h.inv_runFunctor hlegal.1 hlegal.2
  | endFunctors => exact h.inv_endFunctors hlegal.1 hlegal.2
  | callbackReturns => exact h.inv_callbackReturns hlegal
  | send id message result => exact h.inv_send hlegal.2.1 message result
  | shutdown id => exact h.inv_shutdown hlegal.2
  | input id op => exact h.inv_input hlegal.2.1 hlegal.2.2
  | addRef id =>
      obtain ⟨k, hk, -⟩ := hlegal.2
      refine ⟨_, ?_, h.inv_userRefs hk (k.userRefs + 1)⟩
      rw [stepBody, show s.conns[id]? = some k from hk]
      rfl
  | dropRef id =>
      obtain ⟨k, hk, -⟩ := hlegal.2
      refine ⟨_, ?_, h.inv_userRefs hk (k.userRefs - 1)⟩
      rw [stepBody, show s.conns[id]? = some k from hk]
      rfl
  | queueInLoop => exact h.inv_queueInLoop
  | startServer name fd =>
      exact h.inv_startServer name hlegal.2.1 hlegal.2.2.1 hlegal.2.2.2

/-- The step lemma of the loop. No assertion of the code fails in a legal step that meets the two
conditions, and the invariant holds behind it, with the destructors that ran in the step. -/
theorem inv_step (h : s.Inv) {a : LoopAction} (hlegal : s.Legal a) (hfit : FunctorsFit s a)
    (hfresh : FreshName s a) : ∃ s', s.step a = some s' ∧ s'.Inv := by
  obtain ⟨s₁, hs₁, hinv⟩ := h.inv_stepBody hlegal hfit hfresh
  exact ⟨s₁.release, by rw [step, hs₁]; rfl, hinv.inv_release⟩

/-- The run lemma of the loop, by induction on the run: a run whose steps all meet the two
conditions keeps the invariant. -/
theorem inv_of_run (h : s.Inv) {as : List LoopAction}
    (hrun : ((loopMachine.restrict FunctorsFit).restrict FreshName).Run s as s') : s'.Inv := by
  refine hrun.invariant h fun t a t' ht hlegal hstep => ?_
  obtain ⟨u, hu, hinv⟩ := ht.inv_step hlegal.1.1 hlegal.1.2 hlegal.2
  have heq : some u = some t' := hu.symm.trans hstep
  exact Option.some.inj heq ▸ hinv

end Inv

end EventLoop

end SecondGear
