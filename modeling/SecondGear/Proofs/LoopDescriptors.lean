import Mathlib.Data.List.Nodup
import SecondGear.Proofs.DeferredDestruction
import SecondGear.Proofs.LoopConnections

/-!
# `SecondGear.Proofs.LoopDescriptors`: the loop leaks no descriptor

A connection's socket is closed by the destructor of its object, and the object dies with the
last reference. References are everywhere: in the maps, in queued functors, in the arguments of
callbacks, with the user. When the loop polls, only two kinds are left.

* `Collected`: an object that is still there has a reference.
* `openFds_at_poll`: at the head of the loop the open descriptors are those of the loop, those of
  the acceptors, one for each entry of the maps, and those of closed connections that the user
  holds on to.
-/

set_option autoImplicit false

namespace SecondGear

open SecondGear.Lib

namespace EventLoop

open ConnectionObject

variable {s s' : EventLoop} {a : LoopAction}

/-! ### The connections in the maps -/

/-- The connections in the maps of the servers. -/
def listedIds (s : EventLoop) : List TcpConnectionPtr :=
  s.servers.flatMap fun server => server.connections.entries.map (·.2)

/-- The descriptor of a connection. -/
def sockfdOf (s : EventLoop) (id : TcpConnectionPtr) : Option Int :=
  (s.conns[id]?).map (·.conn.socket.sockfd)

/-- An entry of a map. -/
theorem Listed.of_entry (h : s.Listed) {i : Nat} {server : TcpServer}
    (hi : s.servers[i]? = some server) {e : (_ : String) × TcpConnectionPtr}
    (he : e ∈ server.connections.entries) :
    s.placeOf e.2 = some (i, e.1) ∧ s.stageOf e.2 = some .established := by
  have hlookup : server.connections.lookup e.1 = some e.2 := AList.mem_lookup_iff.mpr he
  exact (h.listed i server e.1 e.2 hi).mp hlookup

/-- The maps hold the established connections. -/
theorem Listed.mem_listedIds (h : s.Listed) {id : TcpConnectionPtr} :
    id ∈ s.listedIds ↔ s.stageOf id = some .established := by
  constructor
  · intro hid
    obtain ⟨server, hserver, hid⟩ := List.mem_flatMap.mp hid
    obtain ⟨e, he, rfl⟩ := List.mem_map.mp hid
    obtain ⟨i, hi⟩ := List.getElem?_of_mem hserver
    exact (h.of_entry hi he).2
  · intro hstage
    obtain ⟨k, hk, -⟩ := exists_of_stageOf hstage
    have hplace : s.placeOf id = some (k.server, k.name) := by
      rw [placeOf, hk]
      rfl
    have hlt := h.server id _ _ hplace
    have hlookup := (h.listed _ _ k.name id (List.getElem?_eq_getElem hlt)).mpr ⟨hplace, hstage⟩
    exact List.mem_flatMap.mpr ⟨_, List.getElem_mem hlt, List.mem_map.mpr
      ⟨⟨k.name, id⟩, AList.mem_lookup_iff.mp hlookup, rfl⟩⟩

/-- No connection is in the maps twice. -/
theorem Listed.nodup_listedIds (h : s.Listed) : s.listedIds.Nodup := by
  refine List.nodup_flatMap.mpr ⟨fun server hserver => ?_, ?_⟩
  · obtain ⟨i, hi⟩ := List.getElem?_of_mem hserver
    refine List.Nodup.map_on ?_ (List.NodupKeys.nodup server.connections.nodupKeys)
    intro e he d hd heq
    -- A connection has one name.
    have hplace := (h.of_entry hi he).1
    rw [heq, (h.of_entry hi hd).1, Option.some.injEq, Prod.mk.injEq] at hplace
    exact Sigma.ext hplace.2.symm (heq_of_eq heq)
  · rw [List.pairwise_iff_getElem]
    intro i j hi hj hlt id hid hid'
    obtain ⟨e, he, rfl⟩ := List.mem_map.mp hid
    obtain ⟨d, hd, heq⟩ := List.mem_map.mp hid'
    -- and one server
    have hplace := (h.of_entry (List.getElem?_eq_getElem hi) he).1
    rw [← heq, (h.of_entry (List.getElem?_eq_getElem hj) hd).1, Option.some.injEq,
      Prod.mk.injEq] at hplace
    omega

/-- A selection of a list by its indices. -/
theorem map_range_filter {α β : Type} (p : α → Bool) (f : α → β) (xs : List α) :
    ((List.range xs.length).filter fun i => (xs[i]?).any p).map (fun i => (xs[i]?).map f)
      = ((xs.filter p).map f).map some := by
  induction xs with
  | nil => rfl
  | cons x xs ih =>
      rw [List.length_cons, List.range_succ_eq_map, List.filter_cons, List.filter_map]
      have htail : (((List.range xs.length).filter
            ((fun i => ((x :: xs)[i]?).any p) ∘ Nat.succ)).map Nat.succ).map
              (fun i => ((x :: xs)[i]?).map f)
          = ((xs.filter p).map f).map some := by
        rw [List.map_map]
        exact ih
      cases hx : p x with
      | true =>
          rw [List.filter_cons_of_pos hx]
          simp only [List.getElem?_cons_zero, Option.any_some, hx, if_true, List.map_cons,
            Option.map_some]
          exact congrArg (some (f x) :: ·) htail
      | false =>
          rw [List.filter_cons_of_neg (by rw [hx]; simp)]
          simp only [List.getElem?_cons_zero, Option.any_some, hx, Bool.false_eq_true, if_false]
          exact htail

/-- The descriptors of the connections in the maps. -/
theorem Listed.map_sockfdOf (h : s.Listed) :
    (s.listedIds.map s.sockfdOf).Perm
      (((s.conns.filter (·.stage = .established)).map (·.conn.socket.sockfd)).map some) := by
  have hstage : ∀ id, id ∈ (List.range s.conns.length).filter
      (fun i => (s.conns[i]?).any (·.stage = .established)) ↔
        s.stageOf id = some .established := by
    intro id
    rw [List.mem_filter, stageOf]
    cases hk : s.conns[id]? with
    | none => simp
    | some k =>
        have hlt := (List.getElem?_eq_some_iff.mp hk).1
        simp [hlt]
  have hids : s.listedIds.Perm ((List.range s.conns.length).filter
      fun i => (s.conns[i]?).any (·.stage = .established)) := by
    refine (List.perm_ext_iff_of_nodup h.nodup_listedIds (List.nodup_range.filter _)).mpr ?_
    intro id
    rw [h.mem_listedIds, hstage]
  rw [← map_range_filter]
  exact hids.map _

/-! ### References -/

/-- An object that is there has a reference. -/
def Collected (s : EventLoop) : Prop :=
  ∀ (id : Nat) k, s.conns[id]? = some k →
    k.destroyed = true ∨ 0 < k.userRefs ∨ s.Referenced id

/-- The destructors run in every step. -/
theorem step_collected (hstep : s.step a = some s') : s'.Collected := by
  obtain ⟨t, -, rfl⟩ := Option.map_eq_some_iff.mp hstep
  intro id k' hk'
  rw [getElem?_release] at hk'
  obtain ⟨k, -, rfl⟩ := Option.map_eq_some_iff.mp hk'
  rw [releaseObject]
  split
  · rename_i hkept
    exact hkept
  · exact Or.inl rfl

/-- Where no `connectDestroyed` is queued, held or run, and no user code is inside a callback,
only the maps and the user refer to a connection. The maps have the established ones. -/
theorem Collected.userRefs_pos (h : s.Inv) (hcollected : s.Collected) (hframe : s.frame = none)
    {id : Nat} (hqueued : .connectDestroyed id ∉ s.pendingFunctors ++ s.pc.functors)
    {k : ConnectionObject} (hk : s.conns[id]? = some k) (halive : k.destroyed = false)
    (hstage : k.stage ≠ .established) : 0 < k.userRefs := by
  rcases hcollected id k hk with hdestroyed | hrefs | hreferenced
  · rw [halive] at hdestroyed
    cases hdestroyed
  · exact hrefs
  · exfalso
    rcases hreferenced with ⟨server, hserver, e, he, rfl⟩ | hmem | ⟨frame, hf, -⟩
    · obtain ⟨i, hi⟩ := List.getElem?_of_mem hserver
      have hlisted := (h.listed.of_entry hi he).2
      rw [stageOf_eq hk, Option.some.injEq] at hlisted
      exact hstage hlisted
    · exact hqueued hmem
    · rw [hframe] at hf
      cases hf

/-- Behind the pending functors only the maps and the user refer to a connection. -/
theorem Collected.at_poll (h : s.Inv) (hcollected : s.Collected) (hpc : s.pc = .poll)
    {id : Nat} {k : ConnectionObject} (hk : s.conns[id]? = some k) (halive : k.destroyed = false)
    (hstage : k.stage ≠ .established) : 0 < k.userRefs := by
  refine hcollected.userRefs_pos h (h.queued.poll hpc) ?_ hk halive hstage
  rw [hpc, LoopPc.functors, List.append_nil]
  exact h.queued.quiet (by rw [hpc]; rfl) id

/-! ### The descriptors -/

/-- The open descriptors, when the loop is about to poll. -/
theorem Inv.openFds_perm (h : s.Inv) (hcollected : s.Collected) (hpc : s.pc = .poll) :
    ∃ kept : List ConnectionObject, kept.Sublist s.conns ∧
      (∀ k ∈ kept, 0 < k.userRefs ∧ .handleClose ∈ k.trace) ∧
      (s.openFds.map some).Perm (s.serviceFds.map some ++ s.listedIds.map s.sockfdOf ++
        (kept.map (·.conn.socket.sockfd)).map some) := by
  have hok : ∀ k ∈ s.conns, k.Ok := by
    intro k hk
    obtain ⟨id, hid⟩ := List.getElem?_of_mem hk
    exact h.objects.ok id k hid
  let alive := s.conns.filter (·.destroyed = false)
  have hopen : s.conns.filterMap openFd = alive.map (·.conn.socket.sockfd) := by
    rw [← List.filterMap_eq_map, List.filterMap_filter]
    refine List.filterMap_congr fun k _ => ?_
    rw [openFd]
    cases k.destroyed <;> rfl
  have hestablished : alive.filter (·.stage = .established)
      = s.conns.filter (·.stage = .established) := by
    rw [List.filter_filter]
    refine List.filter_congr fun k hk => ?_
    cases hdestroyed : k.destroyed with
    | false => simp
    | true =>
        rw [(hok k hk).destroyed.mp hdestroyed]
        rfl
  refine ⟨alive.filter (fun k => ¬ k.stage = .established), ?_, fun k hk => ?_, ?_⟩
  · exact List.filter_sublist.trans List.filter_sublist
  · obtain ⟨hmem, hstage⟩ := List.mem_filter.mp hk
    obtain ⟨hmem, halive⟩ := List.mem_filter.mp hmem
    obtain ⟨id, hid⟩ := List.getElem?_of_mem hmem
    have hstage : k.stage ≠ .established := of_decide_eq_true hstage
    refine ⟨hcollected.at_poll h hpc hid (of_decide_eq_true halive) hstage, ?_⟩
    by_contra hnot
    exact hstage ((hok k hmem).history.established_iff.mpr hnot)
  · have hsplit : (alive.map (·.conn.socket.sockfd)).Perm
        ((s.conns.filter (·.stage = .established)).map (·.conn.socket.sockfd) ++
          (alive.filter fun k => ¬ k.stage = .established).map (·.conn.socket.sockfd)) := by
      rw [← hestablished, ← List.map_append]
      refine (List.Perm.map _ ?_).symm
      simpa using List.filter_append_perm (fun k => decide (k.stage = .established)) alive
    rw [openFds, hopen, List.map_append, List.append_assoc]
    refine List.Perm.append_left _ ((hsplit.map some).trans ?_)
    rw [List.map_append]
    exact h.listed.map_sockfdOf.symm.append_right _

/-- In every run, whenever the loop is about to poll, the open descriptors are, up to order: the
timerfd, the eventfd and the listening sockets, one socket for each entry of the servers' maps,
and one for each closed connection that the user still refers to. -/
theorem openFds_at_poll {timerfd wakeupFd : Int} {s₀ : EventLoop} {as : List LoopAction}
    (hnew : new timerfd wakeupFd = some s₀) (htimerfd : 0 ≤ timerfd) (hwakeupFd : 0 ≤ wakeupFd)
    (hne : timerfd ≠ wakeupFd)
    (hrun : ((loopMachine.restrict FunctorsFit).restrict FreshName).Run s₀ as s)
    (hpc : s.pc = .poll) :
    s.openFds.Nodup ∧ ∃ kept : List ConnectionObject, kept.Sublist s.conns ∧
      (∀ k ∈ kept, 0 < k.userRefs ∧ .handleClose ∈ k.trace) ∧
      (s.openFds.map some).Perm (s.serviceFds.map some ++ s.listedIds.map s.sockfdOf ++
        (kept.map (·.conn.socket.sockfd)).map some) := by
  have hstart : s₀.Collected := by
    intro id k hk
    rw [new_conns hnew] at hk
    cases hk
  obtain ⟨h, hcollected⟩ : s.Inv ∧ s.Collected := by
    refine hrun.invariant (I := fun t => t.Inv ∧ t.Collected)
      ⟨new_inv hnew htimerfd hwakeupFd hne, hstart⟩ ?_
    rintro t a t' ⟨ht, -⟩ hlegal hstep
    obtain ⟨u, hu, ht'⟩ := ht.inv_step hlegal.1.1 hlegal.1.2 hlegal.2
    obtain rfl : u = t' := Option.some.inj (hu.symm.trans hstep)
    exact ⟨ht', step_collected hstep⟩
  exact ⟨h.wired.distinct, h.openFds_perm hcollected hpc⟩

/-- Two connections. The user holds on to the first one, and its peer closes it: five descriptors
are open, and one of them is the user's. -/
theorem openFds_at_poll_kept : ∃ (s : EventLoop) (kept : List ConnectionObject),
    s.openFds = [3, 4, 5, 7, 8] ∧ kept.length = 1 ∧
      (s.openFds.map some).Perm (s.serviceFds.map some ++ s.listedIds.map s.sockfdOf ++
        (kept.map (·.conn.socket.sockfd)).map some) := by
  obtain ⟨s₀, s, hnew, hrun, hpc, hopen, hlisted, hservers⟩ := Machine.exists_run_from
    (M := (loopMachine.restrict FunctorsFit).restrict FreshName)
    (P := fun s : EventLoop => s.pc = .poll ∧ s.openFds = [3, 4, 5, 7, 8] ∧
      s.listedIds.length = 1 ∧ s.servers.length = 1) (new 3 4)
    [.startServer "s" 5, .poll [0, 0, 1] 1, .handleEvent, .runHandler 7 (.error 0) (.ok 0),
      .addRef 0, .callbackReturns, .doPendingFunctors, .endFunctors,
      .poll [0, 0, 1, 1] 2, .handleEvent, .runHandler 8 (.error 0) (.ok 0), .callbackReturns,
      .handleEvent, .runHandler (-1) (.bytes []) (.ok 0), .doPendingFunctors, .runFunctor,
      .callbackReturns, .endFunctors]
    (by decide +kernel)
  obtain ⟨-, kept, -, -, hperm⟩ :=
    openFds_at_poll hnew (by decide) (by decide) (by decide) hrun hpc
  have hlength := hperm.length_eq
  rw [hopen] at hlength
  simp only [List.length_map, List.length_append, List.length_cons, List.length_nil, hlisted,
    serviceFds, hservers] at hlength
  exact ⟨s, kept, hopen, by omega, hperm⟩

end EventLoop

end SecondGear
