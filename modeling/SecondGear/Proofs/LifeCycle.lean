import SecondGear.Proofs.LoopRuns

/-!
# `SecondGear.Proofs.LifeCycle`: the life of a connection

`History` gives the trace of a connection the form `opening n ++ ending.take ..`. Here it is
read as its user sees it: `LifeCycle` says which callbacks come when, and how often. Then
the other parts of the invariant say when the end is reached, and what the maps of the
servers hold.

* `History.lifeCycle`: every history is a life cycle.
* `FewAccepts.freshName`: as long as no server accepted `2 ^ 31 - 1` connections, the next
  name is a new one.
* `connection_life_cycle`: in every run of such steps every connection has a life cycle, and
  no assertion fails.
-/

set_option autoImplicit false

namespace SecondGear

open SecondGear.Lib

/-- What comes behind an element that a list has once. -/
theorem tail_dropWhile_of_count {α : Type} [DecidableEq α] {e : α} {l before after : List α}
    (h : l = before ++ e :: after) (hcount : l.count e ≤ 1) :
    (l.dropWhile (· != e)).tail = after := by
  have hnot : e ∉ before := by
    intro hmem
    have hpos := List.count_pos_iff.mpr hmem
    rw [h, List.count_append, List.count_cons_self] at hcount
    omega
  have hskip : ∀ x ∈ before, (x != e) = true := by
    intro x hx
    simp only [bne_iff_ne, ne_eq]
    rintro rfl
    exact hnot hx
  rw [h, List.dropWhile_append_of_pos hskip]
  simp

/-! ### What the user sees -/

/-- The life of a connection so far. -/
structure LifeCycle (k : ConnectionObject) : Prop where
  /-- messages come after the connection callback, and the end comes after the messages -/
  history : ∃ n rest, k.trace = ConnectionObject.opening n ++ rest ∧
    rest <+: ConnectionObject.ending
  connected : [.connectEstablished, .connectionCallback true] <+: k.trace
  handleClose : k.trace.count .handleClose ≤ 1
  erase : ∀ n, .erase n ∈ k.trace → n = 1
  connectDestroyed : k.trace.count .connectDestroyed ≤ 1
  disconnected : ∀ before after, k.trace = before ++ .connectDestroyed :: after →
    [.connectionCallback false] <+: after ∧ .messageCallback ∉ after ∧ .closeCallback ∉ after

namespace ConnectionObject

variable {k : ConnectionObject}

/-- The opening has only its own events. -/
theorem mem_opening {n : Nat} {e : ConnectionEvent} (h : e ∈ opening n) :
    e = .connectEstablished ∨ e = .connectionCallback true ∨ e = .messageCallback := by
  rcases List.mem_append.mp h with hfirst | hmessage
  · have hcases : e = .connectEstablished ∨ e = .connectionCallback true := by simpa using hfirst
    exact hcases.imp_right Or.inl
  · exact Or.inr (Or.inr (List.eq_of_mem_replicate hmessage))

/-- An event of the end is in the history as often as in what the stage took of the end. -/
theorem count_history {n : Nat} {rest : List ConnectionEvent} (h : k.trace = opening n ++ rest)
    {e : ConnectionEvent} (he : e ∉ opening n) : k.trace.count e = rest.count e := by
  rw [h, List.count_append, List.count_eq_zero.mpr he, Nat.zero_add]

/-- Every history is a life cycle. -/
theorem History.lifeCycle (h : k.History) : LifeCycle k := by
  obtain ⟨n, hn⟩ := h
  have hclose : ConnectionEvent.handleClose ∉ opening n := fun hmem => by
    simpa using mem_opening hmem
  have hdestroyed : ConnectionEvent.connectDestroyed ∉ opening n := fun hmem => by
    simpa using mem_opening hmem
  have hcount : k.trace.count .connectDestroyed ≤ 1 := by
    rw [count_history hn hdestroyed]
    cases k.stage <;> decide
  refine ⟨⟨n, _, hn, List.take_prefix _ _⟩, ?_, ?_, ?_, hcount, ?_⟩
  · rw [hn, opening, List.append_assoc]
    exact List.prefix_append _ _
  · rw [count_history hn hclose]
    cases k.stage <;> decide
  · intro m hm
    rw [hn] at hm
    rcases List.mem_append.mp hm with hopening | hending
    · simpa using mem_opening hopening
    · have hmem := List.mem_of_mem_take hending
      simpa [ending] using hmem
  · intro before after hsplit
    have hafter := tail_dropWhile_of_count hsplit hcount
    have hskip : ∀ x ∈ opening n, (x != ConnectionEvent.connectDestroyed) = true := by
      intro x hx
      simp only [bne_iff_ne, ne_eq]
      rintro rfl
      exact hdestroyed hx
    have hmem : ConnectionEvent.connectDestroyed ∈ k.trace := by
      rw [hsplit]
      simp
    rw [hn, List.dropWhile_append_of_pos hskip] at hafter
    rw [hn, List.mem_append, or_iff_right hdestroyed] at hmem
    rw [← hafter]
    -- `connectDestroyed` is in the history from the stage `destroying` on.
    cases hstage : k.stage <;> rw [hstage] at hmem <;> revert hmem <;> decide

/-- The stage in front of `handleClose`, read off the history. -/
theorem History.established_iff (h : k.History) :
    k.stage = .established ↔ .handleClose ∉ k.trace := by
  obtain ⟨n, hn⟩ := h
  have hclose : ConnectionEvent.handleClose ∉ opening n := fun hmem => by
    simpa using mem_opening hmem
  rw [hn, List.mem_append, or_iff_right hclose]
  cases k.stage <;> decide

/-- The stages behind `connectDestroyed`. -/
theorem History.mem_connectDestroyed (h : k.History) :
    .connectDestroyed ∈ k.trace ↔ k.stage ≠ .established ∧ k.stage ≠ .closing := by
  obtain ⟨n, hn⟩ := h
  have hdestroyed : ConnectionEvent.connectDestroyed ∉ opening n := fun hmem => by
    simpa using mem_opening hmem
  rw [hn, List.mem_append, or_iff_right hdestroyed]
  cases k.stage <;> decide

/-- Every event that the history of a connection can have. -/
theorem History.mem (h : k.History)
    {e : ConnectionEvent} (he : e ∈ k.trace) :
    e = .connectEstablished ∨ e = .connectionCallback true ∨ e = .messageCallback ∨
      e ∈ ending := by
  obtain ⟨n, hn⟩ := h
  rw [hn] at he
  rcases List.mem_append.mp he with hopening | hending
  · rcases mem_opening hopening with h | h | h
    · exact Or.inl h
    · exact Or.inr (Or.inl h)
    · exact Or.inr (Or.inr (Or.inl h))
  · exact Or.inr (Or.inr (Or.inr (List.mem_of_mem_take hending)))

/-- The stages behind `removeChannel`. -/
theorem History.mem_removeChannel (h : k.History)
    (hstage : k.stage = .removed ∨ k.stage = .closed) : .removeChannel false ∈ k.trace := by
  obtain ⟨n, hn⟩ := h
  rw [hn]
  refine List.mem_append_right _ ?_
  rcases hstage with hstage | hstage <;> rw [hstage] <;> decide

end ConnectionObject

/-! ### Runs -/

namespace EventLoop

variable {s₀ s : EventLoop}

/-- No server has accepted `2 ^ 31 - 1` connections yet. -/
def FewAccepts (s : EventLoop) (_ : LoopAction) : Prop :=
  ∀ i < s.servers.length, s.accepts i < 2 ^ 31 - 1

instance (s : EventLoop) (a : LoopAction) : Decidable (FewAccepts s a) :=
  inferInstanceAs (Decidable (∀ i < s.servers.length, _))

/-- The number of the next connection is a new one. -/
theorem FewAccepts.freshName {a : LoopAction} (h : s.Inv) (hfew : FewAccepts s a) :
    FreshName s a := by
  cases a with
  | runHandler connfd readv write =>
      intro _ server hserver
      obtain ⟨i, hi⟩ : ∃ i : Nat, s.servers[i]? = some server := by
        rw [acceptingServer] at hserver
        split at hserver
        · split at hserver
          · exact ⟨_, hserver⟩
          · cases hserver
        · cases hserver
      exact h.numbered.connName_fresh h.listed hi (hfew i (List.getElem?_eq_some_iff.mp hi).1)
  | _ => trivial

/-- The invariant holds in every run of such steps. -/
theorem Inv.inv_of_fewAccepts (h : s₀.Inv) {as : List LoopAction}
    (hrun : ((loopMachine.restrict FunctorsFit).restrict FewAccepts).Run s₀ as s) : s.Inv := by
  refine hrun.invariant h fun t a t' ht hlegal hstep => ?_
  obtain ⟨u, hu, hinv⟩ := ht.inv_step hlegal.1.1 hlegal.1.2 (hlegal.2.freshName ht)
  have heq : some u = some t' := hu.symm.trans hstep
  exact Option.some.inj heq ▸ hinv

/-- A connection that was closed waits for its `connectDestroyed`, or had it. -/
theorem Inv.connectDestroyed_once (h : s.Inv) {id : Nat} {k : ConnectionObject}
    (hk : s.conns[id]? = some k) (hclosed : .handleClose ∈ k.trace) :
    k.trace.count .connectDestroyed
      + (s.pendingFunctors ++ s.pc.rest).count (.connectDestroyed id) = 1 := by
  have hhistory := (h.objects.ok id k hk).history
  have hnot : k.stage ≠ .established := fun hstage => hhistory.established_iff.mp hstage hclosed
  rw [h.queued.pending, stageOf_eq hk]
  by_cases hclosing : k.stage = .closing
  · have hnone : .connectDestroyed ∉ k.trace :=
      fun hmem => (hhistory.mem_connectDestroyed.mp hmem).2 hclosing
    rw [List.count_eq_zero.mpr hnone, if_pos (by rw [hclosing])]
  · have hmem := hhistory.mem_connectDestroyed.mpr ⟨hnot, hclosing⟩
    have hpos := List.count_pos_iff.mpr hmem
    have hone := hhistory.lifeCycle.connectDestroyed
    rw [if_neg (by simpa using hclosing)]
    omega

/-- The maps of the servers hold the connections that did not close, under their own names. -/
def HoldsOpen (s : EventLoop) : Prop :=
  ∀ (i : Nat) server name id, s.servers[i]? = some server →
    (server.connections.lookup name = some id ↔
      ∃ k, s.conns[id]? = some k ∧ k.server = i ∧ k.name = name ∧ .handleClose ∉ k.trace)

/-- What the maps hold, by the histories of the connections. -/
theorem Inv.holdsOpen (h : s.Inv) : s.HoldsOpen := by
  intro i server name id hi
  rw [h.listed.listed i server name id hi, placeOf, stageOf]
  cases hk : s.conns[id]? with
  | none => simp
  | some k =>
      have hiff := (h.objects.ok id k hk).history.established_iff
      simp [hiff, and_assoc]

/-- The connections of a run live as they should. A server's map holds its established
connections that are not closed, and every legal step passes its assertions. The user may queue
functors as well; `FunctorsFit` is about these alone, and says nothing about a run without. -/
theorem connection_life_cycle {timerfd wakeupFd : Int} {as : List LoopAction}
    (hnew : new timerfd wakeupFd = some s₀) (htimerfd : 0 ≤ timerfd) (hwakeupFd : 0 ≤ wakeupFd)
    (hne : timerfd ≠ wakeupFd)
    (hrun : ((loopMachine.restrict FunctorsFit).restrict FewAccepts).Run s₀ as s) :
    (∀ (id : Nat) k, s.conns[id]? = some k → LifeCycle k ∧
        (.handleClose ∈ k.trace → k.trace.count .connectDestroyed
          + (s.pendingFunctors ++ s.pc.rest).count (.connectDestroyed id) = 1) ∧
        (s.pc = .poll → k.trace.count .connectDestroyed = k.trace.count .handleClose)) ∧
      (∀ (i : Nat) server name id, s.servers[i]? = some server →
        (server.connections.lookup name = some id ↔
          ∃ k, s.conns[id]? = some k ∧ k.server = i ∧ k.name = name ∧
            .handleClose ∉ k.trace)) ∧
      ∀ a, ((loopMachine.restrict FunctorsFit).restrict FewAccepts).legal s a →
        (s.step a).isSome := by
  have h : s.Inv := (new_inv hnew htimerfd hwakeupFd hne).inv_of_fewAccepts hrun
  refine ⟨fun id k hk => ?_, h.holdsOpen, fun a hlegal => ?_⟩
  · have hhistory := (h.objects.ok id k hk).history
    refine ⟨hhistory.lifeCycle, h.connectDestroyed_once hk, fun hpc => ?_⟩
    by_cases hclosed : .handleClose ∈ k.trace
    · -- Nothing waits at the head of the loop.
      have hnone := h.queued.pending id
      have honce := h.connectDestroyed_once hk hclosed
      have hpos := List.count_pos_iff.mpr hclosed
      have hone := hhistory.lifeCycle.handleClose
      rw [if_neg (h.queued.at_poll hpc id).1] at hnone
      omega
    · have hnone : .connectDestroyed ∉ k.trace := fun hmem =>
        (hhistory.mem_connectDestroyed.mp hmem).1 (hhistory.established_iff.mpr hclosed)
      rw [List.count_eq_zero.mpr hclosed, List.count_eq_zero.mpr hnone]
  · obtain ⟨s', hs', -⟩ := h.inv_step hlegal.1.1 hlegal.1.2 (hlegal.2.freshName h)
    rw [hs']
    rfl

/-- A connection is accepted, sends, receives, and is closed by its peer. Its object is gone
at the end. -/
theorem connection_life_cycle_closed :
    ∃ s : EventLoop, ∃ k ∈ s.conns[0]?, k.destroyed = true ∧ LifeCycle k := by
  obtain ⟨s₀, s, hnew, hrun, k, hk, hdestroyed⟩ := Machine.exists_run_from
    (M := (loopMachine.restrict FunctorsFit).restrict FewAccepts)
    (P := fun s : EventLoop => ∃ k ∈ s.conns[0]?, k.destroyed = true) (new 3 4)
    [.startServer "s" 5, .poll [0, 0, 1] 1, .handleEvent, .runHandler 7 (.error 0) (.ok 0),
      .send 0 [1, 2] (.ok 2), .callbackReturns, .doPendingFunctors, .endFunctors,
      .poll [0, 0, 0, 1] 1, .handleEvent, .runHandler 0 (.bytes [65]) (.ok 0), .callbackReturns,
      .doPendingFunctors, .endFunctors, .poll [0, 0, 0, 1] 1, .handleEvent,
      .runHandler 0 (.bytes []) (.ok 0), .doPendingFunctors, .runFunctor, .callbackReturns,
      .endFunctors]
    (by decide +kernel)
  exact ⟨s, k, hk, hdestroyed,
    ((connection_life_cycle hnew (by decide) (by decide) (by decide) hrun).1 0 k hk).1⟩

end EventLoop

end SecondGear
