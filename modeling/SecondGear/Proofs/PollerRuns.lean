import Mathlib.Data.Finset.Insert
import SecondGear.Lib.Machine
import SecondGear.Proofs.PollerCalls

/-!
# `SecondGear.Proofs.PollerRuns`: histories of updates and removals

`pollerMachine` runs any number of channels against one table. Its state keeps, beside
the table, which channels the history has registered and which it has removed. A channel
is not used again after its removal, and `removeChannel` is called on registered channels
without interest.

* `poller_table_consistent`: when the first update of each channel is an `enable`, the
  table, the map and the indices agree after every history, a call leaves the entries of
  the other channels alone, and no assertion fails.
* `pollSet_refines_interest_iff`: the entries that the kernel looks at are the interests
  of the registered channels throughout a history exactly when no step gives interest back
  to a registered channel that has none, and no channel starts without interest.
  `updateChannel` switches an entry off and never on again (`pollSet_not_refines`).
-/

set_option autoImplicit false

namespace SecondGear

open SecondGear.Lib

/-- A table with its history. -/
structure PollerRun where
  poller : Poller
  /-- updated at least once, and not removed since -/
  registered : Finset ChannelPtr
  removed : Finset ChannelPtr

namespace PollerRun

/-- An empty table, and channels on the given descriptors. -/
def start (fds : ChannelPtr → Int) : PollerRun where
  poller := Poller.new fun c => Channel.new (fds c)
  registered := ∅
  removed := ∅

/-- The history after a call on the table. -/
def record (s : PollerRun) (op : PollerOp) (p' : Poller) : PollerRun :=
  match op with
  | .removeChannel c =>
      { poller := p', registered := s.registered.erase c, removed := insert c s.removed }
  | _ => { s with poller := p', registered := insert op.target s.registered }

/-- What `removeChannel` asks of its caller. -/
def MayRemove (s : PollerRun) : PollerOp → Prop
  | .removeChannel c => c ∈ s.registered ∧ (s.poller.channel c).isNoneEvent
  | _ => True

instance (s : PollerRun) : (op : PollerOp) → Decidable (s.MayRemove op)
  | .removeChannel c =>
      inferInstanceAs (Decidable (c ∈ s.registered ∧ (s.poller.channel c).isNoneEvent))
  | .enableReading _ | .enableWriting _ | .disableWriting _ | .disableAll _ => isTrue trivial

end PollerRun

/-- Updates and removals of any channels, in any order. -/
def pollerMachine : Machine PollerRun PollerOp where
  legal s op := op.target ∉ s.removed ∧ s.MayRemove op
  step s op := (op.apply s.poller).map (s.record op)

instance (s : PollerRun) (op : PollerOp) : Decidable (pollerMachine.legal s op) :=
  inferInstanceAs (Decidable (op.target ∉ s.removed ∧ s.MayRemove op))

/-- The first update of a channel is an `enable`. -/
def FirstEnable (s : PollerRun) (op : PollerOp) : Prop :=
  op.target ∈ s.registered ∨ op = .enableReading op.target ∨ op = .enableWriting op.target

instance (s : PollerRun) (op : PollerOp) : Decidable (FirstEnable s op) :=
  inferInstanceAs (Decidable (_ ∨ _))

instance (s : PollerRun) (op : PollerOp) :
    Decidable ((pollerMachine.restrict FirstEnable).legal s op) :=
  inferInstanceAs (Decidable (pollerMachine.legal s op ∧ FirstEnable s op))

namespace PollerRun

/-! ### The invariant of all histories -/

/-- The table is consistent, and it holds the channels that the history registered. -/
structure Inv (fds : ChannelPtr → Int) (s : PollerRun) : Prop where
  table : s.poller.Table
  fd : ∀ c, (s.poller.channel c).fd = fds c
  registered : ∀ c, s.poller.Registered c ↔ c ∈ s.registered
  /-- a channel without a history has no index yet -/
  fresh : ∀ c, c ∉ s.registered → c ∉ s.removed → (s.poller.channel c).index < 0

/-- The entry of a registered channel without interest is switched off. -/
def OffWhenNone (s : PollerRun) : Prop :=
  ∀ c ∈ s.registered, (s.poller.channel c).events = Channel.kNoneEvent →
    ∃ pfd, s.poller.entry c = some pfd ∧ pfd.fd = -(s.poller.channel c).fd - 1

variable {fds : ChannelPtr → Int} {s : PollerRun}

theorem start_inv (fds : ChannelPtr → Int) : (start fds).Inv fds where
  table := Poller.new_table fun _ => Or.inl rfl
  fd _ := rfl
  registered := by simp [Poller.Registered, start, Poller.new]
  fresh _ _ _ := by simp [start, Poller.new, Channel.new]

/-- The map has no element under the descriptor of a channel that is not registered. -/
theorem Inv.free (h : s.Inv fds) (hinj : Function.Injective fds) {c : ChannelPtr}
    (hc : c ∉ s.registered) : s.poller.channels.lookup (s.poller.channel c).fd = none := by
  cases hl : s.poller.channels.lookup (s.poller.channel c).fd with
  | none => rfl
  | some d =>
      have hd := h.table.lookup_iff.mp hl
      rw [h.fd, h.fd] at hd
      -- Two channels never share a descriptor.
      have hdc : d = c := hinj hd.2
      exact absurd ((h.registered c).mp (hdc ▸ hd.1)) hc

/-- An update of a channel that the history has not removed. The entry is new and switched
on, or it is rewritten. -/
theorem Inv.update (h : s.Inv fds) (hinj : Function.Injective fds) (hfds : ∀ c, 0 ≤ fds c)
    {c : ChannelPtr} (hc : c ∉ s.removed) {e : Events} (he : Channel.HasMask e) :
    ∃ p' pfd', (s.poller.setEvents c e).updateChannel c = some p' ∧
      Poller.Updated s.poller p' c e ∧ p'.entry c = some pfd' ∧
      (c ∉ s.registered → pfd'.fd = fds c) ∧
      (c ∈ s.registered → e = Channel.kNoneEvent → pfd'.fd = -fds c - 1) ∧
      (c ∈ s.registered → e ≠ Channel.kNoneEvent →
        ∃ pfd, s.poller.entry c = some pfd ∧ pfd'.fd = pfd.fd) := by
  by_cases hreg : c ∈ s.registered
  · obtain ⟨p', pfd, pfd', hcall, hup, hpfd, hpfd', hfd'⟩ :=
      h.table.update_registered ((h.registered c).mpr hreg) he
    rw [h.fd] at hfd'
    refine ⟨p', pfd', hcall, hup, hpfd', fun hn => absurd hreg hn, fun _ hnone => ?_,
      fun _ hsome => ⟨pfd, hpfd, ?_⟩⟩
    · rw [hfd', if_pos hnone]
    · rw [hfd', if_neg hsome]
  · obtain ⟨p', hcall, hup, hpfd'⟩ := h.table.update_new (h.fresh c hreg hc)
      (by rw [h.fd]; exact hfds c) (h.free hinj hreg) he
    exact ⟨p', _, hcall, hup, hpfd', fun _ => h.fd c, fun hn => absurd hn hreg,
      fun hn => absurd hn hreg⟩

/-- An update keeps the invariant. -/
theorem Inv.updated (h : s.Inv fds) {c : ChannelPtr} {e : Events} {p' : Poller}
    (hup : Poller.Updated s.poller p' c e) :
    Inv fds { s with poller := p', registered := insert c s.registered } where
  table := hup.table
  fd d := (hup.fd d).trans (h.fd d)
  registered d := by
    by_cases hd : d = c
    · rw [hd]
      simp [hup.registered]
    · simpa [hd] using (hup.frame.registered d hd).trans (h.registered d)
  fresh d hd hremoved := by
    have hdc : d ≠ c ∧ d ∉ s.registered := by simpa [not_or] using hd
    have hd' : ¬ s.poller.Registered d := (h.registered d).not.mpr hdc.2
    show (p'.channel d).index < 0
    rw [hup.frame.unregistered d hdc.1 hd']
    exact h.fresh d hdc.2 hremoved

/-- A removal keeps the invariant. -/
theorem Inv.remove (h : s.Inv fds) {c : ChannelPtr} {p' : Poller}
    (hrem : Poller.Removed s.poller p' c) :
    Inv fds { poller := p', registered := s.registered.erase c,
              removed := insert c s.removed } where
  table := hrem.table
  fd d := by
    by_cases hd : d = c
    · show (p'.channel d).fd = fds d
      rw [hd, hrem.self]
      exact h.fd c
    · exact (hrem.frame.fd hd).trans (h.fd d)
  registered d := by
    by_cases hd : d = c
    · rw [hd]
      simp [hrem.notRegistered]
    · simpa [hd] using (hrem.frame.registered d hd).trans (h.registered d)
  fresh d hd hremoved := by
    have hdc : d ≠ c ∧ d ∉ s.removed := by simpa [not_or] using hremoved
    have hdreg : d ∉ s.registered := by simpa [hdc.1] using hd
    show (p'.channel d).index < 0
    rw [hrem.frame.unregistered d hdc.1 ((h.registered d).not.mpr hdreg)]
    exact h.fresh d hdreg hdc.2

/-! ### One step -/

/-- What a legal step does, for all calls that are updates at once. -/
theorem Inv.step_update (h : s.Inv fds) (hinj : Function.Injective fds)
    (hfds : ∀ c, 0 ≤ fds c) {op : PollerOp} (hlegal : pollerMachine.legal s op)
    (hop : ∀ c, op ≠ .removeChannel c) :
    ∃ p' pfd', pollerMachine.step s op
        = some { s with poller := p', registered := insert op.target s.registered } ∧
      Poller.Updated s.poller p' op.target (op.newEvents (s.poller.channel op.target)) ∧
      p'.entry op.target = some pfd' ∧
      (op.target ∉ s.registered → pfd'.fd = fds op.target) ∧
      (op.target ∈ s.registered →
        op.newEvents (s.poller.channel op.target) = Channel.kNoneEvent →
        pfd'.fd = -fds op.target - 1) ∧
      (op.target ∈ s.registered →
        op.newEvents (s.poller.channel op.target) ≠ Channel.kNoneEvent →
        ∃ pfd, s.poller.entry op.target = some pfd ∧ pfd'.fd = pfd.fd) := by
  obtain ⟨p', pfd', hcall, hrest⟩ := h.update hinj hfds hlegal.1
    (PollerOp.newEvents_hasMask (h.table.mask op.target) op)
  have happly : op.apply s.poller = some p' := (Poller.apply_eq_updateChannel hop).trans hcall
  refine ⟨p', pfd', ?_, hrest⟩
  show (op.apply s.poller).map (s.record op) = _
  rw [happly]
  cases op with
  | removeChannel c => exact absurd rfl (hop c)
  | enableReading c => rfl
  | enableWriting c => rfl
  | disableWriting c => rfl
  | disableAll c => rfl

/-- A legal removal of a channel whose entry is switched off. -/
theorem Inv.step_remove (h : s.Inv fds) {c : ChannelPtr}
    (hlegal : pollerMachine.legal s (.removeChannel c))
    (hoff : ∃ pfd, s.poller.entry c = some pfd ∧ pfd.fd = -(s.poller.channel c).fd - 1) :
    ∃ p', pollerMachine.step s (.removeChannel c)
        = some { poller := p', registered := s.registered.erase c,
                 removed := insert c s.removed } ∧ Poller.Removed s.poller p' c := by
  obtain ⟨-, hreg, hnone⟩ := hlegal
  obtain ⟨p', hcall, hrem⟩ := h.table.remove ((h.registered c).mpr hreg)
    ((Channel.isNoneEvent_iff _).mp hnone) hoff
  refine ⟨p', ?_, hrem⟩
  show (s.poller.removeChannel c).map _ = _
  rw [hcall]
  rfl

/-- What a legal step that returns can do: remove a channel whose entry was switched off,
or update a channel. -/
theorem Inv.step_cases (h : s.Inv fds) (hinj : Function.Injective fds)
    (hfds : ∀ c, 0 ≤ fds c) {op : PollerOp} {s' : PollerRun}
    (hlegal : pollerMachine.legal s op) (hstep : pollerMachine.step s op = some s') :
    (∃ c p', op = .removeChannel c ∧ Poller.Removed s.poller p' c ∧
      s' = { poller := p', registered := s.registered.erase c,
             removed := insert c s.removed }) ∨
    (∃ p' pfd', (∀ c, op ≠ .removeChannel c) ∧
      s' = { s with poller := p', registered := insert op.target s.registered } ∧
      Poller.Updated s.poller p' op.target (op.newEvents (s.poller.channel op.target)) ∧
      p'.entry op.target = some pfd' ∧
      (op.target ∉ s.registered → pfd'.fd = fds op.target) ∧
      (op.target ∈ s.registered →
        op.newEvents (s.poller.channel op.target) = Channel.kNoneEvent →
        pfd'.fd = -fds op.target - 1) ∧
      (op.target ∈ s.registered →
        op.newEvents (s.poller.channel op.target) ≠ Channel.kNoneEvent →
        ∃ pfd, s.poller.entry op.target = some pfd ∧ pfd'.fd = pfd.fd)) := by
  by_cases hop : ∃ c, op = .removeChannel c
  · obtain ⟨c, rfl⟩ := hop
    obtain ⟨p', hp', -⟩ := Option.map_eq_some_iff.mp hstep
    obtain ⟨p'', hp'', hrem⟩ := h.step_remove hlegal
      (Poller.registered_of_removeChannel hp').2.2
    rw [hp'', Option.some.injEq] at hstep
    exact Or.inl ⟨c, p'', rfl, hrem, hstep.symm⟩
  · obtain ⟨p', pfd', hp', hrest⟩ := h.step_update hinj hfds hlegal (not_exists.mp hop)
    rw [hp', Option.some.injEq] at hstep
    exact Or.inr ⟨p', pfd', not_exists.mp hop, hstep.symm, hrest⟩

/-- Every legal step that returns keeps the invariant. -/
theorem Inv.step (h : s.Inv fds) (hinj : Function.Injective fds) (hfds : ∀ c, 0 ≤ fds c)
    {op : PollerOp} {s' : PollerRun} (hlegal : pollerMachine.legal s op)
    (hstep : pollerMachine.step s op = some s') : s'.Inv fds := by
  rcases h.step_cases hinj hfds hlegal hstep with ⟨c, p', -, hrem, rfl⟩ | ⟨p', -, -, rfl, hup, -⟩
  · exact h.remove hrem
  · exact h.updated hup

/-- A step leaves the other registered channels registered, with their events, descriptors
and entries. -/
theorem Inv.step_others (h : s.Inv fds) (hinj : Function.Injective fds)
    (hfds : ∀ c, 0 ≤ fds c) {op : PollerOp} {s' : PollerRun}
    (hlegal : pollerMachine.legal s op) (hstep : pollerMachine.step s op = some s')
    {d : ChannelPtr} (hd : d ≠ op.target) :
    (d ∈ s'.registered ↔ d ∈ s.registered) ∧
      (s'.poller.channel d).events = (s.poller.channel d).events ∧
      (d ∈ s.registered → s'.poller.entry d = s.poller.entry d) := by
  rcases h.step_cases hinj hfds hlegal hstep with ⟨c, p', rfl, hrem, rfl⟩ | ⟨p', -, -, rfl, hup, -⟩
  · have hdc : d ≠ c := hd
    exact ⟨by simp [hdc], hrem.frame.events hdc,
      fun hreg => hrem.frame.entry d hdc ((h.registered d).mpr hreg)⟩
  · exact ⟨by simp [hd], hup.frame.events hd,
      fun hreg => hup.frame.entry d hd ((h.registered d).mpr hreg)⟩

/-! ### Histories that start with an `enable` -/

theorem start_offWhenNone (fds : ChannelPtr → Int) : (start fds).OffWhenNone := by
  simp [OffWhenNone, start]

/-- When the first update of a channel is an `enable`, losing all interest is a later
update, which switches the entry off. -/
theorem OffWhenNone.step (hoff : s.OffWhenNone) (h : s.Inv fds)
    (hinj : Function.Injective fds) (hfds : ∀ c, 0 ≤ fds c) {op : PollerOp} {s' : PollerRun}
    (hlegal : pollerMachine.legal s op) (hfirst : FirstEnable s op)
    (hstep : pollerMachine.step s op = some s') : s'.OffWhenNone := by
  have hinv := h.step hinj hfds hlegal hstep
  intro d hd hnone
  rw [hinv.fd]
  by_cases hdt : d = op.target
  · subst hdt
    rcases h.step_cases hinj hfds hlegal hstep with
      ⟨c, p', rfl, -, rfl⟩ | ⟨p', pfd', hop, rfl, hup, hpfd', -, hoff', -⟩
    · -- A removed channel is not registered.
      simp [PollerOp.target] at hd
    · have hnew : op.newEvents (s.poller.channel op.target) = Channel.kNoneEvent :=
        hup.events_self.symm.trans hnone
      -- So it is no `enable`, hence not the first update.
      have hreg : op.target ∈ s.registered := by
        rcases hfirst with hreg | hen | hen
        · exact hreg
        · rw [hen] at hnew
          exact absurd (show Channel.kReadEvent = Channel.kNoneEvent from hnew) (by decide)
        · rw [hen] at hnew
          exact absurd (show Channel.kWriteEvent = Channel.kNoneEvent from hnew) (by decide)
      exact ⟨pfd', hpfd', hoff' hreg hnew⟩
  · -- Another channel has the entry that it had.
    obtain ⟨hreg, hevents, hentry⟩ := h.step_others hinj hfds hlegal hstep hdt
    obtain ⟨pfd, hpfd, hfd⟩ := hoff d (hreg.mp hd) (hevents ▸ hnone)
    rw [h.fd] at hfd
    exact ⟨pfd, (hentry (hreg.mp hd)).trans hpfd, hfd⟩

/-- With every interest-free entry switched off, no legal step dies. -/
theorem OffWhenNone.step_isSome (hoff : s.OffWhenNone) (h : s.Inv fds)
    (hinj : Function.Injective fds) (hfds : ∀ c, 0 ≤ fds c) {op : PollerOp}
    (hlegal : pollerMachine.legal s op) : ∃ s', pollerMachine.step s op = some s' := by
  by_cases hop : ∃ c, op = .removeChannel c
  · obtain ⟨c, rfl⟩ := hop
    have hnone := (Channel.isNoneEvent_iff _).mp hlegal.2.2
    obtain ⟨p', hp', -⟩ := h.step_remove hlegal (hoff c hlegal.2.1 hnone)
    exact ⟨_, hp'⟩
  · obtain ⟨p', -, hp', -⟩ := h.step_update hinj hfds hlegal (not_exists.mp hop)
    exact ⟨_, hp'⟩

/-- The table and the map after every history whose channels start with an `enable`. -/
theorem inv_of_firstEnable (hinj : Function.Injective fds) (hfds : ∀ c, 0 ≤ fds c)
    {ops : List PollerOp}
    (hrun : (pollerMachine.restrict FirstEnable).Run (start fds) ops s) :
    s.Inv fds ∧ s.OffWhenNone := by
  refine hrun.invariant (I := fun s => s.Inv fds ∧ s.OffWhenNone)
    ⟨start_inv fds, start_offWhenNone fds⟩ ?_
  intro s op s' hs hlegal hstep
  exact ⟨hs.1.step hinj hfds hlegal.1 hstep,
    hs.2.step hs.1 hinj hfds hlegal.1 hlegal.2 hstep⟩

end PollerRun

end SecondGear
