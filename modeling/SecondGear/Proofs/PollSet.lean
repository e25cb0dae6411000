import SecondGear.Proofs.PollerRuns

/-!
# `SecondGear.Proofs.PollSet`: the poll set against the interest of the channels

What the kernel looks at is `pollSet`: the entries with a descriptor that is not negative.
What the program asks for is `interest`: the registered channels with some events. A table
`Refines` when the two are equal and each registered channel without interest has its
entry stored as `-fd-1`.

`updateChannel` switches the entry of a channel off when its interest is gone. It never
switches one on, and the first update always switches on. So the table refines exactly as
long as no call gives interest back, and no channel starts without
(`pollSet_refines_interest_iff`).
-/

set_option autoImplicit false

namespace SecondGear

open SecondGear.Lib

namespace PollerRun

/-- What `poll(2)` looks at: the entries with `fd >= 0`. -/
def pollSet (s : PollerRun) : Set (Int × Events) :=
  {x | ∃ pfd ∈ s.poller.pollfds, 0 ≤ pfd.fd ∧ x = (pfd.fd, pfd.events.signExtend 32)}

/-- What the registered channels ask for. -/
def interest (s : PollerRun) : Set (Int × Events) :=
  {x | ∃ c ∈ s.registered, (s.poller.channel c).events ≠ Channel.kNoneEvent ∧
    x = ((s.poller.channel c).fd, (s.poller.channel c).events)}

/-- The poll set is the interest, and channels without interest are stored as `-fd-1`. -/
def Refines (s : PollerRun) : Prop := s.pollSet = s.interest ∧ s.OffWhenNone

/-- The entry of each registered channel carries the sign of its interest. -/
def Encoded (s : PollerRun) : Prop :=
  ∀ c ∈ s.registered, ∃ pfd, s.poller.entry c = some pfd ∧
    pfd.fd = if (s.poller.channel c).events = Channel.kNoneEvent then
      -(s.poller.channel c).fd - 1 else (s.poller.channel c).fd

/-- A registered channel that has no interest gets none, and a channel that is not
registered gets some. -/
def KeepsInterest (s : PollerRun) (op : PollerOp) : Prop :=
  if op.target ∈ s.registered then
    (s.poller.channel op.target).events = Channel.kNoneEvent →
      op.newEvents (s.poller.channel op.target) = Channel.kNoneEvent
  else op.newEvents (s.poller.channel op.target) ≠ Channel.kNoneEvent

instance (s : PollerRun) (op : PollerOp) : Decidable (KeepsInterest s op) :=
  inferInstanceAs (Decidable (ite _ _ _))

variable {fds : ChannelPtr → Int} {s : PollerRun}

/-! ### The poll set, entry by entry -/

/-- An entry with the right sign is in the poll set exactly with the right events. -/
theorem Inv.mem_pollSet (h : s.Inv fds) {c : ChannelPtr} (hc : c ∈ s.registered)
    {pfd : PollFd} (hpfd : s.poller.entry c = some pfd)
    (hon : pfd.fd = (s.poller.channel c).fd) :
    ((s.poller.channel c).fd, (s.poller.channel c).events) ∈ s.pollSet := by
  have hreg := (h.registered c).mpr hc
  obtain ⟨-, pfd', hpfd', hfor⟩ := h.table.entry c hreg
  rw [hpfd, Option.some.injEq] at hpfd'
  subst hpfd'
  refine ⟨pfd, List.mem_of_getElem? hpfd, ?_, ?_⟩
  · rw [hon]
    exact h.table.nonneg c hreg
  · rw [hon, hfor.events]

/-- An element of the poll set is the switched-on entry of a registered channel. -/
theorem Inv.of_mem_pollSet (h : s.Inv fds) {x : Int × Events} (hx : x ∈ s.pollSet) :
    ∃ c ∈ s.registered, ∃ pfd, s.poller.entry c = some pfd ∧
      pfd.fd = (s.poller.channel c).fd ∧
      x = ((s.poller.channel c).fd, (s.poller.channel c).events) := by
  obtain ⟨pfd, hmem, hon, rfl⟩ := hx
  obtain ⟨i, hi⟩ := List.mem_iff_getElem?.mp hmem
  obtain ⟨c, hreg, -, hentry, hfor⟩ := h.table.slot_entry hi
  have hfd : pfd.fd = (s.poller.channel c).fd := by
    have hnonneg := h.table.nonneg c hreg
    rcases hfor.fd with hfd | hfd
    · exact hfd
    · omega
  exact ⟨c, (h.registered c).mp hreg, pfd, hentry, hfd, by rw [hfd, hfor.events]⟩

/-- A consistent table refines exactly when every entry carries the sign of its
channel's interest. -/
theorem Inv.refines_iff (h : s.Inv fds) (hinj : Function.Injective fds) :
    s.Refines ↔ s.Encoded := by
  constructor
  · rintro ⟨hset, hoff⟩ c hc
    by_cases hnone : (s.poller.channel c).events = Channel.kNoneEvent
    · rw [if_pos hnone]
      exact hoff c hc hnone
    · rw [if_neg hnone]
      have hmem : ((s.poller.channel c).fd, (s.poller.channel c).events) ∈ s.pollSet := by
        rw [hset]
        exact ⟨c, hc, hnone, rfl⟩
      obtain ⟨d, -, pfd, hpfd, hfd, heq⟩ := h.of_mem_pollSet hmem
      have hdc : c = d := by
        have hfdeq := (Prod.mk.inj heq).1
        rw [h.fd, h.fd] at hfdeq
        exact hinj hfdeq
      rw [hdc]
      exact ⟨pfd, hpfd, hfd⟩
  · intro henc
    refine ⟨Set.Subset.antisymm ?_ ?_, ?_⟩
    · intro x hx
      obtain ⟨c, hc, pfd, hpfd, hfd, rfl⟩ := h.of_mem_pollSet hx
      refine ⟨c, hc, ?_, rfl⟩
      intro hnone
      obtain ⟨pfd', hpfd', hfd'⟩ := henc c hc
      have hnonneg := h.table.nonneg c ((h.registered c).mpr hc)
      rw [hpfd, Option.some.injEq] at hpfd'
      rw [← hpfd', if_pos hnone] at hfd'
      omega
    · rintro x ⟨c, hc, hsome, rfl⟩
      obtain ⟨pfd, hpfd, hfd⟩ := henc c hc
      rw [if_neg hsome] at hfd
      exact h.mem_pollSet hc hpfd hfd
    · intro c hc hnone
      obtain ⟨pfd, hpfd, hfd⟩ := henc c hc
      rw [if_pos hnone] at hfd
      exact ⟨pfd, hpfd, hfd⟩

/-! ### One step, and whole histories -/

theorem start_encoded (fds : ChannelPtr → Int) : (start fds).Encoded := by
  simp [Encoded, start]

theorem Encoded.offWhenNone (h : s.Encoded) : s.OffWhenNone := by
  intro c hc hnone
  obtain ⟨pfd, hpfd, hfd⟩ := h c hc
  exact ⟨pfd, hpfd, by rw [hfd, if_pos hnone]⟩

/-- A step keeps all signs right exactly when it gets the sign of its own channel right. -/
theorem Inv.encoded_step_iff (h : s.Inv fds) (henc : s.Encoded)
    (hinj : Function.Injective fds) (hfds : ∀ c, 0 ≤ fds c) {op : PollerOp}
    {s' : PollerRun} (hlegal : pollerMachine.legal s op)
    (hstep : pollerMachine.step s op = some s') : s'.Encoded ↔ KeepsInterest s op := by
  have hinv := h.step hinj hfds hlegal hstep
  -- the other channels have the sign they had
  have hothers : ∀ d ∈ s'.registered, d ≠ op.target → ∃ pfd, s'.poller.entry d = some pfd ∧
      pfd.fd = if (s'.poller.channel d).events = Channel.kNoneEvent then
        -(s'.poller.channel d).fd - 1 else (s'.poller.channel d).fd := by
    intro d hd hne
    obtain ⟨hreg, hevents, hentry⟩ := h.step_others hinj hfds hlegal hstep hne
    obtain ⟨pfd, hpfd, hfd⟩ := henc d (hreg.mp hd)
    rw [h.fd] at hfd
    exact ⟨pfd, (hentry (hreg.mp hd)).trans hpfd, by rw [hevents, hinv.fd, hfd]⟩
  rcases h.step_cases hinj hfds hlegal hstep with
    ⟨c, p', rfl, -, rfl⟩ | ⟨p', pfd', hop, rfl, hup, hpfd', hnew, hoff, hkeep⟩
  · -- a removal forgets its channel, whose events it did not touch
    refine ⟨fun _ => ?_, fun _ d hd => ?_⟩
    · have hreg : (PollerOp.removeChannel c).target ∈ s.registered := hlegal.2.1
      rw [KeepsInterest, if_pos hreg]
      exact fun hnone => hnone
    · refine hothers d hd ?_
      rintro rfl
      simp at hd
  · -- an update: the sign of the new entry against the new events
    have hnonneg := hfds op.target
    have hself : Encoded { s with poller := p', registered := insert op.target s.registered }
        ↔ pfd'.fd = if op.newEvents (s.poller.channel op.target) = Channel.kNoneEvent then
            -fds op.target - 1 else fds op.target := by
      constructor
      · intro henc'
        obtain ⟨pfd, hpfd, hfd⟩ := henc' op.target (Finset.mem_insert_self _ _)
        rw [show p'.entry op.target = some pfd from hpfd, Option.some.injEq] at hpfd'
        rw [← hpfd']
        rw [hup.events_self, hup.fd, h.fd] at hfd
        exact hfd
      · intro hfd d hd
        by_cases hdt : d = op.target
        · subst hdt
          refine ⟨pfd', hpfd', ?_⟩
          rw [hup.events_self, hup.fd, h.fd]
          exact hfd
        · exact hothers d hd hdt
    rw [hself, KeepsInterest]
    by_cases hreg : op.target ∈ s.registered
    · rw [if_pos hreg]
      by_cases hnone : op.newEvents (s.poller.channel op.target) = Channel.kNoneEvent
      · rw [if_pos hnone]
        exact ⟨fun _ _ => hnone, fun _ => hoff hreg hnone⟩
      · rw [if_neg hnone]
        obtain ⟨pfd, hpfd, hsame⟩ := hkeep hreg hnone
        obtain ⟨pfd'', hpfd'', hfd⟩ := henc op.target hreg
        rw [hpfd, Option.some.injEq] at hpfd''
        rw [← hpfd'', h.fd] at hfd
        rw [hsame, hfd]
        constructor
        · intro hon hlost
          rw [if_pos hlost] at hon
          omega
        · intro hkept
          rw [if_neg (fun hlost => hnone (hkept hlost))]
    · rw [if_neg hreg, hnew hreg]
      by_cases hnone : op.newEvents (s.poller.channel op.target) = Channel.kNoneEvent
      · rw [if_pos hnone]
        refine ⟨fun heq => ?_, fun hsome => absurd hnone hsome⟩
        omega
      · rw [if_neg hnone]
        exact ⟨fun _ => hnone, fun _ => rfl⟩

/-- When the poll set is the interest. Channels on distinct descriptors are updated at will
and removed only while registered and without interest, and rest after their removal. In
every such history, the poll set refines the interest in all states exactly when every
step keeps to `KeepsInterest`, and no call that does so fails an assertion. -/
theorem pollSet_refines_interest_iff (fds : ChannelPtr → Int)
    (hinj : Function.Injective fds) (hfds : ∀ c, 0 ≤ fds c) (ops : List PollerOp)
    (s : PollerRun) (hrun : pollerMachine.Run (start fds) ops s) :
    (pollerMachine.Throughout (start fds) ops Refines ↔
      pollerMachine.EveryStep (start fds) ops KeepsInterest) ∧
    (pollerMachine.restrict KeepsInterest).Safe (start fds) := by
  have hinv : ∀ (s : PollerRun) op s', s.Inv fds → pollerMachine.legal s op →
      pollerMachine.step s op = some s' → s'.Inv fds :=
    fun s op s' hs hlegal hstep => hs.step hinj hfds hlegal hstep
  constructor
  · refine Machine.throughout_iff_everyStep (start_inv fds)
      (((start_inv fds).refines_iff hinj).mpr (start_encoded fds)) hinv ?_ hrun
    intro s op s' hs href hlegal hstep
    rw [(hinv s op s' hs hlegal hstep).refines_iff hinj]
    exact hs.encoded_step_iff ((hs.refines_iff hinj).mp href) hinj hfds hlegal hstep
  · refine Machine.safe_of_invariant (I := fun s => s.Inv fds ∧ s.Encoded)
      ⟨start_inv fds, start_encoded fds⟩ ?_
    intro s op hs hlegal
    obtain ⟨s', hs'⟩ := hs.2.offWhenNone.step_isSome hs.1 hinj hfds hlegal.1
    exact ⟨s', hs', hinv s op s' hs.1 hlegal.1 hs',
      (hs.1.encoded_step_iff hs.2 hinj hfds hlegal.1 hs').mpr hlegal.2⟩

/-- The theorem at a history that enables, disables and removes a channel. -/
theorem pollSet_refines_interest_iff_remove :
    (pollerMachine.Throughout (start fun c => c)
        [.enableReading 0, .disableAll 0, .removeChannel 0] Refines ↔
      pollerMachine.EveryStep (start fun c => c)
        [.enableReading 0, .disableAll 0, .removeChannel 0] KeepsInterest) ∧
    (pollerMachine.restrict KeepsInterest).Safe (start fun c => c) := by
  obtain ⟨s, hrun, -⟩ := Machine.exists_run (M := pollerMachine) (P := fun _ => True)
    (start fun c => c) [.enableReading 0, .disableAll 0, .removeChannel 0] (by decide +kernel)
  exact pollSet_refines_interest_iff (fun c => c) Nat.cast_injective Int.natCast_nonneg _ s hrun

/-- A channel that loses all interest and regains some is not polled: its descriptor stays
negative. -/
theorem pollSet_not_refines :
    ¬ ∀ (fds : ChannelPtr → Int), Function.Injective fds → (∀ c, 0 ≤ fds c) →
      ∀ ops s, pollerMachine.Run (start fds) ops s → s.Refines := by
  intro hall
  obtain ⟨s, hrun, hreg, hevents, hpollfds⟩ := Machine.exists_run (M := pollerMachine)
    (P := fun s => 0 ∈ s.registered ∧ (s.poller.channel 0).events ≠ Channel.kNoneEvent ∧
      ∀ pfd ∈ s.poller.pollfds, pfd.fd < 0)
    (start fun c => c) [.enableReading 0, .disableAll 0, .enableReading 0] (by decide +kernel)
  obtain ⟨hset, -⟩ := hall (fun c => c) Nat.cast_injective Int.natCast_nonneg _ s hrun
  have hmem : ((s.poller.channel 0).fd, (s.poller.channel 0).events) ∈ s.pollSet := by
    rw [hset]
    exact ⟨0, hreg, hevents, rfl⟩
  obtain ⟨pfd, hpfd, hnonneg, -⟩ := hmem
  have hneg := hpollfds pfd hpfd
  omega

end PollerRun

end SecondGear
