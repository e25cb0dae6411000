import SecondGear.Proofs.PollerTable

/-!
# `SecondGear.Proofs.PollerCalls`: calls that return

The spec lemmas of the table say when a call returns. This module goes the other way: from
a call that returned to what its assertions have checked.

* `registered_of_updateChannel`, `registered_of_removeChannel`: who was registered.
* `updateChannel_cases`, `removeChannel_cases`: what they can leave behind.
* `apply_eq_none_of_stale`: who cannot be updated.
* `Table.apply`: any call that returns keeps the table and frames the other channels, when
  a channel does not come with a descriptor in use.
* `Table.of_heap`: writes to the heap that the table does not see keep it.
* `apply_events`: over any table, a call writes the events of its own channel and no others.
* `SameObjects`: over any table, a call leaves the descriptors and the callbacks of all
  channels alone.
-/

set_option autoImplicit false

namespace SecondGear

open SecondGear.Lib

namespace Poller

variable {p p' p'' : Poller} {c : ChannelPtr}

/-- A later update returns only for a registered channel. -/
theorem registered_of_updateChannel (h : p.updateChannel c = some p')
    (h0 : 0 ≤ (p.channel c).index) : p.Registered c := by
  rw [updateChannel, if_neg (Int.not_lt.mpr h0)] at h
  obtain ⟨-, h⟩ := assert_bind_eq_some_iff.mp h
  exact (assert_bind_eq_some_iff.mp h).1

/-- A removal returns only for a registered channel without interest whose entry is
switched off. -/
theorem registered_of_removeChannel (h : p.removeChannel c = some p') :
    p.Registered c ∧ (p.channel c).events = Channel.kNoneEvent ∧
      ∃ pfd, p.entry c = some pfd ∧ pfd.fd = -(p.channel c).fd - 1 := by
  rw [removeChannel] at h
  obtain ⟨-, h⟩ := assert_bind_eq_some_iff.mp h
  obtain ⟨hreg, h⟩ := assert_bind_eq_some_iff.mp h
  obtain ⟨hnone, h⟩ := assert_bind_eq_some_iff.mp h
  obtain ⟨-, h⟩ := assert_bind_eq_some_iff.mp h
  obtain ⟨pfd, hpfd, h⟩ := bind_eq_some_iff.mp h
  obtain ⟨hoff, -⟩ := assert_bind_eq_some_iff.mp h
  exact ⟨hreg, (Channel.isNoneEvent_iff _).mp hnone, pfd, hpfd, hoff.1⟩

/-- An update that returns pushes an entry, or writes one. -/
theorem updateChannel_cases (h : p.updateChannel c = some p') :
    p' = p.pushed c ∨ ∃ pollfds, p' = { p with pollfds } := by
  by_cases hidx : (p.channel c).index < 0
  · rw [updateChannel_new hidx, Option.some.injEq] at h
    exact Or.inl h.symm
  · rw [updateChannel, if_neg hidx] at h
    obtain ⟨-, h⟩ := assert_bind_eq_some_iff.mp h
    obtain ⟨-, h⟩ := assert_bind_eq_some_iff.mp h
    obtain ⟨-, h⟩ := assert_bind_eq_some_iff.mp h
    obtain ⟨pfd, -, h⟩ := bind_eq_some_iff.mp h
    obtain ⟨-, h⟩ := assert_bind_eq_some_iff.mp h
    exact Or.inr ⟨_, (Option.some.inj h).symm⟩

/-- A removal that returns drops the last entry, or tells the channel of the last entry its
new index. -/
theorem removeChannel_cases (h : p.removeChannel c = some p') :
    ∃ channels pollfds, p' = { p with channels, pollfds } ∨
      ∃ moved index, p' = { p with channels, pollfds }.setIndex moved index := by
  rw [removeChannel] at h
  obtain ⟨-, h⟩ := assert_bind_eq_some_iff.mp h
  obtain ⟨-, h⟩ := assert_bind_eq_some_iff.mp h
  obtain ⟨-, h⟩ := assert_bind_eq_some_iff.mp h
  obtain ⟨-, h⟩ := assert_bind_eq_some_iff.mp h
  obtain ⟨pfd, -, h⟩ := bind_eq_some_iff.mp h
  obtain ⟨-, h⟩ := assert_bind_eq_some_iff.mp h
  obtain ⟨-, h⟩ := assert_bind_eq_some_iff.mp h
  split at h
  · exact ⟨_, _, Or.inl (Option.some.inj h).symm⟩
  · obtain ⟨back, -, h⟩ := bind_eq_some_iff.mp h
    obtain ⟨moved, -, h⟩ := bind_eq_some_iff.mp h
    exact ⟨_, _, Or.inr ⟨moved, _, (Option.some.inj h).symm⟩⟩

/-- Every call but a removal is an update to its new events. -/
theorem apply_eq_updateChannel {op : PollerOp} (hop : ∀ c, op ≠ .removeChannel c) :
    op.apply p = (p.setEvents op.target
      (op.newEvents (p.channel op.target))).updateChannel op.target := by
  cases op with
  | removeChannel c => exact absurd rfl (hop c)
  | enableReading c => rfl
  | enableWriting c => rfl
  | disableWriting c => rfl
  | disableAll c => rfl

/-- A channel that has an index and is not in the table cannot be updated. -/
theorem apply_eq_none_of_stale {op : PollerOp} (hop : ∀ c, op ≠ .removeChannel c)
    (hreg : ¬ p.Registered op.target) (hidx : 0 ≤ (p.channel op.target).index) :
    op.apply p = none := by
  rw [apply_eq_updateChannel hop]
  by_contra hsome
  obtain ⟨p', hp'⟩ := Option.ne_none_iff_exists'.mp hsome
  -- The index sends the call to the assertions of a later update.
  have hidx' : 0 ≤ ((p.setEvents op.target (op.newEvents (p.channel op.target))).channel
      op.target).index := by
    rw [setEvents_self]
    exact hidx
  have hreg' := registered_of_updateChannel hp' hidx'
  rw [Registered, setEvents_self] at hreg'
  exact hreg hreg'

/-- A call that returns keeps the table and leaves the other channels alone. -/
theorem Table.apply (h : p.Table) {op : PollerOp}
    (hnew : (p.channel op.target).index < 0 →
      0 ≤ (p.channel op.target).fd ∧ p.channels.lookup (p.channel op.target).fd = none)
    (happly : op.apply p = some p') : p'.Table ∧ Frame p p' op.target := by
  by_cases hop : ∃ c, op = .removeChannel c
  · obtain ⟨c, rfl⟩ := hop
    obtain ⟨hreg, hnone, hoff⟩ := registered_of_removeChannel happly
    obtain ⟨p₁, hp₁, hrem⟩ := h.remove hreg hnone hoff
    have heq : some p₁ = some p' := hp₁.symm.trans happly
    rw [← Option.some.inj heq]
    exact ⟨hrem.table, hrem.frame⟩
  · have hmask := PollerOp.newEvents_hasMask (h.mask op.target) op
    rw [apply_eq_updateChannel (not_exists.mp hop)] at happly
    -- A first update needs a free descriptor. A later one has checked that it is registered.
    by_cases hidx : (p.channel op.target).index < 0
    · obtain ⟨p₁, hp₁, hup, -⟩ := h.update_new hidx (hnew hidx).1 (hnew hidx).2 hmask
      rw [hp₁, Option.some.injEq] at happly
      rw [← happly]
      exact ⟨hup.table, hup.frame⟩
    · have hreg : p.Registered op.target := by
        have hreg := registered_of_updateChannel happly (by
          rw [setEvents_self]
          exact Int.not_lt.mp hidx)
        rw [Registered, setEvents_self] at hreg
        exact hreg
      obtain ⟨p₁, pfd, pfd', hp₁, hup, -⟩ := h.update_registered hreg hmask
      rw [hp₁, Option.some.injEq] at happly
      rw [← happly]
      exact ⟨hup.table, hup.frame⟩

/-! ### Writes that the table does not see -/

/-- The table looks at the descriptor, the events and the index of the channels in the map.
A heap with the same ones has the same table. -/
theorem Table.of_heap (h : p.Table) (hpollfds : p'.pollfds = p.pollfds)
    (hchannels : p'.channels = p.channels)
    (hsame : ∀ k d, p.channels.lookup k = some d →
      (p'.channel d).fd = (p.channel d).fd ∧ (p'.channel d).events = (p.channel d).events ∧
        (p'.channel d).index = (p.channel d).index)
    (hmask : ∀ d, Channel.HasMask (p'.channel d).events) :
    p'.Table ∧ ∀ d, p'.Registered d ↔ p.Registered d := by
  have hreg : ∀ d, p'.Registered d ↔ p.Registered d := by
    intro d
    rw [Registered, Registered, hchannels]
    constructor
    · intro hd
      rw [(hsame _ d hd).1] at hd
      exact hd
    · intro hd
      rw [(hsame _ d hd).1]
      exact hd
  refine ⟨⟨?_, ?_, ?_, hmask, ?_, ?_⟩, hreg⟩
  · -- size
    rw [hpollfds, hchannels]
    exact h.size
  · -- key
    intro fd d hd
    rw [hchannels] at hd
    rw [(hsame fd d hd).1]
    exact h.key fd d hd
  · -- nonneg
    intro d hd
    have hd' := (hreg d).mp hd
    rw [(hsame _ d hd').1]
    exact h.nonneg d hd'
  · -- entry
    intro d hd
    have hd' := (hreg d).mp hd
    obtain ⟨hfd, hevents, hindex⟩ := hsame _ d hd'
    obtain ⟨h0, pfd, hpfd, hfor⟩ := h.entry d hd'
    refine ⟨by rw [hindex]; exact h0, pfd, ?_, ?_, ?_⟩
    · rw [Poller.entry, hpollfds, hindex]
      exact hpfd
    · rw [hfd]
      exact hfor.fd
    · rw [hevents]
      exact hfor.events
  · -- slot
    intro i pfd hi
    rw [hpollfds] at hi
    obtain ⟨d, hd, hidx⟩ := h.slot i pfd hi
    exact ⟨d, (hreg d).mpr hd, by rw [(hsame _ d hd).2.2, hidx]⟩

/-- `set_revents` does not touch the table. -/
theorem Table.setRevents (h : p.Table) (c : ChannelPtr) (revents : Events) :
    (p.setRevents c revents).Table ∧
      (∀ d, (p.setRevents c revents).Registered d ↔ p.Registered d) ∧
      (p.setRevents c revents).entry c = p.entry c := by
  have hfields : ∀ d, ((p.setRevents c revents).channel d).fd = (p.channel d).fd ∧
      ((p.setRevents c revents).channel d).events = (p.channel d).events ∧
      ((p.setRevents c revents).channel d).index = (p.channel d).index := by
    intro d
    by_cases hd : d = c
    · rw [hd, Poller.setRevents, setChannel_self]
      exact ⟨rfl, rfl, rfl⟩
    · rw [Poller.setRevents, setChannel_ne _ _ hd]
      exact ⟨rfl, rfl, rfl⟩
  obtain ⟨htable, hreg⟩ : (p.setRevents c revents).Table ∧
      ∀ d, (p.setRevents c revents).Registered d ↔ p.Registered d :=
    h.of_heap rfl rfl (fun _ d _ => hfields d)
      (fun d => by rw [(hfields d).2.1]; exact h.mask d)
  refine ⟨htable, hreg, ?_⟩
  rw [Poller.entry, (hfields c).2.2]
  rfl

/-- A new object on the heap, at an address that the map does not hold. -/
theorem Table.setChannel (h : p.Table) (hfree : ∀ k, p.channels.lookup k ≠ some c)
    {ch : Channel} (hmask : Channel.HasMask ch.events) :
    (p.setChannel c ch).Table ∧ ∀ d, (p.setChannel c ch).Registered d ↔ p.Registered d := by
  refine h.of_heap rfl rfl ?_ ?_
  · intro k d hd
    have hne : d ≠ c := by
      rintro rfl
      exact hfree k hd
    rw [setChannel_ne _ _ hne]
    exact ⟨rfl, rfl, rfl⟩
  · intro d
    by_cases hd : d = c
    · rw [hd, setChannel_self]
      exact hmask
    · rw [setChannel_ne _ _ hd]
      exact h.mask d

/-! ### What no call changes -/

/-- The same channels, up to what their owners and the table write into them. -/
def SameObjects (p p' : Poller) : Prop :=
  ∀ d, ∃ events revents index,
    p'.channel d = { p.channel d with events := events, revents := revents, index := index }

namespace SameObjects

theorem refl (p : Poller) : SameObjects p p := fun _ => ⟨_, _, _, rfl⟩

theorem trans (h : SameObjects p p') (h' : SameObjects p' p'') : SameObjects p p'' := by
  intro d
  obtain ⟨e, r, i, hd⟩ := h d
  obtain ⟨e', r', i', hd'⟩ := h' d
  exact ⟨e', r', i', by rw [hd', hd]⟩

/-- Writing those fields of one channel. -/
theorem of_setChannel {events revents : Events} {index : Int} :
    SameObjects p (p.setChannel c
      { p.channel c with events := events, revents := revents, index := index }) := by
  intro d
  by_cases hd : d = c
  · rw [hd, setChannel_self]
    exact ⟨_, _, _, rfl⟩
  · rw [setChannel_ne _ _ hd]
    exact ⟨_, _, _, rfl⟩

theorem of_updateChannel (h : p.updateChannel c = some p') : SameObjects p p' := by
  rcases updateChannel_cases h with rfl | ⟨pollfds, rfl⟩
  · exact of_setChannel
  · exact fun _ => ⟨_, _, _, rfl⟩

theorem of_removeChannel (h : p.removeChannel c = some p') : SameObjects p p' := by
  obtain ⟨channels, pollfds, rfl | ⟨moved, index, rfl⟩⟩ := removeChannel_cases h
  · exact fun _ => ⟨_, _, _, rfl⟩
  · exact of_setChannel

/-- No call on the table changes a descriptor or a callback. -/
theorem of_apply {op : PollerOp} (h : op.apply p = some p') : SameObjects p p' := by
  by_cases hop : ∃ c, op = .removeChannel c
  · obtain ⟨c, rfl⟩ := hop
    exact of_removeChannel h
  · rw [apply_eq_updateChannel (not_exists.mp hop)] at h
    exact of_setChannel.trans (of_updateChannel h)

end SameObjects

/-! ### Who writes the events -/

/-- An index is no event. -/
theorem setIndex_events (p : Poller) (c : ChannelPtr) (index : Int) (d : ChannelPtr) :
    ((p.setIndex c index).channel d).events = (p.channel d).events := by
  rw [setIndex]
  by_cases hd : d = c
  · rw [hd, setChannel_self]
  · rw [setChannel_ne _ _ hd]

/-- `updateChannel` reads the events of channels and writes none. -/
theorem updateChannel_events (h : p.updateChannel c = some p') (d : ChannelPtr) :
    (p'.channel d).events = (p.channel d).events := by
  rcases updateChannel_cases h with rfl | ⟨pollfds, rfl⟩
  · rw [pushed, setIndex_events]
  · rfl

/-- So does `removeChannel`. -/
theorem removeChannel_events (h : p.removeChannel c = some p') (d : ChannelPtr) :
    (p'.channel d).events = (p.channel d).events := by
  obtain ⟨channels, pollfds, rfl | ⟨moved, index, rfl⟩⟩ := removeChannel_cases h
  · rfl
  · rw [setIndex_events]

/-- A call writes the events of its own channel. -/
theorem apply_events {op : PollerOp} (h : op.apply p = some p') (d : ChannelPtr) :
    (p'.channel d).events
      = if d = op.target then op.newEvents (p.channel op.target) else (p.channel d).events := by
  by_cases hop : ∃ c, op = .removeChannel c
  · obtain ⟨c, rfl⟩ := hop
    rw [removeChannel_events h]
    split
    · rename_i hd
      rw [hd]
      rfl
    · rfl
  · rw [apply_eq_updateChannel (not_exists.mp hop)] at h
    rw [updateChannel_events h]
    split
    · rename_i hd
      rw [hd, setEvents_self]
    · rename_i hd
      rw [setEvents_ne _ _ hd]

/-! ### The other channels -/

/-- What calls on `c`, and a new channel under the name `c`, leave of the other channels. -/
structure Others (p p' : Poller) (c : ChannelPtr) : Prop where
  registered : ∀ d, d ≠ c → (p'.Registered d ↔ p.Registered d)
  entry : ∀ d, d ≠ c → p.Registered d → p'.entry d = p.entry d
  channel : ∀ d, d ≠ c → ∃ i, p'.channel d = { p.channel d with index := i }

theorem Frame.others (h : Frame p p' c) : Others p p' c := ⟨h.registered, h.entry, h.channel⟩

namespace Others

theorem refl (p : Poller) (c : ChannelPtr) : Others p p c :=
  ⟨fun _ _ => Iff.rfl, fun _ _ _ => rfl, fun _ _ => ⟨_, rfl⟩⟩

theorem fd (h : Others p p' c) {d : ChannelPtr} (hd : d ≠ c) :
    (p'.channel d).fd = (p.channel d).fd := by
  obtain ⟨i, hi⟩ := h.channel d hd
  rw [hi]

end Others

/-- The entry of the channel is switched off. -/
def Off (p : Poller) (c : ChannelPtr) : Prop :=
  ∃ pfd, p.entry c = some pfd ∧ pfd.fd = -(p.channel c).fd - 1

/-- The entry of the channel is switched on. -/
def On (p : Poller) (c : ChannelPtr) : Prop :=
  ∃ pfd, p.entry c = some pfd ∧ pfd.fd = (p.channel c).fd

/-- A call on another channel does not switch off a registered one. -/
theorem Others.on (h : Others p p' c) {d : ChannelPtr} (hd : d ≠ c) (hreg : p.Registered d)
    (hon : p.On d) : p'.On d := by
  obtain ⟨pfd, hpfd, hfd⟩ := hon
  exact ⟨pfd, (h.entry d hd hreg).trans hpfd, by rw [hfd, h.fd hd]⟩

/-- Nor does it switch one on. -/
theorem Others.off (h : Others p p' c) {d : ChannelPtr} (hd : d ≠ c) (hreg : p.Registered d)
    (hoff : p.Off d) : p'.Off d := by
  obtain ⟨pfd, hpfd, hfd⟩ := hoff
  exact ⟨pfd, (h.entry d hd hreg).trans hpfd, by rw [hfd, h.fd hd]⟩

/-- An update of a registered channel leaves a switched off entry off. -/
theorem Table.update_off (h : p.Table) (hc : p.Registered c) {e : Events}
    (he : Channel.HasMask e) :
    ∃ p', (p.setEvents c e).updateChannel c = some p' ∧ Updated p p' c e ∧
      (e = Channel.kNoneEvent ∨ p.Off c → p'.Off c) := by
  obtain ⟨p', pfd, pfd', hcall, hup, hpfd, hpfd', hfd'⟩ := h.update_registered hc he
  refine ⟨p', hcall, hup, fun hoff => ⟨pfd', hpfd', ?_⟩⟩
  rw [hfd', hup.fd_self]
  split
  · rfl
  · rename_i hne
    obtain ⟨pfd₁, hpfd₁, hfd₁⟩ := hoff.resolve_left hne
    rw [hpfd, Option.some.injEq] at hpfd₁
    rw [hpfd₁, hfd₁]

/-- A new channel on a free descriptor is registered by its first update. -/
theorem Table.update_added (h : p.Table) (hfree : ∀ k, p.channels.lookup k ≠ some c)
    {ch : Channel} (hidx : ch.index < 0) (hfd : 0 ≤ ch.fd)
    (hfdfree : p.channels.lookup ch.fd = none) {e : Events} (hmask : Channel.HasMask ch.events)
    (he : Channel.HasMask e) :
    ∃ p', ((p.setChannel c ch).setEvents c e).updateChannel c = some p' ∧ p'.Table ∧
      p'.Registered c ∧ (∃ i, p'.channel c = { ch with events := e, index := i }) ∧
      p'.entry c = some { fd := ch.fd, events := e.setWidth 16, revents := 0 } ∧
      Others p p' c := by
  obtain ⟨htable, hreg⟩ := h.setChannel hfree hmask
  have hself : (p.setChannel c ch).channel c = ch := setChannel_self p c ch
  obtain ⟨p', hcall, hup, hentry⟩ := htable.update_new (c := c) (by rw [hself]; exact hidx)
    (by rw [hself]; exact hfd) (by rw [hself]; exact hfdfree) he
  have hc := hup.self
  rw [hself] at hc hentry
  refine ⟨p', hcall, hup.table, hup.registered, hc, hentry, ?_, ?_, ?_⟩
  · intro d hd
    exact (hup.frame.registered d hd).trans (hreg d)
  · intro d hd hdreg
    rw [hup.frame.entry d hd ((hreg d).mpr hdreg), Poller.entry, Poller.entry,
      setChannel_ne p ch hd]
    rfl
  · intro d hd
    obtain ⟨i, hi⟩ := hup.frame.channel d hd
    rw [setChannel_ne p ch hd] at hi
    exact ⟨i, hi⟩

end Poller

end SecondGear
