import SecondGear.Model.Poller

/-!
# `SecondGear.Proofs.PollerTable`: what one call does to the table

`Poller.Table` is the invariant that ties the vector, the map and the indices in the
channels together: the map has one channel per entry of the vector, each registered
channel finds its own entry at its index, and each entry belongs to a registered channel.

The spec lemmas say what a call returns from such a table:

* `Table.update_new`: the first update of a channel appends its entry;
* `Table.update_registered`: a later update rewrites the entry, and switches it off when
  no interest is left;
* `Table.remove`: a removal takes out the entry of a channel whose entry is switched off.

All of them keep the table, and `Frame` says what they leave alone: membership, entry and
channel of everybody else, the index of a moved entry apart.
-/

set_option autoImplicit false

namespace SecondGear

open SecondGear.Lib

namespace Channel

/-- The masks that the `enable`/`disable` methods produce. -/
def HasMask (events : Events) : Prop :=
  events = kNoneEvent ∨ events = kReadEvent ∨ events = kWriteEvent

/-- These masks survive the way through the `short` of the table. -/
theorem HasMask.short {events : Events} (h : HasMask events) :
    (events.setWidth 16).signExtend 32 = events := by
  rcases h with rfl | rfl | rfl <;> decide

/-- `isNoneEvent` is equality with the empty mask. -/
theorem isNoneEvent_iff (ch : Channel) : ch.isNoneEvent ↔ ch.events = kNoneEvent := by
  simp [isNoneEvent]

/-- No mask has both interests, so a channel that is writing does nothing else. -/
theorem isWriting_iff {ch : Channel} (h : HasMask ch.events) :
    ch.isWriting ↔ ch.events = kWriteEvent := by
  unfold isWriting
  rcases h with h | h | h <;> rw [h] <;> decide

end Channel

/-- Every update leaves one of the masks. -/
theorem PollerOp.newEvents_hasMask {ch : Channel} (h : Channel.HasMask ch.events)
    (op : PollerOp) : Channel.HasMask (op.newEvents ch) := by
  cases op with
  | enableReading => exact Or.inr (Or.inl rfl)
  | enableWriting => exact Or.inr (Or.inr rfl)
  | disableAll => exact Or.inl rfl
  | removeChannel => exact h
  | disableWriting =>
      show Channel.HasMask (ch.events &&& ~~~Channel.kWriteEvent)
      rcases h with h | h | h <;> rw [h]
      · exact Or.inl (by decide)
      · exact Or.inr (Or.inl (by decide))
      · exact Or.inl (by decide)

/-- An entry that describes the channel, switched on or off. `updateChannel` switches it off by a
negative descriptor, which `::poll` passes over. -/
structure PollFd.IsFor (pfd : PollFd) (ch : Channel) : Prop where
  fd : pfd.fd = ch.fd ∨ pfd.fd = -ch.fd - 1
  events : pfd.events.signExtend 32 = ch.events

/-- The descriptor of an entry, whether switched on or off. -/
def PollFd.owner (pfd : PollFd) : Int := if pfd.fd < 0 then -pfd.fd - 1 else pfd.fd

/-- The owner of a channel's entry is the channel's descriptor. -/
theorem PollFd.IsFor.owner_eq {pfd : PollFd} {ch : Channel} (h : pfd.IsFor ch)
    (hfd : 0 ≤ ch.fd) : pfd.owner = ch.fd := by
  unfold PollFd.owner
  rcases h.fd with h | h <;> rw [h] <;> split <;> omega

namespace Poller

variable {p : Poller} {c d : ChannelPtr}

/-! ### Reading the table -/

/-- The map holds the channel under its own descriptor. -/
def Registered (p : Poller) (c : ChannelPtr) : Prop :=
  p.channels.lookup (p.channel c).fd = some c

instance (p : Poller) (c : ChannelPtr) : Decidable (p.Registered c) :=
  inferInstanceAs (Decidable (_ = _))

/-- `pollfds_[c->index()]` -/
def entry (p : Poller) (c : ChannelPtr) : Option PollFd :=
  p.pollfds[(p.channel c).index.toNat]?

/-- The table invariant. The map and the vector are two views of one set of channels, and the
indices in the channels lead from the one to the other. -/
structure Table (p : Poller) : Prop where
  /-- as many entries as map elements -/
  size : p.pollfds.length = p.channels.keys.length
  /-- the map key of a channel is its descriptor -/
  key : ∀ fd c, p.channels.lookup fd = some c → (p.channel c).fd = fd
  nonneg : ∀ c, p.Registered c → 0 ≤ (p.channel c).fd
  mask : ∀ c, Channel.HasMask (p.channel c).events
  /-- a registered channel finds its own entry at its index -/
  entry : ∀ c, p.Registered c →
    0 ≤ (p.channel c).index ∧ ∃ pfd, p.entry c = some pfd ∧ pfd.IsFor (p.channel c)
  /-- every entry is the entry of a registered channel -/
  slot : ∀ (i : Nat) pfd, p.pollfds[i]? = some pfd →
    ∃ c, p.Registered c ∧ (p.channel c).index = i

namespace Table

/-- What the map finds is the registered channel with that descriptor. -/
theorem lookup_iff (h : p.Table) {fd : Int} :
    p.channels.lookup fd = some c ↔ p.Registered c ∧ (p.channel c).fd = fd := by
  constructor
  · intro hl
    have hfd := h.key fd c hl
    exact ⟨by rw [Registered, hfd, hl], hfd⟩
  · rintro ⟨hreg, hfd⟩
    rw [← hfd]
    exact hreg

/-- The index of a registered channel is one of the vector. -/
theorem index_lt (h : p.Table) (hc : p.Registered c) :
    (p.channel c).index < p.pollfds.length := by
  obtain ⟨h0, pfd, hpfd, -⟩ := h.entry c hc
  have hlt := (List.getElem?_eq_some_iff.mp hpfd).1
  omega

/-- Two registered channels with one index are one channel: they share the entry, hence
the descriptor, hence the element of the map. -/
theorem index_inj (h : p.Table) (hc : p.Registered c) (hd : p.Registered d)
    (hidx : (p.channel c).index = (p.channel d).index) : c = d := by
  obtain ⟨-, pfd, hpfd, hc'⟩ := h.entry c hc
  obtain ⟨-, pfd', hpfd', hd'⟩ := h.entry d hd
  rw [Poller.entry, hidx] at hpfd
  rw [Poller.entry, hpfd, Option.some.injEq] at hpfd'
  subst hpfd'
  have hfd : (p.channel c).fd = (p.channel d).fd := by
    rw [← hc'.owner_eq (h.nonneg c hc), ← hd'.owner_eq (h.nonneg d hd)]
  rw [Registered, hfd, hd, Option.some.injEq] at hc
  exact hc.symm

/-- The channel of an entry, which finds this entry at its index. -/
theorem slot_entry (h : p.Table) {i : Nat} {pfd : PollFd} (hi : p.pollfds[i]? = some pfd) :
    ∃ c, p.Registered c ∧ (p.channel c).index = i ∧ p.entry c = some pfd ∧
      pfd.IsFor (p.channel c) := by
  obtain ⟨c, hc, hidx⟩ := h.slot i pfd hi
  obtain ⟨-, pfd', hpfd', hfor⟩ := h.entry c hc
  have hentry : p.entry c = some pfd := by
    rw [Poller.entry, hidx, Int.toNat_natCast, hi]
  rw [hentry, Option.some.injEq] at hpfd'
  exact ⟨c, hc, hidx, hentry, hpfd' ▸ hfor⟩

/-- Two registered channels have different descriptors. -/
theorem fd_ne (hc : p.Registered c) (hd : p.Registered d) (hne : d ≠ c) :
    (p.channel d).fd ≠ (p.channel c).fd := by
  intro heq
  rw [Registered, heq, hc, Option.some.injEq] at hd
  exact hne hd.symm

end Table

/-- The empty table: there is nothing to find, whatever the channels on the heap are. -/
theorem new_table {heap : ChannelPtr → Channel} (hmask : ∀ c, Channel.HasMask (heap c).events) :
    (Poller.new heap).Table where
  size := rfl
  key := by simp [Poller.new]
  nonneg := by simp [Poller.Registered, Poller.new]
  mask := hmask
  entry := by simp [Poller.Registered, Poller.new]
  slot := by simp [Poller.new]

/-! ### Frames -/

/-- What a call on `c` leaves alone. Only the index of another channel may change, when a removal
moves its entry. -/
structure Frame (p p' : Poller) (c : ChannelPtr) : Prop where
  registered : ∀ d, d ≠ c → (p'.Registered d ↔ p.Registered d)
  entry : ∀ d, d ≠ c → p.Registered d → p'.entry d = p.entry d
  /-- a moved entry changes the index of its channel, nothing else -/
  channel : ∀ d, d ≠ c → ∃ i, p'.channel d = { p.channel d with index := i }
  unregistered : ∀ d, d ≠ c → ¬ p.Registered d → p'.channel d = p.channel d
  /-- the map outside the descriptor of `c` -/
  lookup : ∀ fd, fd ≠ (p.channel c).fd → p'.channels.lookup fd = p.channels.lookup fd

namespace Frame

variable {p' : Poller}

theorem fd (h : Frame p p' c) (hd : d ≠ c) : (p'.channel d).fd = (p.channel d).fd := by
  obtain ⟨i, hi⟩ := h.channel d hd
  rw [hi]

theorem events (h : Frame p p' c) (hd : d ≠ c) :
    (p'.channel d).events = (p.channel d).events := by
  obtain ⟨i, hi⟩ := h.channel d hd
  rw [hi]

end Frame

/-- What an update of `c` to the events `e` leaves behind. -/
structure Updated (p p' : Poller) (c : ChannelPtr) (e : Events) : Prop where
  table : p'.Table
  registered : p'.Registered c
  self : ∃ i, p'.channel c = { p.channel c with events := e, index := i }
  frame : Frame p p' c

namespace Updated

variable {p' : Poller} {e : Events}

theorem fd_self (h : Updated p p' c e) : (p'.channel c).fd = (p.channel c).fd := by
  obtain ⟨i, hi⟩ := h.self
  rw [hi]

theorem events_self (h : Updated p p' c e) : (p'.channel c).events = e := by
  obtain ⟨i, hi⟩ := h.self
  rw [hi]

/-- No update renames a descriptor. -/
theorem fd (h : Updated p p' c e) (d : ChannelPtr) :
    (p'.channel d).fd = (p.channel d).fd := by
  by_cases hd : d = c
  · rw [hd]
    exact h.fd_self
  · exact h.frame.fd hd

end Updated

/-! ### The heap of channels -/

@[simp] theorem setChannel_self (p : Poller) (c : ChannelPtr) (ch : Channel) :
    (p.setChannel c ch).channel c = ch :=
  Function.update_self _ _ _

theorem setChannel_ne (p : Poller) (ch : Channel) (h : d ≠ c) :
    (p.setChannel c ch).channel d = p.channel d :=
  Function.update_of_ne h _ _

@[simp] theorem setEvents_self (p : Poller) (c : ChannelPtr) (e : Events) :
    (p.setEvents c e).channel c = { p.channel c with events := e } :=
  setChannel_self _ _ _

theorem setEvents_ne (p : Poller) (e : Events) (h : d ≠ c) :
    (p.setEvents c e).channel d = p.channel d :=
  setChannel_ne _ _ h

/-! ### Updates -/

/-- The table after the first update of a channel. -/
def pushed (p : Poller) (c : ChannelPtr) : Poller :=
  setIndex
    { p with
      pollfds := p.pollfds ++
        [{ fd := (p.channel c).fd, events := (p.channel c).events.setWidth 16, revents := 0 }]
      channels := p.channels.insert (p.channel c).fd c }
    c p.pollfds.length

theorem updateChannel_new (h : (p.channel c).index < 0) :
    p.updateChannel c = some (p.pushed c) := by
  rw [updateChannel, if_pos h]
  simp [pushed]

/-- The entry after a later update: switched off when there is no interest, otherwise
with the sign it had. -/
def rewritten (ch : Channel) (pfd : PollFd) : PollFd where
  fd := if ch.isNoneEvent then -ch.fd - 1 else pfd.fd
  events := ch.events.setWidth 16
  revents := 0

theorem updateChannel_registered (hreg : p.Registered c) (h0 : 0 ≤ (p.channel c).index)
    {pfd : PollFd} (hpfd : p.entry c = some pfd)
    (hfd : pfd.fd = (p.channel c).fd ∨ pfd.fd = -(p.channel c).fd - 1) :
    p.updateChannel c = some { p with
      pollfds := p.pollfds.set (p.channel c).index.toNat (rewritten (p.channel c) pfd) } := by
  have hlookup : p.channels.lookup (p.channel c).fd = some c := hreg
  have hlt := (List.getElem?_eq_some_iff.mp hpfd).1
  have hbounds : (p.channel c).index ≥ 0 ∧ (p.channel c).index < p.pollfds.length := by omega
  have hsome : (p.channels.lookup (p.channel c).fd).isSome := by rw [hreg]; rfl
  rw [Poller.entry] at hpfd
  rw [updateChannel, if_neg (by omega), assert_bind_pos hsome, assert_bind_pos hlookup,
    assert_bind_pos hbounds, hpfd]
  show (assert _ >>= _) = _
  rw [assert_bind_pos hfd]
  unfold rewritten
  split <;> simp_all

/-- An update keeps the table, when `c` finds its entry afterwards and the others find theirs
where they were. The first update and the later ones are cases of this. -/
private theorem Table.updated_of (h : p.Table) {e : Events} (he : Channel.HasMask e)
    (hfd : 0 ≤ (p.channel c).fd)
    (howner : ∀ d, p.channels.lookup (p.channel c).fd = some d → d = c) {p' : Poller} {i : Int}
    {pfd : PollFd} (hself : p'.channel c = { p.channel c with events := e, index := i })
    (hother : ∀ d, d ≠ c → p'.channel d = p.channel d)
    (hlookupc : p'.channels.lookup (p.channel c).fd = some c)
    (hlookup : ∀ fd, fd ≠ (p.channel c).fd → p'.channels.lookup fd = p.channels.lookup fd)
    (hsize : p'.pollfds.length = p'.channels.keys.length) (hi : 0 ≤ i)
    (hentryc : p'.entry c = some pfd) (hfor : pfd.IsFor { p.channel c with events := e })
    (hentry : ∀ d, d ≠ c → p.Registered d → p'.entry d = p.entry d)
    (hslot : ∀ j : Nat, j < p'.pollfds.length → i = j ∨ ∃ d, d ≠ c ∧ p.Registered d ∧
      (p.channel d).index = j) :
    Updated p p' c e := by
  have hfdc : (p'.channel c).fd = (p.channel c).fd := by rw [hself]
  have hregc : p'.Registered c := by
    rw [Registered, hfdc]
    exact hlookupc
  have hreg : ∀ d, d ≠ c → (p'.Registered d ↔ p.Registered d) := by
    intro d hd
    rw [Registered, Registered, hother d hd]
    by_cases heq : (p.channel d).fd = (p.channel c).fd
    · -- Only `c` has this descriptor, before and after.
      rw [heq, hlookupc, Option.some.injEq]
      exact ⟨fun hcd => absurd hcd.symm hd, fun hl => absurd (howner d hl) hd⟩
    · rw [hlookup _ heq]
  refine ⟨⟨hsize, ?_, ?_, ?_, ?_, ?_⟩, hregc, ⟨i, hself⟩,
    ⟨hreg, hentry, fun d hd => ⟨_, hother d hd⟩, fun d hd _ => hother d hd, hlookup⟩⟩
  · -- key
    intro fd d hd
    by_cases heq : fd = (p.channel c).fd
    · rw [heq, hlookupc, Option.some.injEq] at hd
      rw [← hd, hfdc, heq]
    · rw [hlookup fd heq] at hd
      have hdc : d ≠ c := by
        rintro rfl
        exact heq (h.key fd d hd).symm
      rw [hother d hdc]
      exact h.key fd d hd
  · -- nonneg
    intro d hd
    by_cases hdc : d = c
    · rw [hdc, hfdc]
      exact hfd
    · rw [hother d hdc]
      exact h.nonneg d ((hreg d hdc).mp hd)
  · -- mask
    intro d
    by_cases hdc : d = c
    · rw [hdc, hself]
      exact he
    · rw [hother d hdc]
      exact h.mask d
  · -- entry
    intro d hd
    by_cases hdc : d = c
    · rw [hdc, hself]
      exact ⟨hi, pfd, hentryc, hfor.fd, hfor.events⟩
    · have hdreg := (hreg d hdc).mp hd
      rw [hother d hdc, hentry d hdc hdreg]
      exact h.entry d hdreg
  · -- slot
    intro j pfd' hj
    rcases hslot j (List.getElem?_eq_some_iff.mp hj).1 with hij | ⟨d, hdc, hd, hidx⟩
    · exact ⟨c, hregc, by rw [hself]; exact hij⟩
    · exact ⟨d, (hreg d hdc).mpr hd, by rw [hother d hdc, hidx]⟩

/-- The first update of a channel with a free descriptor. It is in the table from then on, at the
end of the vector. -/
theorem Table.update_new (h : p.Table) (hidx : (p.channel c).index < 0)
    (hfd : 0 ≤ (p.channel c).fd) (hfree : p.channels.lookup (p.channel c).fd = none)
    {e : Events} (he : Channel.HasMask e) :
    ∃ p', (p.setEvents c e).updateChannel c = some p' ∧ Updated p p' c e ∧
      p'.entry c
        = some { fd := (p.channel c).fd, events := e.setWidth 16, revents := 0 } := by
  have hc : ¬ p.Registered c := by
    rw [Registered, hfree]
    simp
  have hself : ((p.setEvents c e).pushed c).channel c
      = { p.channel c with events := e, index := p.pollfds.length } := by
    simp [pushed, setIndex, setEvents, setChannel]
  have hother : ∀ d, d ≠ c → ((p.setEvents c e).pushed c).channel d = p.channel d := by
    intro d hd
    simp [pushed, setIndex, setEvents, setChannel, hd]
  have hpollfds : ((p.setEvents c e).pushed c).pollfds = p.pollfds ++
      [{ fd := (p.channel c).fd, events := e.setWidth 16, revents := 0 }] := by
    simp [pushed, setIndex, setEvents, setChannel]
  have hchannels : ((p.setEvents c e).pushed c).channels
      = p.channels.insert (p.channel c).fd c := by
    simp [pushed, setIndex, setEvents, setChannel]
  have hentryc : ((p.setEvents c e).pushed c).entry c
      = some { fd := (p.channel c).fd, events := e.setWidth 16, revents := 0 } := by
    rw [Poller.entry, hself, hpollfds]
    simp
  refine ⟨(p.setEvents c e).pushed c, updateChannel_new (by simpa using hidx),
    h.updated_of he hfd (by simp [hfree]) hself hother ?_ ?_ ?_ (Int.natCast_nonneg _) hentryc
      ⟨Or.inl rfl, he.short⟩ ?_ ?_, hentryc⟩
  · rw [hchannels]
    exact AList.lookup_insert _
  · intro fd hne
    rw [hchannels, AList.lookup_insert_ne hne]
  · -- a free descriptor: the map grows by one key, as the vector grows by one entry
    have hnotin : (p.channel c).fd ∉ p.channels.keys :=
      AList.mem_keys.not.mp (AList.lookup_eq_none.mp hfree)
    rw [hpollfds, hchannels, AList.keys_insert, List.erase_of_not_mem hnotin,
      List.length_append, List.length_singleton, List.length_cons, ← h.size]
  · intro d hd hdreg
    have hlt := h.index_lt hdreg
    have h0 := (h.entry d hdreg).1
    rw [Poller.entry, hother d hd, hpollfds, List.getElem?_append_left (by omega)]
    rfl
  · -- the only new slot is the last one, and it is that of `c`
    intro j hj
    rw [hpollfds, List.length_append, List.length_singleton] at hj
    by_cases hlast : j < p.pollfds.length
    · obtain ⟨d, hd, hidx'⟩ := h.slot j _ (List.getElem?_eq_getElem hlast)
      exact Or.inr ⟨d, fun hdc => hc (hdc ▸ hd), hd, hidx'⟩
    · exact Or.inl (by omega)

/-- A later update, of a registered channel. The entry is switched off when no interest is
left. It is not switched on again. -/
theorem Table.update_registered (h : p.Table) (hc : p.Registered c) {e : Events}
    (he : Channel.HasMask e) :
    ∃ p' pfd pfd', (p.setEvents c e).updateChannel c = some p' ∧ Updated p p' c e ∧
      p.entry c = some pfd ∧ p'.entry c = some pfd' ∧
      pfd'.fd = if e = Channel.kNoneEvent then -(p.channel c).fd - 1 else pfd.fd := by
  obtain ⟨h0, pfd, hpfd, hfor⟩ := h.entry c hc
  have hlt := (List.getElem?_eq_some_iff.mp hpfd).1
  have hself : (p.setEvents c e).channel c = { p.channel c with events := e } :=
    setEvents_self p c e
  have hother : ∀ d, d ≠ c → (p.setEvents c e).channel d = p.channel d :=
    fun d hd => setEvents_ne p e hd
  have hfd : ((p.setEvents c e).channel c).fd = (p.channel c).fd := by rw [hself]
  have hidx : ((p.setEvents c e).channel c).index = (p.channel c).index := by rw [hself]
  have hlookupc : p.channels.lookup (p.channel c).fd = some c := hc
  -- The call rewrites one entry, whose descriptor is the old one or the one switched off.
  have hcall : (p.setEvents c e).updateChannel c = some { p.setEvents c e with
      pollfds := p.pollfds.set (p.channel c).index.toNat
        (rewritten ((p.setEvents c e).channel c) pfd) } := by
    rw [updateChannel_registered (by rw [Registered, hfd]; exact hc) (by rw [hidx]; exact h0)
      (by rw [Poller.entry, hidx]; exact hpfd) (by rw [hfd]; exact hfor.fd), hidx]
    rfl
  generalize hpfd' : rewritten ((p.setEvents c e).channel c) pfd = pfd' at hcall
  have hfd' : pfd'.fd = if e = Channel.kNoneEvent then -(p.channel c).fd - 1 else pfd.fd := by
    rw [← hpfd', hself]
    by_cases hnone : e = Channel.kNoneEvent <;> simp [rewritten, Channel.isNoneEvent, hnone]
  have hfor' : pfd'.IsFor { p.channel c with events := e } := by
    refine ⟨?_, by rw [← hpfd', hself]; exact he.short⟩
    show pfd'.fd = (p.channel c).fd ∨ pfd'.fd = -(p.channel c).fd - 1
    rw [hfd']
    split
    · exact Or.inr rfl
    · exact hfor.fd
  have hentryc : Poller.entry { p.setEvents c e with
      pollfds := p.pollfds.set (p.channel c).index.toNat pfd' } c = some pfd' := by
    show (p.pollfds.set _ _)[((p.setEvents c e).channel c).index.toNat]? = _
    rw [hidx]
    exact List.getElem?_set_self hlt
  refine ⟨_, pfd, pfd', hcall, h.updated_of he (h.nonneg c hc) ?_ hself hother hc
    (fun _ _ => rfl) ?_ h0 hentryc hfor' ?_ ?_, hpfd, hentryc, hfd'⟩
  · intro d hd
    rw [hlookupc, Option.some.injEq] at hd
    exact hd.symm
  · exact (List.length_set ..).trans h.size
  · -- the entry of `c` sits at its index, all other entries at other indices
    intro d hd hdreg
    have h0' := (h.entry d hdreg).1
    have hne : (p.channel c).index.toNat ≠ (p.channel d).index.toNat := by
      intro heq
      exact hd (h.index_inj hdreg hc (by omega))
    show (p.pollfds.set _ _)[((p.setEvents c e).channel d).index.toNat]? = _
    rw [hother d hd, List.getElem?_set_ne hne]
    rfl
  · -- no slot is added, so its owner is the one it had
    intro j hj
    have hj' : j < p.pollfds.length := hj.trans_eq (List.length_set ..)
    obtain ⟨d, hd, hidx'⟩ := h.slot j _ (List.getElem?_eq_getElem hj')
    by_cases hdc : d = c
    · exact Or.inl (hdc ▸ hidx')
    · exact Or.inr ⟨d, hdc, hd, hidx'⟩

/-! ### Removals -/

/-- The assertions of `removeChannel` hold for a registered channel without interest
whose entry is switched off. What is left is the choice between the last entry and a swap
with it. -/
theorem removeChannel_eq (h : p.Table) (hc : p.Registered c)
    (hnone : (p.channel c).events = Channel.kNoneEvent) {pfd : PollFd}
    (hpfd : p.entry c = some pfd) (hoff : pfd.fd = -(p.channel c).fd - 1) :
    p.removeChannel c
      = if (p.channel c).index = (p.pollfds.length : Int) - 1 then
          some { p with
            channels := p.channels.erase (p.channel c).fd, pollfds := p.pollfds.dropLast }
        else do
          let back ← p.pollfds.getLast?
          let moved ← (p.channels.erase (p.channel c).fd).lookup back.owner
          return { p with
            channels := p.channels.erase (p.channel c).fd
            pollfds := swapRemove p.pollfds (p.channel c).index.toNat }.setIndex moved
              (p.channel c).index := by
  have hlookup : p.channels.lookup (p.channel c).fd = some c := hc
  have hsome : (p.channels.lookup (p.channel c).fd).isSome := by rw [hlookup]; rfl
  obtain ⟨h0, pfd', hpfd', hfor⟩ := h.entry c hc
  rw [hpfd, Option.some.injEq] at hpfd'
  subst hpfd'
  have hbounds : 0 ≤ (p.channel c).index ∧ (p.channel c).index < p.pollfds.length :=
    ⟨h0, h.index_lt hc⟩
  have hmem : (p.channel c).fd ∈ p.channels := AList.lookup_isSome.mp hsome
  have hentry : pfd.fd = -(p.channel c).fd - 1 ∧
      pfd.events.signExtend 32 = (p.channel c).events := ⟨hoff, hfor.events⟩
  rw [Poller.entry] at hpfd
  rw [removeChannel, assert_bind_pos hsome, assert_bind_pos hlookup,
    assert_bind_pos ((Channel.isNoneEvent_iff _).mpr hnone), assert_bind_pos hbounds, hpfd]
  show (assert _ >>= _) = _
  rw [assert_bind_pos hentry]
  simp only [if_pos hmem]
  rw [assert_bind_pos trivial]
  rfl

/-- What a removal of `c` leaves behind. -/
structure Removed (p p' : Poller) (c : ChannelPtr) : Prop where
  table : p'.Table
  notRegistered : ¬ p'.Registered c
  self : p'.channel c = p.channel c
  frame : Frame p p' c

/-- Removal without the entry of `c` keeps the table, when the others find their entries
at their new indices. Both branches of `removeChannel` are cases of this. -/
private theorem Table.removed_of (h : p.Table) (hc : p.Registered c) {p' : Poller}
    (hchannels : p'.channels = p.channels.erase (p.channel c).fd)
    (hlen : p'.pollfds.length = p.pollfds.length - 1)
    (hself : p'.channel c = p.channel c)
    (hother : ∀ d, d ≠ c → ∃ i, p'.channel d = { p.channel d with index := i })
    (hunreg : ∀ d, d ≠ c → ¬ p.Registered d → p'.channel d = p.channel d)
    (hentry : ∀ d, d ≠ c → p.Registered d →
      0 ≤ (p'.channel d).index ∧ p'.entry d = p.entry d)
    (hslot : ∀ (i : Nat) pfd, p'.pollfds[i]? = some pfd →
      ∃ d, d ≠ c ∧ p.Registered d ∧ (p'.channel d).index = i) :
    Removed p p' c := by
  have hfd : ∀ d, (p'.channel d).fd = (p.channel d).fd := by
    intro d
    by_cases hd : d = c
    · rw [hd, hself]
    · obtain ⟨i, hi⟩ := hother d hd
      rw [hi]
  have hevents : ∀ d, (p'.channel d).events = (p.channel d).events := by
    intro d
    by_cases hd : d = c
    · rw [hd, hself]
    · obtain ⟨i, hi⟩ := hother d hd
      rw [hi]
  have hnot : ¬ p'.Registered c := by
    rw [Registered, hself, hchannels, AList.lookup_erase]
    simp
  have hreg : ∀ d, d ≠ c → (p'.Registered d ↔ p.Registered d) := by
    intro d hd
    rw [Registered, Registered, hfd, hchannels]
    by_cases heq : (p.channel d).fd = (p.channel c).fd
    · rw [heq, AList.lookup_erase, show p.channels.lookup (p.channel c).fd = some c from hc]
      simp [Ne.symm hd]
    · rw [AList.lookup_erase_ne heq]
  have hne : ∀ d, p'.Registered d → d ≠ c := by
    rintro d hd rfl
    exact hnot hd
  refine ⟨⟨?_, ?_, ?_, ?_, ?_, ?_⟩, hnot, hself,
    ⟨hreg, fun d hd hdreg => (hentry d hd hdreg).2, hother, hunreg, ?_⟩⟩
  · -- size
    have hmem : (p.channel c).fd ∈ p.channels.keys := by
      rw [← AList.mem_keys, ← AList.lookup_isSome,
        show p.channels.lookup (p.channel c).fd = some c from hc]
      rfl
    rw [hlen, hchannels, AList.keys_erase, List.length_erase_of_mem hmem, h.size]
  · -- key
    intro fd d hd
    rw [hfd]
    by_cases heq : fd = (p.channel c).fd
    · rw [heq, hchannels, AList.lookup_erase] at hd
      cases hd
    · rw [hchannels, AList.lookup_erase_ne heq] at hd
      exact h.key fd d hd
  · -- nonneg
    intro d hd
    rw [hfd]
    exact h.nonneg d ((hreg d (hne d hd)).mp hd)
  · -- mask
    intro d
    rw [hevents]
    exact h.mask d
  · -- entry
    intro d hd
    have hdreg := (hreg d (hne d hd)).mp hd
    obtain ⟨-, pfd, hpfd, hfor⟩ := h.entry d hdreg
    obtain ⟨h0, hsame⟩ := hentry d (hne d hd) hdreg
    refine ⟨h0, pfd, hsame.trans hpfd, ?_, ?_⟩
    · rw [hfd]
      exact hfor.fd
    · rw [hevents]
      exact hfor.events
  · -- slot
    intro i pfd hi
    obtain ⟨d, hd, hdreg, hidx⟩ := hslot i pfd hi
    exact ⟨d, (hreg d hd).mpr hdreg, hidx⟩
  · -- lookup
    intro fd hfd'
    rw [hchannels, AList.lookup_erase_ne hfd']

/-- Without the last entry, that of `c`. Nobody's entry moves. -/
theorem Table.removed_dropLast (h : p.Table) (hc : p.Registered c)
    (hlast : (p.channel c).index = (p.pollfds.length : Int) - 1) :
    Removed p { p with
      channels := p.channels.erase (p.channel c).fd, pollfds := p.pollfds.dropLast } c := by
  refine h.removed_of hc rfl (List.length_dropLast ..) rfl (fun d _ => ⟨_, rfl⟩)
    (fun d _ _ => rfl) ?_ ?_
  · intro d hd hdreg
    have h0 := (h.entry d hdreg).1
    have hlt := h.index_lt hdreg
    have hne : (p.channel d).index ≠ (p.channel c).index :=
      fun heq => hd (h.index_inj hdreg hc heq)
    refine ⟨h0, ?_⟩
    show p.pollfds.dropLast[(p.channel d).index.toNat]? = _
    rw [List.getElem?_dropLast, if_pos (by omega)]
    rfl
  · intro i pfd hi
    have hi' : p.pollfds.dropLast[i]? = some pfd := hi
    rw [List.getElem?_dropLast] at hi'
    split at hi'
    · rename_i hilt
      obtain ⟨d, hdreg, hidx⟩ := h.slot i pfd hi'
      refine ⟨d, ?_, hdreg, hidx⟩
      rintro rfl
      omega
    · cases hi'

/-- With the last entry, that of `m`, in the place of that of `c`. `removeChannel` finds `m` by the
descriptor in the entry, on or off, and gives it the index. -/
theorem Table.removed_swapRemove (h : p.Table) (hc : p.Registered c) {m : ChannelPtr}
    (hm : p.Registered m) (hmidx : (p.channel m).index = (p.pollfds.length : Int) - 1)
    (hmc : m ≠ c) :
    Removed p ({ p with
      channels := p.channels.erase (p.channel c).fd
      pollfds := swapRemove p.pollfds (p.channel c).index.toNat }.setIndex m
        (p.channel c).index) c := by
  have h0c := (h.entry c hc).1
  have hltc := h.index_lt hc
  have hnotlast : (p.channel c).index ≠ (p.channel m).index :=
    fun heq => hmc (h.index_inj hm hc heq.symm)
  have hswap := getElem?_swapRemove p.pollfds (i := (p.channel c).index.toNat) (by omega)
  refine h.removed_of hc rfl (length_swapRemove _ _) ?_ ?_ ?_ ?_ ?_
  · exact setChannel_ne _ _ (Ne.symm hmc)
  · intro d hd
    by_cases hdm : d = m
    · subst hdm
      exact ⟨_, setChannel_self _ _ _⟩
    · exact ⟨_, setChannel_ne _ _ hdm⟩
  · intro d hd hdreg
    refine setChannel_ne _ _ ?_
    rintro rfl
    exact hdreg hm
  · intro d hd hdreg
    have h0 := (h.entry d hdreg).1
    have hlt := h.index_lt hdreg
    by_cases hdm : d = m
    · -- the moved channel finds its entry at the freed index
      subst hdm
      rw [Poller.entry, Poller.entry, setIndex, setChannel_self]
      refine ⟨h0c, ?_⟩
      show (swapRemove p.pollfds _)[(p.channel c).index.toNat]? = _
      rw [hswap, if_pos (by omega), if_pos rfl, hmidx]
      exact congrArg (fun i : Nat => p.pollfds[i]?) (by omega)
    · rw [Poller.entry, setIndex, setChannel_ne _ _ hdm]
      have hnec : (p.channel d).index ≠ (p.channel c).index :=
        fun heq => hd (h.index_inj hdreg hc heq)
      have hnem : (p.channel d).index ≠ (p.channel m).index :=
        fun heq => hdm (h.index_inj hdreg hm heq)
      refine ⟨h0, ?_⟩
      show (swapRemove p.pollfds _)[(p.channel d).index.toNat]? = p.entry d
      rw [hswap, if_pos (by omega), if_neg (by omega)]
      rfl
  · intro i pfd hi
    have hi' : (swapRemove p.pollfds (p.channel c).index.toNat)[i]? = some pfd := hi
    rw [hswap] at hi'
    split at hi'
    · rename_i hilt
      split at hi'
      · -- the freed index now belongs to the moved channel
        rename_i hieq
        refine ⟨m, hmc, hm, ?_⟩
        rw [setIndex, setChannel_self]
        show (p.channel c).index = i
        omega
      · rename_i hine
        obtain ⟨d, hdreg, hidx⟩ := h.slot i pfd hi'
        have hdc : d ≠ c := by
          rintro rfl
          omega
        have hdm : d ≠ m := by
          rintro rfl
          omega
        refine ⟨d, hdc, hdreg, ?_⟩
        rw [setIndex, setChannel_ne _ _ hdm]
        exact hidx
    · cases hi'

/-- A removal returns, keeps the table and frees the descriptor. -/
theorem Table.remove (h : p.Table) (hc : p.Registered c)
    (hnone : (p.channel c).events = Channel.kNoneEvent)
    (hoff : ∃ pfd, p.entry c = some pfd ∧ pfd.fd = -(p.channel c).fd - 1) :
    ∃ p', p.removeChannel c = some p' ∧ Removed p p' c := by
  obtain ⟨pfd, hpfd, hfd⟩ := hoff
  have hltc := h.index_lt hc
  rw [removeChannel_eq h hc hnone hpfd hfd]
  by_cases hlast : (p.channel c).index = (p.pollfds.length : Int) - 1
  · rw [if_pos hlast]
    exact ⟨_, rfl, h.removed_dropLast hc hlast⟩
  · rw [if_neg hlast]
    -- The last entry moves to the freed index, so its channel has to be found.
    have hpos : p.pollfds.length - 1 < p.pollfds.length := by
      have h0c := (h.entry c hc).1
      omega
    obtain ⟨m, hm, hmidx, -, hmfor⟩ := h.slot_entry (List.getElem?_eq_getElem hpos)
    have hmc : m ≠ c := by
      rintro rfl
      omega
    -- The source undoes the encoding of a switched off entry before it looks up the owner.
    have howner : (p.pollfds[p.pollfds.length - 1]).owner = (p.channel m).fd :=
      hmfor.owner_eq (h.nonneg m hm)
    have hmoved : (p.channels.erase (p.channel c).fd).lookup (p.channel m).fd = some m := by
      rw [AList.lookup_erase_ne (Table.fd_ne hc hm hmc)]
      exact hm
    have hback : p.pollfds.getLast? = some p.pollfds[p.pollfds.length - 1] := by
      rw [List.getLast?_eq_getElem?, List.getElem?_eq_getElem hpos]
    rw [hback]
    show ∃ p', ((p.channels.erase (p.channel c).fd).lookup
      (p.pollfds[p.pollfds.length - 1]).owner >>= _) = some p' ∧ _
    rw [howner, hmoved]
    exact ⟨_, rfl, h.removed_swapRemove hc hm (by omega) hmc⟩

end Poller

end SecondGear
