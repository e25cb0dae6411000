import SecondGear.Proofs.PollResult
import SecondGear.Proofs.PollerRuns

/-!
# `SecondGear.Proofs.ActiveChannels`: the channels that are ready

The kernel writes `revents` into the entries that are switched on, and returns how many of them
are not zero. `getActiveChannels` stops after that many reports. With the table of
`SecondGear.Proofs.PollerRuns` the entries with a report are then exactly what it returns.

* `Answer`: what the kernel promises.
* `Reports`: what is expected of `getActiveChannels`.
* `getActiveChannels_reports`: it holds after every history of updates and removals.
-/

set_option autoImplicit false

namespace SecondGear

open SecondGear.Lib

namespace Poller

/-- An answer of `poll(2)`: one field for each entry, reports only for entries that are switched
on, all of them positive, and their number. -/
structure Answer (p : Poller) (answer : List (BitVec 16)) (numEvents : Int) : Prop where
  length : answer.length = p.pollfds.length
  ready : ∀ e ∈ p.pollfds.zip answer, e.2 ≠ 0 → 0 ≤ e.1.fd ∧ 0 < e.2.toInt
  count : numEvents = answer.countP (· ≠ 0)

/-- The entries with a report. -/
def withReport (pfds : List PollFd) : List PollFd := pfds.filter fun pfd => pfd.revents ≠ 0

/-- What is expected of `getActiveChannels`: the channels of the entries with a report, in the
order of the entries and once each. Each of them is told its report, and nothing else
changes. -/
structure Reports (p p' : Poller) (active : List ChannelPtr) : Prop where
  order : active.map p.entry = (withReport p.pollfds).map some
  nodup : active.Nodup
  registered : ∀ c ∈ active, p.Registered c
  told : ∀ c ∈ active, ∃ pfd, p.entry c = some pfd ∧
    p'.channel c = { p.channel c with revents := pfd.revents.signExtend 32 }
  others : ∀ c, c ∉ active → p'.channel c = p.channel c
  pollfds : p'.pollfds = p.pollfds
  channels : p'.channels = p.channels

variable {p : Poller} {answer : List (BitVec 16)} {numEvents : Int}

namespace Answer

/-- An entry of the answered table is an entry of the table with a field of the answer. -/
theorem pollfds_eq (p : Poller) (answer : List (BitVec 16)) :
    (p.setAnswer answer).pollfds
      = (p.pollfds.zip answer).map fun e => { e.1 with revents := e.2 } :=
  (List.map_uncurry_zip_eq_zipWith ..).symm

/-- A report is positive, and its entry is switched on. -/
theorem of_ready (h : p.Answer answer numEvents) {pfd : PollFd}
    (hpfd : pfd ∈ (p.setAnswer answer).pollfds) (hready : pfd.revents ≠ 0) :
    0 ≤ pfd.fd ∧ 0 < pfd.revents.toInt := by
  rw [pollfds_eq] at hpfd
  obtain ⟨e, he, rfl⟩ := List.mem_map.mp hpfd
  exact h.ready e he hready

/-- The test of the loop, `revents > 0`, finds the entries with a report. -/
theorem reported_eq (h : p.Answer answer numEvents) :
    reported (p.setAnswer answer).pollfds = withReport (p.setAnswer answer).pollfds := by
  refine List.filter_congr fun pfd hpfd => ?_
  rw [decide_eq_decide]
  constructor
  · intro hpos hzero
    rw [hzero] at hpos
    simp at hpos
  · exact fun hready => (h.of_ready hpfd hready).2

/-- There are `numEvents` of them, so the early exit of the loop comes after the last one. -/
theorem length_withReport (h : p.Answer answer numEvents) :
    ((withReport (p.setAnswer answer).pollfds).length : Int) = numEvents := by
  have hfields : (p.setAnswer answer).pollfds.map PollFd.revents = answer := by
    rw [pollfds_eq, List.map_map]
    exact List.map_snd_zip (Nat.le_of_eq h.length)
  rw [h.count, withReport, ← List.countP_eq_length_filter]
  conv_rhs => rw [← hfields, List.countP_map]
  rfl

end Answer

/-- With a consistent table, `getActiveChannels` does what is expected of it. -/
theorem Table.getActiveChannels (h : p.Table) (hans : p.Answer answer numEvents) :
    ∃ p' active, (p.setAnswer answer).getActiveChannels numEvents = some (p', active) ∧
      Reports (p.setAnswer answer) p' active := by
  obtain ⟨htable, -, -⟩ := h.setAnswer hans.length
  have hon : ∀ pfd ∈ reported (p.setAnswer answer).pollfds, 0 ≤ pfd.fd := by
    intro pfd hpfd
    rw [hans.reported_eq] at hpfd
    obtain ⟨hmem, hready⟩ := List.mem_filter.mp hpfd
    exact (hans.of_ready hmem (of_decide_eq_true hready)).1
  -- The entry of a report is the entry of the channel that the map has for it.
  have hlookup : ∀ pfd ∈ reported (p.setAnswer answer).pollfds, ∃ d,
      (p.setAnswer answer).channels.lookup pfd.fd = some d ∧
        (p.setAnswer answer).entry d = some pfd := by
    intro pfd hpfd
    obtain ⟨i, hi⟩ := List.getElem?_of_mem (List.mem_filter.mp hpfd).1
    obtain ⟨d, hd, hidx⟩ := htable.lookup_of_nonneg hi (hon pfd hpfd)
    refine ⟨d, hd, ?_⟩
    rw [Poller.entry, hidx, Int.toNat_natCast, hi]
  obtain ⟨p', active, hcall, hpollfds, hchannels, hsame, hactive, hothers, htold⟩ :=
    getActiveChannelsFrom_spec (p := p.setAnswer answer) (p.setAnswer answer).pollfds numEvents
      fun pfd hpfd => by
        obtain ⟨d, hd, -⟩ := hlookup pfd hpfd
        rw [hd]
        rfl
  have hall : (reported (p.setAnswer answer).pollfds).take numEvents.toNat
      = reported (p.setAnswer answer).pollfds := by
    rw [hans.reported_eq, ← hans.length_withReport, Int.toNat_natCast, List.take_length]
  rw [hall] at hactive
  refine ⟨p', active, hcall, ?_, ?_, ?_, ?_, hothers, hpollfds, hchannels⟩
  · calc active.map (p.setAnswer answer).entry
        = (active.map some).map fun o => o.bind (p.setAnswer answer).entry := by
          rw [List.map_map]
          rfl
      _ = (reported (p.setAnswer answer).pollfds).map some := by
          rw [hactive, List.map_map]
          refine List.map_congr_left fun pfd hpfd => ?_
          obtain ⟨d, hd, hentry⟩ := hlookup pfd hpfd
          show ((p.setAnswer answer).channels.lookup pfd.fd).bind _ = _
          rw [hd]
          exact hentry
      _ = (withReport (p.setAnswer answer).pollfds).map some := by
          rw [hans.reported_eq]
  · have hnodup := htable.reported_nodup hon
    rw [← hactive] at hnodup
    exact hnodup.of_map
  · intro c hc
    obtain ⟨pfd, -, hlook, -⟩ := htold c hc
    exact (htable.lookup_iff.mp hlook).1
  · intro c hc
    obtain ⟨pfd, hpfd, hlook, hrevents⟩ := htold c hc
    obtain ⟨d, hd, hentry⟩ := hlookup pfd hpfd
    obtain rfl := Option.some.inj (hd.symm.trans hlook)
    obtain ⟨r, hr⟩ := hsame d
    rw [hr] at hrevents
    exact ⟨pfd, hentry, by rw [hr, ← hrevents]⟩

end Poller

/-- After every history of updates and removals, and for every answer of the kernel,
`getActiveChannels` returns exactly the channels whose entries have a report, in order and once
each, and tells each of them its report. No entry with a report lies behind its early exit, and
its assertion holds. -/
theorem getActiveChannels_reports (fds : ChannelPtr → Int) (hinj : Function.Injective fds)
    (hfds : ∀ c, 0 ≤ fds c) (ops : List PollerOp) (s : PollerRun)
    (hrun : (pollerMachine.restrict FirstEnable).Run (PollerRun.start fds) ops s)
    (answer : List (BitVec 16)) (numEvents : Int)
    (hans : s.poller.Answer answer numEvents) :
    ∃ p' active, (s.poller.setAnswer answer).getActiveChannels numEvents = some (p', active) ∧
      Poller.Reports (s.poller.setAnswer answer) p' active :=
  (PollerRun.inv_of_firstEnable hinj hfds hrun).1.table.getActiveChannels hans

/-- The theorem at a table with a moved and an ignored entry: the report of the third entry ends
the loop. -/
theorem getActiveChannels_reports_moved :
    ∃ s p' active, (pollerMachine.restrict FirstEnable).Run (PollerRun.start fun c => c)
        [.enableReading 0, .enableReading 1, .enableReading 2, .disableAll 1, .disableAll 0,
          .removeChannel 0] s ∧
      (s.poller.setAnswer [1, 0]).getActiveChannels 1 = some (p', active) ∧
      Poller.Reports (s.poller.setAnswer [1, 0]) p' active := by
  obtain ⟨s, hrun, hpollfds⟩ := Machine.exists_run (M := pollerMachine.restrict FirstEnable)
    (P := fun s => s.poller.pollfds = [⟨2, 3, 0⟩, ⟨-2, 0, 0⟩])
    (PollerRun.start fun c => c)
    [.enableReading 0, .enableReading 1, .enableReading 2, .disableAll 1, .disableAll 0,
      .removeChannel 0] (by decide +kernel)
  have hans : s.poller.Answer [1, 0] 1 := by
    refine ⟨by rw [hpollfds]; rfl, ?_, by decide⟩
    rw [hpollfds]
    decide
  obtain ⟨p', active, hcall, hreports⟩ := getActiveChannels_reports (fun c => c)
    Nat.cast_injective Int.natCast_nonneg _ s hrun _ _ hans
  exact ⟨s, p', active, hrun, hcall, hreports⟩

end SecondGear
