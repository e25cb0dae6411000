import SecondGear.Model.EventLoop
import SecondGear.Proofs.PollerCalls

/-!
# `SecondGear.Proofs.PollResult`: what `poll` returns

`getActiveChannels` walks over the table and looks each reported descriptor up in the map.
An entry that is switched off is not reported, so the descriptor is one of a registered
channel, and the assertion holds. No channel is returned twice, because no two entries have
the same descriptor.

* `getActiveChannelsFrom_spec`: the loop, by induction on the entries.
* `Table.poll`: `poll` returns, keeps the table, and reports registered channels, each once.
* `Table.poll_one`: the kernel can report one channel alone.
-/

set_option autoImplicit false

namespace SecondGear

open SecondGear.Lib

namespace Poller

variable {p p' : Poller} {c : ChannelPtr}

/-- Only what the last poll reported differs. -/
def SameButRevents (p p' : Poller) : Prop :=
  ∀ d, ∃ r, p'.channel d = { p.channel d with revents := r }

theorem SameButRevents.refl (p : Poller) : SameButRevents p p := fun _ => ⟨_, rfl⟩

theorem SameButRevents.trans {p'' : Poller} (h : SameButRevents p p')
    (h' : SameButRevents p' p'') : SameButRevents p p'' := by
  intro d
  obtain ⟨r, hd⟩ := h d
  obtain ⟨r', hd'⟩ := h' d
  exact ⟨r', by rw [hd', hd]⟩

theorem sameButRevents_setRevents (p : Poller) (c : ChannelPtr) (r : Events) :
    SameButRevents p (p.setRevents c r) := by
  intro d
  by_cases hd : d = c
  · rw [hd, Poller.setRevents, setChannel_self]
    exact ⟨_, rfl⟩
  · rw [Poller.setRevents, setChannel_ne _ _ hd]
    exact ⟨_, rfl⟩

/-- The entries with something to report. -/
def reported (pfds : List PollFd) : List PollFd :=
  pfds.filter fun pfd => 0 < pfd.revents.toInt

theorem reported_cons_pos {pfd : PollFd} (h : 0 < pfd.revents.toInt) (pfds : List PollFd) :
    reported (pfd :: pfds) = pfd :: reported pfds :=
  List.filter_cons_of_pos (decide_eq_true h)

theorem reported_cons_neg {pfd : PollFd} (h : ¬ 0 < pfd.revents.toInt) (pfds : List PollFd) :
    reported (pfd :: pfds) = reported pfds :=
  List.filter_cons_of_neg (by simpa using h)

/-- The loop of `getActiveChannels`, by induction on the entries. It returns the channels of
the first `numEvents` reported entries. -/
theorem getActiveChannelsFrom_spec (pfds : List PollFd) :
    ∀ {p : Poller} (numEvents : Int),
      (∀ pfd ∈ reported pfds, (p.channels.lookup pfd.fd).isSome) →
      ∃ p' chs, p.getActiveChannelsFrom pfds numEvents = some (p', chs) ∧
        p'.pollfds = p.pollfds ∧ p'.channels = p.channels ∧ SameButRevents p p' ∧
        chs.map some
          = ((reported pfds).take numEvents.toNat).map (fun pfd => p.channels.lookup pfd.fd) ∧
        (∀ d, d ∉ chs → p'.channel d = p.channel d) ∧
        ∀ d ∈ chs, ∃ pfd ∈ reported pfds, p.channels.lookup pfd.fd = some d ∧
          (p'.channel d).revents = pfd.revents.signExtend 32 := by
  induction pfds with
  | nil =>
      intro p n _
      exact ⟨p, [], rfl, rfl, rfl, .refl p, by simp [reported], fun _ _ => rfl, by simp⟩
  | cons pfd pfds ih =>
      intro p n hlookup
      by_cases hn : 0 < n
      · by_cases hpos : 0 < pfd.revents.toInt
        · -- This entry is reported.
          rw [reported_cons_pos hpos] at hlookup ⊢
          obtain ⟨ch, hch⟩ := Option.isSome_iff_exists.mp (hlookup pfd List.mem_cons_self)
          obtain ⟨p', chs, hrest, hpollfds, hchannels, hsame, hchs, hother, hrevents⟩ :=
            ih (p := p.setRevents ch (pfd.revents.signExtend 32)) (n - 1)
              fun q hq => hlookup q (List.mem_cons_of_mem _ hq)
          refine ⟨p', ch :: chs, ?_, hpollfds, hchannels,
            (p.sameButRevents_setRevents ch _).trans hsame, ?_, ?_, ?_⟩
          · rw [getActiveChannelsFrom, if_pos hn, if_pos hpos, hch]
            show (getActiveChannelsFrom _ _ _ >>= _) = _
            rw [hrest]
            rfl
          · have hsucc : n.toNat = (n - 1).toNat + 1 := by omega
            rw [hsucc, List.take_succ_cons, List.map_cons, List.map_cons, hchs, hch]
            rfl
          · intro d hd
            have hd' : d ≠ ch ∧ d ∉ chs := by simpa [not_or] using hd
            rw [hother d hd'.2, Poller.setRevents, setChannel_ne _ _ hd'.1]
          · intro d hd
            by_cases hmem : d ∈ chs
            · obtain ⟨q, hq, heq⟩ := hrevents d hmem
              exact ⟨q, List.mem_cons_of_mem _ hq, heq⟩
            · have hdch : d = ch := (List.mem_cons.mp hd).resolve_right hmem
              refine ⟨pfd, List.mem_cons_self, hdch ▸ hch, ?_⟩
              rw [hother d hmem, hdch, Poller.setRevents, setChannel_self]
        · rw [reported_cons_neg hpos] at hlookup ⊢
          rw [getActiveChannelsFrom, if_pos hn, if_neg hpos]
          exact ih n hlookup
      · -- `numEvents` reports were seen.
        have hzero : n.toNat = 0 := by omega
        refine ⟨p, [], ?_, rfl, rfl, .refl p, by simp [hzero], fun _ _ => rfl, by simp⟩
        rw [getActiveChannelsFrom, if_neg hn]

/-! ### The answer of the kernel -/

/-- An entry after the kernel wrote its answer. -/
theorem setAnswer_getElem? {answer : List (BitVec 16)} (hlen : answer.length = p.pollfds.length)
    (i : Nat) :
    (p.setAnswer answer).pollfds[i]? = (p.pollfds[i]?).bind fun pfd =>
      (answer[i]?).map fun revents => { pfd with revents } := by
  show (List.zipWith _ p.pollfds answer)[i]? = _
  rw [List.getElem?_zipWith]
  cases hp : p.pollfds[i]? with
  | none => simp
  | some pfd =>
      have hlt : i < answer.length := by
        rw [hlen]
        exact (List.getElem?_eq_some_iff.mp hp).1
      simp [List.getElem?_eq_getElem hlt]

/-- The kernel's answer keeps the table: it is not part of it. -/
theorem Table.setAnswer (h : p.Table) {answer : List (BitVec 16)}
    (hlen : answer.length = p.pollfds.length) :
    (p.setAnswer answer).Table ∧ (∀ d, p.Off d → (p.setAnswer answer).Off d) ∧
      ∀ d, p.On d → (p.setAnswer answer).On d := by
  have hentry : ∀ (i : Nat) pfd, p.pollfds[i]? = some pfd →
      ∃ r, (p.setAnswer answer).pollfds[i]? = some { pfd with revents := r } := by
    intro i pfd hi
    have hlt : i < answer.length := by
      rw [hlen]
      exact (List.getElem?_eq_some_iff.mp hi).1
    refine ⟨answer[i], ?_⟩
    rw [setAnswer_getElem? hlen, hi, List.getElem?_eq_getElem hlt]
    rfl
  refine ⟨⟨?_, h.key, h.nonneg, h.mask, ?_, ?_⟩, ?_, ?_⟩
  · show (List.zipWith _ p.pollfds answer).length = _
    rw [List.length_zipWith, hlen, Nat.min_self]
    exact h.size
  · intro c hc
    obtain ⟨h0, pfd, hpfd, hfor⟩ := h.entry c hc
    obtain ⟨r, hr⟩ := hentry _ pfd hpfd
    exact ⟨h0, _, hr, hfor.fd, hfor.events⟩
  · intro i pfd hi
    have hlt : i < p.pollfds.length := by
      have hlt' := (List.getElem?_eq_some_iff.mp hi).1
      have hlen' : (p.setAnswer answer).pollfds.length = p.pollfds.length := by
        show (List.zipWith _ p.pollfds answer).length = _
        rw [List.length_zipWith, hlen, Nat.min_self]
      omega
    exact h.slot i _ (List.getElem?_eq_getElem hlt)
  · rintro d ⟨pfd, hpfd, hfd⟩
    obtain ⟨r, hr⟩ := hentry _ pfd hpfd
    exact ⟨_, hr, hfd⟩
  · rintro d ⟨pfd, hpfd, hfd⟩
    obtain ⟨r, hr⟩ := hentry _ pfd hpfd
    exact ⟨_, hr, hfd⟩

/-- A reported entry is not switched off. -/
theorem reported_nonneg {answer : List (BitVec 16)} (hans : EventLoop.Answers p answer)
    {pfd : PollFd} (hpfd : pfd ∈ reported (p.setAnswer answer).pollfds) : 0 ≤ pfd.fd := by
  obtain ⟨hmem, hpos⟩ := List.mem_filter.mp hpfd
  by_contra hneg
  obtain ⟨e, he, rfl⟩ : ∃ e ∈ p.pollfds.zip answer, { e.1 with revents := e.2 } = pfd := by
    have hmem' : pfd ∈ List.zipWith (fun pfd revents => { pfd with revents }) p.pollfds answer :=
      hmem
    rw [← List.map_uncurry_zip_eq_zipWith] at hmem'
    obtain ⟨e, he, heq⟩ := List.mem_map.mp hmem'
    exact ⟨e, he, heq⟩
  have hzero : e.2 = 0 := hans.2 e he (Int.not_le.mp hneg)
  rw [hzero] at hpos
  simp at hpos

/-- An entry that is switched on is under the descriptor of its channel. -/
theorem Table.lookup_of_nonneg (h : p.Table) {i : Nat} {pfd : PollFd}
    (hi : p.pollfds[i]? = some pfd) (hfd : 0 ≤ pfd.fd) :
    ∃ d, p.channels.lookup pfd.fd = some d ∧ (p.channel d).index = i := by
  obtain ⟨d, hd, hidx⟩ := h.slot i pfd hi
  obtain ⟨-, pfd', hpfd', hfor⟩ := h.entry d hd
  have heq : pfd' = pfd := by
    rw [Poller.entry, hidx, Int.toNat_natCast, hi, Option.some.injEq] at hpfd'
    exact hpfd'.symm
  rw [heq] at hfor
  have hfd' : (p.channel d).fd = pfd.fd := by
    have hnonneg := h.nonneg d hd
    rcases hfor.fd with hon | hoff
    · exact hon.symm
    · omega
  exact ⟨d, hfd' ▸ hd, hidx⟩

/-- No two entries that are switched on have the same channel. -/
theorem Table.reported_nodup (h : p.Table) (hon : ∀ pfd ∈ reported p.pollfds, 0 ≤ pfd.fd) :
    ((reported p.pollfds).map fun pfd => p.channels.lookup pfd.fd).Nodup := by
  have hpair : p.pollfds.Pairwise fun a b =>
      0 ≤ a.fd → 0 ≤ b.fd → p.channels.lookup a.fd ≠ p.channels.lookup b.fd := by
    rw [List.pairwise_iff_getElem]
    intro i j hi hj hij ha hb heq
    obtain ⟨d, hd, hdi⟩ := h.lookup_of_nonneg (List.getElem?_eq_getElem hi) ha
    obtain ⟨e, he, hej⟩ := h.lookup_of_nonneg (List.getElem?_eq_getElem hj) hb
    rw [hd, he, Option.some.injEq] at heq
    rw [heq, hej] at hdi
    omega
  refine List.pairwise_map.mpr ((hpair.filter _).imp_of_mem ?_)
  intro a b ha hb hne
  exact hne (hon a ha) (hon b hb)

/-- `poll` returns. It reports registered channels, each once, and changes nothing but what
was reported. -/
theorem Table.poll (h : p.Table) {answer : List (BitVec 16)} (hans : EventLoop.Answers p answer)
    (numEvents : Int) :
    ∃ p' active, p.poll answer numEvents = some (p', active) ∧ p'.Table ∧
      SameButRevents p p' ∧ (∀ d, p'.Registered d ↔ p.Registered d) ∧
      (∀ d, p.Off d → p'.Off d) ∧ (∀ d, p.On d → p'.On d) ∧
      active.Nodup ∧ ∀ c ∈ active, p.Registered c := by
  obtain ⟨htable, hoff, hon'⟩ := h.setAnswer hans.1
  by_cases hn : 0 < numEvents
  · have hon : ∀ pfd ∈ reported (p.setAnswer answer).pollfds, 0 ≤ pfd.fd :=
      fun pfd hpfd => reported_nonneg hans hpfd
    have hlookup : ∀ pfd ∈ reported (p.setAnswer answer).pollfds,
        ((p.setAnswer answer).channels.lookup pfd.fd).isSome := by
      intro pfd hpfd
      obtain ⟨i, hi⟩ := List.getElem?_of_mem (List.mem_filter.mp hpfd).1
      obtain ⟨d, hd, -⟩ := htable.lookup_of_nonneg hi (hon pfd hpfd)
      rw [hd]
      rfl
    obtain ⟨p', active, hcall, hpollfds, hchannels, hsame, hactive, -⟩ :=
      getActiveChannelsFrom_spec _ numEvents hlookup
    have hfields : ∀ d, (p'.channel d).fd = (p.channel d).fd ∧
        (p'.channel d).events = (p.channel d).events ∧
        (p'.channel d).index = (p.channel d).index := by
      intro d
      obtain ⟨r, hr⟩ := hsame d
      rw [hr]
      exact ⟨rfl, rfl, rfl⟩
    obtain ⟨htable', hreg⟩ := htable.of_heap hpollfds hchannels (fun _ d _ => hfields d)
      fun d => by
        rw [(hfields d).2.1]
        exact h.mask d
    have hactive' : (active.map some).Sublist ((reported (p.setAnswer answer).pollfds).map
        fun pfd => p.channels.lookup pfd.fd) := by
      rw [hactive]
      exact (List.take_sublist _ _).map _
    have hentry : ∀ d, p'.entry d = (p.setAnswer answer).entry d := by
      intro d
      rw [Poller.entry, Poller.entry, hpollfds, (hfields d).2.2]
      rfl
    refine ⟨p', active, ?_, htable', hsame, hreg, ?_, ?_, ?_, ?_⟩
    · rw [Poller.poll]
      exact (if_pos hn).trans hcall
    · intro d hd
      obtain ⟨pfd, hpfd, hfd⟩ := hoff d hd
      exact ⟨pfd, (hentry d).trans hpfd, by rw [(hfields d).1]; exact hfd⟩
    · intro d hd
      obtain ⟨pfd, hpfd, hfd⟩ := hon' d hd
      exact ⟨pfd, (hentry d).trans hpfd, by rw [(hfields d).1]; exact hfd⟩
    · have hnodup := (htable.reported_nodup hon).sublist hactive'
      exact hnodup.of_map
    · intro c hc
      obtain ⟨pfd, hpfd, hlook⟩ := List.mem_map.mp
        (hactive'.subset (List.mem_map.mpr ⟨c, hc, rfl⟩))
      exact (h.lookup_iff.mp hlook).1
  · refine ⟨p.setAnswer answer, [], ?_, htable, .refl _, fun d => Iff.rfl, hoff,
      hon', List.nodup_nil, by simp⟩
    rw [Poller.poll]
    exact if_neg hn

/-! ### One channel -/

/-- When only the entry `i` has something to report, by induction on the entries. -/
theorem reported_set (pfds : List PollFd) :
    ∀ {i : Nat} {pfd : PollFd}, pfds[i]? = some pfd →
      reported (List.zipWith (fun pfd revents => { pfd with revents }) pfds
        ((List.replicate pfds.length 0).set i 1)) = [{ pfd with revents := 1 }] := by
  have hnone : ∀ l : List PollFd, reported (List.zipWith
      (fun pfd revents => { pfd with revents }) l (List.replicate l.length 0)) = [] := by
    intro l
    induction l with
    | nil => rfl
    | cons pfd l ih =>
        rw [List.length_cons, List.replicate_succ, List.zipWith_cons_cons,
          reported_cons_neg (by simp)]
        exact ih
  induction pfds with
  | nil => simp
  | cons head pfds ih =>
      intro i pfd hi
      rw [List.length_cons, List.replicate_succ]
      cases i with
      | zero =>
          cases hi
          have hpos : 0 < (1 : BitVec 16).toInt := by decide
          rw [List.set_cons_zero, List.zipWith_cons_cons, reported_cons_pos hpos, hnone]
      | succ i =>
          rw [List.set_cons_succ, List.zipWith_cons_cons, reported_cons_neg (by simp)]
          exact ih (by simpa using hi)

/-- The kernel can report any channel that is switched on, alone. -/
theorem Table.poll_one (h : p.Table) (hreg : p.Registered c) (hon : p.On c) :
    ∃ answer p', EventLoop.Answers p answer ∧ p.poll answer 1 = some (p', [c]) ∧
      (p'.channel c).revents = POLLIN := by
  obtain ⟨pfd, hentry, hfd⟩ := hon
  have hnonneg := h.nonneg c hreg
  have hi : p.pollfds[(p.channel c).index.toNat]? = some pfd := hentry
  let i := (p.channel c).index.toNat
  let answer : List (BitVec 16) := (List.replicate p.pollfds.length 0).set i 1
  have hreported : reported (p.setAnswer answer).pollfds = [{ pfd with revents := 1 }] :=
    reported_set p.pollfds hi
  have hlookup : p.channels.lookup pfd.fd = some c := by
    rw [hfd]
    exact h.lookup_iff.mpr ⟨hreg, rfl⟩
  have hanswers : EventLoop.Answers p answer := by
    refine ⟨by simp [answer], fun e he hneg => ?_⟩
    obtain ⟨j, hj⟩ := List.getElem?_of_mem he
    obtain ⟨hfst, hsnd⟩ := List.getElem?_zip_eq_some.mp hj
    by_cases hij : i = j
    · rw [← hij, hi, Option.some.injEq] at hfst
      rw [← hfst, hfd] at hneg
      omega
    · rw [List.getElem?_set_ne hij] at hsnd
      exact List.eq_of_mem_replicate (List.mem_of_getElem? hsnd)
  obtain ⟨p', active, hcall, -, -, -, hactive, -, hrevents⟩ :=
    getActiveChannelsFrom_spec (p := p.setAnswer answer) (p.setAnswer answer).pollfds 1 (by
      rw [hreported]
      intro q hq
      rw [List.mem_singleton.mp hq]
      exact Option.isSome_iff_exists.mpr ⟨c, hlookup⟩)
  have hone : active = [c] := by
    rw [hreported] at hactive
    have hsome : active.map some = [c].map some := hactive.trans (congrArg (fun x => [x]) hlookup)
    exact List.map_injective_iff.mpr (Option.some_injective _) hsome
  refine ⟨answer, p', hanswers, ?_, ?_⟩
  · rw [Poller.poll, ← hone]
    exact hcall
  · obtain ⟨q, hq, -, heq⟩ := hrevents c (by rw [hone]; exact List.mem_singleton.mpr rfl)
    rw [hreported, List.mem_singleton] at hq
    have hbits : (1 : BitVec 16).signExtend 32 = POLLIN := by decide
    rw [heq, hq]
    exact hbits

end Poller

end SecondGear
