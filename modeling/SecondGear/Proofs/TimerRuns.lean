import SecondGear.Proofs.TimerQueue

/-!
# `SecondGear.Proofs.TimerRuns`: no timer is lost, doubled or early

`TimerRun.Inv` follows every timer that was added: it waits in the set or in the part of the
expired vector that is still to run, or it ran and will be restarted, or it is a one-shot
timer that ran. It also keeps the calls of one timer apart, and for this the new expirations have
to be what `restart` means: `RestartsFit`. `Inv.step` shows it for each step of `timerMachine` that
meets this.

* `addTimer_spec`, `handleRead_spec`, `run_spec`, `reset_spec`: one step each.
* `Inv.step`, `Inv.of_run`: every step and every run without an overflow keep the invariant.
* `Inv.step_isSome`: without an entry that expires exactly at the `now` of a `handleRead`,
  no assertion fails.
-/

set_option autoImplicit false

namespace SecondGear

open SecondGear.Lib

/-- The time of the `handleRead` in progress. -/
def TimerPhase.now : TimerPhase → Timestamp
  | .idle => 0
  | .running _ _ now => now

/-- Outside `handleRead` there is nothing to know of the phase. -/
theorem TimerPhase.eq_idle {phase : TimerPhase} (h : phase.isIdle) : phase = .idle := by
  cases phase with
  | idle => rfl
  | running done rest now => simp [TimerPhase.isIdle] at h

/-- The iterator is in front of a timer. -/
theorem TimerPhase.exists_of_hasNext {phase : TimerPhase} (h : phase.hasNext) :
    ∃ done it rest now, phase = .running done (it :: rest) now := by
  cases phase with
  | idle => simp [TimerPhase.hasNext] at h
  | running done rest now =>
      cases rest with
      | nil => simp [TimerPhase.hasNext] at h
      | cons it rest => exact ⟨done, it, rest, now, rfl⟩

/-- The iterator is behind the last timer. -/
theorem TimerPhase.exists_of_allRan {phase : TimerPhase} (h : phase.allRan) :
    ∃ done now, phase = .running done [] now := by
  cases phase with
  | idle => simp [TimerPhase.allRan] at h
  | running done rest now =>
      cases rest with
      | cons it rest => simp [TimerPhase.allRan] at h
      | nil => exact ⟨done, now, rfl⟩

namespace TimerQueue

/-- Which timer an entry is of. -/
def serialOf (q : TimerQueue) (e : TimerEntry) : Nat := (q.timer e.second).serial

/-- A timer that is the same up to its expiration. -/
theorem SameTimers.fields {q q' : TimerQueue} (h : SameTimers q q') (ptr : TimerPtr) :
    (q'.timer ptr).serial = (q.timer ptr).serial ∧ (q'.timer ptr).delta = (q.timer ptr).delta ∧
      (q'.timer ptr).repeats = (q.timer ptr).repeats := by
  obtain ⟨t, ht⟩ := h ptr
  rw [ht]
  exact ⟨rfl, rfl, rfl⟩

end TimerQueue

namespace TimerRun

variable {s s' : TimerRun}

/-- The entries whose timers have not run yet: those of the set, and the rest of the expired
vector. The callback that is called next is of one of the latter. -/
def waiting (s : TimerRun) : List TimerEntry := s.queue.timers.toList ++ s.phase.rest

/-- All entries. -/
def entries (s : TimerRun) : List TimerEntry := s.queue.entries s.phase.expired

/-- What became of each timer. -/
structure Inv (s : TimerRun) : Prop where
  keyed : s.queue.Keyed s.phase.expired
  /-- the timers are those that were added, up to their expirations -/
  made : ∀ e ∈ s.entries, ∃ t, s.added[s.queue.serialOf e]? = some t ∧
    t.delta = (s.queue.timer e.second).delta ∧ t.repeats = (s.queue.timer e.second).repeats
  serials : (s.entries.map s.queue.serialOf).Nodup
  past : ∀ e ∈ s.phase.expired, e.first < s.phase.now
  located : ∀ n t, s.added[n]? = some t →
    (∃ e ∈ s.waiting, s.queue.serialOf e = n) ∨
      (t.repeats = true ∧ ∃ e ∈ s.phase.done, s.queue.serialOf e = n) ∨
      (t.repeats = false ∧ ∃ c ∈ s.calls, c.serial = n)
  called : ∀ c ∈ s.calls, c.serial < s.added.length
  /-- a timer that ran and waits again is a repeating one, and waits for its interval -/
  waits : ∀ c ∈ s.calls, ∀ e ∈ s.waiting, s.queue.serialOf e = c.serial →
    (s.queue.timer e.second).repeats = true ∧
      c.now + ((s.queue.timer e.second).delta : Int) ≤ e.first
  ran : ∀ c ∈ s.calls, ∀ e ∈ s.phase.done, s.queue.serialOf e = c.serial →
    c.now ≤ s.phase.now
  spaced : s.calls.Pairwise fun c d => c.serial = d.serial →
    ∃ t, s.added[c.serial]? = some t ∧ t.repeats = true ∧ c.now + (t.delta : Int) ≤ d.now

/-- In the beginning there are no timers. -/
theorem new_inv (heap : TimerPtr → Timer) : (new heap).Inv where
  keyed := ⟨by simp [TimerQueue.entries, new, OrderedSet.empty, TimerPhase.expired,
      TimerPhase.done, TimerPhase.rest], List.nodup_nil⟩
  made := by
    intro e he
    cases he
  serials := List.nodup_nil
  past := by
    intro e he
    cases he
  located := by simp [new]
  called := by simp [new]
  waits := by simp [new]
  ran := by simp [new]
  spaced := List.Pairwise.nil

/-! ### Every step keeps the invariant -/

/-- A waiting entry is an entry. -/
theorem mem_entries_of_waiting {e : TimerEntry} (he : e ∈ s.waiting) : e ∈ s.entries := by
  rcases List.mem_append.mp he with he | he
  · exact List.mem_append_left _ he
  · exact List.mem_append_right _ (List.mem_append_right _ he)

/-- So is one in front of the iterator. -/
theorem mem_entries_of_done {e : TimerEntry} (he : e ∈ s.phase.done) : e ∈ s.entries :=
  List.mem_append_right _ (List.mem_append_left _ he)

/-- The number of an entry's timer is one of those given out. -/
theorem Inv.serial_lt (h : s.Inv) {e : TimerEntry} (he : e ∈ s.entries) :
    s.queue.serialOf e < s.added.length := by
  obtain ⟨t, ht, -⟩ := h.made e he
  exact (List.getElem?_eq_some_iff.mp ht).1

/-- A timerfd plays no part in the invariant. -/
theorem Inv.of_timerfd (h : s.Inv) (fd : TimerFd) :
    ({ s with queue.timerfd := fd } : TimerRun).Inv where
  keyed := ⟨h.keyed.key, h.keyed.nodup⟩
  made := h.made
  serials := h.serials
  past := h.past
  located := h.located
  called := h.called
  waits := h.waits
  ran := h.ran
  spaced := h.spaced

/-- What `addTimerInLoop` of a new timer does to a run: it goes to the end of the list of timers,
to an address that is in no entry, and into the set. -/
structure Adds (s : TimerRun) (ptr : TimerPtr) (timer : Timer) (s₁ : TimerRun) : Prop where
  free : ∀ e ∈ s.entries, e.second ≠ ptr
  number : timer.serial = s.added.length
  heap : s₁.queue.timer = Function.update s.queue.timer ptr timer
  timers : s₁.queue.timers.toList.Perm (toLex (timer.expiration, ptr) :: s.queue.timers.toList)
  phase : s₁.phase = s.phase
  added : s₁.added = s.added ++ [timer]
  calls : s₁.calls = s.calls

namespace Adds

variable {ptr : TimerPtr} {timer : Timer} {s₁ : TimerRun}

/-- What the new timer is. -/
theorem self (ha : s.Adds ptr timer s₁) : s₁.queue.timer ptr = timer := by
  rw [ha.heap]
  exact Function.update_self _ _ _

/-- The timers on the heap are as before at the pointers in use: the new one is not among them. -/
theorem other (ha : s.Adds ptr timer s₁) {e : TimerEntry} (he : e ∈ s.entries) :
    s₁.queue.timer e.second = s.queue.timer e.second := by
  rw [ha.heap]
  exact Function.update_of_ne (ha.free e he) _ _

/-- So their entries are of the same timers. -/
theorem serial (ha : s.Adds ptr timer s₁) {e : TimerEntry} (he : e ∈ s.entries) :
    s₁.queue.serialOf e = s.queue.serialOf e := by
  rw [TimerQueue.serialOf, TimerQueue.serialOf, ha.other he]

/-- The new entry is of the timer with the next number. -/
theorem newSerial (ha : s.Adds ptr timer s₁) :
    s₁.queue.serialOf (toLex (timer.expiration, ptr)) = s.added.length := by
  show (s₁.queue.timer ptr).serial = _
  rw [ha.self, ha.number]

theorem entries (ha : s.Adds ptr timer s₁) :
    s₁.entries.Perm (toLex (timer.expiration, ptr) :: s.entries) := by
  rw [TimerRun.entries, ha.phase]
  exact ha.timers.append_right _

theorem waiting (ha : s.Adds ptr timer s₁) :
    s₁.waiting.Perm (toLex (timer.expiration, ptr) :: s.waiting) := by
  rw [TimerRun.waiting, ha.phase]
  exact ha.timers.append_right _

theorem getElem_added (ha : s.Adds ptr timer s₁) {n : Nat} {t : Timer}
    (ht : s.added[n]? = some t) : s₁.added[n]? = some t := by
  rw [ha.added, List.getElem?_append_left (List.getElem?_eq_some_iff.mp ht).1]
  exact ht

theorem made (ha : s.Adds ptr timer s₁) (h : s.Inv) : ∀ e ∈ s₁.entries,
    ∃ t, s₁.added[s₁.queue.serialOf e]? = some t ∧
      t.delta = (s₁.queue.timer e.second).delta ∧
      t.repeats = (s₁.queue.timer e.second).repeats := by
  intro e he
  rcases List.mem_cons.mp (ha.entries.mem_iff.mp he) with rfl | hold
  · refine ⟨timer, ?_, ?_⟩
    · rw [ha.newSerial, ha.added]
      simp
    · show timer.delta = (s₁.queue.timer ptr).delta ∧ timer.repeats = (s₁.queue.timer ptr).repeats
      rw [ha.self]
      exact ⟨rfl, rfl⟩
  · obtain ⟨t, ht, hfields⟩ := h.made e hold
    rw [ha.serial hold, ha.other hold]
    exact ⟨t, ha.getElem_added ht, hfields⟩

theorem serials (ha : s.Adds ptr timer s₁) (h : s.Inv) :
    (s₁.entries.map s₁.queue.serialOf).Nodup := by
  refine (ha.entries.map _).nodup_iff.mpr (List.nodup_cons.mpr ⟨?_, ?_⟩)
  · intro hmem
    obtain ⟨e, he, heq⟩ := List.mem_map.mp hmem
    rw [ha.newSerial, ha.serial he] at heq
    exact absurd (h.serial_lt he) (by omega)
  · rw [List.map_congr_left (g := s.queue.serialOf) fun _ he => ha.serial he]
    exact h.serials

/-- The old timers are where they were, and the new one waits. -/
theorem located (ha : s.Adds ptr timer s₁) (h : s.Inv) : ∀ n t, s₁.added[n]? = some t →
    (∃ e ∈ s₁.waiting, s₁.queue.serialOf e = n) ∨
      (t.repeats = true ∧ ∃ e ∈ s₁.phase.done, s₁.queue.serialOf e = n) ∨
      (t.repeats = false ∧ ∃ c ∈ s₁.calls, c.serial = n) := by
  intro n t ht
  rw [ha.added] at ht
  by_cases hn : n < s.added.length
  · have ht' : s.added[n]? = some t := (List.getElem?_append_left hn).symm.trans ht
    rw [ha.phase, ha.calls]
    rcases h.located n t ht' with ⟨e, he, heq⟩ | ⟨hrep, e, he, heq⟩ | hcalled
    · exact Or.inl ⟨e, ha.waiting.mem_iff.mpr (List.mem_cons_of_mem _ he),
        (ha.serial (mem_entries_of_waiting he)).trans heq⟩
    · exact Or.inr (Or.inl ⟨hrep, e, he, (ha.serial (mem_entries_of_done he)).trans heq⟩)
    · exact Or.inr (Or.inr hcalled)
  · have hlen := (List.getElem?_eq_some_iff.mp ht).1
    rw [List.length_append, List.length_singleton] at hlen
    exact Or.inl ⟨_, ha.waiting.mem_iff.mpr List.mem_cons_self, by rw [ha.newSerial]; omega⟩

/-- No call is of the new timer. -/
theorem waits (ha : s.Adds ptr timer s₁) (h : s.Inv) : ∀ c ∈ s₁.calls, ∀ e ∈ s₁.waiting,
    s₁.queue.serialOf e = c.serial → (s₁.queue.timer e.second).repeats = true ∧
      c.now + ((s₁.queue.timer e.second).delta : Int) ≤ e.first := by
  intro c hc e he heq
  rw [ha.calls] at hc
  rcases List.mem_cons.mp (ha.waiting.mem_iff.mp he) with rfl | hold
  · rw [ha.newSerial] at heq
    exact absurd (h.called c hc) (by omega)
  · have hmem := mem_entries_of_waiting hold
    rw [ha.serial hmem] at heq
    rw [ha.other hmem]
    exact h.waits c hc e hold heq

end Adds

/-- A new timer waits in the set. -/
theorem Inv.of_adds (h : s.Inv) {ptr : TimerPtr} {timer : Timer} {s₁ : TimerRun}
    (ha : s.Adds ptr timer s₁) (hkeyed : s₁.queue.Keyed s₁.phase.expired) : s₁.Inv where
  keyed := hkeyed
  made := ha.made h
  serials := ha.serials h
  past := by
    rw [ha.phase]
    exact h.past
  located := ha.located h
  called := by
    intro c hc
    rw [ha.calls] at hc
    have hlt := h.called c hc
    rw [ha.added, List.length_append]
    omega
  waits := ha.waits h
  ran := by
    intro c hc e he heq
    rw [ha.calls] at hc
    rw [ha.phase] at he ⊢
    rw [ha.serial (mem_entries_of_done he)] at heq
    exact h.ran c hc e he heq
  spaced := by
    rw [ha.calls]
    refine h.spaced.imp fun hcd heq => ?_
    obtain ⟨t, ht, hrest⟩ := hcd heq
    exact ⟨t, ha.getElem_added ht, hrest⟩

/-- `addTimerInLoop` of a new timer: the assertion holds, and the timer waits in the set.
The timerfd is armed for it exactly if it is ahead of all others. -/
theorem addTimer_spec (h : s.Inv) {ptr : TimerPtr} {expiration : Timestamp}
    {repeats : Bool} {delta : Nat} {clock : Timestamp}
    (hfree : ∀ e ∈ s.entries, e.second ≠ ptr) :
    ∃ s', s.step (.addTimer ptr expiration repeats delta clock) = some s' ∧ s'.Inv ∧
      s'.phase = s.phase ∧ s'.calls = s.calls ∧
      s'.queue.timers.toList.Perm (toLex (expiration, ptr) :: s.queue.timers.toList) ∧
      (∀ e ∈ s.entries, s'.queue.serialOf e = s.queue.serialOf e) ∧
      s'.queue.timerfd = if ∀ e ∈ s.queue.timers.toList, expiration < e.first then
        { armed := some expiration, readable := false } else s.queue.timerfd := by
  -- the queue with the new timer on the heap
  let timer : Timer := { expiration, delta, repeats, serial := s.added.length }
  let q := s.queue.setTimer ptr timer
  have hself : q.timer ptr = timer := Function.update_self _ _ _
  have hq : q.Keyed s.phase.expired := h.keyed.setTimer hfree timer
  obtain ⟨q', hcall, htimer, hkeyed, hperm, hfd⟩ :=
    TimerQueue.addTimerInLoop_spec hq hfree clock
  rw [hself] at hperm hfd
  have ha : s.Adds ptr timer { s with queue := q', added := s.added ++ [timer] } :=
    ⟨hfree, rfl, htimer, hperm, rfl, rfl, rfl⟩
  refine ⟨{ s with queue := q', added := s.added ++ [timer] }, ?_, h.of_adds ha hkeyed, rfl, rfl,
    hperm, fun _ he => ha.serial he, hfd⟩
  show (q.addTimerInLoop ptr clock).map _ = _
  rw [hcall]
  rfl

/-- The start of `handleRead`: the expired entries leave the set for the vector. -/
theorem handleRead_spec (h : s.Inv) (hidle : s.phase.isIdle) {now : Timestamp}
    (hstep : s.step (.handleRead now) = some s') :
    ∃ expired, s'.phase = .running [] expired now ∧
      expired = s.queue.timers.toList.filter (fun e => e.first < now) ∧
      s'.queue.timer = s.queue.timer ∧ s'.added = s.added ∧ s'.calls = s.calls ∧
      s'.queue.timerfd = s.queue.timerfd.readTimerfd ∧
      (∀ e ∈ s'.queue.timers.toList, now ≤ e.first) ∧ s'.Inv := by
  have hphase : s.phase = .idle := TimerPhase.eq_idle hidle
  have hnone : s.phase.expired = [] := by rw [hphase]; rfl
  have hrest : s.phase.rest = [] := by rw [hphase]; rfl
  have hdone : s.phase.done = [] := by rw [hphase]; rfl
  have hkeyed := h.keyed
  rw [hnone] at hkeyed
  obtain ⟨⟨expired, q⟩, hcall, rfl⟩ := Option.map_eq_some_iff.mp hstep
  have hread : TimerQueue.Keyed { s.queue with timerfd := s.queue.timerfd.readTimerfd } [] :=
    ⟨hkeyed.key, hkeyed.nodup⟩
  obtain ⟨htimer, hfd, hsplit, hfilter, hlater, hkeyed'⟩ := TimerQueue.getExpired_spec hread hcall
  -- The same entries as before, in two places.
  have hperm : (q.timers.toList ++ expired).Perm s.queue.timers.toList := by
    rw [← hsplit]
    exact List.perm_append_comm
  have hentries : (q.timers.toList ++ ([] ++ expired)).Perm s.entries := by
    rw [entries, TimerQueue.entries, hnone, List.append_nil]
    exact hperm
  have hwaiting : (q.timers.toList ++ expired).Perm s.waiting := by
    rw [waiting, hrest, List.append_nil]
    exact hperm
  refine ⟨expired, rfl, hfilter, htimer, rfl, rfl, hfd, hlater, ?_⟩
  have hserial : q.serialOf = s.queue.serialOf := by
    funext e
    rw [TimerQueue.serialOf, TimerQueue.serialOf, htimer]
  refine ⟨hkeyed', ?_, ?_, ?_, ?_, h.called, ?_, ?_, h.spaced⟩
  · intro e he
    rw [show TimerRun.queue _ = q from rfl, hserial, htimer]
    exact h.made e (hentries.mem_iff.mp he)
  · show ((q.timers.toList ++ ([] ++ expired)).map q.serialOf).Nodup
    rw [hserial]
    exact (hentries.map _).nodup_iff.mpr h.serials
  · intro e he
    have he' : e ∈ expired := he
    rw [hfilter] at he'
    exact of_decide_eq_true (List.mem_filter.mp he').2
  · intro n t ht
    rw [show TimerRun.queue _ = q from rfl, hserial]
    rcases h.located n t ht with ⟨e, he, heq⟩ | ⟨-, e, he, -⟩ | hcalled
    · exact Or.inl ⟨e, hwaiting.mem_iff.mpr he, heq⟩
    · rw [hdone] at he
      cases he
    · exact Or.inr (Or.inr hcalled)
  · intro c hc e he heq
    rw [show TimerRun.queue _ = q from rfl] at heq ⊢
    rw [hserial] at heq
    rw [htimer]
    exact h.waits c hc e (hwaiting.mem_iff.mp he) heq
  · intro c hc e he
    cases he

/-- A timer that was called and waits is a repeating one, and waits for its interval. -/
theorem Inv.waits_interval (h : s.Inv) {c : TimerCall} (hc : c ∈ s.calls) {e : TimerEntry}
    (he : e ∈ s.waiting) (hserial : c.serial = s.queue.serialOf e) :
    ∃ t, s.added[c.serial]? = some t ∧ t.repeats = true ∧ c.now + (t.delta : Int) ≤ e.first := by
  obtain ⟨t, ht, hdelta, hrepeats⟩ := h.made e (mem_entries_of_waiting he)
  obtain ⟨hrep, hwait⟩ := h.waits c hc e he hserial.symm
  refine ⟨t, hserial ▸ ht, hrepeats.trans hrep, ?_⟩
  rw [hdelta]
  exact hwait

/-- No other waiting entry is of the timer that is next. -/
theorem Inv.serial_ne_next (h : s.Inv) {done rest : List TimerEntry} {it : TimerEntry}
    {now : Timestamp} (hphase : s.phase = .running done (it :: rest) now) {e : TimerEntry}
    (he : e ∈ s.queue.timers.toList ++ rest) : s.queue.serialOf e ≠ s.queue.serialOf it := by
  intro heq
  have hperm : (s.entries).Perm (it :: (s.queue.timers.toList ++ (done ++ rest))) := by
    rw [entries, TimerQueue.entries, hphase]
    exact (List.perm_middle.append_left _).trans List.perm_middle
  have hnodup := (hperm.map s.queue.serialOf).nodup_iff.mp h.serials
  refine (List.nodup_cons.mp hnodup).1 (List.mem_map.mpr ⟨e, ?_, heq⟩)
  rcases List.mem_append.mp he with he | he
  · exact List.mem_append_left _ he
  · exact List.mem_append_right _ (List.mem_append_right _ he)

/-- The cursor moves over a timer, and its callback is called. The call is the latest so far, and
the timer's earlier calls are an interval or more before it: it has waited since then. -/
theorem Inv.of_called (h : s.Inv) {done rest : List TimerEntry} {it : TimerEntry}
    {now : Timestamp} (hphase : s.phase = .running done (it :: rest) now) :
    ({ s with
      phase := .running (done ++ [it]) rest now
      calls := s.calls ++ [{ serial := s.queue.serialOf it, now }] } : TimerRun).Inv := by
  have hexpired : s.phase.expired = done ++ it :: rest := by rw [hphase]; rfl
  have hwaiting : s.waiting = s.queue.timers.toList ++ it :: rest := by
    rw [waiting, hphase]
    rfl
  have hdone : s.phase.done = done := by rw [hphase]; rfl
  have hnow : s.phase.now = now := by rw [hphase]; rfl
  let s₁ : TimerRun := { s with
    phase := .running (done ++ [it]) rest now
    calls := s.calls ++ [{ serial := s.queue.serialOf it, now }] }
  -- The vector is the same.
  have hsame : s₁.phase.expired = s.phase.expired := by
    rw [hexpired]
    show (done ++ [it]) ++ rest = _
    simp
  have hentries : s₁.entries = s.entries := by rw [entries, entries, hsame]
  have hitwaits : it ∈ s.waiting := by rw [hwaiting]; simp
  have hpast : it.first < now := by
    rw [← hnow]
    exact h.past it (by rw [hexpired]; simp)
  have hsub : ∀ e ∈ s₁.waiting, e ∈ s.waiting := by
    intro e he
    have he' : e ∈ s.queue.timers.toList ++ rest := he
    rw [hwaiting]
    rcases List.mem_append.mp he' with he' | he'
    · exact List.mem_append_left _ he'
    · exact List.mem_append_right _ (List.mem_cons_of_mem _ he')
  -- What earlier calls of the same timer say about this one.
  have hbefore : ∀ c ∈ s.calls, c.serial = s.queue.serialOf it →
      ∃ t, s.added[c.serial]? = some t ∧ t.repeats = true ∧ c.now + (t.delta : Int) ≤ now := by
    intro c hc heq
    obtain ⟨t, ht, hrep, hwait⟩ := h.waits_interval hc hitwaits heq
    exact ⟨t, ht, hrep, le_of_lt (lt_of_le_of_lt hwait hpast)⟩
  refine ⟨?_, ?_, ?_, ?_, ?_, ?_, ?_, ?_, ?_⟩
  · rw [hsame]
    exact h.keyed
  · rw [hentries]
    exact h.made
  · rw [hentries]
    exact h.serials
  · -- past
    rw [hsame]
    intro e he
    show e.first < now
    rw [← hnow]
    exact h.past e he
  · -- located
    intro n t ht
    rcases h.located n t ht with ⟨e, he, heq⟩ | ⟨hrep, e, he, heq⟩ | ⟨hrep, c, hc, heq⟩
    · rw [hwaiting] at he
      rcases List.mem_append.mp he with he' | he'
      · exact Or.inl ⟨e, List.mem_append_left _ he', heq⟩
      · rcases List.mem_cons.mp he' with rfl | hmem
        · -- The timer that runs now: it will be restarted, or it is done.
          cases hrep : t.repeats with
          | true => exact Or.inr (Or.inl ⟨rfl, e, List.mem_append_right _ (by simp), heq⟩)
          | false =>
              exact Or.inr (Or.inr ⟨rfl, _, List.mem_append_right _ List.mem_cons_self, heq⟩)
        · exact Or.inl ⟨e, List.mem_append_right _ hmem, heq⟩
    · rw [hdone] at he
      exact Or.inr (Or.inl ⟨hrep, e, List.mem_append_left _ he, heq⟩)
    · exact Or.inr (Or.inr ⟨hrep, c, List.mem_append_left _ hc, heq⟩)
  · -- called
    intro c hc
    rcases List.mem_append.mp hc with hc | hc
    · exact h.called c hc
    · rw [List.mem_singleton.mp hc]
      exact h.serial_lt (mem_entries_of_waiting hitwaits)
  · -- waits
    intro c hc e he heq
    rcases List.mem_append.mp hc with hc | hc
    · exact h.waits c hc e (hsub e he) heq
    · rw [List.mem_singleton.mp hc] at heq
      exact absurd heq (h.serial_ne_next hphase he)
  · -- ran
    intro c hc e he heq
    show c.now ≤ now
    rcases List.mem_append.mp hc with hc | hc
    · have he' : e ∈ done ++ [it] := he
      rcases List.mem_append.mp he' with he' | he'
      · rw [← hnow]
        exact h.ran c hc e (hdone ▸ he') heq
      · rw [List.mem_singleton.mp he'] at heq
        obtain ⟨t, -, -, hle⟩ := hbefore c hc heq.symm
        exact le_trans (Int.le_add_of_nonneg_right (Int.natCast_nonneg _)) hle
    · rw [List.mem_singleton.mp hc]
  · -- spaced
    refine List.pairwise_append.mpr ⟨h.spaced, List.pairwise_singleton _ _, ?_⟩
    intro c hc d hd heq
    rw [List.mem_singleton.mp hd] at heq ⊢
    exact hbefore c hc heq

/-- One expired timer runs. -/
theorem run_spec (h : s.Inv) {done rest : List TimerEntry} {it : TimerEntry} {now : Timestamp}
    (hphase : s.phase = .running done (it :: rest) now) :
    ∃ s', s.step .run = some s' ∧ s'.phase = .running (done ++ [it]) rest now ∧
      s'.queue = s.queue ∧ s'.added = s.added ∧
      s'.calls = s.calls ++ [{ serial := s.queue.serialOf it, now }] ∧ s'.Inv := by
  refine ⟨{ s with
    phase := .running (done ++ [it]) rest now
    calls := s.calls ++ [{ serial := s.queue.serialOf it, now }] }, ?_, rfl, rfl, rfl, rfl,
    h.of_called hphase⟩
  rw [step, hphase]
  rfl

/-- No sum in `restart` overflows. -/
def RestartsFit (s : TimerRun) : TimerAction → Prop
  | .reset _ => ∀ e ∈ s.phase.done, (s.queue.timer e.second).repeats = true →
      s.phase.now + ((s.queue.timer e.second).delta : Int) < 2 ^ 63
  | .addTimer _ _ _ _ _ | .expire | .handleRead _ | .run => True

instance (s : TimerRun) : (a : TimerAction) → Decidable (RestartsFit s a)
  | .reset _ => inferInstanceAs (Decidable (∀ e ∈ s.phase.done, _ → _))
  | .addTimer _ _ _ _ _ | .expire | .handleRead _ | .run => isTrue trivial

/-- The expired vector is gone, and those of its timers that repeat are in the set again. As the sum
fits, each of them waits an interval from its call on, which is at this `now`. -/
theorem Inv.of_reset (h : s.Inv) {done : List TimerEntry} {now : Timestamp}
    (hphase : s.phase = .running done [] now)
    (hfits : ∀ e ∈ done, (s.queue.timer e.second).repeats = true →
      now + ((s.queue.timer e.second).delta : Int) < 2 ^ 63)
    {q : TimerQueue} (hkeyed : q.Keyed [])
    (hsame : TimerQueue.SameTimers s.queue q)
    (hperm : q.timers.toList.Perm
      ((s.queue.repeating done).map (s.queue.restarted now) ++ s.queue.timers.toList)) :
    ({ s with queue := q, phase := .idle } : TimerRun).Inv := by
  have hexpired : s.phase.expired = done := by
    rw [hphase]
    exact List.append_nil done
  have hdone : s.phase.done = done := by rw [hphase]; rfl
  have hrest : s.phase.rest = [] := by rw [hphase]; rfl
  have hnow : s.phase.now = now := by rw [hphase]; rfl
  let s₁ : TimerRun := { s with queue := q, phase := .idle }
  have hserial : q.serialOf = s.queue.serialOf := by
    funext e
    exact (hsame.fields e.second).1
  -- Each entry is an old one of the set, or a restarted one of the vector.
  have hcases : ∀ e ∈ q.timers.toList, e ∈ s.queue.timers.toList ∨
      ∃ d ∈ done, (s.queue.timer d.second).repeats = true ∧ e = s.queue.restarted now d := by
    intro e he
    rcases List.mem_append.mp (hperm.mem_iff.mp he) with hnew | hold
    · obtain ⟨d, hd, rfl⟩ := List.mem_map.mp hnew
      obtain ⟨hd, hrep⟩ := List.mem_filter.mp hd
      exact Or.inr ⟨d, hd, hrep, rfl⟩
    · exact Or.inl hold
  have hmem : ∀ d ∈ done, d ∈ s.entries := fun d hd =>
    List.mem_append_right _ (hexpired ▸ hd)
  have hentries : s₁.entries = q.timers.toList := List.append_nil _
  have hwaiting : s₁.waiting = q.timers.toList := List.append_nil _
  have hold : ∀ e ∈ s.queue.timers.toList, e ∈ q.timers.toList := fun e he =>
    hperm.mem_iff.mpr (List.mem_append_right _ he)
  refine ⟨hkeyed, ?_, ?_, ?_, ?_, h.called, ?_, ?_, h.spaced⟩
  · -- made
    intro e he
    rw [hentries] at he
    obtain ⟨hs, hd, hr⟩ := hsame.fields e.second
    rw [show s₁.queue = q from rfl, hserial, hd, hr]
    rcases hcases e he with he' | ⟨d, hdone', -, rfl⟩
    · exact h.made e (List.mem_append_left _ he')
    · exact h.made d (hmem d hdone')
  · -- serials
    rw [hentries, show s₁.queue = q from rfl, hserial]
    refine (hperm.map _).nodup_iff.mpr ?_
    have hrestarted : ((s.queue.repeating done).map (s.queue.restarted now)).map
        s.queue.serialOf = (s.queue.repeating done).map s.queue.serialOf := by
      rw [List.map_map]
      rfl
    have hnodup : ((done ++ s.queue.timers.toList).map s.queue.serialOf).Nodup := by
      have hall := h.serials
      rw [entries, TimerQueue.entries, hexpired] at hall
      exact (List.perm_append_comm.map _).nodup_iff.mpr hall
    rw [List.map_append, hrestarted, ← List.map_append]
    exact hnodup.sublist ((List.filter_sublist.append (List.Sublist.refl _)).map _)
  · intro e he
    cases he
  · -- located
    intro n t ht
    rw [hwaiting, show s₁.queue = q from rfl, hserial]
    rcases h.located n t ht with ⟨e, he, heq⟩ | ⟨hrep, e, he, heq⟩ | hcalled
    · rw [waiting, hrest, List.append_nil] at he
      exact Or.inl ⟨e, hold e he, heq⟩
    · rw [hdone] at he
      obtain ⟨t', ht', -, hrep'⟩ := h.made e (hmem e he)
      have htt : t' = t := by
        rw [heq] at ht'
        exact Option.some.inj (ht'.symm.trans ht)
      -- a timer that ran and repeats is among those that `reset` restarts
      have hd : e ∈ s.queue.repeating done :=
        List.mem_filter.mpr ⟨he, by rw [← hrep', htt]; exact hrep⟩
      exact Or.inl ⟨s.queue.restarted now e,
        hperm.mem_iff.mpr (List.mem_append_left _ (List.mem_map.mpr ⟨e, hd, rfl⟩)), heq⟩
    · exact Or.inr (Or.inr hcalled)
  · -- waits
    intro c hc e he heq
    rw [hwaiting] at he
    rw [show s₁.queue = q from rfl] at heq ⊢
    obtain ⟨-, hd, hr⟩ := hsame.fields e.second
    rw [hserial] at heq
    rw [hd, hr]
    rcases hcases e he with he' | ⟨d, hdone', hrep, rfl⟩
    · exact h.waits c hc e (List.mem_append_left _ he') heq
    · -- A restarted timer waits from `now` on, and no call of it is later.
      refine ⟨hrep, ?_⟩
      have hle : c.now ≤ now := by
        rw [← hnow]
        exact h.ran c hc d (hdone ▸ hdone') heq
      exact le_trans (Int.add_le_add_right hle _)
        (TimerQueue.le_restarted (hfits d hdone' hrep))
  · intro c hc e he
    cases he

/-- The end of `handleRead`: it returns, and the repeating timers wait again. Their distances are
kept if no sum overflows. -/
theorem reset_spec (h : s.Inv) {done : List TimerEntry} {now : Timestamp}
    (hphase : s.phase = .running done [] now) (clock : Timestamp) :
    ∃ s', s.step (.reset clock) = some s' ∧ s'.phase = .idle ∧ s'.added = s.added ∧
      s'.calls = s.calls ∧ s'.queue.Keyed [] ∧ (s.RestartsFit (.reset clock) → s'.Inv) ∧
      s'.queue.timers.toList.Perm
        ((s.queue.repeating done).map (s.queue.restarted now) ++ s.queue.timers.toList) ∧
      ((∃ b ∈ s'.queue.timers.begin?, 0 < b.first ∧
          s'.queue.timerfd = { armed := some b.first, readable := false }) ∨
        ((∀ b ∈ s'.queue.timers.begin?, b.first ≤ 0) ∧
          s'.queue.timerfd = s.queue.timerfd)) := by
  have hexpired : s.phase.expired = done := by
    rw [hphase]
    exact List.append_nil done
  have hkeyed := h.keyed
  rw [hexpired] at hkeyed
  obtain ⟨q, hcall, hkeyed', hsame, hperm, hfd⟩ := TimerQueue.reset_spec hkeyed now clock
  refine ⟨{ s with queue := q, phase := .idle }, ?_, rfl, rfl, rfl, hkeyed', fun hfits => ?_, hperm,
    hfd⟩
  · rw [step, hphase]
    show (s.queue.reset done now clock).map _ = _
    rw [hcall]
    rfl
  · rw [RestartsFit, hphase] at hfits
    exact h.of_reset hphase hfits hkeyed' hsame hperm

/-- What a legal step can do, when it restarts no timer beyond the 64 bits. -/
theorem Inv.step (h : s.Inv) {a : TimerAction} (hlegal : s.Legal a) (hfits : s.RestartsFit a)
    (hstep : s.step a = some s') : s'.Inv := by
  cases a with
  | addTimer ptr expiration repeats delta clock =>
      obtain ⟨s₁, hs₁, hinv, -⟩ := addTimer_spec h hlegal.2
      rw [hstep, Option.some.injEq] at hs₁
      exact hs₁ ▸ hinv
  | expire =>
      cases hstep
      exact h.of_timerfd _
  | handleRead now =>
      obtain ⟨expired, -, -, -, -, -, -, -, hinv⟩ := handleRead_spec h hlegal.2 hstep
      exact hinv
  | run =>
      obtain ⟨done, it, rest, now, hphase⟩ := TimerPhase.exists_of_hasNext hlegal
      obtain ⟨s₁, hs₁, -, -, -, -, hinv⟩ := run_spec h hphase
      rw [hstep, Option.some.injEq] at hs₁
      exact hs₁ ▸ hinv
  | reset clock =>
      obtain ⟨done, now, hphase⟩ := TimerPhase.exists_of_allRan hlegal
      obtain ⟨s₁, hs₁, -, -, -, -, hinv, -⟩ := reset_spec h hphase clock
      rw [hstep, Option.some.injEq] at hs₁
      exact hs₁ ▸ hinv hfits

/-- Every run of such steps keeps the invariant. -/
theorem Inv.of_run (h : s.Inv) {as : List TimerAction}
    (hrun : (timerMachine.restrict RestartsFit).Run s as s') : s'.Inv := by
  refine hrun.invariant h ?_
  intro s a s' hinv hlegal hstep
  exact hinv.step hlegal.1 hlegal.2 hstep

/-! ### Assertions -/

/-- No entry of the set expires exactly when `handleRead` reads the clock. -/
def NoTie (s : TimerRun) : TimerAction → Prop
  | .handleRead now =>
      ∀ e ∈ s.queue.timers.toList, (s.queue.timer e.second).expiration ≠ now
  | _ => True

instance (s : TimerRun) : (a : TimerAction) → Decidable (NoTie s a)
  | .handleRead now => inferInstanceAs (Decidable
      (∀ e ∈ s.queue.timers.toList, (s.queue.timer e.second).expiration ≠ now))
  | .addTimer _ _ _ _ _ | .expire | .run | .reset _ => isTrue trivial

/-- Without a tie no assertion fails. -/
theorem Inv.step_isSome (h : s.Inv) {a : TimerAction} (hlegal : s.Legal a) (htie : NoTie s a) :
    (s.step a).isSome := by
  cases a with
  | addTimer ptr expiration repeats delta clock =>
      obtain ⟨s₁, hs₁, -⟩ := addTimer_spec h hlegal.2
      rw [hs₁]
      rfl
  | expire => rfl
  | handleRead now =>
      have hnow : ∀ e ∈ s.queue.timers.toList, e.first ≠ now := by
        intro e he
        rw [h.keyed.key e (List.mem_append_left _ he)]
        exact htie e he
      show (Option.map _ _).isSome
      rw [Option.isSome_map]
      exact TimerQueue.getExpired_isSome _ hnow
  | run =>
      obtain ⟨done, it, rest, now, hphase⟩ := TimerPhase.exists_of_hasNext hlegal
      obtain ⟨s₁, hs₁, -⟩ := run_spec h hphase
      rw [hs₁]
      rfl
  | reset clock =>
      obtain ⟨done, now, hphase⟩ := TimerPhase.exists_of_allRan hlegal
      obtain ⟨s₁, hs₁, -⟩ := reset_spec h hphase clock
      rw [hs₁]
      rfl

end TimerRun

end SecondGear
