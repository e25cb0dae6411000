import SecondGear.Model.TimerQueue

/-!
# `SecondGear.Proofs.TimerQueue`: what the operations do to the set

`TimerQueue.Keyed q out` is the invariant of the queue while the entries `out` are taken
out of it: every entry, in the set or out of it, has the current expiration of its timer as
its key, and no timer has two entries.

* `resetTimerfd_eq`: a reset always arms.
* `insert_spec`, `addTimerInLoop_spec`: a timer that has no entry gets one, and the assertion
  holds.
* `getExpired_spec`: what is taken out, and what stays.
* `getExpired_splits_iff`: when that is a split of the set at `now`.
* `restartAll_spec`: the repeating ones go back in with new keys.
* `le_restarted`, `restarted_first`: what these keys are, if the sum fits into 64 bits.
-/

set_option autoImplicit false

namespace SecondGear

open SecondGear.Lib

/-- The clamp of `howMuchTimeFromNow`. -/
theorem clamped_eq_max (us : Int) : (if us < 100 then 100 else us) = max 100 us := by
  rw [max_comm, max_def_lt]

/-- The relative time is at least 100 microseconds, so it is never zero. -/
theorem howMuchTimeFromNow_ne_zero (when clock : Timestamp) :
    ¬ ((howMuchTimeFromNow when clock).tv_sec = 0 ∧
      (howMuchTimeFromNow when clock).tv_nsec = 0) := by
  have hus : ∀ us : Int, 100 ≤ us →
      ¬ (us.tdiv kMicroSecondsPerSecond = 0 ∧ us.tmod kMicroSecondsPerSecond * 1000 = 0) := by
    intro us h100
    rw [Int.tdiv_eq_ediv_of_nonneg (by omega), Int.tmod_eq_emod_of_nonneg (by omega),
      kMicroSecondsPerSecond]
    omega
  have h100 : 100 ≤ if (when - clock).bmod (2 ^ 64) < 100 then 100
      else (when - clock).bmod (2 ^ 64) := by
    rw [clamped_eq_max]
    exact le_max_left _ _
  exact hus _ h100

/-- A reset always arms, for the expiration it was made for. -/
theorem TimerFd.resetTimerfd_eq (expiration clock : Timestamp) :
    TimerFd.resetTimerfd expiration clock = { armed := some expiration, readable := false } := by
  rw [resetTimerfd, settime, if_neg (howMuchTimeFromNow_ne_zero expiration clock)]

namespace TimerEntry

/-- The order is by time first. -/
theorem first_le {e e' : TimerEntry} (h : e ≤ e') : e.first ≤ e'.first := by
  rcases Prod.Lex.le_iff.mp h with hlt | ⟨heq, -⟩
  · exact le_of_lt hlt
  · exact le_of_eq heq

/-- An entry is below the sentry exactly when it expired before: no pointer is below the
null pointer. -/
theorem lt_sentry_iff {e : TimerEntry} {now : Timestamp} :
    e < toLex (now, 0) ↔ e.first < now := by
  constructor
  · intro h
    rcases Prod.Lex.lt_iff.mp h with hlt | ⟨-, hlt⟩
    · exact hlt
    · exact absurd hlt (Nat.not_lt_zero _)
  · exact fun h => Prod.Lex.lt_iff.mpr (Or.inl h)

end TimerEntry

namespace TimerQueue

variable {q q' : TimerQueue} {out : List TimerEntry}

/-- All entries: those of the set, and those that were taken out. -/
def entries (q : TimerQueue) (out : List TimerEntry) : List TimerEntry := q.timers.toList ++ out

/-- The invariant of the queue while some entries are out. -/
structure Keyed (q : TimerQueue) (out : List TimerEntry) : Prop where
  key : ∀ e ∈ q.entries out, e.first = (q.timer e.second).expiration
  nodup : ((q.entries out).map TimerEntry.second).Nodup

/-- The timers are the same up to their expirations. -/
def SameTimers (q q' : TimerQueue) : Prop :=
  ∀ ptr, ∃ t, q'.timer ptr = { q.timer ptr with expiration := t }

theorem SameTimers.refl (q : TimerQueue) : SameTimers q q := fun _ => ⟨_, rfl⟩

theorem SameTimers.trans {q'' : TimerQueue} (h : SameTimers q q') (h' : SameTimers q' q'') :
    SameTimers q q'' := by
  intro ptr
  obtain ⟨t, ht⟩ := h ptr
  obtain ⟨t', ht'⟩ := h' ptr
  exact ⟨t', by rw [ht', ht]⟩

namespace Keyed

/-- Fewer entries out. -/
theorem of_subset (h : q.Keyed out) {out' : List TimerEntry} (hsub : out'.Sublist out) :
    q.Keyed out' where
  key e he := h.key e (((List.Sublist.refl _).append hsub).subset he)
  nodup := h.nodup.sublist (((List.Sublist.refl _).append hsub).map _)

/-- A write to a timer without entries. -/
theorem setTimer (h : q.Keyed out) {ptr : TimerPtr}
    (hfree : ∀ e ∈ q.entries out, e.second ≠ ptr) (timer : Timer) :
    (q.setTimer ptr timer).Keyed out where
  key e he := by
    have hne := hfree e he
    show e.first = (Function.update q.timer ptr timer e.second).expiration
    rw [Function.update_of_ne hne]
    exact h.key e he
  nodup := h.nodup

end Keyed

/-! ### `insert` -/

/-- Ahead of the first entry is ahead of all entries. -/
theorem all_begin?_iff (q : TimerQueue) (when : Timestamp) :
    (q.timers.begin?.all fun it => when < it.first) = true ↔
      ∀ e ∈ q.timers.toList, when < e.first := by
  cases hbegin : q.timers.begin? with
  | none =>
      rw [OrderedSet.begin?_eq_none] at hbegin
      simp [hbegin]
  | some it =>
      have hmem := OrderedSet.mem_of_begin? hbegin
      constructor
      · intro hfirst e he
        have hle := TimerEntry.first_le (OrderedSet.le_of_begin? hbegin he)
        have hlt : when < it.first := by simpa using hfirst
        exact lt_of_lt_of_le hlt hle
      · intro hall
        simpa using hall it hmem

/-- A timer without an entry gets one, under its current expiration. `insert` reports
whether it is now ahead of all others. -/
theorem insert_spec (h : q.Keyed out) {ptr : TimerPtr}
    (hfree : ∀ e ∈ q.entries out, e.second ≠ ptr) :
    ∃ timers earliestChanged,
      q.insert ptr = some ({ q with timers }, earliestChanged) ∧
      timers.toList.Perm (toLex ((q.timer ptr).expiration, ptr) :: q.timers.toList) ∧
      (earliestChanged = true ↔ ∀ e ∈ q.timers.toList, (q.timer ptr).expiration < e.first) ∧
      ({ q with timers } : TimerQueue).Keyed out := by
  have hnew : toLex ((q.timer ptr).expiration, ptr) ∉ q.timers.toList := by
    intro hmem
    exact hfree _ (List.mem_append_left out hmem) rfl
  have hperm := OrderedSet.perm_insert hnew
  have hok := (OrderedSet.insert_snd q.timers _).mpr hnew
  refine ⟨(q.timers.insert (toLex ((q.timer ptr).expiration, ptr))).1,
    q.timers.begin?.all fun it => (q.timer ptr).expiration < it.first, ?_, hperm,
    q.all_begin?_iff _, ?_⟩
  · rw [TimerQueue.insert]
    exact assert_bind_pos hok _
  · have hall : ((q.timers.insert (toLex ((q.timer ptr).expiration, ptr))).1.toList ++ out).Perm
        (toLex ((q.timer ptr).expiration, ptr) :: q.entries out) := hperm.append_right out
    refine ⟨fun e he => ?_, ?_⟩
    · rcases List.mem_cons.mp (hall.mem_iff.mp he) with rfl | hold
      · rfl
      · exact h.key e hold
    · refine (hall.map TimerEntry.second).nodup_iff.mpr (List.nodup_cons.mpr ⟨?_, h.nodup⟩)
      intro hmem
      obtain ⟨e, he, hptr⟩ := List.mem_map.mp hmem
      exact hfree e he hptr

/-- `addTimerInLoop` of a timer without entries gives it one, and arms the timerfd for it if it
is ahead of all others. -/
theorem addTimerInLoop_spec (h : q.Keyed out) {ptr : TimerPtr}
    (hfree : ∀ e ∈ q.entries out, e.second ≠ ptr) (clock : Timestamp) :
    ∃ q', q.addTimerInLoop ptr clock = some q' ∧ q'.timer = q.timer ∧ q'.Keyed out ∧
      q'.timers.toList.Perm (toLex ((q.timer ptr).expiration, ptr) :: q.timers.toList) ∧
      q'.timerfd = if ∀ e ∈ q.timers.toList, (q.timer ptr).expiration < e.first then
        { armed := some (q.timer ptr).expiration, readable := false } else q.timerfd := by
  obtain ⟨timers, changed, hinsert, hperm, hchanged, hkeyed⟩ := insert_spec h hfree
  rw [addTimerInLoop, hinsert]
  cases changed with
  | true =>
      refine ⟨_, rfl, rfl, ⟨hkeyed.key, hkeyed.nodup⟩, hperm, ?_⟩
      rw [if_pos (hchanged.mp rfl)]
      exact TimerFd.resetTimerfd_eq _ _
  | false =>
      refine ⟨_, rfl, rfl, hkeyed, hperm, ?_⟩
      rw [if_neg fun hfirst => Bool.false_ne_true (hchanged.mpr hfirst)]

/-! ### `getExpired` -/

/-- What is taken out expired before `now`. -/
theorem getExpired_taken {now : Timestamp} {expired : List TimerEntry}
    (hcall : q.getExpired now = some (expired, q')) :
    expired = q.timers.toList.filter (fun e => e.first < now) := by
  obtain ⟨-, hcall⟩ := assert_bind_eq_some_iff.mp hcall
  obtain ⟨rfl, rfl⟩ := Prod.mk.inj (Option.some.inj hcall)
  rw [OrderedSet.takeBelow_eq_filter]
  exact List.filter_congr fun e _ => by simp [TimerEntry.lt_sentry_iff]

/-- What stays did not. -/
theorem getExpired_left {now : Timestamp} {expired : List TimerEntry}
    (hcall : q.getExpired now = some (expired, q')) (e : TimerEntry) :
    e ∈ q'.timers.toList ↔ e ∈ q.timers.toList ∧ now ≤ e.first := by
  obtain ⟨-, hcall⟩ := assert_bind_eq_some_iff.mp hcall
  obtain ⟨rfl, rfl⟩ := Prod.mk.inj (Option.some.inj hcall)
  rw [OrderedSet.mem_eraseBelow, ← not_lt, TimerEntry.lt_sentry_iff, not_lt]

/-- What is taken out expired before `now`, in order, and what stays did not. The
assertion asks that no entry expires at `now`. -/
theorem getExpired_spec (h : q.Keyed []) {now : Timestamp} {expired : List TimerEntry}
    (hcall : q.getExpired now = some (expired, q')) :
    q'.timer = q.timer ∧ q'.timerfd = q.timerfd ∧
      expired ++ q'.timers.toList = q.timers.toList ∧
      expired = q.timers.toList.filter (fun e => e.first < now) ∧
      (∀ e ∈ q'.timers.toList, now ≤ e.first) ∧ q'.Keyed expired := by
  have htaken := getExpired_taken hcall
  have hleft := getExpired_left hcall
  obtain ⟨-, hcall⟩ := assert_bind_eq_some_iff.mp hcall
  obtain ⟨rfl, rfl⟩ := Prod.mk.inj (Option.some.inj hcall)
  have hsplit := OrderedSet.takeBelow_append_eraseBelow q.timers (toLex (now, 0))
  refine ⟨rfl, rfl, hsplit, htaken, fun e he => ((hleft e).mp he).2, ?_, ?_⟩
  · intro e he
    refine h.key e ?_
    rw [entries, List.append_nil, ← hsplit]
    exact List.mem_append.mpr (List.mem_append.mp he).symm
  · have hnodup := h.nodup
    rw [entries, List.append_nil, ← hsplit] at hnodup
    exact (List.perm_append_comm.map _).nodup_iff.mpr hnodup

/-- Without an entry at `now` the assertion holds. -/
theorem getExpired_isSome (q : TimerQueue) {now : Timestamp}
    (hnow : ∀ e ∈ q.timers.toList, e.first ≠ now) : (q.getExpired now).isSome := by
  have hassert : ∀ it ∈ (q.timers.eraseBelow (toLex (now, 0))).begin?, now < it.first := by
    intro it hit
    obtain ⟨hmem, hle⟩ := OrderedSet.mem_eraseBelow.mp (OrderedSet.mem_of_begin? hit)
    exact lt_of_le_of_ne (TimerEntry.first_le hle) (Ne.symm (hnow it hmem))
  rw [getExpired, assert_bind_pos hassert]
  rfl

/-- What `getExpired` is for: it hands out the timers that are due at `now`, in order and once
each, and leaves the others in the set. -/
structure SplitsAt (q : TimerQueue) (now : Timestamp) (expired : List TimerEntry)
    (q' : TimerQueue) : Prop where
  ascending : expired.Pairwise (· < ·)
  due : ∀ e, e ∈ expired ↔ e ∈ q.timers.toList ∧ e.first ≤ now
  kept : ∀ e, e ∈ q'.timers.toList ↔ e ∈ q.timers.toList ∧ now < e.first

/-- `getExpired` returns and splits the set at `now` exactly when no timer expires at `now`.
The null pointer of the sentry is below every other pointer, so the entries at `now` lie behind
the sentry: they stay in the set, and the first of them fails the assertion. -/
theorem getExpired_splits_iff (q : TimerQueue) (now : Timestamp) :
    (∃ expired q', q.getExpired now = some (expired, q') ∧ q.SplitsAt now expired q') ↔
      ∀ e ∈ q.timers.toList, e.first ≠ now := by
  constructor
  · rintro ⟨expired, q', hcall, hsplit⟩ e he hnow
    have hout : e ∈ expired := (hsplit.due e).mpr ⟨he, le_of_eq hnow⟩
    rw [getExpired_taken hcall, List.mem_filter] at hout
    have hlt : e.first < now := by simpa using hout.2
    exact absurd hnow (ne_of_lt hlt)
  · intro hnow
    obtain ⟨⟨expired, q'⟩, hcall⟩ := Option.isSome_iff_exists.mp (getExpired_isSome q hnow)
    refine ⟨expired, q', hcall, ?_, ?_, ?_⟩
    · rw [getExpired_taken hcall]
      exact q.timers.sorted.filter _
    · intro e
      rw [getExpired_taken hcall, List.mem_filter, decide_eq_true_eq]
      -- Before `now` or at `now` is before `now`: no entry is at `now`.
      exact and_congr_right fun he => (hnow e he).le_iff_lt.symm
    · intro e
      rw [getExpired_left hcall]
      exact and_congr_right fun he => (hnow e he).symm.le_iff_lt

/-- Two timers, one of which expires at `now`: the assertion fails. -/
theorem getExpired_fails_at_now :
    ¬ ∀ (q : TimerQueue) (now : Timestamp), (∀ e ∈ q.timers.toList, e.second ≠ 0) →
      ∃ expired q', q.getExpired now = some (expired, q') ∧ q.SplitsAt now expired q' := by
  intro hall
  let q : TimerQueue :=
    { timer := fun _ => { expiration := 100, delta := 0, repeats := false, serial := 0 }
      timers := { toList := [toLex (99, 7), toLex (100, 5)], sorted := by decide }
      timerfd := { armed := none, readable := true } }
  obtain ⟨expired, q', hcall, -⟩ := hall q 100 (by decide)
  have hdies : q.getExpired 100 = none := rfl
  rw [hdies] at hcall
  cases hcall

/-! ### `reset` -/

/-- The entry of a repeating timer after its restart. -/
def restarted (q : TimerQueue) (now : Timestamp) (e : TimerEntry) : TimerEntry :=
  toLex ((now + (q.timer e.second).delta : Int).bmod (2 ^ 64), e.second)

/-- The sum of `restart` is not smaller than the exact one, as long as that is below `2 ^ 63`.
Behind it the sum wraps to a time long before the epoch. -/
theorem le_restarted {now : Timestamp} {e : TimerEntry}
    (hfits : now + ((q.timer e.second).delta : Int) < 2 ^ 63) :
    now + ((q.timer e.second).delta : Int) ≤ (q.restarted now e).first := by
  have hle : ∀ x : Int, x < 2 ^ 63 → x ≤ x.bmod (2 ^ 64) := by
    intro x hx
    by_cases hlow : -2 ^ 63 ≤ x
    · rw [Int.bmod_eq_of_le (by omega) (by omega)]
    · have hbound : -2 ^ 63 ≤ x.bmod (2 ^ 64) := Int.le_bmod (by decide)
      omega
  exact hle _ hfits

/-- From a time after the epoch on it is exact. -/
theorem restarted_first {now : Timestamp} {e : TimerEntry} (hnow : 0 < now)
    (hfits : now + ((q.timer e.second).delta : Int) < 2 ^ 63) :
    (q.restarted now e).first = now + ((q.timer e.second).delta : Int) := by
  have hexact : ∀ x : Int, 0 < x → x < 2 ^ 63 → x.bmod (2 ^ 64) = x := fun x hlow hhigh =>
    Int.bmod_eq_of_le (by omega) (by omega)
  have hpos : 0 < now + ((q.timer e.second).delta : Int) :=
    lt_of_lt_of_le hnow (Int.le_add_of_nonneg_right (Int.natCast_nonneg _))
  exact hexact _ hpos hfits

theorem restarted_first_lt {now : Timestamp} {e : TimerEntry} :
    (q.restarted now e).first < 2 ^ 63 := by
  have hlt : ∀ x : Int, x.bmod (2 ^ 64) < 2 ^ 63 := fun x => Int.bmod_lt (by decide)
  exact hlt _

/-- The repeating ones of the expired timers. -/
def repeating (q : TimerQueue) (expired : List TimerEntry) : List TimerEntry :=
  expired.filter fun e => (q.timer e.second).repeats

/-- Timers that are the same up to their expirations restart the same. -/
theorem SameTimers.restarted_eq (h : SameTimers q q') (now : Timestamp)
    (expired : List TimerEntry) :
    (q'.repeating expired).map (q'.restarted now)
      = (q.repeating expired).map (q.restarted now) := by
  have hrepeats : ∀ e : TimerEntry, (q'.timer e.second).repeats = (q.timer e.second).repeats := by
    intro e
    obtain ⟨t, ht⟩ := h e.second
    rw [ht]
  have hdelta : ∀ e : TimerEntry, (q'.timer e.second).delta = (q.timer e.second).delta := by
    intro e
    obtain ⟨t, ht⟩ := h e.second
    rw [ht]
  simp only [repeating, hrepeats]
  exact List.map_congr_left fun e _ => by rw [restarted, restarted, hdelta]

/-- The loop of `reset`, by induction on the entries still to do. Each of them is out of the
set, so its timer may change, and after that it may go back in. -/
theorem restartAll_spec (now : Timestamp) (expired : List TimerEntry) :
    ∀ {q : TimerQueue}, q.Keyed expired →
      ∃ q', q.restartAll now expired = some q' ∧ q'.Keyed [] ∧ SameTimers q q' ∧
        q'.timerfd = q.timerfd ∧
        q'.timers.toList.Perm
          ((q.repeating expired).map (q.restarted now) ++ q.timers.toList) := by
  induction expired with
  | nil =>
      intro q h
      exact ⟨q, rfl, h, .refl q, rfl, List.Perm.refl _⟩
  | cons e rest ih =>
      intro q h
      have hrest : q.Keyed rest := h.of_subset (List.sublist_cons_self e rest)
      by_cases hrepeats : (q.timer e.second).repeats = true
      · -- The timer of `e` has no other entry.
        have hfree : ∀ d ∈ q.entries rest, d.second ≠ e.second := by
          have hperm : (q.entries (e :: rest)).Perm (e :: q.entries rest) :=
            List.perm_middle
          have hnodup := (hperm.map TimerEntry.second).nodup_iff.mp h.nodup
          intro d hd heq
          exact (List.nodup_cons.mp hnodup).1 (List.mem_map.mpr ⟨d, hd, heq⟩)
        have hset := hrest.setTimer hfree ((q.timer e.second).restart now)
        have hself : (q.setTimer e.second ((q.timer e.second).restart now)).timer e.second
            = { q.timer e.second with
                expiration := (now + (q.timer e.second).delta : Int).bmod (2 ^ 64) } := by
          rw [TimerQueue.setTimer]
          show Function.update _ _ _ _ = _
          rw [Function.update_self, Timer.restart, if_pos hrepeats]
        obtain ⟨timers, changed, hinsert, hperm, -, hkeyed⟩ := insert_spec hset hfree
        have hsame : SameTimers q { q.setTimer e.second ((q.timer e.second).restart now) with
            timers } := by
          intro ptr
          by_cases hptr : ptr = e.second
          · rw [hptr]
            exact ⟨_, hself⟩
          · exact ⟨_, Function.update_of_ne hptr _ _⟩
        obtain ⟨q', hrun, hkeyed', hsame', hfd, hperm'⟩ := ih hkeyed
        refine ⟨q', ?_, hkeyed', hsame.trans hsame', hfd, ?_⟩
        · rw [restartAll, if_pos hrepeats]
          show ((q.setTimer e.second _).insert e.second >>= _) = _
          rw [hinsert]
          exact hrun
        · rw [hsame.restarted_eq] at hperm'
          have hentry : toLex (((q.setTimer e.second
              ((q.timer e.second).restart now)).timer e.second).expiration, e.second)
              = q.restarted now e := by
            rw [hself]
            rfl
          rw [hentry] at hperm
          have hhead : (q.repeating (e :: rest)).map (q.restarted now)
              = q.restarted now e :: (q.repeating rest).map (q.restarted now) := by
            rw [repeating, List.filter_cons_of_pos (by simpa using hrepeats), List.map_cons]
            rfl
          rw [hhead]
          exact hperm'.trans ((hperm.append_left _).trans List.perm_middle)
      · obtain ⟨q', hrun, hkeyed', hsame', hfd, hperm'⟩ := ih hrest
        refine ⟨q', ?_, hkeyed', hsame', hfd, ?_⟩
        · rw [restartAll, if_neg hrepeats]
          exact hrun
        · rw [repeating, List.filter_cons_of_neg (by simpa using hrepeats)]
          exact hperm'

/-- `reset` puts the repeating timers back and arms the timerfd for the first entry, unless
that is not a valid time. -/
theorem reset_spec {expired : List TimerEntry} (h : q.Keyed expired) (now clock : Timestamp) :
    ∃ q', q.reset expired now clock = some q' ∧ q'.Keyed [] ∧ SameTimers q q' ∧
      q'.timers.toList.Perm
        ((q.repeating expired).map (q.restarted now) ++ q.timers.toList) ∧
      ((∃ b ∈ q'.timers.begin?, 0 < b.first ∧
          q'.timerfd = { armed := some b.first, readable := false }) ∨
        ((∀ b ∈ q'.timers.begin?, b.first ≤ 0) ∧ q'.timerfd = q.timerfd)) := by
  obtain ⟨q₁, hrun, hkeyed, hsame, hfd, hperm⟩ := restartAll_spec now expired h
  cases hbegin : q₁.timers.begin? with
  | none =>
      have hnone : ∀ b ∈ (none : Option TimerEntry), b.first ≤ 0 := by
        intro b hb
        cases hb
      exact ⟨q₁, by simp [reset, hrun, hbegin, Timestamp.valid], hkeyed, hsame, hperm,
        Or.inr ⟨hbegin ▸ hnone, hfd⟩⟩
  | some b =>
      have hkey : (q₁.timer b.second).expiration = b.first :=
        (hkeyed.key b (List.mem_append_left _ (OrderedSet.mem_of_begin? hbegin))).symm
      by_cases hvalid : 0 < b.first
      · exact ⟨{ q₁ with timerfd := .resetTimerfd b.first clock },
          by simp [reset, hrun, hbegin, hkey, Timestamp.valid, hvalid],
          ⟨hkeyed.key, hkeyed.nodup⟩, hsame, hperm,
          Or.inl ⟨b, hbegin, hvalid, TimerFd.resetTimerfd_eq _ _⟩⟩
      · refine ⟨q₁, by simp [reset, hrun, hbegin, hkey, Timestamp.valid, hvalid], hkeyed, hsame,
          hperm, Or.inr ⟨?_, hfd⟩⟩
        rw [hbegin]
        intro b' hb'
        cases hb'
        exact Int.not_lt.mp hvalid

end TimerQueue

end SecondGear
