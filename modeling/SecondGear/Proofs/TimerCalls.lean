import SecondGear.Proofs.TimerRuns

/-!
# `SecondGear.Proofs.TimerCalls`: which timers run, when, and how often

A `handleRead` is followed with `Batch`: the part of the expired vector in front of the
iterator is what it has called. The calls of one timer are read off `TimerRun.Inv`.

* `handleRead_calls`: a whole `handleRead` calls what had expired at its start, in order.
* `OnceInOrder`: the keys are current, no timer has two entries, no assertion fails, each
  `handleRead` runs what had expired at its start, one-shot timers run at most once, and
  repeating ones stay and keep their distance.
* `timers_run_once_in_order`: so it is in every run in which no entry expires exactly at the `now`
  of a `handleRead`, and no sum in `restart` overflows.
* `not_timers_run_once_in_order`: with a sum that overflows, the repeating timer has expired again
  at once.
-/

set_option autoImplicit false

namespace SecondGear

open SecondGear.Lib

/-- The actions between the start of `handleRead` and its end: those of the callbacks and of
the kernel, and the calls. -/
def TimerAction.isInside : TimerAction → Bool
  | .handleRead _ | .reset _ => false
  | .addTimer _ _ _ _ _ | .expire | .run => true

namespace TimerRun

variable {s s' : TimerRun}

/-- The timers of the set that expired before `now`. -/
def expiredAt (s : TimerRun) (now : Timestamp) : List TimerEntry :=
  s.queue.timers.toList.filter fun e => (s.queue.timer e.second).expiration < now

/-- The call of an entry's timer. -/
def callAt (s : TimerRun) (now : Timestamp) (e : TimerEntry) : TimerCall where
  serial := s.queue.serialOf e
  now := now

/-- The calls of one timer. -/
def callsOf (s : TimerRun) (n : Nat) : List TimerCall := s.calls.filter (·.serial = n)

/-! ### One `handleRead` -/

/-- How far the `handleRead` that started in `s₀` came: it took out `batch`, and it called
the part in front of the iterator. -/
structure Batch (s₀ : TimerRun) (now : Timestamp) (batch : List TimerEntry) (s : TimerRun) :
    Prop where
  progress : ∃ done rest, s.phase = .running done rest now ∧ done ++ rest = batch ∧
    s.calls = s₀.calls ++ done.map (s₀.callAt now)
  serial : ∀ e ∈ batch, s.queue.serialOf e = s₀.queue.serialOf e

/-- A callback, the kernel or the next call. -/
theorem Batch.step {s₀ : TimerRun} {now : Timestamp} {batch : List TimerEntry}
    (hb : Batch s₀ now batch s) (hinv : s.Inv) {a : TimerAction} (hinside : a.isInside)
    (hlegal : s.Legal a) (hstep : s.step a = some s') : Batch s₀ now batch s' := by
  obtain ⟨done, rest, hphase, hbatch, hcalls⟩ := hb.progress
  cases a with
  | handleRead now => simp [TimerAction.isInside] at hinside
  | reset clock => simp [TimerAction.isInside] at hinside
  | expire =>
      cases hstep
      exact ⟨⟨done, rest, hphase, hbatch, hcalls⟩, hb.serial⟩
  | addTimer ptr expiration repeats delta clock =>
      obtain ⟨s₁, hs₁, -, hphase', hcalls', -, hserial, -⟩ := addTimer_spec hinv hlegal.2
      rw [hstep, Option.some.injEq] at hs₁
      rw [← hs₁] at hphase' hcalls' hserial
      refine ⟨⟨done, rest, hphase'.trans hphase, hbatch, hcalls'.trans hcalls⟩, ?_⟩
      intro e he
      -- The new timer is none of the batch.
      have hmem : e ∈ s.entries := by
        refine List.mem_append_right _ ?_
        rw [hphase]
        show e ∈ done ++ rest
        rw [hbatch]
        exact he
      rw [hserial e hmem]
      exact hb.serial e he
  | run =>
      cases rest with
      | nil => simp [Legal, hphase, TimerPhase.hasNext] at hlegal
      | cons it rest =>
          obtain ⟨s₁, hs₁, hphase', hqueue, -, hcalls', -⟩ := run_spec hinv hphase
          rw [hstep, Option.some.injEq] at hs₁
          rw [← hs₁] at hphase' hqueue hcalls'
          have hit : it ∈ batch := by simp [← hbatch]
          have hcall : s.queue.serialOf it = s₀.queue.serialOf it := hb.serial it hit
          refine ⟨⟨done ++ [it], rest, hphase', by simpa using hbatch, ?_⟩, ?_⟩
          · rw [hcalls', hcalls, hcall, List.map_append, List.append_assoc]
            rfl
          · rw [hqueue]
            exact hb.serial

/-- Nothing is restarted inside. -/
theorem restartsFit_of_inside {a : TimerAction} (hinside : a.isInside) : s.RestartsFit a := by
  cases a with
  | reset clock => simp [TimerAction.isInside] at hinside
  | _ => trivial

/-- All that happens between the start of `handleRead` and its end, by induction on it. -/
theorem Batch.of_run {s₀ : TimerRun} {now : Timestamp} {batch : List TimerEntry}
    (hb : Batch s₀ now batch s) (hinv : s.Inv) {body : List TimerAction}
    (hinside : ∀ a ∈ body, a.isInside) (hrun : timerMachine.Run s body s') :
    Batch s₀ now batch s' ∧ s'.Inv := by
  induction hrun with
  | start => exact ⟨hb, hinv⟩
  | @next as t t' a hrun hlegal hstep ih =>
      obtain ⟨hbefore, htinv⟩ := ih fun b hb => hinside b (List.mem_append_left _ hb)
      have ha : a.isInside := hinside a (by simp)
      exact ⟨hbefore.step htinv ha hlegal hstep,
        htinv.step hlegal (restartsFit_of_inside ha) hstep⟩

/-- A whole `handleRead` calls what had expired at its start, each once and in order, and
ends outside. -/
theorem handleRead_calls (hinv : s.Inv) {now clock : Timestamp} {body : List TimerAction}
    (hinside : ∀ a ∈ body, a.isInside)
    (hrun : timerMachine.Run s (.handleRead now :: (body ++ [.reset clock])) s') :
    s'.phase.isIdle ∧ s'.calls = s.calls ++ (s.expiredAt now).map (s.callAt now) := by
  obtain ⟨t, ⟨hlegal, hstart⟩, hrun⟩ := hrun.cons_inv
  obtain ⟨u, hbody, hend, hreset⟩ := hrun.snoc_inv
  obtain ⟨expired, hphase, hfilter, htimer, -, hcalls, -, -, htinv⟩ :=
    handleRead_spec hinv hlegal.2 hstart
  have hexpired : expired = s.expiredAt now := by
    rw [hfilter, expiredAt]
    refine List.filter_congr fun e he => ?_
    rw [hinv.keyed.key e (List.mem_append_left _ he)]
  -- The body advances the batch, whatever else it adds.
  have hb : Batch s now expired t := by
    refine ⟨⟨[], expired, hphase, rfl, by simpa using hcalls⟩, ?_⟩
    intro e he
    rw [TimerQueue.serialOf, htimer]
    rfl
  obtain ⟨hb', huinv⟩ := hb.of_run htinv hinside hbody
  obtain ⟨done, rest, hphase', hbatch, hcalls'⟩ := hb'.progress
  cases rest with
  -- `reset` comes after the last callback
  | cons it rest =>
      have hran : u.phase.allRan = true := hend
      simp [hphase', TimerPhase.allRan] at hran
  | nil =>
      obtain ⟨s₁, hs₁, hidle, -, hsame, -⟩ := reset_spec huinv hphase' clock
      rw [show u.step (.reset clock) = some s' from hreset, Option.some.injEq] at hs₁
      rw [← hs₁] at hidle hsame
      rw [List.append_nil] at hbatch
      rw [hidle, hsame, hcalls', hbatch, hexpired]
      exact ⟨rfl, rfl⟩

/-- What had expired is in order. -/
theorem expiredAt_sorted (s : TimerRun) (now : Timestamp) :
    (s.expiredAt now).Pairwise fun e d => e.first ≤ d.first :=
  (s.queue.timers.sorted.imp fun hlt => TimerEntry.first_le (le_of_lt hlt)).filter _

/-- What had expired are different timers. -/
theorem Inv.expiredAt_serials (h : s.Inv) (now : Timestamp) :
    ((s.expiredAt now).map s.queue.serialOf).Nodup := by
  refine h.serials.sublist (List.Sublist.map _ ?_)
  exact List.filter_sublist.trans (List.sublist_append_left _ _)

/-! ### The calls of one timer -/

/-- The waiting entries are of different timers. -/
theorem Inv.waiting_serials (h : s.Inv) : (s.waiting.map s.queue.serialOf).Nodup := by
  refine h.serials.sublist (List.Sublist.map _ ?_)
  exact (List.Sublist.refl _).append (List.sublist_append_right _ _)

/-- A one-shot timer that was not called waits. -/
theorem Inv.oneShot_waits (h : s.Inv) {n : Nat} {t : Timer} (ht : s.added[n]? = some t)
    (honce : t.repeats = false) (hnone : s.callsOf n = []) :
    (s.waiting.map s.queue.serialOf).count n = 1 := by
  rcases h.located n t ht with ⟨e, he, heq⟩ | ⟨hrep, -⟩ | ⟨-, c, hc, heq⟩
  · exact List.count_eq_one_of_mem h.waiting_serials (List.mem_map.mpr ⟨e, he, heq⟩)
  · rw [honce] at hrep
    cases hrep
  · have hmem : c ∈ s.callsOf n := List.mem_filter.mpr ⟨hc, by simpa using heq⟩
    rw [hnone] at hmem
    cases hmem

/-- A one-shot timer that was called has no entry that waits. -/
theorem Inv.oneShot_gone (h : s.Inv) {n : Nat} {t : Timer} (ht : s.added[n]? = some t)
    (honce : t.repeats = false) (hcalled : s.callsOf n ≠ []) :
    (s.waiting.map s.queue.serialOf).count n = 0 := by
  obtain ⟨c, hc⟩ := List.exists_mem_of_ne_nil _ hcalled
  obtain ⟨hc, hn⟩ := List.mem_filter.mp hc
  have hn : c.serial = n := of_decide_eq_true hn
  refine List.count_eq_zero.mpr fun hmem => ?_
  obtain ⟨e, he, heq⟩ := List.mem_map.mp hmem
  obtain ⟨t', ht', -, hrep⟩ := h.made e (mem_entries_of_waiting he)
  rw [heq, ht, Option.some.injEq] at ht'
  -- a timer that was called and waits repeats
  rw [← ht', honce, (h.waits c hc e he (heq.trans hn.symm)).1] at hrep
  cases hrep

/-- Two calls of one timer: it is a repeating one, and its interval lies between them. -/
theorem Inv.callsOf_spaced (h : s.Inv) {n : Nat} {t : Timer} (ht : s.added[n]? = some t) :
    (s.callsOf n).Pairwise fun c d => t.repeats = true ∧ c.now + (t.delta : Int) ≤ d.now := by
  refine (h.spaced.filter _).imp_of_mem ?_
  intro c d hc hd hcd
  have hcn : c.serial = n := of_decide_eq_true (List.mem_filter.mp hc).2
  have hdn : d.serial = n := of_decide_eq_true (List.mem_filter.mp hd).2
  obtain ⟨t', ht', hrep, hle⟩ := hcd (hcn.trans hdn.symm)
  rw [hcn, ht, Option.some.injEq] at ht'
  exact ht' ▸ ⟨hrep, hle⟩

/-- A one-shot timer is called at most once. -/
theorem Inv.oneShot_once (h : s.Inv) {n : Nat} {t : Timer} (ht : s.added[n]? = some t)
    (honce : t.repeats = false) : (s.callsOf n).length ≤ 1 := by
  have hspaced := h.callsOf_spaced ht
  cases hcalls : s.callsOf n with
  | nil => simp
  | cons c rest =>
      cases rest with
      | nil => simp
      | cons d rest =>
          rw [hcalls] at hspaced
          have hrep : t.repeats = true := (List.rel_of_pairwise_cons hspaced List.mem_cons_self).1
          rw [honce] at hrep
          cases hrep

/-- Outside `handleRead` a repeating timer is in the set. -/
theorem Inv.repeating_waits (h : s.Inv) (hidle : s.phase.isIdle) {n : Nat} {t : Timer}
    (ht : s.added[n]? = some t) (hrep : t.repeats = true) :
    (s.queue.timers.toList.map s.queue.serialOf).count n = 1 := by
  have hphase := TimerPhase.eq_idle hidle
  have hwaiting : s.waiting = s.queue.timers.toList := by
    rw [waiting, hphase]
    exact List.append_nil _
  rw [← hwaiting]
  rcases h.located n t ht with ⟨e, he, heq⟩ | ⟨-, e, he, -⟩ | ⟨honce, -⟩
  · exact List.count_eq_one_of_mem h.waiting_serials (List.mem_map.mpr ⟨e, he, heq⟩)
  · rw [hphase] at he
    cases he
  · rw [hrep] at honce
    cases honce

/-! ### Every run -/

/-- What the timers of a run are promised. -/
structure OnceInOrder (s : TimerRun) : Prop where
  keys : ∀ e ∈ s.queue.timers.toList, e.first = (s.queue.timer e.second).expiration
  single : (s.queue.timers.toList.map TimerEntry.second).Nodup
  /-- no legal step fails an assertion -/
  safe : ∀ a, (timerMachine.restrict NoTie).legal s a → (timerMachine.step s a).isSome
  /-- a whole `handleRead` calls exactly the timers that had expired at its start, each once, in
  order and none that was added since -/
  batch : ∀ now body clock s', (∀ a ∈ body, a.isInside) →
    (timerMachine.restrict NoTie).Run s (.handleRead now :: (body ++ [.reset clock])) s' →
    s'.calls = s.calls ++ (s.expiredAt now).map (s.callAt now) ∧
      (s.expiredAt now).Pairwise (fun e d => e.first ≤ d.first) ∧
      ((s.expiredAt now).map s.queue.serialOf).Nodup ∧
      ∀ e ∈ s.expiredAt now, s.queue.serialOf e < s.added.length
  /-- a one-shot timer is called at most once, and until then it waits in the set, or in the
  vector of the `handleRead` that calls it -/
  oneShot : ∀ n t, s.added[n]? = some t → t.repeats = false →
    (s.callsOf n).length ≤ 1 ∧
      (s.waiting.map s.queue.serialOf).count n = if s.callsOf n = [] then 1 else 0
  /-- a repeating timer has one entry whenever no `handleRead` is in progress, and its calls are
  an interval apart -/
  repeating : ∀ n t, s.added[n]? = some t → t.repeats = true →
    (s.phase.isIdle → (s.queue.timers.toList.map s.queue.serialOf).count n = 1) ∧
      (s.callsOf n).Pairwise fun c d => c.now + (t.delta : Int) ≤ d.now

theorem Inv.onceInOrder (h : s.Inv) : s.OnceInOrder := by
  refine ⟨?keys, ?single, ?safe, ?batch, ?oneShot, ?repeating⟩
  case keys =>
    intro e he
    exact h.keyed.key e (List.mem_append_left _ he)
  case single =>
    exact h.keyed.nodup.sublist ((List.sublist_append_left _ _).map _)
  case safe =>
    intro a hlegal
    exact h.step_isSome hlegal.1 hlegal.2
  case batch =>
    intro now body clock s' hinside hread
    obtain ⟨-, hcalls⟩ := handleRead_calls h hinside hread.of_restrict
    refine ⟨hcalls, s.expiredAt_sorted now, h.expiredAt_serials now, ?_⟩
    intro e he
    exact h.serial_lt (List.mem_append_left _ (List.mem_filter.mp he).1)
  case oneShot =>
    intro n t ht honce
    refine ⟨h.oneShot_once ht honce, ?_⟩
    split
    · exact h.oneShot_waits ht honce ‹_›
    · exact h.oneShot_gone ht honce ‹_›
  case repeating =>
    intro n t ht hrep
    refine ⟨fun hidle => h.repeating_waits hidle ht hrep, ?_⟩
    exact (h.callsOf_spaced ht).imp And.right

/-- In every run without a tie, in which no sum in `restart` overflows, the timers run once and in
order. -/
theorem timers_run_once_in_order (heap : TimerPtr → Timer) {as : List TimerAction} {s : TimerRun}
    (hrun : ((timerMachine.restrict RestartsFit).restrict NoTie).Run (new heap) as s) :
    s.OnceInOrder :=
  ((new_inv heap).of_run hrun.of_restrict).onceInOrder

/-- Two timers expire in one `handleRead`, and the callback of the first, a repeating one,
adds another that has expired as well. -/
theorem timers_run_once_in_order_adding :
    ∃ s : TimerRun, (s.calls = [⟨1, 200⟩, ⟨0, 200⟩] ∧ s.queue.timers.toList.length = 2) ∧
      s.OnceInOrder := by
  obtain ⟨s, hrun, hs⟩ := Machine.exists_run
    (M := (timerMachine.restrict RestartsFit).restrict NoTie)
    (P := fun s : TimerRun =>
      s.calls = [⟨1, 200⟩, ⟨0, 200⟩] ∧ s.queue.timers.toList.length = 2)
    (new fun _ => { expiration := 0, delta := 0, repeats := false, serial := 0 })
    [.addTimer 5 100 false 0 1, .addTimer 3 50 true 10 1, .expire, .handleRead 200, .run,
      .addTimer 7 20 false 0 3, .run, .reset 4]
    (by decide +kernel)
  exact ⟨s, hs, timers_run_once_in_order _ hrun⟩

/-- Not so when a sum overflows. A timer with an interval of 9223372036000 seconds is called in
September 2020, and its callback adds another one, which expires a millisecond later. The new
expiration of the first is long before the epoch, so that both are called then. -/
theorem not_timers_run_once_in_order : ¬ ∀ (heap : TimerPtr → Timer) (as : List TimerAction)
    (s : TimerRun), (timerMachine.restrict NoTie).Run (new heap) as s → s.OnceInOrder := by
  intro hall
  obtain ⟨s, hrun, hadded, hcalls⟩ := Machine.exists_run (M := timerMachine.restrict NoTie)
    (P := fun s : TimerRun =>
      s.added[0]? = some
        { expiration := 1600000000000000, delta := 9223372036000000000, repeats := true,
          serial := 0 } ∧
      s.callsOf 0 = [⟨0, 1600000000000100⟩, ⟨0, 1600000000002000⟩])
    (new fun _ => { expiration := 0, delta := 0, repeats := false, serial := 0 })
    [.addTimer 3 1600000000000000 true 9223372036000000000 1599999999999000, .expire,
      .handleRead 1600000000000100, .run, .addTimer 5 1600000000001100 false 0 1600000000000200,
      .reset 1600000000000300, .expire, .handleRead 1600000000002000, .run]
    (by decide +kernel)
  have hspaced := ((hall _ _ s hrun).repeating 0 _ hadded rfl).2
  rw [hcalls] at hspaced
  simp at hspaced

end TimerRun

end SecondGear
