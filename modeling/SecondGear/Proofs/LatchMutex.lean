import SecondGear.Lib.MonitorProgress
import SecondGear.Lib.Simulation
import SecondGear.Model.LatchMutex
import SecondGear.Proofs.CountDownLatch

/-!
# `SecondGear.Proofs.LatchMutex`: the sections of the latch are atomic

`latchMachine` follows the latch statement by statement. What a section does comes out at one of
its statements: the test that leaves the loop, `cond.wait()`, the decrement. Between the
decrement and the notification the abstract threads are already notified, and the parked ones
will be.

* `Matches`: a state of the latch and the abstract one.
* `latch_simulates`: every statement is a step of `latchMachine`, or none.
* `latch_mutex_refines`: what follows for every run.
-/

set_option autoImplicit false

namespace SecondGear

open SecondGear.Lib

namespace LatchMutex

variable {s s' : Monitor Nat Int Unit} {l : Latch} {n : Int}

/-- Some thread is in front of `notifyAll()`. -/
def Pending (s : Monitor Nat Int Unit) : Prop :=
  (∃ u, s.threads u = .notify) ∧ s.data = 0

/-- Where the abstract thread is. -/
def Place (parked pending : Prop) (pc : LatchPc) : MonitorPc Unit → Prop
  | .outside | .leave | .update _ | .store _ | .notify | .release => pc = .outside
  | .await | .test | .wait => pc.canTest = true
  | .waiting => (¬ parked → pc.canTest = true) ∧
      (parked → (pending → pc = .notified) ∧ (¬ pending → pc = .parked))

/-- A latch and its abstract latch. -/
structure Matches (n : Int) (s : Monitor Nat Int Unit) (l : Latch) : Prop where
  inv : s.Inv
  sound : Monitor.Sound latchCode n s
  count : l.count = s.data
  countDowns : l.countDowns = s.stores.length
  returns : l.returns = s.left
  threads : ∀ t, Place (t ∈ s.parked) (Pending s) (l.threads t) (s.threads t)

theorem matches_start (n : Int) : Matches n (Monitor.start n) (Latch.new n) where
  inv := Monitor.start_inv n
  sound := Monitor.start_sound latchCode n
  count := rfl
  countDowns := rfl
  returns := rfl
  threads _ := rfl

/-- Nobody is in front of the notification, where another thread is inside. -/
theorem not_pending (h : s.Inv) {t : Nat} (hholds : (s.threads t).holds = true)
    (ht : s.threads t ≠ .notify) : ¬ Pending s := by
  rintro ⟨⟨u, hu⟩, -⟩
  obtain rfl := h.holds_inj hholds (u := u) (by rw [hu]; rfl)
  exact ht hu

/-- A thread moves that neither was in front of the notification nor is. -/
theorem pending_setPc {t : Nat} {pc : MonitorPc Unit} (ht : s.threads t ≠ .notify)
    (hpc : pc ≠ .notify) (hthreads : s'.threads = (s.setPc t pc).threads)
    (hdata : s'.data = s.data) : Pending s' ↔ Pending s := by
  rw [Pending, Pending, hdata, hthreads]
  refine and_congr_left fun _ => exists_congr fun u => ?_
  by_cases heq : u = t
  · subst heq
    rw [Monitor.setPc_self]
    exact iff_of_false hpc ht
  · rw [Monitor.setPc_ne s heq]

@[simp] theorem setThread_self (l : Latch) (t : Nat) (pc : LatchPc) :
    (l.setThread t pc).threads t = pc := by
  simp [Latch.setThread]

@[simp] theorem setThread_ne {t u : Nat} (h : u ≠ t) (pc : LatchPc) :
    (l.setThread t pc).threads u = l.threads u := by
  simp [Latch.setThread, h]

/-- The places, when one thread moves on both sides and nobody is parked or notified. -/
theorem place_setPc (h : ∀ u, Place (u ∈ s.parked) (Pending s) (l.threads u) (s.threads u))
    {t : Nat} {pc : MonitorPc Unit} {lpc : LatchPc} (ht : s.threads t ≠ .notify)
    (hpc : pc ≠ .notify) (hthreads : s'.threads = (s.setPc t pc).threads)
    (hdata : s'.data = s.data) (hparked : s'.parked = s.parked)
    (hplace : Place (t ∈ s.parked) (Pending s) lpc pc) (u : Nat) :
    Place (u ∈ s'.parked) (Pending s') ((l.setThread t lpc).threads u) (s'.threads u) := by
  rw [hparked, hthreads, propext (pending_setPc ht hpc hthreads hdata)]
  by_cases heq : u = t
  · subst heq
    simpa using hplace
  · simpa [heq] using h u

/-- The same where the abstract thread stays. -/
theorem place_stay (h : ∀ u, Place (u ∈ s.parked) (Pending s) (l.threads u) (s.threads u))
    {t : Nat} {pc : MonitorPc Unit} (ht : s.threads t ≠ .notify)
    (hpc : pc ≠ .notify) (hthreads : s'.threads = (s.setPc t pc).threads)
    (hdata : s'.data = s.data) (hparked : s'.parked = s.parked)
    (hplace : Place (t ∈ s.parked) (Pending s) (l.threads t) pc) (u : Nat) :
    Place (u ∈ s'.parked) (Pending s') (l.threads u) (s'.threads u) := by
  have hmove := place_setPc h ht hpc hthreads hdata hparked hplace u
  rwa [Latch.setThread, Function.update_eq_self] at hmove

/-- The place of a thread that is known to be somewhere. -/
theorem Matches.place (h : Matches n s l) {t : Nat} {pc : MonitorPc Unit}
    (hpc : s.threads t = pc) : Place (t ∈ s.parked) (Pending s) (l.threads t) pc :=
  hpc ▸ h.threads t

/-- A notification keeps a thread in front of its test there. -/
theorem canTest_notify {pc : LatchPc} (h : pc.canTest = true) : pc.notify.canTest = true := by
  cases pc <;> simp_all [LatchPc.canTest, LatchPc.notify]

/-- `--count` is `countDown` of the abstract latch. -/
theorem matches_store (h : Matches n s l) {t : Nat} {u : Unit} (hpc : s.threads t = .store u)
    {s' : Monitor Nat Int Unit} (hs' : s' = { s.setPc t .notify with
      data := latchCode.store u s.data, stores := s.stores ++ [u] })
    (hinv : s'.Inv) (hsound : Monitor.Sound latchCode n s') : Matches n s' l.countDown := by
  have hnot := not_pending h.inv (t := t) (by rw [hpc]; rfl) (by simp [hpc])
  have hdata : s'.data = (l.count - 1).bmod (2 ^ 32) := by
    rw [hs', h.count]
    rfl
  have hpending : Pending s' ↔ l.countDown.count = 0 := by
    rw [Pending, hdata]
    refine and_iff_right ⟨t, ?_⟩
    rw [hs']
    exact Monitor.setPc_self s t _
  refine ⟨hinv, hsound, hdata.symm, ?_, ?_, fun x => ?_⟩
  · rw [hs']
    simp [Latch.countDown, h.countDowns]
  · rw [hs']
    exact h.returns
  · have hthreads : l.countDown.threads x
        = if l.countDown.count = 0 then (l.threads x).notify else l.threads x := by
      show (if l.countDown.count = 0 then fun t => (l.threads t).notify else l.threads) x = _
      split <;> rfl
    have hparked : s'.parked = s.parked := by rw [hs']; rfl
    rw [hparked, hthreads, propext hpending]
    by_cases heq : x = t
    · -- The thread itself is outside of `wait`.
      subst heq
      have hout : l.threads x = .outside := h.place hpc
      have hnow : s'.threads x = .notify := by
        rw [hs']
        exact Monitor.setPc_self s x _
      rw [hout, hnow]
      show (if l.countDown.count = 0 then LatchPc.outside.notify else .outside) = .outside
      split <;> rfl
    · have hsame : s'.threads x = s.threads x := by
        rw [hs']
        exact Monitor.setPc_ne s heq _
      have hplace := h.threads x
      rw [hsame]
      cases hx : s.threads x with
      | waiting =>
          rw [hx] at hplace
          refine ⟨fun hout => ?_, fun hin => ⟨fun hzero => ?_, fun hzero => ?_⟩⟩
          · split
            · exact canTest_notify (hplace.1 hout)
            · exact hplace.1 hout
          · rw [if_pos hzero, (hplace.2 hin).2 hnot]
            rfl
          · rw [if_neg hzero, (hplace.2 hin).2 hnot]
      | await | test | wait =>
          rw [hx] at hplace
          show LatchPc.canTest _ = true
          split
          · exact canTest_notify hplace
          · exact hplace
      | _ =>
          rw [hx] at hplace
          show _ = LatchPc.outside
          rw [show l.threads x = .outside from hplace]
          split <;> rfl

/-- `notifyAll()`: whoever it wakes has its abstract notification. -/
theorem matches_notify (h : Matches n s l) {t : Nat} {woken : Option Nat}
    (hpc : s.threads t = .notify) {s' : Monitor Nat Int Unit}
    (hs' : s' = { s.setPc t .release with parked := s.notified latchCode woken })
    (hinv : s'.Inv) (hsound : Monitor.Sound latchCode n s') : Matches n s' l := by
  have hdata : s'.data = s.data := by rw [hs']; rfl
  have hnone : ¬ Pending s' := by
    rintro ⟨⟨u, hu⟩, -⟩
    have hbefore : s.threads u = .notify := by
      by_cases heq : u = t
      · exact heq ▸ hpc
      · rw [hs'] at hu
        exact (Monitor.setPc_ne s heq _).symm.trans hu
    -- The thread that notified is the only one inside.
    obtain rfl := h.inv.holds_inj (t := t) (by rw [hpc]; rfl) (u := u) (by rw [hbefore]; rfl)
    rw [hs'] at hu
    exact absurd ((Monitor.setPc_self s u _).symm.trans hu) (by simp)
  refine ⟨hinv, hsound, by rw [hdata, h.count], by rw [hs']; exact h.countDowns,
    by rw [hs']; exact h.returns, fun x => ?_⟩
  by_cases heq : x = t
  · subst heq
    have hnow : s'.threads x = .release := by
      rw [hs']
      exact Monitor.setPc_self s x _
    rw [hnow]
    exact h.place hpc
  · have hsame : s'.threads x = s.threads x := by
      rw [hs']
      exact Monitor.setPc_ne s heq _
    have hplace := h.threads x
    rw [hsame]
    cases hx : s.threads x with
    | waiting =>
        rw [hx] at hplace
        have hparked : s'.parked = if s.data = 0 then [] else s.parked := by
          rw [hs']
          show s.notified latchCode woken = _
          simp [Monitor.notified, latchCode]
        rw [hparked]
        split
        · rename_i hzero
          refine ⟨fun _ => ?_, fun hin => by simp at hin⟩
          by_cases hin : x ∈ s.parked
          · rw [(hplace.2 hin).1 ⟨⟨t, hpc⟩, hzero⟩]
            rfl
          · exact hplace.1 hin
        · rename_i hzero
          refine ⟨hplace.1, fun hin => ⟨fun hyes => absurd hyes hnone, fun _ => ?_⟩⟩
          exact (hplace.2 hin).2 fun hyes => hzero hyes.2
    | _ =>
        rw [hx] at hplace
        exact hplace

/-- A thread parks. -/
theorem place_park (h : ∀ u, Place (u ∈ s.parked) (Pending s) (l.threads u) (s.threads u))
    {t : Nat} (hpc : s.threads t = .wait) (hnot : ¬ Pending s) (u : Nat) :
    Place (u ∈ s.parked ++ [t])
      (Pending { s.setPc t .waiting with holder := none, parked := s.parked ++ [t] })
      ((l.setThread t .parked).threads u) ((s.setPc t .waiting).threads u) := by
  have hpending : Pending { s.setPc t .waiting with holder := none, parked := s.parked ++ [t] }
      ↔ Pending s := pending_setPc (by simp [hpc]) (by simp) rfl rfl
  rw [propext hpending]
  by_cases heq : u = t
  · subst heq
    rw [Monitor.setPc_self, setThread_self]
    exact ⟨fun hout => absurd (List.mem_append_right _ List.mem_cons_self) hout,
      fun _ => ⟨fun hyes => absurd hyes hnot, fun _ => rfl⟩⟩
  · have hin : (u ∈ s.parked ++ [t]) = (u ∈ s.parked) := by simp [heq]
    rw [hin, Monitor.setPc_ne s heq, setThread_ne heq]
    exact h u

/-- Every statement is a step of the abstract latch, or none. -/
theorem matches_step (h : Matches n s l) (hstep : Monitor.Step latchCode s s')
    (hfew : s'.stores ≠ s.stores → s.stores.length + 1 < 2 ^ 31) :
    Matches n s' l ∨ ∃ b, l.Legal b ∧ Matches n s' (l.step b) := by
  have hinv := h.inv.step hstep
  have hsound := h.sound.step h.inv hstep
  cases hstep with
  | @await t hpc =>
      exact .inr ⟨.wait t, h.place hpc, hinv, hsound, h.count, h.countDowns, h.returns,
        place_setPc h.threads (by simp [hpc]) (by simp) rfl rfl rfl rfl⟩
  | @update t u hpc =>
      exact .inl ⟨hinv, hsound, h.count, h.countDowns, h.returns,
        place_stay h.threads (by simp [hpc]) (by simp) rfl rfl rfl (h.place hpc :)⟩
  | @lock t hpc hfree =>
      refine .inl ⟨hinv, hsound, h.count, h.countDowns, h.returns,
        place_stay h.threads ?_ (by simp) rfl rfl rfl ?_⟩
      · rcases hpc with hpc | ⟨hpc, -⟩ <;> simp [hpc]
      · rcases hpc with hpc | ⟨hpc, hout⟩
        · exact (h.place hpc :)
        · exact (h.place hpc).1 hout
  | @block t hpc hblocked =>
      exact .inl ⟨hinv, hsound, h.count, h.countDowns, h.returns,
        place_stay h.threads (by simp [hpc]) (by simp) rfl rfl rfl (h.place hpc :)⟩
  | @pass t hpc hpass =>
      -- The test that leaves the loop.
      have hcount : ¬ l.count > 0 := by
        rw [h.count]
        exact of_decide_eq_false hpass
      refine .inr ⟨.test t, h.place hpc, ?_⟩
      rw [Latch.step, if_neg hcount]
      refine ⟨hinv, hsound, h.count, h.countDowns, ?_,
        place_setPc h.threads (by simp [hpc]) (by simp) rfl rfl rfl rfl⟩
      show l.returns ++ [l.countDowns] = s.left ++ [s.stores.length]
      rw [h.returns, h.countDowns]
  | @park t hpc =>
      -- `cond.wait()`, behind a test that found the count positive
      have hcount : l.count > 0 := by
        rw [h.count]
        exact of_decide_eq_true (h.sound.wait t hpc)
      have hnot := not_pending h.inv (t := t) (by rw [hpc]; rfl) (by simp [hpc])
      refine .inr ⟨.test t, h.place hpc, ?_⟩
      rw [Latch.step, if_pos hcount]
      exact ⟨hinv, hsound, h.count, h.countDowns, h.returns, place_park h.threads hpc hnot⟩
  | @unlock t hpc =>
      refine .inl ⟨hinv, hsound, h.count, h.countDowns, h.returns,
        place_stay h.threads ?_ (by simp) rfl rfl rfl ?_⟩
      · rcases hpc with hpc | hpc <;> simp [hpc]
      · rcases hpc with hpc | hpc <;> exact (h.place hpc :)
  | @lockUpdate t u hpc hfree =>
      exact .inl ⟨hinv, hsound, h.count, h.countDowns, h.returns,
        place_stay h.threads (by simp [hpc]) (by simp) rfl rfl rfl (h.place hpc :)⟩
  | @store t u hpc =>
      refine .inr ⟨.countDown, ?_, matches_store h hpc rfl hinv hsound⟩
      show l.countDowns + 1 < 2 ^ 31
      rw [h.countDowns]
      exact hfew (by simp)
  | @notify t woken hpc hwoken => exact .inl (matches_notify h hpc rfl hinv hsound)
  | @spurious t ht =>
      have hwaiting := h.inv.condition t ht
      have hplace := (h.place hwaiting).2 ht
      have hother : ∀ x, x ≠ t → (x ∈ s.parked.erase t) = (x ∈ s.parked) :=
        fun x hx => propext (List.mem_erase_of_ne hx)
      have hgone : t ∉ s.parked.erase t := h.inv.nodup.not_mem_erase
      by_cases hpending : Pending s
      · -- The abstract thread was notified before.
        refine .inl ⟨hinv, hsound, h.count, h.countDowns, h.returns, fun x => ?_⟩
        show Place (x ∈ s.parked.erase t) (Pending s) (l.threads x) (s.threads x)
        by_cases heq : x = t
        · subst heq
          rw [hwaiting, hplace.1 hpending]
          exact ⟨fun _ => rfl, fun hin => absurd hin hgone⟩
        · rw [hother x heq]
          exact h.threads x
      · refine .inr ⟨.spurious t, hplace.2 hpending, hinv, hsound, h.count, h.countDowns,
          h.returns, fun x => ?_⟩
        show Place (x ∈ s.parked.erase t) (Pending s) ((l.setThread t .test).threads x)
          (s.threads x)
        by_cases heq : x = t
        · subst heq
          rw [hwaiting, setThread_self]
          exact ⟨fun _ => rfl, fun hin => absurd hin hgone⟩
        · rw [hother x heq, setThread_ne heq]
          exact h.threads x

/-- Stores are those of a decrement. -/
theorem few_of_legal {a : MonitorAction Nat Unit} (hfew : FewCountDowns s a)
    (hne : (s.step latchCode a).stores ≠ s.stores) : s.stores.length + 1 < 2 ^ 31 := by
  cases a with
  | next t woken =>
      refine hfew ?_
      rw [Monitor.step, Monitor.next] at hne
      cases hpc : s.threads t with
      | store u => rfl
      | test =>
          rw [hpc] at hne
          dsimp only at hne
          split at hne <;> exact absurd rfl hne
      | _ =>
          rw [hpc] at hne
          exact absurd rfl hne
  | _ => exact absurd rfl hne

/-- `latchMachine` follows the latch. -/
theorem latch_simulates (n : Int) : latchMutexMachine.Simulates latchMachine (Matches n) := by
  refine Machine.Simulates.of_step fun s l a s' h hlegal hstep => ?_
  obtain rfl := Option.some.inj hstep
  refine (matches_step h (Monitor.step_cases hlegal.1) (few_of_legal hlegal.2)).imp_right ?_
  rintro ⟨b, hb, hmatches⟩
  exact ⟨b, _, hb, rfl, hmatches⟩

/-! ### Notifications -/

/-- The values of an `int`. -/
def IsInt (count : Int) : Prop := -2 ^ 31 ≤ count ∧ count < 2 ^ 31

/-- The decrement of an `int`, where it does not come round. -/
theorem store_eq {count : Int} (h : IsInt count) (hlow : -2 ^ 31 < count) :
    latchCode.store () count = count - 1 := by
  obtain ⟨-, hhigh⟩ := h
  exact Int.bmod_eq_of_le (by omega) (by omega)

/-- Where the count comes to zero from above, `countDown` notifies. -/
theorem latchCode_notifying : Monitor.Notifying latchCode IsInt where
  store _ count _ := by
    show IsInt ((count - 1).bmod (2 ^ 32))
    have hlow : -2 ^ 31 ≤ (count - 1).bmod (2 ^ 32) := Int.le_bmod (by decide)
    have hhigh : (count - 1).bmod (2 ^ 32) < 2 ^ 31 := Int.bmod_lt (by decide)
    exact ⟨hlow, hhigh⟩
  notifies _ count hint hblocked hpass := by
    have hpos : count > 0 := of_decide_eq_true hblocked
    have hstore : latchCode.store () count = count - 1 := store_eq hint (by omega)
    rw [hstore] at hpass ⊢
    have hdown : ¬ count - 1 > 0 := of_decide_eq_false hpass
    exact decide_eq_true (by omega)

/-- What every run keeps. -/
theorem covered_of_run {as : List (MonitorAction Nat Unit)} (hn : 0 ≤ n) (hn' : n < 2 ^ 31)
    (hrun : latchMutexMachine.Run (Monitor.start n) as s) : s.Covered latchCode ∧ IsInt s.data := by
  have hinv : s.Inv ∧ Monitor.Sound latchCode n s ∧ s.Covered latchCode ∧ IsInt s.data := by
    refine hrun.invariant (I := fun s => s.Inv ∧ Monitor.Sound latchCode n s ∧
      s.Covered latchCode ∧ IsInt s.data) ⟨Monitor.start_inv n, Monitor.start_sound latchCode n,
        Monitor.start_covered latchCode n, by show -2 ^ 31 ≤ n; omega, hn'⟩ ?_
    rintro s a s' ⟨hinv, hsound, hcovered, hint⟩ hlegal hstep
    obtain rfl := Option.some.inj hstep
    have hcases := Monitor.step_cases (c := latchCode) hlegal.1
    refine ⟨hinv.step hcases, hsound.step hinv hcases, ?_, ?_⟩
    · exact hcovered.step (w := 0) hinv hsound latchCode_notifying hint (.inl rfl) hcases
    · exact latchCode_notifying.data_step hint hcases
  exact hinv.2.2

/-- The latch, statement by statement, in every interleaving of any number of threads:

- its runs are runs of `latchMachine`, with the same count, the same decrements and the same
  returns;
- one thread at most is between `lock` and `unlock`;
- no `wait` leaves its loop before the count was decremented `n` times;
- at a count of zero or less nobody is parked, unless a thread is between the decrement and the
  notification;
- and whoever is in `wait` then can return. -/
theorem latch_mutex_refines (n : Int) (hn : 0 ≤ n) (hn' : n < 2 ^ 31)
    (as : List (MonitorAction Nat Unit)) (s : Monitor Nat Int Unit)
    (hrun : latchMutexMachine.Run (Monitor.start n) as s) :
    (∃ bs l, latchMachine.Run (Latch.new n) bs l ∧ Matches n s l) ∧
    (∀ t u, (s.threads t).holds = true → (s.threads u).holds = true → u = t) ∧
    (∀ k ∈ s.left, n ≤ k) ∧
    (s.data ≤ 0 → (∀ t, s.threads t ≠ .notify) → s.parked = []) ∧
    (s.data ≤ 0 → ∀ t, (s.threads t).inAwait = true →
      ∃ bs s', (monitorMachine latchCode).Run s bs s' ∧ s'.threads t = .outside) := by
  obtain ⟨bs, l, hlatch, h⟩ := (latch_simulates n).run (matches_start n) hrun
  obtain ⟨hcovered, hint⟩ := covered_of_run hn hn' hrun
  have hl : l.Inv n := by
    refine hlatch.invariant (I := fun l => l.Inv n) (Latch.new_inv n) ?_
    intro l a l' hl hlegal hstep
    exact Option.some.inj hstep ▸ hl.step hn hn' hlegal
  have hpass : s.data ≤ 0 → latchCode.blocked s.data = false :=
    fun hdown => decide_eq_false (by omega)
  refine ⟨⟨bs, l, hlatch, h⟩, fun t u => h.inv.holds_inj, fun k hk => ?_, fun hdown hnot => ?_,
    fun hdown t ht => ?_⟩
  · rw [← h.returns] at hk
    exact hl.returns k hk
  · exact (hcovered (hpass hdown)).resolve_right fun ⟨t, ht, _⟩ => hnot t ht
  · refine Monitor.leads_outside (w := t) latchCode_notifying s ⟨h.inv, h.sound, hcovered, hint,
      .inl rfl, hpass hdown, fun u v hv => ?_, .inl ht⟩
    -- The count was decremented too rarely to come round.
    have hcount := hl.count
    have hfew := hl.countDowns
    rw [h.count] at hcount
    rw [store_eq hint (by omega)]
    exact decide_eq_false (by omega)

/-- Thread 0 waits for one decrement, and thread 1 has just notified it. -/
theorem latch_mutex_refines_notified :
    ∃ s : Monitor Nat Int Unit, s.threads 0 = .waiting ∧ s.threads 1 = .release ∧
      (∃ bs l, latchMachine.Run (Latch.new 1) bs l ∧ Matches 1 s l) ∧
      ∃ bs s', (monitorMachine latchCode).Run s bs s' ∧ s'.threads 0 = .outside := by
  obtain ⟨s, hrun, hzero, hone, hdata⟩ := Machine.exists_run (M := latchMutexMachine)
    (P := fun s => s.threads 0 = .waiting ∧ s.threads 1 = .release ∧ s.data = 0)
    (Monitor.start 1)
    [.await 0, .next 0 none, .next 0 none, .next 0 none, .update 1 (), .next 1 none,
      .next 1 none, .next 1 (some 0)] (by decide +kernel)
  obtain ⟨hmatches, -, -, -, hleads⟩ :=
    latch_mutex_refines 1 (by decide) (by decide) _ s hrun
  refine ⟨s, hzero, hone, hmatches, hleads (by omega) 0 ?_⟩
  rw [hzero]
  rfl

end LatchMutex

end SecondGear
