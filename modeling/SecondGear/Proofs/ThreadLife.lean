import SecondGear.Model.ThreadLife
import SecondGear.Proofs.CountDownLatch

/-!
# `SecondGear.Proofs.ThreadLife`: nothing of a thread is left behind, and nothing is used too late

`start` returns behind the new thread's last use of the `Thread`, so the `Thread` can be destroyed
from then on. The `ThreadData` belongs to the new thread, or to `start` again when there is none.
The handle is given back by `join` or by the destructor.

* `Live`: which `ThreadData` are on the heap, `handleOf`: what has become of the handle.
* `Inv.step`: every step of a proper user returns, and keeps the invariant.
* `thread_life`: what follows for every run.
-/

set_option autoImplicit false

namespace SecondGear

open SecondGear.Lib

namespace ThreadStart

variable {s : ThreadStart} {a : ThreadStartAction}

/-- A step returns, when `start` is not called twice. -/
theorem StartInv.returns (h : s.StartInv) (hlegal : s.Legal a)
    (hproper : a = .start → s.started = false) : ∃ s', s.step a = some s' ∧ s'.StartInv := by
  have hreturns : ∃ s', s.step a = some s' := by
    cases a with
    | start => exact ⟨_, assert_bind_pos (hproper rfl) _⟩
    | create ok => cases ok <;> exact ⟨_, rfl⟩
    | check => exact ⟨_, assert_bind_pos (h.stored (.inl hlegal)).1 _⟩
    | _ => exact ⟨_, rfl⟩
  obtain ⟨s', hstep⟩ := hreturns
  exact ⟨s', hstep, h.step hlegal hstep⟩

end ThreadStart

namespace ThreadLife

variable {s s' : ThreadLife} {a : ThreadLifeAction}

/-- A `ThreadData` is on the heap: the one of `start` in front of `pthread_create`, or the one of
the new thread until it ends. -/
def Live (s : ThreadLife) (i : Nat) : Prop :=
  s.start.starter = .create ∧ i + 1 = s.data.length ∨
    s.start.runInThread ≠ .absent ∧ s.body ≠ .exited ∧ i = s.given

/-- What has become of the handle of a thread that was created. -/
def handleOf (s : ThreadLife) : PthreadHandle :=
  if s.joined = true ∧ s.joining = false then .joined
  else if s.alive = true then .joinable else .detached

/-- What every run of a proper user keeps. -/
structure Inv (s : ThreadLife) : Prop where
  start : s.start.StartInv
  idle : s.start.starter = .outside → s.start.started = false
  dead : s.alive = false → s.start.starter = .outside ∨ s.start.starter = .returned
  joined : s.joined = true → s.start.starter = .returned
  joining : s.joining = true → s.alive = true ∧ s.joined = true
  body : s.body ≠ .func → s.start.runInThread = .run
  calls : s.calls = if s.body = .func then 0 else 1
  handle : s.start.runInThread ≠ .absent → s.handle = s.handleOf
  exited : s.joined = true → s.joining = false → s.body = .exited
  data : ∀ i, s.data[i]? = some true ↔ s.Live i
  allocated : s.start.starter = .create → 0 < s.data.length

theorem new_inv : new.Inv where
  start := ThreadStart.new_startInv
  idle _ := rfl
  dead h := by simp [new] at h
  joined h := by simp [new] at h
  joining h := by simp [new] at h
  body h := by simp [new] at h
  calls := rfl
  handle h := by simp [new, ThreadStart.new] at h
  exited h := by simp [new] at h
  data i := by simp [new, Live, ThreadStart.new]
  allocated h := by cases h

/-- One of the `ThreadData` is deleted. -/
theorem free_spec {data : List Bool} {i : Nat} (h : data[i]? = some true) :
    free data i = some (data.set i false) ∧
      ∀ j, (data.set i false)[j]? = some true ↔ data[j]? = some true ∧ j ≠ i := by
  refine ⟨assert_bind_pos h _, fun j => ?_⟩
  have hlt : i < data.length := (List.getElem?_eq_some_iff.mp h).1
  by_cases heq : j = i
  · subst heq
    simp [hlt]
  · simp [List.getElem?_set_ne (Ne.symm heq), heq]

/-- The user is outside of `start` when there is no thread, and behind it otherwise. -/
theorem Inv.of_idle (h : s.Inv) (hidle : s.Idle) :
    s.start.started = false ∧ s.start.starter = .outside ∧ s.start.runInThread = .absent ∨
      s.start.started = true ∧ s.start.starter = .returned ∧ s.start.runInThread = .run := by
  obtain ⟨-, -, hpc⟩ := hidle
  rcases hpc with hpc | hpc
  · exact .inl ⟨h.idle hpc, hpc, h.start.absent (.inl hpc)⟩
  · exact .inr ⟨h.start.started (by simp [hpc]), hpc, (h.start.stored (.inr hpc)).2⟩

/-- Nobody has joined the thread before `start` returned. -/
theorem Inv.not_joined (h : s.Inv) (hpc : s.start.starter ≠ .returned) : s.joined = false := by
  by_contra hyes
  exact hpc (h.joined (by simpa using hyes))

/-- As long as the new thread uses the `Thread`, it is there. -/
theorem Inv.alive_of_storing (h : s.Inv) (hpc : s.start.runInThread = .storeTid ∨
    s.start.runInThread = .countDown) : s.alive = true := by
  by_contra hdead
  rcases h.dead (by simpa using hdead) with hout | hout
  · have habsent := h.start.absent (.inl hout)
    rcases hpc with hpc | hpc <;> exact absurd (habsent.symm.trans hpc) (by simp)
  · have hrun := (h.start.stored (.inr hout)).2
    rcases hpc with hpc | hpc <;> exact absurd (hrun.symm.trans hpc) (by simp)

/-- A step of `start` or `runInThread` that creates no thread and ends no call of `start`
without one. -/
theorem Inv.step_onStart (h : s.Inv) {b : ThreadStartAction} {start : ThreadStart}
    (hstep : s.start.step b = some start) (hstart : start.StartInv)
    (hidle : start.starter = .outside → start.started = false)
    (hstarter : s.start.starter ≠ .outside ∧ s.start.starter ≠ .returned ∨
      start.starter = s.start.starter)
    (hcreate : start.starter = .create ↔ s.start.starter = .create)
    (hrun : start.runInThread = .absent ↔ s.start.runInThread = .absent)
    (hbody : s.start.runInThread = .run → start.runInThread = .run) :
    s.onStart b = some { s with start } ∧ Inv { s with start } := by
  refine ⟨?_, hstart, hidle, fun hdead => ?_, fun hjoined => ?_, h.joining,
    fun hbody' => hbody (h.body hbody'), h.calls, fun hpc => h.handle (mt hrun.mpr hpc),
    h.exited, fun i => ?_, fun hpc => h.allocated (hcreate.mp hpc)⟩
  · rw [onStart, hstep]
    rfl
  · rcases hstarter with ⟨hout, hreturned⟩ | hsame
    · exact ((h.dead hdead).elim hout hreturned).elim
    · show start.starter = .outside ∨ start.starter = .returned
      rw [hsame]
      exact h.dead hdead
  · rcases hstarter with ⟨-, hreturned⟩ | hsame
    · exact absurd (h.joined hjoined) hreturned
    · exact hsame.trans (h.joined hjoined)
  · show _ ↔ start.starter = .create ∧ _ ∨ start.runInThread ≠ .absent ∧ _
    rw [hcreate, ne_eq, hrun]
    exact h.data i

/-- `start` allocates a `ThreadData`. -/
theorem Inv.step_start (h : s.Inv) (hidle : s.Idle) (hnot : s.start.started = false) :
    ∃ s', s.step .start = some s' ∧ s'.Inv := by
  obtain ⟨-, hstarter, habsent⟩ | ⟨hstarted, -, -⟩ := h.of_idle hidle
  · obtain ⟨start, hstep, hstart⟩ := h.start.returns (a := .start) (.inl hstarter) fun _ => hnot
    obtain rfl := Option.some.inj (hstep.symm.trans (assert_bind_pos hnot _))
    have hnone : ∀ i : Nat, s.data[i]? ≠ some true := by
      intro i hi
      rcases (h.data i).mp hi with ⟨hpc, -⟩ | ⟨hpc, -⟩
      · exact absurd (hstarter.symm.trans hpc) (by simp)
      · exact hpc habsent
    have hjoined := h.not_joined (by simp [hstarter])
    refine ⟨{ s with start := _, data := s.data ++ [true] },
      by rw [step, onStart, hstep]; rfl, hstart, fun hout => ?_, fun hdead => ?_,
      fun hyes => ?_, h.joining, h.body, h.calls, fun hpc => absurd habsent hpc,
      h.exited, fun i => ?_, fun _ => by simp⟩
    · cases hout
    · exact absurd (hidle.1.symm.trans hdead) (by simp)
    · exact absurd (hjoined.symm.trans hyes) (by simp)
    · -- The new one is the last, and the only one.
      have hlast : (s.data ++ [true])[i]? = some true ↔ i = s.data.length := by
        rcases Nat.lt_trichotomy i s.data.length with hlt | heq | hgt
        · rw [List.getElem?_append_left hlt]
          exact iff_of_false (hnone i) (by omega)
        · simp [heq]
        · rw [List.getElem?_eq_none (by simp; omega)]
          exact iff_of_false (by simp) (by omega)
      rw [hlast]
      simp [Live, habsent]
  · exact absurd (hstarted.symm.trans hnot) (by simp)

/-- `pthread_create` succeeds, and the new thread owns the `ThreadData`. -/
theorem Inv.step_created (h : s.Inv) (hlegal : s.start.starter = .create) :
    ∃ s', s.step (.create true) = some s' ∧ s'.Inv := by
  obtain ⟨start, hstep, hstart⟩ := h.start.returns (a := .create true) hlegal (by simp)
  obtain rfl := Option.some.inj hstep
  have habsent := h.start.absent (.inr hlegal)
  have halive : s.alive = true := by
    by_contra hdead
    rcases h.dead (by simpa using hdead) with hout | hout <;>
      exact absurd (hlegal.symm.trans hout) (by simp)
  have hjoined := h.not_joined (by simp [hlegal])
  have hbody : s.body = .func := by
    by_contra hno
    have hrun := h.body hno
    exact absurd (habsent.symm.trans hrun) (by simp)
  have hlength := h.allocated hlegal
  refine ⟨_, rfl, hstart, fun hout => ?_, fun hdead => ?_, fun hyes => ?_, h.joining,
    fun hno => absurd hbody hno, h.calls, fun _ => ?_, h.exited, fun i => ?_, fun hpc => ?_⟩
  · cases hout
  · exact absurd (halive.symm.trans hdead) (by simp)
  · exact absurd (hjoined.symm.trans hyes) (by simp)
  · show PthreadHandle.joinable = if s.joined = true ∧ _ then _ else if s.alive = true then _ else _
    simp [hjoined, halive]
  · -- The last one passes from `start` to the new thread.
    rw [h.data i]
    simp [Live, hlegal, habsent, hbody]
    omega
  · cases hpc

/-- `pthread_create` fails, and `start` deletes what it has allocated. -/
theorem Inv.step_failed (h : s.Inv) (hlegal : s.start.starter = .create) :
    ∃ s', s.step (.create false) = some s' ∧ s'.Inv := by
  obtain ⟨start, hstep, hstart⟩ := h.start.returns (a := .create false) hlegal (by simp)
  obtain rfl := Option.some.inj hstep
  have habsent := h.start.absent (.inr hlegal)
  have hlength := h.allocated hlegal
  have hlast : s.data[s.data.length - 1]? = some true :=
    (h.data _).mpr (.inl ⟨hlegal, by omega⟩)
  obtain ⟨hfree, hleft⟩ := free_spec hlast
  have hjoined := h.not_joined (by simp [hlegal])
  refine ⟨{ s with
      start := { s.start with started := false, starter := .outside }
      data := s.data.set (s.data.length - 1) false }, ?_, hstart, fun _ => rfl, fun _ => .inl rfl,
    fun hyes => ?_, h.joining, h.body, h.calls, fun hpc => absurd habsent hpc, h.exited,
    fun i => ?_, fun hpc => ?_⟩
  · simp [step, onStart, ThreadStart.step, hfree]
  · exact absurd (hjoined.symm.trans hyes) (by simp)
  · rw [hleft i, h.data i]
    simp [Live, hlegal, habsent]
    omega
  · cases hpc

/-- The new thread deletes its `ThreadData`, and ends. -/
theorem Inv.step_deleteData (h : s.Inv) (hlegal : s.body = .delete) :
    ∃ s', s.step .deleteData = some s' ∧ s'.Inv := by
  have hrun := h.body (by simp [hlegal])
  have hstarter : s.start.starter ≠ .create := by
    intro hpc
    have habsent := h.start.absent (.inr hpc)
    exact absurd (habsent.symm.trans hrun) (by simp)
  have hmine : s.data[s.given]? = some true :=
    (h.data _).mpr (.inr ⟨by simp [hrun], by simp [hlegal], rfl⟩)
  obtain ⟨hfree, hleft⟩ := free_spec hmine
  refine ⟨{ s with data := s.data.set s.given false, body := .exited }, ?_, h.start, h.idle,
    h.dead, h.joined, h.joining, fun _ => hrun, ?_, h.handle, fun _ _ => rfl, fun i => ?_,
    fun hpc => absurd hpc hstarter⟩
  · simp [step, hfree]
  · rw [h.calls]
    simp [hlegal]
  · rw [hleft i, h.data i]
    simp [Live, hstarter, hrun, hlegal]

/-- `join`. -/
theorem Inv.step_join (h : s.Inv) (hidle : s.Idle) (hstarted : s.start.started = true)
    (hnot : s.joined = false) : ∃ s', s.step .join = some s' ∧ s'.Inv := by
  obtain ⟨hdown, -, -⟩ | ⟨-, hreturned, -⟩ := h.of_idle hidle
  · exact absurd (hstarted.symm.trans hdown) (by simp)
  · refine ⟨{ s with joined := true, joining := true }, ?_, h.start, h.idle, h.dead,
      fun _ => hreturned, fun _ => ⟨hidle.1, rfl⟩, h.body, h.calls, fun hpc => ?_,
      fun _ hno => absurd hno (by simp), h.data, h.allocated⟩
    · exact (assert_bind_pos hstarted _).trans (assert_bind_pos hnot _)
    · -- The handle is given back when `pthread_join` returns.
      rw [show s.handle = s.handleOf from h.handle hpc]
      simp [handleOf, hnot]

/-- `pthread_join` returns, and gives the handle back. -/
theorem Inv.step_joinReturns (h : s.Inv) (hjoining : s.joining = true)
    (hexited : s.body = .exited) : ∃ s', s.step .joinReturns = some s' ∧ s'.Inv := by
  obtain ⟨halive, hjoined⟩ := h.joining hjoining
  have hrun := h.body (by simp [hexited])
  have hhandle : s.handle = .joinable := by
    rw [h.handle (by simp [hrun]), handleOf, hjoining, halive]
    simp
  refine ⟨{ s with joining := false, handle := .joined }, ?_, h.start, h.idle, h.dead, h.joined,
    fun hno => absurd hno (by simp), h.body, h.calls, fun _ => ?_, fun _ _ => hexited, h.data,
    h.allocated⟩
  · exact assert_bind_pos hhandle _
  · simp [handleOf, hjoined]

/-- The destructor gives the handle back when nobody has joined the thread. -/
theorem Inv.step_destroy (h : s.Inv) (hidle : s.Idle) :
    ∃ s', s.step .destroy = some s' ∧ s'.Inv := by
  obtain ⟨halive, hjoining, hpc⟩ := hidle
  by_cases hdetach : s.start.started = true ∧ s.joined = false
  · have hcreated : s.start.runInThread = .run := by
      obtain ⟨hdown, -, -⟩ | ⟨-, -, hrun⟩ := h.of_idle ⟨halive, hjoining, hpc⟩
      · exact absurd (hdetach.1.symm.trans hdown) (by simp)
      · exact hrun
    have hhandle : s.handle = .joinable := by
      rw [h.handle (by simp [hcreated]), handleOf, hdetach.2, halive]
      simp
    refine ⟨{ s with alive := false, handle := .detached }, ?_, h.start, h.idle, fun _ => hpc,
      h.joined, fun hyes => ?_, h.body, h.calls, fun _ => ?_, h.exited, h.data, h.allocated⟩
    · rw [step, if_pos hdetach]
      exact assert_bind_pos hhandle _
    · exact absurd (hjoining.symm.trans hyes) (by simp)
    · simp [handleOf, hdetach.2]
  · refine ⟨{ s with alive := false }, ?_, h.start, h.idle, fun _ => hpc,
      h.joined, fun hyes => ?_, h.body, h.calls, fun hcreated => ?_, h.exited, h.data,
      h.allocated⟩
    · rw [step, if_neg hdetach]
    · exact absurd (hjoining.symm.trans hyes) (by simp)
    · -- The thread was joined.
      have hjoined : s.joined = true := by
        by_contra hno
        obtain ⟨-, -, habsent⟩ | ⟨hstarted, -, -⟩ := h.of_idle ⟨halive, hjoining, hpc⟩
        · exact hcreated habsent
        · exact hdetach ⟨hstarted, by simpa using hno⟩
      rw [show s.handle = s.handleOf from h.handle hcreated]
      simp [handleOf, hjoined, hjoining]

/-- Every step of a proper user returns, and keeps the invariant. -/
theorem Inv.step (h : s.Inv) (hlegal : s.Legal a) (hproper : s.Proper a) :
    ∃ s', s.step a = some s' ∧ s'.Inv := by
  cases a with
  | start => exact h.step_start hlegal hproper
  | create ok =>
      cases ok with
      | true => exact h.step_created hlegal
      | false => exact h.step_failed hlegal
  | latch b =>
      have hwait : s.start.starter = .wait := hlegal.1
      obtain ⟨start, hstep, hstart⟩ := h.start.returns (a := .latch b) hlegal (by simp)
      obtain rfl := Option.some.inj hstep
      refine ⟨_, h.step_onStart hstep hstart (fun hout => ?_) (.inl ⟨by simp [hwait],
        by simp [hwait]⟩) ?_ Iff.rfl id⟩
      · dsimp only at hout
        split at hout <;> cases hout
      · rw [hwait]
        dsimp only
        split <;> simp
  | check =>
      have hcheck : s.start.starter = .check := hlegal
      obtain ⟨start, hstep, hstart⟩ := h.start.returns (a := .check) hlegal (by simp)
      obtain ⟨-, heq⟩ := assert_bind_eq_some_iff.mp hstep
      obtain rfl := Option.some.inj heq
      exact ⟨_, h.step_onStart hstep hstart (fun hout => by cases hout) (.inl ⟨by simp [hcheck],
        by simp [hcheck]⟩) (by simp [hcheck]) Iff.rfl id⟩
  | storeTid tid =>
      have hpc : s.start.runInThread = .storeTid := hlegal.1
      obtain ⟨start, hstep, hstart⟩ := h.start.returns (a := .storeTid tid) hlegal (by simp)
      obtain rfl := Option.some.inj hstep
      obtain ⟨hreturns, hinv⟩ := h.step_onStart hstep hstart h.idle (.inr rfl) Iff.rfl
        (by simp [hpc]) (fun hrun => absurd (hpc.symm.trans hrun) (by simp))
      refine ⟨_, ?_, hinv⟩
      rw [ThreadLife.step, assert_bind_pos (h.alive_of_storing (.inl hpc)), hreturns]
  | countDown =>
      have hpc : s.start.runInThread = .countDown := hlegal
      obtain ⟨start, hstep, hstart⟩ := h.start.returns (a := .countDown) hlegal (by simp)
      obtain rfl := Option.some.inj hstep
      obtain ⟨hreturns, hinv⟩ := h.step_onStart hstep hstart h.idle (.inr rfl) Iff.rfl
        (by simp [hpc]) (fun _ => rfl)
      refine ⟨_, ?_, hinv⟩
      rw [ThreadLife.step, assert_bind_pos (h.alive_of_storing (.inr hpc)), hreturns]
  | func =>
      obtain ⟨hrun, hbody⟩ := hlegal
      refine ⟨_, rfl, h.start, h.idle, h.dead, h.joined, h.joining, fun _ => hrun, ?_, h.handle,
        fun hjoined hjoining => ?_, fun i => ?_, h.allocated⟩
      · show s.calls + 1 = 1
        rw [h.calls, if_pos hbody]
      · have hexited := h.exited hjoined hjoining
        exact absurd (hbody.symm.trans hexited) (by simp)
      · rw [h.data i]
        simp [Live, hbody]
  | deleteData => exact h.step_deleteData hlegal
  | join => exact h.step_join hlegal hproper.1 hproper.2
  | joinReturns => exact h.step_joinReturns hlegal.1 hlegal.2
  | destroy => exact h.step_destroy hlegal

/-- A `Thread` from its constructor to its destructor, in every interleaving of its user and its
thread, with any `pthread_create` that fails:

- every step of a proper user and of the thread returns: no assertion fails, no `ThreadData` is
  deleted twice, and the thread writes into a `Thread` that is there;
- the function is called once at most, and `join` returns behind its call;
- when the `Thread` is destroyed and the thread has ended, or was never created, every
  `ThreadData` is deleted and the handle was given back, by `join` or by the destructor. -/
theorem thread_life (as : List ThreadLifeAction) (s : ThreadLife)
    (hrun : (threadLifeMachine.restrict Proper).Run new as s) :
    (∀ a, s.Legal a → s.Proper a → (s.step a).isSome = true) ∧
    s.calls ≤ 1 ∧
    (s.joined = true → s.joining = false → s.calls = 1) ∧
    (s.alive = false → s.start.runInThread = .absent ∨ s.body = .exited →
      (∀ i : Nat, s.data[i]? ≠ some true) ∧
      (s.start.runInThread ≠ .absent →
        s.handle = if s.joined then .joined else .detached)) := by
  have h : s.Inv := by
    refine hrun.invariant new_inv ?_
    intro s a s' h hlegal hstep
    obtain ⟨t, ht, hinv⟩ := h.step hlegal.1 hlegal.2
    exact Option.some.inj (ht.symm.trans hstep) ▸ hinv
  refine ⟨fun a hlegal hproper => ?_, ?_, fun hjoined hjoining => ?_, fun hdead hend => ⟨?_, ?_⟩⟩
  · obtain ⟨t, ht, -⟩ := h.step hlegal hproper
    rw [ht]
    rfl
  · rw [h.calls]
    split <;> omega
  · rw [h.calls, h.exited hjoined hjoining]
    rfl
  · intro i hi
    rcases (h.data i).mp hi with ⟨hpc, -⟩ | ⟨hcreated, hbody, -⟩
    · rcases h.dead hdead with hout | hout <;> exact absurd (hpc.symm.trans hout) (by simp)
    · rcases hend with habsent | hexited
      · exact hcreated habsent
      · exact hbody hexited
  · intro hcreated
    have hjoining : s.joining = false := by
      by_contra hyes
      have halive := (h.joining (by simpa using hyes)).1
      exact absurd (halive.symm.trans hdead) (by simp)
    rw [h.handle hcreated, handleOf, hjoining, hdead]
    cases s.joined <;> rfl

/-- The user destroys the `Thread` in front of the call of its function. -/
theorem thread_life_detached : ∃ s : ThreadLife, s.alive = false ∧ s.calls = 1 ∧
    s.data = [false, false] ∧ s.handle = .detached := by
  obtain ⟨s, hrun, halive, hcalls, hdata, hbody, hjoined, hcreated⟩ :=
    Machine.exists_run (M := threadLifeMachine.restrict Proper)
    (P := fun s => s.alive = false ∧ s.calls = 1 ∧ s.data = [false, false] ∧ s.body = .exited ∧
      s.joined = false ∧ s.start.runInThread ≠ .absent) new
    [.start, .create false, .start, .create true, .latch (.test 0), .storeTid 7, .countDown,
      .latch (.test 0), .check, .destroy, .func, .deleteData] (by decide +kernel)
  obtain ⟨-, hhandle⟩ := (thread_life _ s hrun).2.2.2 halive (.inr hbody)
  refine ⟨s, halive, hcalls, hdata, ?_⟩
  rw [hhandle hcreated, hjoined]
  rfl

end ThreadLife

end SecondGear
