import SecondGear.Lib.MonitorProgress
import SecondGear.Lib.Simulation
import SecondGear.Model.StartLoop
import SecondGear.Proofs.EventLoopThread

/-!
# `SecondGear.Proofs.StartLoop`: the pointer is there

`loop_` is set once, under the mutex and with a notification behind it, and only the owner waits
for it. So `startLoop` comes out of its loop with the pointer, and cannot be forgotten in it.

* `Startup`: until the pointer is set, the thread of the loop is in front of that.
* `Inv`: what every run keeps.
* `startLoop_simulates`: `eventLoopThreadMachine` follows, where `startLoop` has the pointer when
  it returns.
* `startLoop_refines`: what follows for every run.
-/

set_option autoImplicit false

namespace SecondGear

open SecondGear.Lib

/-! ### The thread of the loop -/

namespace LoopThread

variable {F : Type} {s s' : LoopThread F} {a : LoopThreadAction F}

/-- In front of `loop_ = &loop`. -/
def AtStart (s : LoopThread F) : Prop := s.pc = .construct ∨ s.pc = .publish

/-- Until the pointer is set, the thread of the loop is in front of that, and in no call. So what
this thread itself calls comes behind the pointer. -/
structure Startup (s : LoopThread F) : Prop where
  unpublished : s.published = false → s.AtStart ∧ s.calls .loop = none
  published : s.published = true → ¬ s.AtStart

/-- At the start the thread has the loop still to construct. -/
theorem start_startup : (start : LoopThread F).Startup where
  unpublished _ := ⟨.inl rfl, rfl⟩
  published h := by cases h

/-- The test of the model, as a place. -/
theorem atPublish_iff {pc : LoopThreadPc F} : pc.atPublish = true ↔ pc = .publish := by
  cases pc <;> simp [LoopThreadPc.atPublish]

/-- The steps of other threads leave the thread of the loop where it is. They push functors and set
`quit_`, and neither moves it. -/
theorem keeps_of_not_own (hown : ¬ StartLoop.Own a) (hstep : s.step a = some s') :
    s'.pc = s.pc ∧ s'.calls .loop = s.calls .loop ∧ s'.published = s.published := by
  cases a with
  | advance => exact absurd trivial hown
  | handleRead => exact absurd trivial hown
  | loop t =>
      obtain ⟨-, rfl, -⟩ := loop_spec hstep
      exact absurd rfl hown
  | queueInLoop t f =>
      cases hstep
      exact ⟨rfl, Function.update_of_ne (Ne.symm hown) _ _, rfl⟩
  | quit t =>
      cases hstep
      exact ⟨rfl, Function.update_of_ne (Ne.symm hown) _ _, rfl⟩
  | finish t =>
      refine ⟨(sameQueue_finish hstep).pc, ?_, ?_⟩
      · rw [calls_finish hstep, Function.update_of_ne (Ne.symm hown)]
      · exact (finish_keeps hstep).2.1
  | startLoop =>
      cases hstep
      exact ⟨rfl, rfl, rfl⟩

/-- Behind the start the pointer stays as it is, and nobody comes back. -/
theorem not_atStart_step (h : ¬ s.AtStart) (hstep : s.step a = some s') :
    ¬ s'.AtStart ∧ s'.published = s.published := by
  cases a with
  | advance =>
      cases hstep
      unfold AtStart at h ⊢
      unfold advance
      cases hpc : s.pc with
      | construct => exact absurd (.inl hpc) h
      | publish => exact absurd (.inr hpc) h
      | test =>
          dsimp only
          split
          · exact ⟨by simp [setPc], rfl⟩
          · refine ⟨?_, rfl⟩
            cases s.threadFunc <;> simp [setPc]
      | functors fs i =>
          dsimp only
          split <;> exact ⟨by simp [setPc], rfl⟩
      | outside | finished => exact ⟨by simp [hpc], rfl⟩
      | _ => exact ⟨by simp [setPc], rfl⟩
  | handleRead =>
      cases hstep
      exact ⟨by simp [AtStart, setPc], rfl⟩
  | loop t =>
      obtain ⟨-, -, rfl⟩ := loop_spec hstep
      exact ⟨by simp [AtStart, setPc], rfl⟩
  | finish t =>
      refine ⟨?_, (finish_keeps hstep).2.1⟩
      rw [AtStart, (sameQueue_finish hstep).pc]
      exact h
  | _ =>
      cases hstep
      exact ⟨h, rfl⟩

/-- At the start the thread of the loop only goes on. It is not in a callback, so it makes no call,
and not in `poll`, so it reads no wakeup. -/
theorem advance_of_atStart (h : s.AtStart) (hcalls : s.calls .loop = none)
    (hown : StartLoop.Own a) (hlegal : s.Legal a) : a = .advance := by
  have hidle : ¬ s.CanCall .loop := by
    rintro ⟨-, hcan⟩
    rcases h with hpc | hpc <;>
      simp [hpc, LoopThreadPc.inCallback, LoopThreadPc.isOutside] at hcan
  cases a with
  | advance => rfl
  | handleRead =>
      obtain ⟨-, hread⟩ := hlegal
      rcases h with hpc | hpc <;> simp [hpc, LoopThreadPc.canRead] at hread
  | loop t =>
      obtain rfl : t = .loop := hown
      rcases hlegal with hcan | ⟨-, hout⟩
      · exact absurd hcan hidle
      · rcases h with hpc | hpc <;> simp [hpc, LoopThreadPc.isOutside] at hout
  | queueInLoop t f =>
      obtain rfl : t = .loop := hown
      exact absurd hlegal hidle
  | quit t =>
      obtain rfl : t = .loop := hown
      exact absurd hlegal hidle
  | finish t =>
      obtain rfl : t = .loop := hown
      exact absurd hcalls hlegal
  | startLoop => exact hown.elim

/-- A step that does not set the pointer. While the pointer is not set, such a step of the thread
itself is the construction of the loop. -/
theorem Startup.step (h : s.Startup)
    (hown : StartLoop.Own a → s.Legal a ∧ s.pc.atPublish = false)
    (hstep : s.step a = some s') : s'.Startup ∧ s'.published = s.published := by
  by_cases hmine : StartLoop.Own a
  · obtain ⟨hlegal, hnot⟩ := hown hmine
    cases hpublished : s.published with
    | true =>
        obtain ⟨hout, hsame⟩ := not_atStart_step (h.published hpublished) hstep
        rw [hpublished] at hsame
        exact ⟨⟨fun hno => absurd (hsame.symm.trans hno) (by simp), fun _ => hout⟩, hsame⟩
    | false =>
        obtain ⟨hat, hcalls⟩ := h.unpublished hpublished
        obtain rfl := advance_of_atStart hat hcalls hmine hlegal
        cases hstep
        have hpc : s.pc = .construct := hat.resolve_right fun hpc => by simp [hpc,
          LoopThreadPc.atPublish] at hnot
        -- The loop is constructed.
        rw [advance, hpc]
        refine ⟨⟨fun _ => ⟨.inr rfl, hcalls⟩, fun hyes => ?_⟩, hpublished⟩
        exact absurd (hpublished.symm.trans hyes) (by simp)
  · obtain ⟨hpc, hcalls, hsame⟩ := keeps_of_not_own hmine hstep
    refine ⟨⟨fun hno => ?_, fun hyes => ?_⟩, hsame⟩
    · obtain ⟨hat, hnone⟩ := h.unpublished (hsame.symm.trans hno)
      exact ⟨by rwa [AtStart, hpc], hcalls.trans hnone⟩
    · rw [AtStart, hpc]
      exact h.published (hsame.symm.trans hyes)

/-- `loop_ = &loop`. -/
theorem advance_publish (hpc : s.pc.atPublish = true) :
    s.advance = { s.setPc .outside with published := true } := by
  rw [advance, atPublish_iff.mp hpc]

end LoopThread

/-! ### The two sections -/

namespace StartLoop

variable {F : Type} {s s' : StartLoop F} {a : StartLoopAction F}

/-- What every run keeps: the invariants of the monitor, and how the two threads go through its
sections. The pointer of the thread's model and the data of the monitor are one and the same. -/
structure Inv (s : StartLoop F) : Prop where
  monitor : s.monitor.Inv
  sound : Monitor.Sound startLoopCode false s.monitor
  covered : s.monitor.Covered startLoopCode
  one : s.monitor.OneWaiter .owner
  startup : s.thread.loop.Startup
  published : s.thread.loop.published = s.monitor.data
  /-- the owner only waits -/
  waits : s.monitor.threads .owner = .outside ∨ (s.monitor.threads .owner).inAwait = true
  /-- the store comes where the thread of the loop publishes -/
  storing : ∀ u, s.monitor.threads .threadFunc = .update u ∨
      s.monitor.threads .threadFunc = .store u →
    s.thread.thread.started = true ∧ s.thread.loop.pc.atPublish = true
  outside : s.thread.owner ≠ .startLoop → s.monitor.threads .owner = .outside
  /-- the owner has come out of the loop -/
  returned : s.thread.owner = .startLoop ∧ s.monitor.threads .owner = .outside ∨
    s.monitor.threads .owner = .leave → s.monitor.data = true
  unstarted : s.thread.thread.started = false → s.monitor.data = false

/-- Both are outside of the sections, and the pointer is not set. -/
theorem new_inv : (new : StartLoop F).Inv where
  monitor := Monitor.start_inv false
  sound := Monitor.start_sound startLoopCode false
  covered := Monitor.start_covered startLoopCode false
  one u hu := by simp [new, Monitor.start, MonitorPc.inAwait] at hu
  startup := LoopThread.start_startup
  published := rfl
  waits := .inl rfl
  storing u hu := by simp [new, Monitor.start] at hu
  outside _ := rfl
  returned h := by simp [new, Monitor.start, EventLoopThread.new] at h
  unstarted _ := rfl

/-- `threadFunc` notifies behind its store, whatever the data was. With this no wakeup of the owner
is lost. -/
theorem startLoopCode_notifying : Monitor.Notifying startLoopCode fun _ => True where
  store _ _ _ := trivial
  notifies _ _ _ _ _ := rfl

/-- The thread behind a statement of one of the sections. Only the store is a step of the thread's
model too. -/
theorem stored_cases (s : StartLoop F) (t : Party) :
    (∃ u, s.monitor.threads t = .store u ∧
      s.stored t = { s.thread with loop := s.thread.loop.advance }) ∨
    (∀ u, s.monitor.threads t ≠ .store u) ∧ s.stored t = s.thread := by
  rw [stored]
  cases hpc : s.monitor.threads t with
  | store u => exact .inl ⟨u, rfl, rfl⟩
  | _ => exact .inr ⟨by simp, rfl⟩

/-- The store is the one of `threadFunc`. -/
theorem Inv.eq_threadFunc (h : s.Inv) {t : Party} {u : Unit}
    (hpc : s.monitor.threads t = .store u) : t = .threadFunc := by
  cases t with
  | threadFunc => rfl
  | owner =>
      have hwaits := h.waits
      rw [hpc] at hwaits
      simp [MonitorPc.inAwait] at hwaits

/-- The owner comes out of the loop with the pointer: the only way out is a test that finds it, and
the pointer is not taken back. -/
theorem Inv.returned_of_next (h : s.Inv) {woken : Option Party}
    (hlegal : s.monitor.Legal (.next .owner woken))
    (hout : (s.monitor.next startLoopCode .owner woken).threads .owner = .outside ∨
      (s.monitor.next startLoopCode .owner woken).threads .owner = .leave) :
    s.monitor.data = true := by
  have hwaits := h.waits
  rw [Monitor.next] at hout
  rw [Monitor.Legal] at hlegal
  cases hpc : s.monitor.threads .owner with
  | outside =>
      rw [hpc] at hlegal
      exact hlegal.elim
  | leave => exact h.returned (.inr hpc)
  | test =>
      rw [hpc] at hout
      dsimp only at hout
      split at hout
      · simp at hout
      · rename_i hpass
        simpa [startLoopCode] using hpass
  | await | wait | waiting =>
      rw [hpc] at hout
      simp [Monitor.setPc] at hout
  | update u | store u | notify | release =>
      rw [hpc] at hwaits
      simp [MonitorPc.inAwait] at hwaits

/-- A statement of one of the sections. Either it is the store of the pointer, which both models
make at once, or the pointer and the thread stay as they are. -/
theorem Inv.step_next (h : s.Inv) {t : Party} {woken : Option Party}
    (hlegal : s.monitor.Legal (.next t woken)) :
    Inv { thread := s.stored t, monitor := s.monitor.next startLoopCode t woken } := by
  have hcases : Monitor.Step startLoopCode s.monitor (s.monitor.next startLoopCode t woken) :=
    Monitor.step_cases (a := .next t woken) hlegal
  have hmonitor := h.monitor.step hcases
  have hsound := h.sound.step h.monitor hcases
  have hcovered := h.covered.step h.monitor h.sound startLoopCode_notifying trivial
    (.inr h.one) hcases
  have hone := h.one.next (c := startLoopCode) t woken
  rcases s.stored_cases t with ⟨u, hpc, hthread⟩ | ⟨hnot, hthread⟩
  · -- `loop_ = &loop`
    obtain rfl := h.eq_threadFunc hpc
    obtain ⟨hstarted, hpublish⟩ := h.storing u (.inr hpc)
    have hloop := LoopThread.advance_publish hpublish
    have hnext : s.monitor.next startLoopCode .threadFunc woken
        = { s.monitor.setPc .threadFunc .notify with
            data := true, stores := s.monitor.stores ++ [u] } := by
      rw [Monitor.next, hpc]
      rfl
    have howner : (s.monitor.next startLoopCode .threadFunc woken).threads .owner
        = s.monitor.threads .owner := Monitor.next_ne (by simp) woken
    rw [hthread]
    refine ⟨hmonitor, hsound, hcovered, hone, ?_, ?_, ?_, fun v hv => ?_, fun hno => ?_,
      fun _ => ?_, fun hno => absurd (hstarted.symm.trans hno) (by simp)⟩
    · rw [hloop]
      exact ⟨fun hno => by simp at hno, fun _ => by simp [LoopThread.AtStart, LoopThread.setPc]⟩
    · rw [hloop, hnext]
    · rw [howner]
      exact h.waits
    · rw [hnext] at hv
      simp at hv
    · rw [howner]
      exact h.outside hno
    · rw [hnext]
  · have hdata : (s.monitor.next startLoopCode t woken).data = s.monitor.data := by
      rcases Monitor.next_data startLoopCode s.monitor t woken with ⟨v, hv, -⟩ | ⟨-, hsame⟩
      · exact absurd hv (hnot v)
      · exact hsame
    rw [hthread]
    refine ⟨hmonitor, hsound, hcovered, hone, h.startup, by rw [hdata, h.published], ?_,
      fun v hv => ?_, fun hno => ?_, fun hout => ?_, fun hno => hdata.trans (h.unstarted hno)⟩
    · cases t with
      | owner => exact (Monitor.inside_of_next h.waits.symm).symm
      | threadFunc =>
          rw [Monitor.next_ne (by simp)]
          exact h.waits
    · cases t with
      | owner =>
          rw [Monitor.next_ne (by simp)] at hv
          exact h.storing v hv
      | threadFunc => exact h.storing v (Monitor.update_of_next hv)
    · have hidle := h.outside hno
      cases t with
      | owner =>
          rw [Monitor.Legal, hidle] at hlegal
          exact hlegal.elim
      | threadFunc =>
          rw [Monitor.next_ne (by simp)]
          exact hidle
    · rw [hdata]
      cases t with
      | owner => exact h.returned_of_next hlegal (hout.imp_left And.right)
      | threadFunc =>
          rw [Monitor.next_ne (by simp)] at hout
          exact h.returned hout

/-- What a step outside of the sections does with the loop, the thread and the owner. The pointer is
not set in it, the thread is not started, and the owner neither enters `startLoop` nor leaves it. -/
theorem rest_spec {b : EventLoopThreadAction F} {t : EventLoopThread F}
    (hlegal : s.thread.Legal b) (hrest : s.Rest b) (hstep : s.thread.step b = some t) :
    (t.loop = s.thread.loop ∨ ∃ d, s.thread.loop.step d = some t.loop ∧
      (Own d → s.thread.loop.Legal d ∧ s.monitor.threads .threadFunc = .outside ∧
        s.thread.loop.pc.atPublish = false)) ∧
    t.thread.started = s.thread.thread.started ∧
    (t.owner = .startLoop ↔ s.thread.owner = .startLoop) := by
  -- The owner's calls are not steps of the loop's own thread.
  have hothers : ∀ {d : LoopThreadAction F} {u : EventLoopThread F}, ¬ Own d →
      u.onLoop d = some t → u.loop = s.thread.loop → u.thread = s.thread.thread →
      (∃ d, s.thread.loop.step d = some t.loop ∧
        (Own d → s.thread.loop.Legal d ∧ s.monitor.threads .threadFunc = .outside ∧
          s.thread.loop.pc.atPublish = false)) ∧
      t.thread.started = s.thread.thread.started ∧ t.owner = u.owner := by
    intro d u hown hu hloop hthread
    obtain ⟨-, loop, hd, rfl⟩ := EventLoopThread.onLoop_spec hu
    rw [hloop] at hd
    exact ⟨⟨d, hd, fun hyes => absurd hyes hown⟩, by rw [hthread], rfl⟩
  have hne : EventLoopThread.ownerThread ≠ .loop := by simp [EventLoopThread.ownerThread]
  cases b with
  | startLoop ok => exact hrest.elim
  | startLoopReturns => exact hrest.elim
  | loop d =>
      obtain ⟨loop, hd, hstep⟩ := bind_eq_some_iff.mp hstep
      obtain rfl := Option.some.inj hstep
      exact ⟨.inr ⟨d, hd, fun hown => ⟨hlegal.2.2, hrest hown⟩⟩, rfl, Iff.rfl⟩
  | queueInLoop f =>
      obtain ⟨hloop, hstarted, howner⟩ := hothers (by exact hne) hstep rfl rfl
      exact ⟨.inr hloop, hstarted, by rw [howner]⟩
  | quit =>
      obtain ⟨hloop, hstarted, howner⟩ := hothers (by exact hne) hstep rfl rfl
      exact ⟨.inr hloop, hstarted, by rw [howner]⟩
  | finish =>
      obtain ⟨hloop, hstarted, howner⟩ := hothers (by exact hne) hstep rfl rfl
      exact ⟨.inr hloop, hstarted, by rw [howner]⟩
  | destroy =>
      obtain ⟨hloop, hstarted, howner⟩ := hothers (by exact hne) hstep rfl rfl
      refine ⟨.inr hloop, hstarted, ?_⟩
      rw [howner]
      rcases hlegal.1 with hpc | hpc <;> simp [hpc]
  | finishQuit =>
      obtain ⟨hloop, hstarted, howner⟩ := hothers (by exact hne) hstep rfl rfl
      refine ⟨.inr hloop, hstarted, ?_⟩
      have hpc : s.thread.owner = .quit := hlegal
      rw [howner]
      simp [hpc]
  | join =>
      obtain ⟨thread, hthread, hstep⟩ := bind_eq_some_iff.mp hstep
      obtain rfl := Option.some.inj hstep
      obtain ⟨-, hthread⟩ := assert_bind_eq_some_iff.mp hthread
      obtain ⟨-, hthread⟩ := assert_bind_eq_some_iff.mp hthread
      obtain rfl := Option.some.inj hthread
      have hpc : s.thread.owner = .join := hlegal
      exact ⟨.inl rfl, rfl, by simp [hpc]⟩

/-- A step outside of the sections. -/
theorem Inv.step_other (h : s.Inv) {b : EventLoopThreadAction F} {t : EventLoopThread F}
    (hlegal : s.thread.Legal b) (hrest : s.Rest b) (hstep : s.thread.step b = some t) :
    Inv { s with thread := t } := by
  obtain ⟨hloop, hstarted, howner⟩ := rest_spec hlegal hrest hstep
  have hkeeps : t.loop.Startup ∧ t.loop.published = s.thread.loop.published ∧
      (s.monitor.threads .threadFunc ≠ .outside → t.loop.pc = s.thread.loop.pc) := by
    rcases hloop with hsame | ⟨d, hd, hown⟩
    · rw [hsame]
      exact ⟨h.startup, rfl, fun _ => rfl⟩
    · obtain ⟨hstartup, hpublished⟩ := h.startup.step
        (fun hmine => ⟨(hown hmine).1, (hown hmine).2.2⟩) hd
      refine ⟨hstartup, hpublished, fun hinside => ?_⟩
      exact (LoopThread.keeps_of_not_own (fun hmine => hinside (hown hmine).2.1) hd).1
  obtain ⟨hstartup, hpublished, hpc⟩ := hkeeps
  refine ⟨h.monitor, h.sound, h.covered, h.one, hstartup, hpublished.trans h.published, h.waits,
    fun u hu => ?_, fun hno => h.outside (mt howner.mpr hno),
    fun hout => h.returned (hout.imp_left fun hboth => ⟨howner.mp hboth.1, hboth.2⟩),
    fun hno => h.unstarted (hstarted.symm.trans hno)⟩
  obtain ⟨hyes, hpublish⟩ := h.storing u hu
  refine ⟨hstarted.trans hyes, ?_⟩
  have hinside : s.monitor.threads .threadFunc ≠ .outside := by
    intro hout
    rcases hu with hu | hu <;> exact absurd (hout.symm.trans hu) (by simp)
  show t.loop.pc.atPublish = true
  rw [hpc hinside]
  exact hpublish

/-- Every step keeps the invariant. -/
theorem Inv.step (h : s.Inv) (hlegal : s.Legal a) (hstep : s.step a = some s') : s'.Inv := by
  cases a with
  | next t woken =>
      obtain rfl := Option.some.inj hstep
      exact h.step_next hlegal
  | other b =>
      obtain ⟨t, ht, hstep⟩ := bind_eq_some_iff.mp hstep
      obtain rfl := Option.some.inj hstep
      exact h.step_other hlegal.1 hlegal.2 ht
  | spurious t =>
      obtain rfl := Option.some.inj hstep
      have hcases : Monitor.Step startLoopCode s.monitor _ :=
        Monitor.step_cases (a := .spurious t) hlegal
      exact ⟨h.monitor.step hcases, h.sound.step h.monitor hcases,
        h.covered.step h.monitor h.sound startLoopCode_notifying trivial (.inr h.one) hcases,
        h.one, h.startup, h.published, h.waits, h.storing, h.outside, h.returned,
        h.unstarted⟩
  | publish =>
      obtain ⟨hstarted, hpublish, hout⟩ := hlegal
      obtain rfl := Option.some.inj hstep
      have hcases : Monitor.Step startLoopCode s.monitor _ :=
        Monitor.step_cases (show s.monitor.Legal (.update .threadFunc ()) from hout)
      refine ⟨h.monitor.step hcases, h.sound.step h.monitor hcases,
        h.covered.step h.monitor h.sound startLoopCode_notifying trivial (.inr h.one) hcases,
        fun u hu => ?_, h.startup, h.published, h.waits, fun _ _ => ⟨hstarted, hpublish⟩,
        h.outside, h.returned, h.unstarted⟩
      cases u with
      | owner => rfl
      | threadFunc => simp [Monitor.step, MonitorPc.inAwait] at hu
  | startLoop ok =>
      obtain ⟨t, ht, hstep⟩ := bind_eq_some_iff.mp hstep
      obtain rfl := Option.some.inj hstep
      obtain ⟨hnot, ht⟩ := assert_bind_eq_some_iff.mp ht
      obtain ⟨thread, -, ht⟩ := bind_eq_some_iff.mp ht
      obtain rfl := Option.some.inj ht
      have howner : s.thread.owner = .constructed := hlegal
      have hidle : s.monitor.Legal (.await .owner) := h.outside (by simp [howner])
      have hcases : Monitor.Step startLoopCode s.monitor _ := Monitor.step_cases hidle
      refine ⟨h.monitor.step hcases, h.sound.step h.monitor hcases,
        h.covered.step h.monitor h.sound startLoopCode_notifying trivial (.inr h.one) hcases,
        fun u hu => ?_, h.startup, h.published, .inr rfl, fun u hu => ?_,
        fun hno => absurd rfl hno, fun hout => ?_, fun _ => h.unstarted hnot⟩
      · cases u with
        | owner => rfl
        | threadFunc => exact h.one .threadFunc hu
      · -- The thread does not run before it is started.
        obtain ⟨hyes, -⟩ := h.storing u hu
        exact absurd (hyes.symm.trans hnot) (by simp)
      · rcases hout with ⟨-, hout⟩ | hout
        · simp [Monitor.step] at hout
        · simp [Monitor.step] at hout
  | startLoopReturns =>
      obtain ⟨t, ht, hstep⟩ := bind_eq_some_iff.mp hstep
      obtain rfl := Option.some.inj hstep
      obtain ⟨loop, hloop, ht⟩ := bind_eq_some_iff.mp ht
      obtain rfl := Option.some.inj ht
      obtain rfl := Option.some.inj hloop
      exact ⟨h.monitor, h.sound, h.covered, h.one, ⟨h.startup.unpublished, h.startup.published⟩,
        h.published, h.waits, h.storing, fun _ => hlegal.2, fun _ => h.returned (.inl hlegal),
        h.unstarted⟩

/-- So does every run. -/
theorem inv_of_run {as : List (StartLoopAction F)} (hrun : (startLoopMachine F).Run new as s) :
    s.Inv := by
  refine hrun.invariant new_inv ?_
  intro s a s' h hlegal hstep
  exact h.step hlegal hstep

/-- `eventLoopThreadMachine` follows. It makes the steps of the thread, and stands still while the
statements of the sections go on. -/
theorem startLoop_simulates :
    (startLoopMachine F).Simulates (eventLoopThreadMachine F)
      fun s t => s.Inv ∧ s.thread = t := by
  refine Machine.Simulates.of_step ?_
  rintro s _ a s' ⟨h, rfl⟩ hlegal hstep
  have h' := h.step hlegal hstep
  cases a with
  | startLoop ok =>
      obtain ⟨t, ht, hstep⟩ := bind_eq_some_iff.mp hstep
      obtain rfl := Option.some.inj hstep
      exact .inr ⟨.startLoop ok, t, hlegal, ht, h', rfl⟩
  | startLoopReturns =>
      obtain ⟨t, ht, hstep⟩ := bind_eq_some_iff.mp hstep
      obtain rfl := Option.some.inj hstep
      -- The guard of the abstract step: the pointer is there.
      exact .inr ⟨.startLoopReturns, t,
        ⟨hlegal.1, h.published.trans (h.returned (.inl hlegal))⟩, ht, h', rfl⟩
  | other b =>
      obtain ⟨t, ht, hstep⟩ := bind_eq_some_iff.mp hstep
      obtain rfl := Option.some.inj hstep
      exact .inr ⟨b, t, hlegal.1, ht, h', rfl⟩
  | publish =>
      obtain rfl := Option.some.inj hstep
      exact .inl ⟨h', rfl⟩
  | spurious t =>
      obtain rfl := Option.some.inj hstep
      exact .inl ⟨h', rfl⟩
  | next t woken =>
      obtain rfl := Option.some.inj hstep
      rcases s.stored_cases t with ⟨u, hpc, hthread⟩ | ⟨-, hthread⟩
      · -- `loop_ = &loop` is a step of the loop's thread.
        obtain rfl := h.eq_threadFunc hpc
        obtain ⟨hstarted, hpublish⟩ := h.storing u (.inr hpc)
        have hcalls : s.thread.loop.calls .loop = none := by
          refine (h.startup.unpublished ?_).2
          by_contra hyes
          exact h.startup.published (by simpa using hyes)
            (.inr (LoopThread.atPublish_iff.mp hpublish))
        refine .inr ⟨.loop .advance, _, ⟨hstarted, trivial, hcalls, ?_⟩, rfl, h', hthread⟩
        rw [LoopThread.atPublish_iff.mp hpublish]
        rfl
      · exact .inl ⟨h', hthread⟩

/-! ### `startLoop` returns -/

/-- A statement of a section leaves the owner and the thread as they are. -/
theorem stored_owner (s : StartLoop F) (t : Party) :
    (s.stored t).owner = s.thread.owner ∧ (s.stored t).thread = s.thread.thread := by
  rcases s.stored_cases t with ⟨u, -, heq⟩ | ⟨-, heq⟩ <;> rw [heq] <;> exact ⟨rfl, rfl⟩

/-- The owner is in `startLoop`, and its thread is created. -/
structure Starting (s : StartLoop F) : Prop where
  inv : s.Inv
  owner : s.thread.owner = .startLoop
  started : s.thread.thread.started = true

/-- A statement of a section. -/
theorem Starting.next (h : s.Starting) {t : Party} {woken : Option Party}
    (hlegal : s.monitor.Legal (.next t woken)) :
    Starting { thread := s.stored t, monitor := s.monitor.next startLoopCode t woken } where
  inv := h.inv.step_next hlegal
  owner := (s.stored_owner t).1.trans h.owner
  started := by
    show (s.stored t).thread.started = true
    rw [(s.stored_owner t).2, h.started]

/-- How far the thread of the loop is from its store. -/
def publishSteps (atPublish : Bool) : MonitorPc Unit → Nat
  | .notify => 7
  | .release => 6
  | .outside => if atPublish then 4 else 5
  | .update _ => 3
  | .store _ => 2
  | .await | .test | .wait | .waiting | .leave => 0

/-- How far the owner is from parking. -/
def parkSteps : MonitorPc Unit → Nat
  | .test => 2
  | .wait => 1
  | _ => 0

/-- How far the pointer is from being set. -/
def stepsToStore (s : StartLoop F) : Nat :=
  if s.monitor.data then 0
  else publishSteps s.thread.loop.pc.atPublish (s.monitor.threads .threadFunc) +
    parkSteps (s.monitor.threads .owner)

/-- A thread in `await` is the owner. -/
theorem Inv.not_inAwait (h : s.Inv) : (s.monitor.threads .threadFunc).inAwait = false := by
  by_contra hin
  have heq := h.one .threadFunc (by simpa using hin)
  cases heq

/-- The owner has the mutex, and parks. -/
theorem Starting.progress_owner (h : s.Starting) (hdata : s.monitor.data = false)
    (hholder : s.monitor.holder = some .owner) :
    ∃ a t, s.Legal a ∧ s.step a = some t ∧ t.Starting ∧ t.stepsToStore < s.stepsToStore := by
  have hholds := (h.inv.monitor.mutex .owner).mpr hholder
  have hwaits := h.inv.waits
  cases hpc : s.monitor.threads .owner with
  | leave =>
      have hset := h.inv.returned (.inr hpc)
      exact absurd (hset.symm.trans hdata) (by simp)
  | test | wait =>
      have hlegal : s.monitor.Legal (.next .owner none) := by
        rw [Monitor.Legal, hpc]
        trivial
      refine ⟨.next .owner none, _, hlegal, rfl, h.next hlegal, ?_⟩
      simp [stepsToStore, Monitor.next, hpc, hdata, startLoopCode, stored, parkSteps]
  | outside | await | waiting =>
      rw [hpc] at hholds
      cases hholds
  | update u | store u | notify | release =>
      rw [hpc] at hwaits
      simp [MonitorPc.inAwait] at hwaits

/-- The thread of the loop has the mutex, and goes on. -/
theorem Starting.progress_threadFunc (h : s.Starting) (hdata : s.monitor.data = false)
    (hholder : s.monitor.holder = some .threadFunc) :
    ∃ a t, s.Legal a ∧ s.step a = some t ∧ t.Starting ∧ t.stepsToStore < s.stepsToStore := by
  have hholds := (h.inv.monitor.mutex .threadFunc).mpr hholder
  have hout := h.inv.not_inAwait
  cases hpc : s.monitor.threads .threadFunc with
  | store u =>
      have hlegal : s.monitor.Legal (.next .threadFunc none) := by
        rw [Monitor.Legal, hpc]
        trivial
      refine ⟨.next .threadFunc none, _, hlegal, rfl, h.next hlegal, ?_⟩
      have hbefore : 0 < s.stepsToStore := by
        rw [stepsToStore, if_neg (by simp [hdata]), hpc, publishSteps]
        omega
      refine Nat.lt_of_le_of_lt (Nat.le_of_eq ?_) hbefore
      -- Behind the store the pointer is set.
      simp [stepsToStore, Monitor.next, hpc, startLoopCode]
  | release =>
      have hlegal : s.monitor.Legal (.next .threadFunc none) := by
        rw [Monitor.Legal, hpc]
        trivial
      refine ⟨.next .threadFunc none, _, hlegal, rfl, h.next hlegal, ?_⟩
      simp [stepsToStore, Monitor.next, hpc, hdata, stored, publishSteps]
      split <;> omega
  | notify =>
      have hlegal : s.monitor.Legal (.next .threadFunc s.monitor.parked.head?) := by
        rw [Monitor.Legal, hpc]
        show s.monitor.parked.head?.elim (s.monitor.parked = []) (· ∈ s.monitor.parked)
        cases hparked : s.monitor.parked <;> simp
      refine ⟨.next .threadFunc s.monitor.parked.head?, _, hlegal, rfl, h.next hlegal, ?_⟩
      simp [stepsToStore, Monitor.next, hpc, hdata, publishSteps]
  | test | wait | leave =>
      rw [hpc] at hout
      cases hout
  | outside | await | waiting | update u =>
      rw [hpc] at hholds
      cases hholds

/-- The mutex is free, and the thread of the loop comes to it or takes it. -/
theorem Starting.progress_free (h : s.Starting) (hdata : s.monitor.data = false)
    (hholder : s.monitor.holder = none) :
    ∃ a t, s.Legal a ∧ s.step a = some t ∧ t.Starting ∧ t.stepsToStore < s.stepsToStore := by
  have hfree := h.inv.monitor.mutex .threadFunc
  rw [hholder] at hfree
  have hout := h.inv.not_inAwait
  cases hpc : s.monitor.threads .threadFunc with
  | outside =>
      obtain ⟨hat, hcalls⟩ := h.inv.startup.unpublished (h.inv.published.trans hdata)
      rcases hat with hloop | hloop
      · -- The loop is to be constructed.
        have hlegal : s.Legal (.other (.loop .advance)) := by
          refine ⟨⟨h.started, trivial, hcalls, by rw [hloop]; rfl⟩, fun _ => ⟨hpc, ?_⟩⟩
          rw [hloop]
          rfl
        refine ⟨_, _, hlegal, rfl, ⟨h.inv.step hlegal rfl, h.owner, h.started⟩, ?_⟩
        simp [stepsToStore, hpc, hdata, hloop, LoopThread.advance, LoopThread.setPc,
          LoopThreadPc.atPublish, publishSteps]
      · have hlegal : s.Legal .publish := ⟨h.started, by rw [hloop]; rfl, hpc⟩
        refine ⟨_, _, hlegal, rfl, ⟨h.inv.step hlegal rfl, h.owner, h.started⟩, ?_⟩
        simp [stepsToStore, Monitor.step, hpc, hdata, hloop, LoopThreadPc.atPublish, publishSteps]
  | update u =>
      have hlegal : s.monitor.Legal (.next .threadFunc none) := by
        rw [Monitor.Legal, hpc]
        exact hholder
      refine ⟨.next .threadFunc none, _, hlegal, rfl, h.next hlegal, ?_⟩
      simp [stepsToStore, Monitor.next, hpc, hdata, publishSteps]
  | await | waiting =>
      rw [hpc] at hout
      cases hout
  | _ =>
      rw [hpc] at hfree
      simp [MonitorPc.holds] at hfree

/-- The pointer gets set. -/
theorem leads_stored : (startLoopMachine F).Leads Starting
    fun s => s.Starting ∧ s.monitor.data = true := by
  refine Machine.Leads.of_measure stepsToStore fun s h => ?_
  by_cases hset : s.monitor.data = true
  · exact .inl ⟨h, hset⟩
  · have hdata : s.monitor.data = false := by simpa using hset
    refine .inr ?_
    cases hholder : s.monitor.holder with
    | none => exact h.progress_free hdata hholder
    | some t =>
        cases t with
        | owner => exact h.progress_owner hdata hholder
        | threadFunc => exact h.progress_threadFunc hdata hholder

/-- The owner gets out of its section. -/
theorem leads_returning : (startLoopMachine F).Leads
    (fun s => s.Starting ∧ s.monitor.data = true)
    fun s => s.Starting ∧ s.monitor.threads .owner = .outside := by
  refine Machine.Leads.of_measure (fun s => Monitor.stepsToOutside .owner s.monitor) ?_
  rintro s ⟨h, hdata⟩
  have hleaving : s.monitor.Leaving startLoopCode false (fun _ => True) .owner .owner :=
    { inv := h.inv.monitor
      sound := h.inv.sound
      covered := h.inv.covered
      data := trivial
      one := .inr h.inv.one
      pass := by simp [startLoopCode, hdata]
      store := fun _ _ _ => rfl
      inside := h.inv.waits.symm }
  rcases hleaving.progress startLoopCode_notifying with hout | ⟨t, woken, hlegal, hnext, hless⟩
  · exact .inl ⟨h, hout⟩
  · refine .inr ⟨.next t woken, _, hlegal, rfl, ⟨h.next hlegal, ?_⟩, hless⟩
    simpa [startLoopCode] using hnext.pass

/-- `startLoop` can return. -/
theorem leads_running : (startLoopMachine F).Leads Starting
    fun s => s.thread.owner = .running := by
  refine leads_stored.trans (leads_returning.trans (Machine.Leads.of_step ?_))
  rintro s ⟨h, hout⟩
  exact ⟨.startLoopReturns, _, ⟨h.owner, hout⟩, rfl, rfl⟩

/-- Without a thread nobody sets the pointer. -/
theorem stays_in_startLoop {as : List (StartLoopAction F)} (h : s.Inv)
    (howner : s.thread.owner = .startLoop) (hnot : s.thread.thread.started = false)
    (hrun : (startLoopMachine F).Run s as s') : s'.thread.owner = .startLoop := by
  have hall : s'.Inv ∧ s'.thread.owner = .startLoop ∧ s'.thread.thread.started = false := by
    refine hrun.invariant (I := fun s => s.Inv ∧ s.thread.owner = .startLoop ∧
      s.thread.thread.started = false) ⟨h, howner, hnot⟩ ?_
    rintro s a s' ⟨h, howner, hnot⟩ hlegal hstep
    refine ⟨h.step hlegal hstep, ?_⟩
    cases a with
    | startLoop ok => exact absurd (howner.symm.trans hlegal) (by simp)
    | startLoopReturns =>
        have hdata := h.returned (.inl hlegal)
        exact absurd (hdata.symm.trans (h.unstarted hnot)) (by simp)
    | other b =>
        obtain ⟨t, ht, hstep⟩ := bind_eq_some_iff.mp hstep
        obtain rfl := Option.some.inj hstep
        obtain ⟨-, hstarted, hsame⟩ := rest_spec hlegal.1 hlegal.2 ht
        exact ⟨hsame.mpr howner, hstarted.trans hnot⟩
    | next t woken =>
        obtain rfl := Option.some.inj hstep
        refine ⟨(s.stored_owner t).1.trans howner, ?_⟩
        show (s.stored t).thread.started = false
        rw [(s.stored_owner t).2, hnot]
    | publish | spurious t =>
        obtain rfl := Option.some.inj hstep
        exact ⟨howner, hnot⟩
  exact hall.2.1

/-- `startLoop` and `threadFunc` under their mutex, statement by statement, in every interleaving
with the rest of the program:

- the runs are runs of `eventLoopThreadMachine`, in which `startLoop` has the pointer when it
  returns;
- what it returns, read behind the mutex, is not null;
- when `loop_` is set, the owner is not parked, unless it is about to be notified;
- when `pthread_create` has succeeded, `startLoop` can return from wherever the threads are;
- when it has failed, `startLoop` never returns. -/
theorem startLoop_refines (as : List (StartLoopAction F)) (s : StartLoop F)
    (hrun : (startLoopMachine F).Run new as s) :
    (∃ bs, (eventLoopThreadMachine F).Run .new bs s.thread) ∧
    (s.Legal .startLoopReturns → s.monitor.data = true) ∧
    (s.monitor.data = true →
      s.monitor.parked = [] ∨ s.monitor.threads .threadFunc = .notify) ∧
    (s.thread.owner = .startLoop → s.thread.thread.started = true →
      ∃ bs t, (startLoopMachine F).Run s bs t ∧ t.thread.owner = .running) ∧
    (s.thread.owner = .startLoop → s.thread.thread.started = false →
      ∀ bs t, (startLoopMachine F).Run s bs t → t.thread.owner = .startLoop) := by
  have h := inv_of_run hrun
  refine ⟨?_, fun hlegal => h.returned (.inl hlegal), fun hdata => ?_,
    fun howner hstarted => leads_running s ⟨h, howner, hstarted⟩,
    fun howner hnot bs t hrest => stays_in_startLoop h howner hnot hrest⟩
  · obtain ⟨bs, t, ht, -, rfl⟩ := startLoop_simulates.run ⟨new_inv, rfl⟩ hrun
    exact ⟨bs, ht⟩
  · refine (h.covered (by simp [startLoopCode, hdata])).imp_right ?_
    rintro ⟨t, ht, -⟩
    cases t with
    | threadFunc => exact ht
    | owner =>
        have hwaits := h.waits
        rw [ht] at hwaits
        simp [MonitorPc.inAwait] at hwaits

/-- The owner is parked, and the loop is not constructed yet. -/
theorem startLoop_refines_parked : ∃ s : StartLoop Nat, s.monitor.parked = [.owner] ∧
    ∃ bs t, (startLoopMachine Nat).Run s bs t ∧ t.thread.owner = .running := by
  obtain ⟨s, hrun, hparked, howner, hstarted⟩ := Machine.exists_run (M := startLoopMachine Nat)
    (P := fun s => s.monitor.parked = [.owner] ∧ s.thread.owner = .startLoop ∧
      s.thread.thread.started = true) new
    [.startLoop true, .next .owner none, .next .owner none, .next .owner none]
    (by decide +kernel)
  exact ⟨s, hparked, (startLoop_refines _ s hrun).2.2.2.1 howner hstarted⟩

end StartLoop

end SecondGear
