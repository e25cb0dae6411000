import SecondGear.Model.CrossThreadTimer
import SecondGear.Proofs.TimerRuns
import SecondGear.Proofs.WaitingFunctors

/-!
# `SecondGear.Proofs.CrossThreadTimer`: whether each call adds its own timer

The lambda of `addTimer` refers to a local that ends with the call. As long as its lambda
waits, a call is `Ready`: its local points to the timer that it made, which no entry of the
queue has. `CallInv` ties the calls, their lambdas and the timers together. It survives the
steps in which no call returns before its lambda ran (`ReturnsAfterRun`) and no swap takes
more functors than an `int` counts.

`each_call_adds_its_timer` is the result, `not_each_call_adds_its_timer` a call that returns
too early.
-/

set_option autoImplicit false

namespace SecondGear

open SecondGear.Lib

/-! ### The queue of timers between additions -/

namespace TimerQueue

variable {q q' : TimerQueue} {out : List TimerEntry} {ptr : TimerPtr}

/-- `insert` writes no timer. -/
theorem insert_timer {timer : TimerPtr} {b : Bool} (h : q.insert timer = some (q', b)) :
    q'.timer = q.timer := by
  obtain ⟨-, h⟩ := assert_bind_eq_some_iff.mp h
  cases h
  rfl

/-- The loop of `reset` restarts the timers of its entries and no others. -/
theorem restartAll_timer (now : Timestamp) (expired : List TimerEntry) :
    ∀ {q : TimerQueue}, q.restartAll now expired = some q' →
      (∀ e ∈ expired, e.second ≠ ptr) → q'.timer ptr = q.timer ptr := by
  induction expired with
  | nil =>
      intro q h _
      cases h
      rfl
  | cons e rest ih =>
      intro q h hfree
      have hrest : ∀ d ∈ rest, d.second ≠ ptr := fun d hd => hfree d (List.mem_cons_of_mem e hd)
      rw [restartAll] at h
      split at h
      · obtain ⟨⟨q₁, b⟩, hinsert, h⟩ := bind_eq_some_iff.mp h
        rw [ih h hrest, insert_timer hinsert, setTimer]
        exact Function.update_of_ne (Ne.symm (hfree e List.mem_cons_self)) _ _
      · exact ih h hrest

/-- Nor does the rest of `reset`, which arms the timerfd. -/
theorem reset_timer {expired : List TimerEntry} {now clock : Timestamp}
    (h : q.reset expired now clock = some q') (hfree : ∀ e ∈ expired, e.second ≠ ptr) :
    q'.timer ptr = q.timer ptr := by
  obtain ⟨q₁, hall, h⟩ := bind_eq_some_iff.mp h
  have hsame := restartAll_timer now expired hall hfree
  dsimp only at h
  split at h
  all_goals
    split at h
    all_goals
      cases h
      exact hsame

end TimerQueue

namespace TimerRun

variable {s s' : TimerRun} {a : TimerAction}

/-- Between additions the queue keeps its entries for the timers that have one, and writes no
other timer. -/
theorem step_between (h : s.queue.Keyed s.phase.expired) (hlegal : s.Legal a)
    (ha : ∀ ptr when repeats delta clock, a ≠ .addTimer ptr when repeats delta clock)
    (hstep : s.step a = some s') :
    s'.queue.Keyed s'.phase.expired ∧ s'.added = s.added ∧
      ∀ ptr, (∀ e ∈ s.entries, e.second ≠ ptr) →
        s'.queue.timer ptr = s.queue.timer ptr ∧ ∀ e ∈ s'.entries, e.second ≠ ptr := by
  cases a with
  | addTimer ptr when repeats delta clock => exact absurd rfl (ha _ _ _ _ _)
  | expire =>
      cases hstep
      exact ⟨⟨h.key, h.nodup⟩, rfl, fun ptr hfree => ⟨rfl, hfree⟩⟩
  | handleRead now =>
      have hphase : s.phase = .idle := TimerPhase.eq_idle hlegal.2
      rw [hphase] at h
      obtain ⟨⟨expired, q⟩, hcall, rfl⟩ := Option.map_eq_some_iff.mp hstep
      have hkeyed : TimerQueue.Keyed
          { s.queue with timerfd := s.queue.timerfd.readTimerfd } [] := ⟨h.key, h.nodup⟩
      obtain ⟨htimer, -, hsplit, -, -, hkeyed'⟩ := TimerQueue.getExpired_spec hkeyed hcall
      refine ⟨hkeyed', rfl, fun ptr hfree => ⟨by rw [htimer], fun e he => hfree e ?_⟩⟩
      refine List.mem_append_left _ ?_
      show e ∈ s.queue.timers.toList
      have hmem : e ∈ q.timers.toList ++ expired := he
      rw [← show expired ++ q.timers.toList = s.queue.timers.toList from hsplit]
      exact List.mem_append.mpr (List.mem_append.mp hmem).symm
  | run =>
      rw [step] at hstep
      split at hstep
      · rename_i done it rest now hphase
        cases hstep
        have hexpired : (TimerPhase.running (done ++ [it]) rest now).expired
            = s.phase.expired := by
          rw [hphase]
          simp [TimerPhase.expired, TimerPhase.done, TimerPhase.rest]
        refine ⟨?_, rfl, fun ptr hfree => ⟨rfl, fun e he => hfree e ?_⟩⟩
        · show s.queue.Keyed (TimerPhase.running (done ++ [it]) rest now).expired
          rw [hexpired]
          exact h
        · show e ∈ s.queue.entries s.phase.expired
          rw [← hexpired]
          exact he
      · cases hstep
  | reset clock =>
      rw [step] at hstep
      split at hstep
      · rename_i expired now hphase
        have hexpired : s.phase.expired = expired := by
          rw [hphase]
          simp [TimerPhase.expired, TimerPhase.done, TimerPhase.rest]
        obtain ⟨q, hreset, rfl⟩ := Option.map_eq_some_iff.mp hstep
        rw [hexpired] at h
        obtain ⟨q', hreset', hkeyed, -, hperm, -⟩ := TimerQueue.reset_spec h now clock
        rw [hreset, Option.some.injEq] at hreset'
        subst hreset'
        refine ⟨hkeyed, rfl, fun ptr hfree => ⟨?_, ?_⟩⟩
        · refine TimerQueue.reset_timer hreset fun e he => hfree e ?_
          refine List.mem_append_right _ ?_
          rw [hexpired]
          exact he
        · intro e he
          have hmem : e ∈ q.timers.toList ++ [] := he
          rw [List.append_nil] at hmem
          rcases List.mem_append.mp (hperm.mem_iff.mp hmem) with hnew | hold
          · -- A restarted entry is one of a timer that had expired.
            obtain ⟨d, hd, rfl⟩ := List.mem_map.mp hnew
            refine hfree d (List.mem_append_right _ ?_)
            rw [hexpired]
            exact List.mem_of_mem_filter hd
          · exact hfree e (List.mem_append_left _ hold)
      · cases hstep

end TimerRun

/-- The call of a lambda. -/
def TimerFunctor.call : TimerFunctor → Option Nat
  | .moveAddTimerToIo call => some call
  | .other => none

namespace CrossTimer

variable {s s' : CrossTimer} {a : CrossTimerAction} {call : Nat}

/-! ### The calls on their way -/

/-- The calls whose lambdas wait. -/
def waitingCalls (s : CrossTimer) : List Nat := s.loop.waiting.filterMap TimerFunctor.call

/-- The calls whose lambdas ran, and those whose lambdas wait. A call is in this list once,
and does not leave it. -/
def handedOver (s : CrossTimer) : List Nat := s.executions.map Prod.fst ++ s.waitingCalls

/-- The lambda of the call finds what the call made: the local is alive, its timer is as the call
has made it, and the queue has no entry for that. With these `addTimerInLoop` passes its
assertion. -/
def Ready (s : CrossTimer) (call : Nat) : Prop :=
  ∃ ptr timer, s.locals call = some ptr ∧ s.made[call]? = some timer ∧
    s.timers.queue.timer ptr = timer ∧ ∀ e ∈ s.timers.entries, e.second ≠ ptr

/-- A call returns after its lambda ran, and a swap takes no more functors than an `int`
counts. -/
def ReturnsAfterRun (s : CrossTimer) : CrossTimerAction → Prop
  | .returnTimerId t =>
      ∀ call ∈ s.waitingCalls, s.threads t ≠ some (.returnTimerId call)
  | .loop a _ => s.loop.SmallSwap a
  | _ => True

instance (s : CrossTimer) : (a : CrossTimerAction) → Decidable (s.ReturnsAfterRun a)
  | .returnTimerId t => inferInstanceAs (Decidable (∀ call ∈ s.waitingCalls,
      s.threads t ≠ some (.returnTimerId call)))
  | .loop a _ => inferInstanceAs (Decidable (s.loop.SmallSwap a))
  | .addTimer _ _ _ _ _ | .queueInLoop _ | .addTimerInThread _ _ _ _ _ | .timer _ =>
      isTrue trivial

/-- What runs with such steps keep. Inside `addTimer` there may be a call in hand, whose lambda
was not handed over yet. -/
structure CallInv (s : CrossTimer) (inHand : Option Nat) : Prop where
  queue : s.loop.QueueInv
  keyed : s.timers.queue.Keyed s.timers.phase.expired
  /-- the timers are numbered -/
  serial : ∀ (call : Nat) (timer : Timer), s.made[call]? = some timer → timer.serial = call
  ready : ∀ call ∈ s.waitingCalls, s.Ready call
  /-- a thread that is about to push has a call of its own -/
  pushing : ∀ t call, s.threads t = some (.queueInLoop call) →
    s.Ready call ∧ call ∉ s.handedOver ∧ ∀ u, s.threads u = some (.queueInLoop call) → u = t
  hand : ∀ call ∈ inHand, s.Ready call ∧ call ∉ s.handedOver ∧
    ∀ t, s.threads t ≠ some (.queueInLoop call)
  returning : ∀ t call, s.threads t = some (.returnTimerId call) → call ∈ s.handedOver
  /-- two locals do not hold one timer -/
  distinct : ∀ call call' ptr, s.locals call = some ptr → s.locals call' = some ptr → call = call'
  exist : ∀ call ptr, s.locals call = some ptr → call < s.made.length
  nodup : s.handedOver.Nodup
  known : ∀ call ∈ s.handedOver, call < s.made.length
  located : ∀ call < s.made.length,
    call ∈ s.handedOver ∨ (∃ t, s.threads t = some (.queueInLoop call)) ∨ call ∈ inHand
  /-- each lambda that ran added the timer of its call -/
  own : ∀ x ∈ s.executions, ∃ timer, s.made[x.1]? = some timer ∧ x.2 = some timer
  added : s.timers.added = s.executions.filterMap Prod.snd

/-- A ready call has been made. -/
theorem Ready.lt (h : s.Ready call) : call < s.made.length := by
  obtain ⟨ptr, timer, -, hmade, -⟩ := h
  exact (List.getElem?_eq_some_iff.mp hmade).1

/-- What a step of the loop does to the calls whose lambdas wait: the one that is called leaves at
the front, one that is pushed joins at the end. This is where the swaps have to be small. -/
theorem waitingCalls_step (h : s.loop.QueueInv) {loopAction : LoopThreadAction TimerFunctor}
    {loop : LoopThread TimerFunctor} (hlegal : s.loop.Legal loopAction)
    (hsmall : s.loop.SmallSwap loopAction) (hstep : s.loop.step loopAction = some loop) :
    (s.loop.calledBy loopAction).toList.filterMap TimerFunctor.call ++
        loop.waiting.filterMap TimerFunctor.call
      = s.waitingCalls ++ loopAction.pushed.toList.filterMap TimerFunctor.call := by
  rw [waitingCalls, ← List.filterMap_append, ← List.filterMap_append,
    LoopThread.waiting_step h hlegal hsmall hstep]

/-- A ready call stays ready while its local is alive and its timer stays without an entry and is
not written. What the loop, the queue and the other calls do is of this kind. -/
theorem Ready.of_timers (h : s.Ready call) (hlocal : s'.locals call = s.locals call)
    (hmade : s'.made[call]? = s.made[call]?)
    (hqueue : ∀ ptr, s.locals call = some ptr → (∀ e ∈ s.timers.entries, e.second ≠ ptr) →
      s'.timers.queue.timer ptr = s.timers.queue.timer ptr ∧
        ∀ e ∈ s'.timers.entries, e.second ≠ ptr) : s'.Ready call := by
  obtain ⟨ptr, timer, hptr, htimer, hheap, hfree⟩ := h
  obtain ⟨hheap', hfree'⟩ := hqueue ptr hptr hfree
  exact ⟨ptr, timer, by rw [hlocal, hptr], by rw [hmade, htimer], by rw [hheap', hheap], hfree'⟩

/-! ### `addTimer` -/

@[simp] theorem length_makeTimer_made (ptr : TimerPtr) (when : Timestamp) (repeats : Bool)
    (delta : Nat) : (s.makeTimer ptr when repeats delta).made.length = s.made.length + 1 :=
  List.length_append

/-- The timer of a call is made at an address that no timer in use has. -/
theorem makeTimer_spec (h : s.timers.queue.Keyed s.timers.phase.expired) {ptr : TimerPtr}
    (hfree : s.Free ptr) (when : Timestamp) (repeats : Bool) (delta : Nat) :
    (s.makeTimer ptr when repeats delta).timers.queue.Keyed s.timers.phase.expired ∧
      (s.makeTimer ptr when repeats delta).Ready s.made.length := by
  refine ⟨h.setTimer hfree.2.1 _, ptr,
    { expiration := when, delta, repeats, serial := s.made.length }, ?_, ?_, ?_, hfree.2.1⟩
  · exact Function.update_self _ _ _
  · exact List.getElem?_concat_length
  · exact Function.update_self _ _ _

/-- The other calls do not see it: no local of theirs holds that address. -/
theorem Ready.makeTimer (h : s.Ready call) {ptr : TimerPtr} (hfree : s.Free ptr)
    (when : Timestamp) (repeats : Bool) (delta : Nat) :
    (s.makeTimer ptr when repeats delta).Ready call := by
  have hlt := h.lt
  refine h.of_timers ?_ ?_ ?_
  · exact Function.update_of_ne (by omega) _ _
  · exact List.getElem?_append_left hlt
  · intro ptr' hptr' hfree'
    have hne : ptr' ≠ ptr := by
      rintro rfl
      exact hfree.2.2 call hlt hptr'
    exact ⟨Function.update_of_ne hne _ _, hfree'⟩

/-- The lambda of a ready call adds the timer of the call. -/
theorem moveAddTimerToIo_spec (h : s.timers.queue.Keyed s.timers.phase.expired)
    (hready : s.Ready call) (clock : Timestamp) :
    ∃ ptr timer queue, s.locals call = some ptr ∧ s.made[call]? = some timer ∧
      s.moveAddTimerToIo call clock = some { s with
        timers := { s.timers with queue, added := s.timers.added ++ [timer] }
        executions := s.executions ++ [(call, some timer)] } ∧
      queue.Keyed s.timers.phase.expired ∧ queue.timer = s.timers.queue.timer ∧
      queue.timer ptr = timer ∧
      queue.timers.toList.Perm (toLex (timer.expiration, ptr) :: s.timers.queue.timers.toList) := by
  obtain ⟨ptr, timer, hptr, hmade, hheap, hfree⟩ := hready
  obtain ⟨queue, hcall, htimer, hkeyed, hperm, -⟩ :=
    TimerQueue.addTimerInLoop_spec h hfree clock
  rw [hheap] at hperm
  refine ⟨ptr, timer, queue, hptr, hmade, ?_, hkeyed, htimer, by rw [htimer, hheap], hperm⟩
  rw [moveAddTimerToIo, hptr]
  dsimp only
  rw [hcall, hheap]
  rfl

/-! ### Steps -/

/-- A step of the loop that runs and queues no lambda of `addTimer`. The calls on their way are the
same, and so is all that the invariant says about them. -/
theorem CallInv.of_loop (h : s.CallInv none) {loop : LoopThread TimerFunctor}
    (hqueue : loop.QueueInv)
    (hwaiting : loop.waiting.filterMap TimerFunctor.call = s.waitingCalls) :
    ({ s with loop } : CrossTimer).CallInv none := by
  have hcalls : ({ s with loop } : CrossTimer).waitingCalls = s.waitingCalls := hwaiting
  have hhanded : ({ s with loop } : CrossTimer).handedOver = s.handedOver := by
    rw [handedOver, hcalls]
    rfl
  refine ⟨hqueue, h.keyed, h.serial, ?_, ?_, ?_, ?_, h.distinct, h.exist, ?_, ?_, ?_, h.own,
    h.added⟩
  · -- ready
    rw [hcalls]
    exact h.ready
  · -- pushing
    rw [hhanded]
    exact h.pushing
  · -- hand
    rw [hhanded]
    exact h.hand
  · -- returning
    rw [hhanded]
    exact h.returning
  · -- nodup
    rw [hhanded]
    exact h.nodup
  · -- known
    rw [hhanded]
    exact h.known
  · -- located
    rw [hhanded]
    exact h.located

/-- The state after the lambda of a call has added its timer to the queue. -/
def afterLambda (s : CrossTimer) (call : Nat) (timer : Timer) (queue : TimerQueue)
    (loop : LoopThread TimerFunctor) : CrossTimer :=
  { s with
    timers := { s.timers with queue, added := s.timers.added ++ [timer] }
    executions := s.executions ++ [(call, some timer)]
    loop }

/-- The other calls have other timers, which have no entry still. -/
theorem CallInv.ready_afterLambda {inHand : Option Nat} (h : s.CallInv inHand)
    {queue : TimerQueue} (loop : LoopThread TimerFunctor) {ptr : TimerPtr} {timer : Timer}
    (hptr : s.locals call = some ptr) (htimer : queue.timer = s.timers.queue.timer)
    (hperm : queue.timers.toList.Perm
      (toLex (timer.expiration, ptr) :: s.timers.queue.timers.toList)) :
    ∀ call', s.Ready call' → call' ≠ call →
      (s.afterLambda call timer queue loop).Ready call' := by
  intro call' hready hne
  refine hready.of_timers rfl rfl fun ptr' hptr' hfree => ⟨congrFun htimer ptr', fun e he => ?_⟩
  rcases List.mem_append.mp he with hin | hout
  · rcases List.mem_cons.mp (hperm.mem_iff.mp hin) with rfl | hold
    · rintro rfl
      exact hne (h.distinct call' call _ hptr' hptr)
    · exact hfree e (List.mem_append_left _ hold)
  · exact hfree e (List.mem_append_right _ hout)

/-- The timer that was added is the one of its call. -/
theorem CallInv.own_afterLambda {inHand : Option Nat} (h : s.CallInv inHand)
    {queue : TimerQueue} {loop : LoopThread TimerFunctor} {timer : Timer}
    (hmade : s.made[call]? = some timer) :
    ∀ x ∈ (s.afterLambda call timer queue loop).executions,
      ∃ timer', s.made[x.1]? = some timer' ∧ x.2 = some timer' := by
  intro x hx
  rcases List.mem_append.mp hx with hold | hnew
  · exact h.own x hold
  · rw [List.mem_singleton.mp hnew]
    exact ⟨timer, hmade, rfl⟩

/-- And it is the last one that was added. -/
theorem CallInv.added_afterLambda {inHand : Option Nat} (h : s.CallInv inHand)
    {queue : TimerQueue} {loop : LoopThread TimerFunctor} {timer : Timer} :
    (s.afterLambda call timer queue loop).timers.added
      = (s.afterLambda call timer queue loop).executions.filterMap Prod.snd := by
  show s.timers.added ++ [timer] = (s.executions ++ [(call, some timer)]).filterMap Prod.snd
  rw [h.added, List.filterMap_append]
  rfl

/-- A lambda runs and adds the timer of its call: the call moves from those that wait to those
that ran. -/
theorem CallInv.of_executed (h : s.CallInv none) {call : Nat} {rest : List Nat}
    {loop : LoopThread TimerFunctor} {queue : TimerQueue} {ptr : TimerPtr} {timer : Timer}
    (hqueue : loop.QueueInv) (hwaiting : s.waitingCalls = call :: rest)
    (hwaiting' : loop.waiting.filterMap TimerFunctor.call = rest)
    (hptr : s.locals call = some ptr) (hmade : s.made[call]? = some timer)
    (hkeyed : queue.Keyed s.timers.phase.expired) (htimer : queue.timer = s.timers.queue.timer)
    (hperm : queue.timers.toList.Perm
      (toLex (timer.expiration, ptr) :: s.timers.queue.timers.toList)) :
    (s.afterLambda call timer queue loop).CallInv none := by
  have hhanded : (s.afterLambda call timer queue loop).handedOver = s.handedOver := by
    rw [handedOver, handedOver, hwaiting, ← hwaiting']
    simp [afterLambda, waitingCalls]
  have hmem : call ∈ s.handedOver := by
    rw [handedOver, hwaiting]
    simp
  have others := h.ready_afterLambda loop hptr htimer hperm
  have hnodup := h.nodup
  rw [handedOver, hwaiting] at hnodup
  refine ⟨hqueue, hkeyed, h.serial, ?_, ?_, (fun _ hcall => by cases hcall), ?_, h.distinct,
    h.exist, ?_, ?_, ?_, ?_, ?_⟩
  · intro call' hcall'
    have hrest : call' ∈ rest := by
      rw [← hwaiting']
      exact hcall'
    refine others call' (h.ready call' (by rw [hwaiting]; exact List.mem_cons_of_mem _ hrest)) ?_
    rintro rfl
    exact (List.nodup_cons.mp (List.nodup_append.mp hnodup).2.1).1 hrest
  · intro t call' ht
    obtain ⟨hready, hnot, huniq⟩ := h.pushing t call' ht
    refine ⟨others call' hready ?_, ?_, huniq⟩
    · rintro rfl
      exact hnot hmem
    · rw [hhanded]
      exact hnot
  · rw [hhanded]
    exact h.returning
  · rw [hhanded]
    exact h.nodup
  · rw [hhanded]
    exact h.known
  · rw [hhanded]
    exact h.located
  · exact h.own_afterLambda hmade
  · exact h.added_afterLambda

/-- The loop and its other users. Only one step of the loop has to do with the timers: the one that
calls a lambda of `addTimer`. -/
theorem CallInv.loop (h : s.CallInv none) {loopAction : LoopThreadAction TimerFunctor}
    {clock : Timestamp} (hlegal : s.Legal (.loop loopAction clock))
    (hsmall : s.loop.SmallSwap loopAction) (hstep : s.step (.loop loopAction clock) = some s') :
    s'.CallInv none := by
  obtain ⟨loop, hloop, hstep⟩ := bind_eq_some_iff.mp hstep
  obtain ⟨after, hafter, hstep⟩ := bind_eq_some_iff.mp hstep
  cases hstep
  have hqueue := h.queue.step hlegal.1 hsmall hloop
  have hwaiting := waitingCalls_step h.queue hlegal.1 hsmall hloop
  -- Other users queue functors of their own.
  have hpushed : loopAction.pushed.toList.filterMap TimerFunctor.call = [] := by
    cases loopAction with
    | queueInLoop u f =>
        have hother : f = .other := hlegal.2.2
        rw [hother]
        rfl
    | _ => rfl
  rw [hpushed, List.append_nil] at hwaiting
  cases hcalled : s.loop.calledBy loopAction with
  | none =>
      rw [hcalled] at hafter hwaiting
      cases hafter
      exact h.of_loop hqueue hwaiting
  | some f =>
      rw [hcalled] at hafter hwaiting
      cases f with
      | other =>
          cases hafter
          exact h.of_loop hqueue hwaiting
      | moveAddTimerToIo call =>
          have hmem : call ∈ s.waitingCalls := by
            rw [← hwaiting]
            exact List.mem_append_left _ (by simp [TimerFunctor.call])
          obtain ⟨ptr, timer, queue, hptr, hmade, hcall, hkeyed, htimer, -, hperm⟩ :=
            moveAddTimerToIo_spec h.keyed (h.ready call hmem) clock
          have heq : some after = _ := hafter.symm.trans hcall
          cases heq
          exact h.of_executed hqueue hwaiting.symm rfl hptr hmade hkeyed htimer hperm

/-- A thread makes the timer of its call. The call is in hand from then on: it is ready, and its
lambda was not handed over. -/
theorem CallInv.makeTimer (h : s.CallInv none) {ptr : TimerPtr} (hfree : s.Free ptr)
    (when : Timestamp) (repeats : Bool) (delta : Nat) :
    (s.makeTimer ptr when repeats delta).CallInv (some s.made.length) := by
  obtain ⟨hkeyed, hready⟩ := makeTimer_spec h.keyed hfree when repeats delta
  have hnew : s.made.length ∉ s.handedOver := fun hmem => absurd (h.known _ hmem) (by omega)
  have hlocals : ∀ call, (s.makeTimer ptr when repeats delta).locals call
      = if call = s.made.length then some ptr else s.locals call :=
    fun call => Function.update_apply _ _ _ _
  -- The address is not in use, so no old local holds it.
  have old : ∀ call, s.locals call ≠ some ptr := fun call hcall =>
    hfree.2.2 call (h.exist call ptr hcall) hcall
  refine ⟨h.queue, hkeyed, ?_, ?_, ?_, ?_, h.returning, ?_, ?_, h.nodup, ?_, ?_, ?_, h.added⟩
  · -- serial
    intro call timer hmade
    have hmade' : (s.made ++ [({ expiration := when, delta, repeats, serial := s.made.length } :
      Timer)])[call]? = some timer := hmade
    by_cases hlt : call < s.made.length
    · rw [List.getElem?_append_left hlt] at hmade'
      exact h.serial call timer hmade'
    · have hlen := (List.getElem?_eq_some_iff.mp hmade').1
      simp only [List.length_append, List.length_singleton] at hlen
      have heq : call = s.made.length := by omega
      subst heq
      rw [List.getElem?_concat_length] at hmade'
      cases hmade'
      rfl
  · -- ready
    intro call hcall
    exact (h.ready call hcall).makeTimer hfree when repeats delta
  · -- pushing
    intro t call ht
    obtain ⟨hold, hnot, huniq⟩ := h.pushing t call ht
    exact ⟨hold.makeTimer hfree when repeats delta, hnot, huniq⟩
  · -- hand
    intro call hcall
    cases hcall
    refine ⟨hready, hnew, fun t ht => ?_⟩
    exact absurd (h.pushing t _ ht).1.lt (by omega)
  · -- distinct
    intro call call' ptr' hptr hptr'
    rw [hlocals] at hptr hptr'
    split at hptr
    · rename_i hcall
      cases hptr
      split at hptr'
      · rename_i hcall'
        rw [hcall, hcall']
      · exact absurd hptr' (old _)
    · split at hptr'
      · cases hptr'
        exact absurd hptr (old _)
      · exact h.distinct call call' ptr' hptr hptr'
  · -- exist
    intro call ptr' hptr
    rw [length_makeTimer_made]
    rw [hlocals] at hptr
    split at hptr
    · omega
    · exact Nat.lt_succ_of_lt (h.exist call ptr' hptr)
  · -- known
    intro call hcall
    rw [length_makeTimer_made]
    exact Nat.lt_succ_of_lt (h.known call hcall)
  · -- located
    intro call hlt
    rw [length_makeTimer_made] at hlt
    by_cases hcall : call = s.made.length
    · exact Or.inr (Or.inr (by rw [hcall]; rfl))
    · rcases h.located call (by omega) with hin | hin | hin
      · exact Or.inl hin
      · exact Or.inr (Or.inl hin)
      · cases hin
  · -- own
    intro x hx
    obtain ⟨timer, hmade, hadded⟩ := h.own x hx
    exact ⟨timer, (List.getElem?_append_left (List.getElem?_eq_some_iff.mp hmade).1).trans hmade,
      hadded⟩

/-- What the threads have in their hands after one of them moved. -/
theorem threads_setThread {t u : Nat} {pc : Option AddTimerPc} {pc' : AddTimerPc}
    (hu : (s.setThread t pc).threads u = some pc') :
    u = t ∧ pc = some pc' ∨ u ≠ t ∧ s.threads u = some pc' := by
  have happly : (s.setThread t pc).threads u = if u = t then pc else s.threads u :=
    Function.update_apply _ _ _ _
  rw [happly] at hu
  split at hu
  · exact Or.inl ⟨‹_›, hu⟩
  · exact Or.inr ⟨‹_›, hu⟩

/-- The others stay where they are. -/
theorem threads_setThread_ne {t u : Nat} (pc : Option AddTimerPc) (hu : u ≠ t) :
    (s.setThread t pc).threads u = s.threads u :=
  Function.update_of_ne hu _ _

/-- Another thread is going to push the lambda. The call goes from the hand to this thread. -/
theorem CallInv.setThread (h : s.CallInv (some call)) {t : Nat} (hidle : s.threads t = none) :
    (s.setThread t (some (.queueInLoop call))).CallInv none := by
  obtain ⟨hready, hnot, hnone⟩ := h.hand call rfl
  refine ⟨h.queue, h.keyed, h.serial, h.ready, ?_, (fun _ hcall => by cases hcall), ?_,
    h.distinct, h.exist, h.nodup, h.known, ?_, h.own, h.added⟩
  · -- pushing
    intro u call' hu
    rcases threads_setThread hu with ⟨rfl, heq⟩ | ⟨hut, hold⟩
    · cases heq
      refine ⟨hready, hnot, fun v hv => ?_⟩
      rcases threads_setThread hv with ⟨rfl, -⟩ | ⟨-, hv⟩
      · rfl
      · exact absurd hv (hnone v)
    · obtain ⟨hready', hnot', huniq⟩ := h.pushing u call' hold
      refine ⟨hready', hnot', fun v hv => ?_⟩
      rcases threads_setThread hv with ⟨-, heq⟩ | ⟨-, hv⟩
      · cases heq
        exact absurd hold (hnone u)
      · exact huniq v hv
  · -- returning
    intro u call' hu
    rcases threads_setThread hu with ⟨-, heq⟩ | ⟨-, hold⟩
    · cases heq
    · exact h.returning u call' hold
  · -- located
    intro call' hlt
    rcases h.located call' hlt with hin | ⟨u, hu⟩ | hin
    · exact Or.inl hin
    · have hut : u ≠ t := by
        rintro rfl
        rw [hidle] at hu
        cases hu
      exact Or.inr (Or.inl ⟨u, (threads_setThread_ne _ hut).trans hu⟩)
    · cases hin
      exact Or.inr (Or.inl ⟨t, Function.update_self _ _ _⟩)

/-- The thread of the loop runs the lambda of its own call, inside that call. So it may overtake the
lambdas of earlier calls, which wait. -/
theorem CallInv.executed (h : s.CallInv (some call)) {queue : TimerQueue} {ptr : TimerPtr}
    {timer : Timer} (hptr : s.locals call = some ptr) (hmade : s.made[call]? = some timer)
    (hkeyed : queue.Keyed s.timers.phase.expired) (htimer : queue.timer = s.timers.queue.timer)
    (hperm : queue.timers.toList.Perm
      (toLex (timer.expiration, ptr) :: s.timers.queue.timers.toList)) :
    (s.afterLambda call timer queue s.loop).CallInv none := by
  obtain ⟨-, hnot, hnone⟩ := h.hand call rfl
  have hhanded : (s.afterLambda call timer queue s.loop).handedOver.Perm
      (call :: s.handedOver) := by
    simp only [handedOver, afterLambda, waitingCalls, List.map_append, List.map_cons,
      List.map_nil, List.append_assoc, List.singleton_append]
    exact List.perm_middle
  have others := h.ready_afterLambda s.loop hptr htimer hperm
  refine ⟨h.queue, hkeyed, h.serial, ?_, ?_, (fun _ hcall => by cases hcall), ?_, h.distinct,
    h.exist, ?_, ?_, ?_, ?_, ?_⟩
  · -- ready
    intro call' hcall'
    refine others call' (h.ready call' hcall') ?_
    rintro rfl
    exact hnot (List.mem_append_right _ hcall')
  · -- pushing
    intro t call' ht
    obtain ⟨hready, hnot', huniq⟩ := h.pushing t call' ht
    have hne : call' ≠ call := by
      rintro rfl
      exact hnone t ht
    refine ⟨others call' hready hne, fun hmem => ?_, huniq⟩
    exact (List.mem_cons.mp (hhanded.mem_iff.mp hmem)).elim hne hnot'
  · -- returning
    intro t call' ht
    exact hhanded.mem_iff.mpr (List.mem_cons_of_mem _ (h.returning t call' ht))
  · -- nodup
    exact hhanded.nodup_iff.mpr (List.nodup_cons.mpr ⟨hnot, h.nodup⟩)
  · -- known
    intro call' hcall'
    rcases List.mem_cons.mp (hhanded.mem_iff.mp hcall') with rfl | hold
    · exact (List.getElem?_eq_some_iff.mp hmade).1
    · exact h.known call' hold
  · -- located
    intro call' hlt
    rcases h.located call' hlt with hin | hin | hin
    · exact Or.inl (hhanded.mem_iff.mpr (List.mem_cons_of_mem _ hin))
    · exact Or.inr (Or.inl hin)
    · cases hin
      exact Or.inl (hhanded.mem_iff.mpr List.mem_cons_self)
  · exact h.own_afterLambda hmade
  · exact h.added_afterLambda

/-- The local of a call that is on its way no more is destroyed. Nobody looks for it: its lambda
neither waits nor is going to be pushed. -/
theorem CallInv.setLocal (h : s.CallInv none) (hwaiting : call ∉ s.waitingCalls)
    (hpushing : ∀ t, s.threads t ≠ some (.queueInLoop call)) :
    (s.setLocal call none).CallInv none := by
  have hlocals : ∀ call', (s.setLocal call none).locals call'
      = if call' = call then none else s.locals call' :=
    fun call' => Function.update_apply _ _ _ _
  have others : ∀ call', s.Ready call' → call' ≠ call → (s.setLocal call none).Ready call' := by
    intro call' hready hne
    refine hready.of_timers ?_ rfl fun _ _ hfree => ⟨rfl, hfree⟩
    rw [hlocals, if_neg hne]
  have local_of : ∀ call' ptr, (s.setLocal call none).locals call' = some ptr →
      s.locals call' = some ptr := by
    intro call' ptr hptr
    rw [hlocals] at hptr
    split at hptr
    · cases hptr
    · exact hptr
  refine ⟨h.queue, h.keyed, h.serial, ?_, ?_, (fun _ hcall => by cases hcall), h.returning, ?_, ?_,
    h.nodup, h.known, h.located, h.own, h.added⟩
  · -- ready
    intro call' hcall'
    refine others call' (h.ready call' hcall') ?_
    rintro rfl
    exact hwaiting hcall'
  · -- pushing
    intro t call' ht
    obtain ⟨hready, hnot, huniq⟩ := h.pushing t call' ht
    refine ⟨others call' hready ?_, hnot, huniq⟩
    rintro rfl
    exact hpushing t ht
  · -- distinct
    intro call' call'' ptr hptr hptr'
    exact h.distinct call' call'' ptr (local_of _ _ hptr) (local_of _ _ hptr')
  · intro call' ptr hptr
    exact h.exist call' ptr (local_of _ _ hptr)

/-- Another thread pushes the lambda of its call. From here on the call waits, and its thread may
not return. -/
theorem CallInv.queueInLoop (h : s.CallInv none) {t : Nat} {loop : LoopThread TimerFunctor}
    (hpc : s.threads t = some (.queueInLoop call)) (hlegal : s.loop.CanCall (.other t))
    (hloop : s.loop.step (.queueInLoop (.other t) (.moveAddTimerToIo call)) = some loop) :
    ({ s.setThread t (some (.returnTimerId call)) with loop } : CrossTimer).CallInv none := by
  have hsmall : s.loop.SmallSwap (.queueInLoop (.other t) (.moveAddTimerToIo call)) :=
    fun hadvance => by cases hadvance
  have hpush : s.loop.Legal (.queueInLoop (.other t) (.moveAddTimerToIo call)) := hlegal
  have hwaiting := waitingCalls_step h.queue hpush hsmall hloop
  obtain ⟨hready, hnot, huniq⟩ := h.pushing t call hpc
  let s₁ : CrossTimer := { s.setThread t (some (.returnTimerId call)) with loop }
  -- The call joins the end of those handed over; its thread is the only one that moves.
  have hcalls : s₁.waitingCalls = s.waitingCalls ++ [call] := hwaiting
  have hhanded : s₁.handedOver = s.handedOver ++ [call] := by
    rw [handedOver, hcalls, handedOver, List.append_assoc]
    rfl
  have threads_of : ∀ {u : Nat} {pc}, s₁.threads u = some pc →
      u = t ∧ some (.returnTimerId call) = some pc ∨ u ≠ t ∧ s.threads u = some pc :=
    fun hu => threads_setThread hu
  refine ⟨h.queue.step hpush hsmall hloop, h.keyed, h.serial, ?_, ?_,
    (fun _ hcall => by cases hcall), ?_, h.distinct, h.exist, ?_, ?_, ?_, h.own, h.added⟩
  · -- ready
    intro call' hcall'
    have hmem : call' ∈ s.waitingCalls ++ [call] := by
      rw [← hcalls]
      exact hcall'
    rcases List.mem_append.mp hmem with hold | hnew
    · exact h.ready call' hold
    · rw [List.mem_singleton.mp hnew]
      exact hready
  · -- pushing
    intro u call' hu
    rcases threads_of hu with ⟨-, heq⟩ | ⟨hut, hold⟩
    · cases heq
    · obtain ⟨hready', hnot', huniq'⟩ := h.pushing u call' hold
      refine ⟨hready', ?_, fun v hv => ?_⟩
      · -- no other thread was pushing this call
        show call' ∉ s₁.handedOver
        rw [hhanded, List.mem_append, List.mem_singleton, not_or]
        refine ⟨hnot', ?_⟩
        rintro rfl
        exact hut (huniq u hold)
      · rcases threads_of hv with ⟨-, heq⟩ | ⟨-, hv⟩
        · cases heq
        · exact huniq' v hv
  · -- returning
    intro u call' hu
    show call' ∈ s₁.handedOver
    rw [hhanded, List.mem_append, List.mem_singleton]
    rcases threads_of hu with ⟨-, heq⟩ | ⟨-, hold⟩
    · cases heq
      exact Or.inr rfl
    · exact Or.inl (h.returning u call' hold)
  · -- nodup
    show s₁.handedOver.Nodup
    rw [hhanded, ← List.concat_eq_append]
    exact List.Nodup.concat hnot h.nodup
  · -- known
    intro call' hcall'
    have hmem : call' ∈ s.handedOver ++ [call] := by
      rw [← hhanded]
      exact hcall'
    rcases List.mem_append.mp hmem with hold | hnew
    · exact h.known call' hold
    · rw [List.mem_singleton.mp hnew]
      exact hready.lt
  · -- located
    intro call' hlt
    show call' ∈ s₁.handedOver ∨ _
    rw [hhanded, List.mem_append, List.mem_singleton]
    rcases h.located call' hlt with hin | ⟨u, hu⟩ | hin
    · exact Or.inl (Or.inl hin)
    -- a call in the hands of this thread is now among those that wait
    · by_cases hut : u = t
      · subst hut
        rw [hpc] at hu
        cases hu
        exact Or.inl (Or.inr rfl)
      · exact Or.inr (Or.inl ⟨u, (threads_setThread_ne _ hut).trans hu⟩)
    · cases hin

/-- A thread leaves its call, whose lambda was handed over before. -/
theorem CallInv.leave (h : s.CallInv none) {t : Nat}
    (hpc : s.threads t = some (.returnTimerId call)) : (s.setThread t none).CallInv none := by
  have thread_of : ∀ u pc, (s.setThread t none).threads u = some pc → s.threads u = some pc := by
    intro u pc hu
    rcases threads_setThread hu with ⟨-, heq⟩ | ⟨-, hold⟩
    · cases heq
    · exact hold
  refine ⟨h.queue, h.keyed, h.serial, h.ready, ?_, (fun _ hcall => by cases hcall), ?_,
    h.distinct, h.exist, h.nodup, h.known, ?_, h.own, h.added⟩
  · -- pushing
    intro u call' hu
    obtain ⟨hready, hnot, huniq⟩ := h.pushing u call' (thread_of u _ hu)
    exact ⟨hready, hnot, fun v hv => huniq v (thread_of v _ hv)⟩
  · -- returning
    intro u call' hu
    exact h.returning u call' (thread_of u _ hu)
  · -- located
    intro call' hlt
    rcases h.located call' hlt with hin | ⟨u, hu⟩ | hin
    · exact Or.inl hin
    · have hut : u ≠ t := by
        rintro rfl
        rw [hpc] at hu
        cases hu
      exact Or.inr (Or.inl ⟨u, (threads_setThread_ne _ hut).trans hu⟩)
    · cases hin

/-- The queue of timers between additions. What it writes are timers with an entry, and no ready
call has one of those. -/
theorem CallInv.timer (h : s.CallInv none) {timerAction : TimerAction}
    (hlegal : s.Legal (.timer timerAction)) (hstep : s.step (.timer timerAction) = some s') :
    s'.CallInv none := by
  obtain ⟨timers, htimers, rfl⟩ := Option.map_eq_some_iff.mp hstep
  have hlegal' : s.timers.Legal timerAction ∧
      ∀ ptr when repeats delta clock, timerAction ≠ .addTimer ptr when repeats delta clock := by
    cases timerAction with
    | addTimer ptr when repeats delta clock => exact hlegal.elim
    | expire => exact ⟨hlegal, by simp⟩
    | handleRead now => exact ⟨hlegal.1, by simp⟩
    | run => exact ⟨hlegal.1, by simp⟩
    | reset clock => exact ⟨hlegal.1, by simp⟩
  obtain ⟨hkeyed, hadded, hsame⟩ := TimerRun.step_between h.keyed hlegal'.1 hlegal'.2 htimers
  have ready_of : ∀ call, s.Ready call → ({ s with timers } : CrossTimer).Ready call :=
    fun call hready => hready.of_timers rfl rfl fun ptr _ hfree => hsame ptr hfree
  refine ⟨h.queue, hkeyed, h.serial, ?_, ?_, (fun _ hcall => by cases hcall), h.returning,
    h.distinct, h.exist, h.nodup, h.known, h.located, h.own, hadded.trans h.added⟩
  · intro call hcall
    exact ready_of call (h.ready call hcall)
  · intro t call ht
    obtain ⟨hready, hnot, huniq⟩ := h.pushing t call ht
    exact ⟨ready_of call hready, hnot, huniq⟩

/-- Every step in which calls return after their lambdas ran. A return is the only step that takes a
local away, and there the condition says that nothing waits for it. -/
theorem CallInv.step (h : s.CallInv none) (hlegal : s.Legal a) (hreturns : s.ReturnsAfterRun a)
    (hstep : s.step a = some s') : s'.CallInv none := by
  cases a with
  | loop loopAction clock => exact h.loop hlegal hreturns hstep
  | addTimer t ptr when repeats delta =>
      cases hstep
      exact (h.makeTimer hlegal.2.2 when repeats delta).setThread hlegal.1
  | queueInLoop t =>
      rw [CrossTimer.step] at hstep
      split at hstep
      · rename_i call hpc
        obtain ⟨loop, hloop, hstep⟩ := bind_eq_some_iff.mp hstep
        cases hstep
        exact h.queueInLoop hpc hlegal.2 hloop
      · cases hstep
        exact h
  | returnTimerId t =>
      rw [CrossTimer.step] at hstep
      split at hstep
      · rename_i call hpc
        cases hstep
        refine (h.leave hpc).setLocal (fun hwaiting => hreturns call hwaiting hpc) ?_
        intro u hu
        -- A call that was handed over is not handed over again.
        have hu' : s.threads u = some (.queueInLoop call) := by
          by_cases hut : u = t
          · simp [CrossTimer.setThread, hut] at hu
          · simpa [CrossTimer.setThread, hut] using hu
        exact (h.pushing u call hu').2.1 (h.returning t call hpc)
      · cases hstep
        exact h
  | addTimerInThread ptr when repeats delta clock =>
      obtain ⟨after, hafter, hstep⟩ := bind_eq_some_iff.mp hstep
      cases hstep
      have hmake := h.makeTimer hlegal.2 when repeats delta
      obtain ⟨hready, hnot, hnone⟩ := hmake.hand _ rfl
      obtain ⟨ptr', timer, queue, hptr, hmade, hcall, hkeyed, htimer, -, hperm⟩ :=
        moveAddTimerToIo_spec hmake.keyed hready clock
      rw [hcall] at hafter
      cases hafter
      exact (hmake.executed hptr hmade hkeyed htimer hperm).setLocal
        (fun hwaiting => hnot (List.mem_append_right _ hwaiting)) hnone
  | timer timerAction => exact h.timer hlegal hstep

/-! ### Every run -/

/-- In the beginning there are no calls. -/
theorem new_callInv {loop : LoopThread TimerFunctor} (hstart : loop.Unused)
    (heap : TimerPtr → Timer) : (new loop heap).CallInv none := by
  have hwaiting : loop.waiting = [] := by
    rcases hstart with rfl | rfl <;> rfl
  have hhanded : (new loop heap).handedOver = [] := by
    rw [handedOver, waitingCalls, show (new loop heap).loop.waiting = [] from hwaiting]
    rfl
  refine ⟨hstart.queueInv, (TimerRun.new_inv heap).keyed, ?_, ?_, ?_,
    (fun _ hcall => by cases hcall), ?_, ?_, ?_, ?_, ?_, ?_, ?_, rfl⟩
  · simp [new]
  · intro call hcall
    rw [waitingCalls, show (new loop heap).loop.waiting = [] from hwaiting] at hcall
    cases hcall
  · simp [new]
  · simp [new]
  · simp [new]
  · simp [new]
  · rw [hhanded]
    exact List.nodup_nil
  · rw [hhanded]
    simp
  · simp [new]
  · simp [new]

/-- The numbers of the timers that were added are those of the calls whose lambdas ran. -/
theorem CallInv.added_serials (h : s.CallInv none) :
    s.timers.added.map Timer.serial = s.executions.map Prod.fst := by
  rw [h.added, List.map_filterMap]
  rw [← List.filterMap_eq_map]
  refine List.filterMap_congr fun x hx => ?_
  obtain ⟨timer, hmade, hadded⟩ := h.own x hx
  rw [hadded, Option.map_some, h.serial x.1 timer hmade]
  rfl

/-- A call whose lambda ran has added one timer, its own. -/
theorem CallInv.count_added (h : s.CallInv none) {timer : Timer}
    (hmade : s.made[call]? = some timer) (hran : call ∈ s.executions.map Prod.fst) :
    s.timers.added.count timer = 1 := by
  have hnodup : s.timers.added.Nodup := by
    refine List.Nodup.of_map Timer.serial ?_
    rw [h.added_serials]
    exact (List.nodup_append.mp h.nodup).1
  refine List.count_eq_one_of_mem hnodup ?_
  obtain ⟨x, hx, rfl⟩ := List.mem_map.mp hran
  obtain ⟨timer', hmade', hadded⟩ := h.own x hx
  rw [hmade, Option.some.injEq] at hmade'
  rw [h.added]
  exact List.mem_filterMap.mpr ⟨x, hx, by rw [hadded, hmade']⟩

/-- Each call of `addTimer` adds its own timer. In every run of a loop and its queue of timers,
with calls of `addTimer` from any threads, in which a call returns after its lambda ran and a
swap takes fewer than `2 ^ 31` functors:

- a lambda that the loop calls finds the local of its call, which points to the timer of this
  call, and puts this timer into `timers_`;
- a call whose lambda was pushed and does not wait any more has added exactly one timer, with
  the expiration, the interval and the number that the call gave it;
- every timer that was added is one that a call made. -/
theorem each_call_adds_its_timer (loop : LoopThread TimerFunctor) (hstart : loop.Unused)
    (heap : TimerPtr → Timer) (as : List CrossTimerAction) (s : CrossTimer)
    (hrun : crossTimerMachine.Run (new loop heap) as s)
    (hreturns : crossTimerMachine.EveryStep (new loop heap) as ReturnsAfterRun) :
    (∀ loopAction clock call, s.loop.calledBy loopAction = some (.moveAddTimerToIo call) →
      ∃ s' ptr timer, s.step (.loop loopAction clock) = some s' ∧ s.locals call = some ptr ∧
        s.made[call]? = some timer ∧ s'.timers.queue.timer ptr = timer ∧
        toLex (timer.expiration, ptr) ∈ s'.timers.queue.timers.toList) ∧
    (∀ (call : Nat) (timer : Timer), s.made[call]? = some timer →
      (∀ t, s.threads t ≠ some (.queueInLoop call)) →
      .moveAddTimerToIo call ∉ s.loop.waiting → s.timers.added.count timer = 1) ∧
    (∀ timer ∈ s.timers.added, timer ∈ s.made) := by
  have hinv : s.CallInv none := by
    refine (Machine.run_restrict.mpr ⟨hrun, hreturns⟩).invariant (I := fun s => s.CallInv none)
      (new_callInv hstart heap) ?_
    intro s a s' h hlegal hstep
    exact h.step hlegal.1 hlegal.2 hstep
  refine ⟨?_, ?_, ?_⟩
  · intro loopAction clock call hcalled
    cases loopAction with
    | advance =>
        have hwaits : call ∈ s.waitingCalls :=
          List.mem_filterMap.mpr ⟨_, LoopThread.mem_waiting_of_next hcalled, rfl⟩
        obtain ⟨ptr, timer, queue, hptr, hmade, hcall, -, -, htimer, hperm⟩ :=
          moveAddTimerToIo_spec hinv.keyed (hinv.ready call hwaits) clock
        refine ⟨s.afterLambda call timer queue s.loop.advance, ptr, timer, ?_, hptr, hmade, htimer,
          hperm.mem_iff.mpr List.mem_cons_self⟩
        show (s.loop.step .advance >>= fun loop =>
          s.callFunctor clock (s.loop.calledBy .advance) >>= fun after => _) = _
        rw [hcalled]
        show (s.moveAddTimerToIo call clock >>= fun after => _) = _
        rw [hcall]
        rfl
    | _ => cases hcalled
  · intro call timer hmade hpushing hwaiting
    refine hinv.count_added hmade ?_
    rcases hinv.located call (List.getElem?_eq_some_iff.mp hmade).1 with hin | ⟨t, ht⟩ | hin
    · refine (List.mem_append.mp hin).resolve_right fun hcall => hwaiting ?_
      obtain ⟨f, hf, hcall⟩ := List.mem_filterMap.mp hcall
      cases f with
      | moveAddTimerToIo call' =>
          cases hcall
          exact hf
      | other => cases hcall
    · exact absurd ht (hpushing t)
    · cases hin
  · intro timer htimer
    rw [hinv.added] at htimer
    obtain ⟨x, hx, hadded⟩ := List.mem_filterMap.mp htimer
    obtain ⟨timer', hmade, hadded'⟩ := hinv.own x hx
    rw [hadded, Option.some.injEq] at hadded'
    rw [hadded']
    exact List.mem_of_getElem? hmade

/-! ### A call that returns too early -/

/-- `addTimer` in another thread, up to its return. -/
def addTimerCall : List CrossTimerAction :=
  [.addTimer 0 1 5 false 0, .queueInLoop 0, .loop (.finish (.other 0)) 0]

/-- The loop, from its start to its first functor. -/
def loopToLambda : List CrossTimerAction :=
  [.loop (.loop .loop) 0, .loop .advance 0, .loop .advance 0, .loop .advance 0,
    .loop .handleRead 0, .loop .advance 0, .loop .advance 0, .loop .advance 0]

/-- The heap of the examples. -/
def emptyHeap : TimerPtr → Timer :=
  fun _ => { expiration := 0, delta := 0, repeats := false, serial := 0 }

/-- The theorem at a call that has not returned when its lambda runs. -/
theorem each_call_adds_its_timer_waiting :
    ∃ s, crossTimerMachine.Run (new LoopThread.new emptyHeap) (addTimerCall ++ loopToLambda) s ∧
      ∃ s' ptr timer, s.step (.loop .advance 0) = some s' ∧ s.locals 0 = some ptr ∧
        s.made[0]? = some timer ∧ s'.timers.queue.timer ptr = timer ∧
        toLex (timer.expiration, ptr) ∈ s'.timers.queue.timers.toList := by
  obtain ⟨s, hrun, hcalled⟩ := Machine.exists_run
    (M := crossTimerMachine.restrict ReturnsAfterRun)
    (P := fun s => s.loop.calledBy .advance = some (.moveAddTimerToIo 0))
    (new LoopThread.new emptyHeap) (addTimerCall ++ loopToLambda) (by decide +kernel)
  obtain ⟨hrun', hreturns⟩ := Machine.run_restrict.mp hrun
  exact ⟨s, hrun', (each_call_adds_its_timer LoopThread.new (Or.inl rfl) emptyHeap _ s hrun'
    hreturns).1 .advance 0 0 hcalled⟩

/-- A call that returns before the loop gets to its lambda: the lambda finds no timer. -/
theorem not_each_call_adds_its_timer :
    ¬ ∀ (loop : LoopThread TimerFunctor), loop.Unused → ∀ heap as s,
      crossTimerMachine.Run (new loop heap) as s → ∀ loopAction call,
        s.loop.calledBy loopAction = some (.moveAddTimerToIo call) →
        ∃ ptr timer, s.locals call = some ptr ∧ s.made[call]? = some timer ∧
          s.timers.queue.timer ptr = timer := by
  intro hall
  obtain ⟨s, hrun, hcalled, hgone⟩ := Machine.exists_run (M := crossTimerMachine)
    (P := fun s => s.loop.calledBy .advance = some (.moveAddTimerToIo 0) ∧ s.locals 0 = none)
    (new LoopThread.new emptyHeap) (addTimerCall ++ [.returnTimerId 0] ++ loopToLambda)
    (by decide +kernel)
  obtain ⟨ptr, timer, hlocal, -⟩ :=
    hall LoopThread.new (Or.inl rfl) emptyHeap _ s hrun .advance 0 hcalled
  rw [hgone] at hlocal
  cases hlocal

end CrossTimer

end SecondGear
