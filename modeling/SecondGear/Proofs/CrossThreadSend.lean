import SecondGear.Model.CrossThreadSend
import SecondGear.Proofs.WaitingFunctors

/-!
# `SecondGear.Proofs.CrossThreadSend`: whether a functor finds what its call was given

The functors of `send` and `shutdown` refer to a connection and to a string that they do not
own. `Intact` says that they find both as the call had them, `KeepsGiven` what a step has to
leave alone for that. `SendInv` is what runs with such steps keep.

`unfinished_intact_iff` shows that the condition is exact. `given_when_called` reads the
promise of `send` and `shutdown` off it, and `not_given_when_called` has a thread that writes
its string after the call.
-/

set_option autoImplicit false

namespace SecondGear

open SecondGear.Lib

/-- The end of a pass, where its vector is destroyed. -/
def LoopThreadPc.endsPass {F : Type} : LoopThreadPc F → Bool
  | .clear _ => true
  | _ => false

namespace CrossSend

variable {s s' : CrossSend} {a : CrossSendAction} {f : SendFunctor}

/-- What the functor refers to is as the call had it. -/
def Intact (s : CrossSend) : SendFunctor → Prop
  | .sendMessageFun t x message => s.alive = true ∧ s.strings t x = some message
  | .shutdownWR => s.alive = true
  | .connectedDestroyed | .other => True

/-- The step destroys the last `TcpConnectionPtr`: a thread drops its own, or a pass ends
and with it the functor of `removeConnection`. -/
def DropsLast (s : CrossSend) : CrossSendAction → Prop
  | .drop u => s.holders = [u] ∧ s.listed = false ∧ .connectedDestroyed ∉ s.loop.held
  | .loop .advance => s.holders = [] ∧ s.listed = false ∧ s.loop.pc.endsPass = true ∧
      .connectedDestroyed ∉ s.loop.pendingFunctors
  | _ => False

/-- While a functor of `send` or `shutdown` is not finished, its string keeps its contents
and somebody keeps the connection. -/
def KeepsGiven (s : CrossSend) : CrossSendAction → Prop
  | .setString t x contents =>
      ∀ f ∈ s.loop.unfinished, ∀ message ∈ f.messageIn t x, contents = some message
  | a => s.DropsLast a → ∀ f ∈ s.loop.unfinished, f.usesThis = false

instance (s : CrossSend) : (a : CrossSendAction) → Decidable (s.DropsLast a)
  | .drop _ => inferInstanceAs (Decidable (_ ∧ _ ∧ _))
  | .loop .advance => inferInstanceAs (Decidable (_ ∧ _ ∧ _ ∧ _))
  | .loop (.loop _) | .loop .handleRead | .loop (.queueInLoop _ _) | .loop (.quit _)
  | .loop (.finish _) | .loop .startLoop | .send _ _ | .shutdown _ | .resume _
  | .setString _ _ _ | .hold _ | .shutdownInThread | .handleClose => isFalse id

instance (s : CrossSend) : (a : CrossSendAction) → Decidable (s.KeepsGiven a)
  | .setString t x contents => inferInstanceAs (Decidable (∀ f ∈ s.loop.unfinished,
      ∀ message ∈ f.messageIn t x, contents = some message))
  | .loop _ | .drop _ | .send _ _ | .shutdown _ | .resume _ | .hold _ | .shutdownInThread
  | .handleClose => inferInstanceAs (Decidable (_ → _))

/-- A thread inside a call has a functor in its hands that refers to its own string. -/
def InHand (s : CrossSend) (t : Nat) (f : SendFunctor) : Prop :=
  f = .shutdownWR ∨ ∃ x message, f = .sendMessageFun t x message ∧ s.strings t x = some message

/-- What runs keep. -/
structure SendInv (s : CrossSend) : Prop where
  intact : ∀ f ∈ s.loop.unfinished, s.Intact f
  inHand : ∀ t f, s.threads t = some (.queueInLoop f) → s.InHand t f
  /-- a thread inside a call keeps its `TcpConnectionPtr` -/
  holding : ∀ t, s.threads t ≠ none → .other t ∈ s.holders
  looping : s.loop.pc.inLoop = true → s.loop.looping = true

/-! ### Who keeps the connection -/

theorem alive_iff : s.alive = true ↔
    s.listed = true ∨ s.holders ≠ [] ∨ .connectedDestroyed ∈ s.loop.held := by
  simp [alive, or_assoc]

/-- A functor depends on the connection and on the cells of its string. -/
theorem Intact.of_alive (h : s.Intact f) (halive : f.usesThis = true → s'.alive = true)
    (hstrings : s'.strings = s.strings) : s'.Intact f := by
  cases f with
  | sendMessageFun t x message =>
      refine ⟨halive rfl, ?_⟩
      rw [hstrings]
      exact h.2
  | shutdownWR => exact halive rfl
  | connectedDestroyed | other => trivial

/-- A functor that waits was intact, so its connection was alive. -/
theorem Intact.alive (h : s.Intact f) (huses : f.usesThis = true) : s.alive = true := by
  cases f with
  | sendMessageFun t x message => exact h.1
  | shutdownWR => exact h
  | connectedDestroyed | other => cases huses

/-- A step of the loop leaves the connection alive, or destroys the last pointer to it. -/
theorem alive_loop_step {loopAction : LoopThreadAction SendFunctor} {loop : LoopThread SendFunctor}
    {state : StateE} (hlooping : s.loop.pc.inLoop = true → s.loop.looping = true)
    (hlegal : s.loop.Legal loopAction) (hstep : s.loop.step loopAction = some loop)
    (halive : s.alive = true) :
    ({ s with loop, state } : CrossSend).alive = true ∨ s.DropsLast (.loop loopAction) := by
  rw [alive_iff] at halive ⊢
  by_cases hl : s.listed = true
  · exact Or.inl (Or.inl hl)
  · by_cases hh : s.holders = []
    · have hheld := (halive.resolve_left hl).resolve_left (not_not.mpr hh)
      rcases LoopThread.mem_held_step hlooping hlegal hstep hheld with hmem | hend
      · exact Or.inl (Or.inr (Or.inr hmem))
      · obtain ⟨rfl, fs, hpc, -, hpending⟩ := hend
        exact Or.inr ⟨hh, by simpa using hl, by rw [hpc]; rfl, hpending⟩
    · exact Or.inl (Or.inr (Or.inl hh))

/-! ### Steps -/

/-- The loop and its other users. -/
theorem SendInv.loop (h : s.SendInv) {loopAction : LoopThreadAction SendFunctor}
    (hlegal : s.Legal (.loop loopAction)) (hkeeps : s.KeepsGiven (.loop loopAction))
    (hstep : s.step (.loop loopAction) = some s') : s'.SendInv := by
  obtain ⟨state, -, hstep⟩ := bind_eq_some_iff.mp hstep
  obtain ⟨loop, hloop, hstep⟩ := bind_eq_some_iff.mp hstep
  cases hstep
  refine ⟨?_, h.inHand, h.holding, LoopThread.looping_step h.looping hlegal.1 hloop⟩
  intro f hf
  rcases LoopThread.mem_unfinished_step hloop hf with hold | hpushed
  · refine (h.intact f hold).of_alive (fun huses => ?_) rfl
    have halive := (h.intact f hold).alive huses
    -- A step that drops the last pointer may leave no functor that uses it.
    refine (alive_loop_step h.looping hlegal.1 hloop halive).resolve_right ?_
    intro hlast
    have hnone := hkeeps hlast f hold
    rw [huses] at hnone
    cases hnone
  · -- Other users queue their own functors.
    cases loopAction with
    | queueInLoop u g =>
        cases hpushed
        have hother : f = .other := hlegal.2.2
        rw [hother]
        trivial
    | _ => cases hpushed

/-- A thread moves on in its call. The functor that it takes in hand refers to its own string,
and it keeps its `TcpConnectionPtr`. -/
theorem SendInv.setThread (h : s.SendInv) {t : Nat} {pc : Option SendPc}
    (hinHand : ∀ f, pc = some (.queueInLoop f) → s.InHand t f)
    (hholds : pc ≠ none → .other t ∈ s.holders) : (s.setThread t pc).SendInv := by
  have hthreads : ∀ u, (s.setThread t pc).threads u = if u = t then pc else s.threads u :=
    fun u => Function.update_apply _ _ _ _
  refine ⟨h.intact, fun u f hu => ?_, fun u hu => ?_, h.looping⟩
  · -- inHand
    rw [hthreads] at hu
    split at hu
    · rename_i hut
      rw [hut]
      exact hinHand f hu
    · exact h.inHand u f hu
  · -- holding
    rw [hthreads] at hu
    split at hu
    · rename_i hut
      rw [hut]
      exact hholds hu
    · exact h.holding u hu

/-- A call of `send` takes the contents of the string as they are. -/
theorem SendInv.send (h : s.SendInv) {t x : Nat} (hlegal : s.Legal (.send t x))
    (hstep : s.step (.send t x) = some s') : s'.SendInv := by
  obtain ⟨message, hstring⟩ := Option.isSome_iff_exists.mp hlegal.2.2
  rw [step, hstring] at hstep
  dsimp only at hstep
  split at hstep
  · cases hstep
    refine h.setThread (fun f hf => ?_) fun _ => hlegal.2.1
    cases hf
    exact Or.inr ⟨x, message, rfl, hstring⟩
  · cases hstep
    exact h

/-- A call of `shutdown`. -/
theorem SendInv.shutdown (h : s.SendInv) {t : Nat} (hlegal : s.Legal (.shutdown t))
    (hstep : s.step (.shutdown t) = some s') : s'.SendInv := by
  rw [step] at hstep
  split at hstep
  · cases hstep
    exact h.setThread (fun f hf => by cases hf) fun _ => hlegal.2
  · cases hstep
    exact h

/-- A functor that is pushed is intact: the thread still holds the connection. -/
theorem SendInv.push (h : s.SendInv) {t : Nat} {f : SendFunctor} {loop : LoopThread SendFunctor}
    (hpc : s.threads t = some (.queueInLoop f))
    (hloop : s.loop.step (.queueInLoop (.other t) f) = some loop) :
    ({ s with loop } : CrossSend).SendInv := by
  have hholds : .other t ∈ s.holders := h.holding t (by simp [hpc])
  have halive : ({ s with loop } : CrossSend).alive = true :=
    alive_iff.mpr (Or.inr (Or.inl (List.ne_nil_of_mem hholds)))
  refine ⟨fun g hg => ?_, h.inHand, h.holding, ?_⟩
  · rcases LoopThread.mem_unfinished_step hloop hg with hold | hpushed
    · exact (h.intact g hold).of_alive (fun _ => halive) rfl
    · cases hpushed
      rcases h.inHand t f hpc with rfl | ⟨x, message, rfl, hstring⟩
      · exact halive
      · exact ⟨halive, hstring⟩
  · cases hloop
    exact h.looping

/-- A thread goes on with its call. -/
theorem SendInv.resume (h : s.SendInv) {t : Nat} (hstep : s.step (.resume t) = some s') :
    s'.SendInv := by
  rw [step] at hstep
  split at hstep
  · cases hstep
    exact h
  · -- After `setState(kDisconnecting)` it has `shutdownWR` in hand.
    rename_i hpc
    cases hstep
    have hset : ({ s with state := .kDisconnecting } : CrossSend).SendInv :=
      ⟨h.intact, h.inHand, h.holding, h.looping⟩
    refine hset.setThread (fun f hf => ?_) fun _ => h.holding t (by simp [hpc])
    cases hf
    exact Or.inl rfl
  · rename_i f hpc
    obtain ⟨loop, hloop, hstep⟩ := bind_eq_some_iff.mp hstep
    cases hstep
    exact (h.push hpc hloop).setThread (fun f hf => by cases hf) fun hne => absurd rfl hne

/-- A thread writes a string that no functor refers to, or the same contents. -/
theorem SendInv.setString (h : s.SendInv) {t x : Nat} {contents : Option (List Byte)}
    (hlegal : s.Legal (.setString t x contents)) (hkeeps : s.KeepsGiven (.setString t x contents))
    (hstep : s.step (.setString t x contents) = some s') : s'.SendInv := by
  cases hstep
  have hidle : s.threads t = none := hlegal.1
  refine ⟨?_, ?_, h.holding, h.looping⟩
  · intro f hf
    have hf' : f ∈ s.loop.unfinished := hf
    have hintact := h.intact f hf'
    cases f with
    | sendMessageFun u y message =>
        refine ⟨hintact.1, ?_⟩
        show Function.update s.strings t (Function.update (s.strings t) x contents) u y = _
        by_cases hu : u = t
        · subst hu
          rw [Function.update_self]
          -- this string is the one the functor refers to, so the same contents are written
          by_cases hy : y = x
          · subst hy
            rw [Function.update_self]
            exact hkeeps _ hf' message (by simp [SendFunctor.messageIn])
          · rw [Function.update_of_ne hy]
            exact hintact.2
        · rw [Function.update_of_ne hu]
          exact hintact.2
    | shutdownWR => exact hintact
    | connectedDestroyed | other => trivial
  · intro u f hu
    -- The thread is inside no call, so the functors in hand belong to others.
    have hne : u ≠ t := by
      rintro rfl
      rw [show s.threads u = some (.queueInLoop f) from hu] at hidle
      cases hidle
    refine (h.inHand u f hu).imp_right ?_
    rintro ⟨y, message, rfl, hstring⟩
    refine ⟨y, message, rfl, ?_⟩
    show Function.update s.strings t (Function.update (s.strings t) x contents) u y = _
    rw [Function.update_of_ne hne]
    exact hstring

/-- A thread copies or destroys a `TcpConnectionPtr`. -/
theorem SendInv.holders (h : s.SendInv) {holders : List ThreadId}
    (halive : (∃ f ∈ s.loop.unfinished, f.usesThis = true) →
      ({ s with holders := holders } : CrossSend).alive = true)
    (hholding : ∀ t, s.threads t ≠ none → .other t ∈ holders) :
    ({ s with holders := holders } : CrossSend).SendInv := by
  refine ⟨?_, h.inHand, hholding, h.looping⟩
  intro f hf
  exact (h.intact f hf).of_alive (fun huses => halive ⟨f, hf, huses⟩) rfl

theorem SendInv.drop (h : s.SendInv) {u : ThreadId} (hlegal : s.Legal (.drop u))
    (hkeeps : s.KeepsGiven (.drop u)) :
    ({ s with holders := s.holders.erase u } : CrossSend).SendInv := by
  refine h.holders ?_ ?_
  · rintro ⟨f, hf, huses⟩
    rw [alive_iff]
    by_contra hdead
    simp only [not_or, not_not] at hdead
    obtain ⟨hlisted, hempty, hheld⟩ := hdead
    -- What is erased is the last pointer, which the condition of the step excludes.
    have hlast : s.holders = [u] := by
      have hlen := List.length_erase_of_mem hlegal.2
      rw [hempty] at hlen
      obtain ⟨v, hv⟩ := List.length_eq_one_iff.mp
        (show s.holders.length = 1 by
          have hpos := List.length_pos_of_mem hlegal.2
          simp at hlen
          omega)
      have hmem := hlegal.2
      rw [hv, List.mem_singleton] at hmem
      rw [hv, hmem]
    have hnone := hkeeps ⟨hlast, by simpa using hlisted, hheld⟩ f hf
    rw [huses] at hnone
    cases hnone
  -- The thread that drops is inside no call, so the others hold theirs still.
  · intro t ht
    have hne : ThreadId.other t ≠ u := by
      rintro rfl
      exact ht hlegal.1.1
    exact (List.mem_erase_of_ne hne).mpr (h.holding t ht)

/-- `handleClose` and `removeConnection` hand the connection to their functor. -/
theorem SendInv.handleClose (h : s.SendInv) (hstep : s.step .handleClose = some s') :
    s'.SendInv := by
  obtain ⟨-, hstep⟩ := assert_bind_eq_some_iff.mp hstep
  obtain ⟨-, hstep⟩ := assert_bind_eq_some_iff.mp hstep
  obtain ⟨loop, hloop, hstep⟩ := bind_eq_some_iff.mp hstep
  cases hstep
  refine ⟨?_, h.inHand, h.holding, ?_⟩
  · intro f hf
    rcases LoopThread.mem_unfinished_step hloop hf with hold | hpushed
    · refine (h.intact f hold).of_alive (fun _ => ?_) rfl
      rw [alive_iff]
      -- The queue has the new functor, which holds the connection.
      refine Or.inr (Or.inr ?_)
      show _ ∈ loop.held
      rw [LoopThread.mem_held_queueInLoop hloop]
      simp
    · cases hpushed
      trivial
  · cases hloop
    exact h.looping

/-- Every step that keeps what the functors were given. -/
theorem SendInv.step (h : s.SendInv) (hlegal : s.Legal a) (hkeeps : s.KeepsGiven a)
    (hstep : s.step a = some s') : s'.SendInv := by
  cases a with
  | loop loopAction => exact h.loop hlegal hkeeps hstep
  | send t x => exact h.send hlegal hstep
  | shutdown t => exact h.shutdown hlegal hstep
  | resume t => exact h.resume hstep
  | setString t x contents => exact h.setString hlegal hkeeps hstep
  | hold u =>
      cases hstep
      refine h.holders (fun _ => ?_) fun t ht => List.mem_cons_of_mem _ (h.holding t ht)
      rw [alive_iff]
      exact Or.inr (Or.inl (by simp))
  | drop u =>
      cases hstep
      exact h.drop hlegal hkeeps
  | shutdownInThread =>
      cases hstep
      exact ⟨h.intact, h.inHand, h.holding, h.looping⟩
  | handleClose => exact h.handleClose hstep

/-! ### Every run -/

/-- An established connection that no thread is calling, in a loop that was in use before. -/
structure Established (s : CrossSend) : Prop where
  loop : ∃ s₀ as, LoopThread.Unused s₀ ∧ (loopThreadMachine SendFunctor).Run s₀ as s.loop
  fresh : ∀ f ∈ s.loop.held, f = .other
  state : s.state = .kConnected
  listed : s.listed = true
  threads : ∀ t, s.threads t = none

theorem Established.sendInv (h : s.Established) : s.SendInv := by
  obtain ⟨s₀, as, hstart, hrun⟩ := h.loop
  refine ⟨?_, ?_, ?_, ?_⟩
  · intro f hf
    rw [h.fresh f (LoopThread.mem_held_of_mem_unfinished hf)]
    trivial
  · intro t f hpc
    rw [h.threads t] at hpc
    cases hpc
  · intro t ht
    exact absurd (h.threads t) ht
  · refine hrun.invariant (I := fun s => s.pc.inLoop = true → s.looping = true) ?_ ?_
    · rcases hstart with rfl | rfl <;> exact fun hin => by cases hin
    · intro s a s' hs hlegal hstep
      exact LoopThread.looping_step hs hlegal hstep

/-- After the last pointer the connection is dead. -/
theorem not_alive_of_dropsLast (hlast : s.DropsLast a)
    (hstep : s.step a = some s') :
    s'.alive = false ∧ s'.loop.unfinished = s.loop.unfinished := by
  have dead : ¬ s'.alive = true → s'.alive = false := by simp
  cases a with
  | drop u =>
      obtain ⟨hholders, hlisted, hheld⟩ := hlast
      cases hstep
      refine ⟨dead ?_, rfl⟩
      rw [alive_iff, hholders, hlisted]
      simpa using hheld
  | loop loopAction =>
      cases loopAction with
      | advance =>
          obtain ⟨hholders, hlisted, hend, hpending⟩ := hlast
          obtain ⟨state, -, hstep⟩ := bind_eq_some_iff.mp hstep
          obtain ⟨loop, hloop, hstep⟩ := bind_eq_some_iff.mp hstep
          cases hstep
          obtain ⟨fs, hpc⟩ : ∃ fs, s.loop.pc = .clear fs := by
            cases hpos : s.loop.pc <;> simp [hpos, LoopThreadPc.endsPass] at hend
            exact ⟨_, rfl⟩
          have hadvance : loop.held = s.loop.pendingFunctors ∧
              loop.unfinished = s.loop.unfinished := by
            cases hloop
            rw [LoopThread.unfinished_eq, LoopThread.unfinished_eq, LoopThread.advance, hpc]
            exact ⟨rfl, rfl⟩
          refine ⟨dead ?_, hadvance.2⟩
          rw [alive_iff]
          show ¬ (s.listed = true ∨ s.holders ≠ [] ∨ _ ∈ loop.held)
          rw [hholders, hlisted, hadvance.1]
          simpa using hpending
      | _ => exact hlast.elim
  | _ => exact hlast.elim

/-- A step that leaves all unfinished functors intact has kept what they were given. -/
theorem keepsGiven_of_intact (hstep : s.step a = some s')
    (hintact : ∀ f ∈ s'.loop.unfinished, s'.Intact f) : s.KeepsGiven a := by
  have last : s.DropsLast a → ∀ f ∈ s.loop.unfinished, f.usesThis = false := by
    intro hlast f hf
    obtain ⟨hdead, hsame⟩ := not_alive_of_dropsLast hlast hstep
    by_contra huses
    have halive := (hintact f (by rw [hsame]; exact hf)).alive (by simpa using huses)
    rw [hdead] at halive
    cases halive
  cases a with
  | setString t x contents =>
      cases hstep
      intro f hf message hmessage
      have hf' := hintact f hf
      cases f with
      | sendMessageFun u y given =>
          simp only [SendFunctor.messageIn] at hmessage
          split at hmessage
          · rename_i heq
            obtain ⟨rfl, rfl⟩ := heq
            cases hmessage
            have hstring := hf'.2
            simpa using hstring
          · cases hmessage
      | _ => cases hmessage
  | _ => exact last

/-- The condition is exact: a run keeps all unfinished functors intact, so that the loop may
call them at any time, exactly if each of its steps keeps what they were given. -/
theorem unfinished_intact_iff (s₀ : CrossSend) (hest : s₀.Established)
    (as : List CrossSendAction) (s : CrossSend) (hrun : crossSendMachine.Run s₀ as s) :
    crossSendMachine.Throughout s₀ as (fun s => ∀ f ∈ s.loop.unfinished, s.Intact f) ↔
      crossSendMachine.EveryStep s₀ as KeepsGiven := by
  refine Machine.throughout_iff_of_restrict (I := SendInv) hest.sendInv ?_ ?_ ?_ hrun
  · intro s a s' h hlegal hkeeps hstep
    exact h.step hlegal hkeeps hstep
  · intro s h
    exact h.intact
  · intro s a s' _ _ hstep hintact
    exact keepsGiven_of_intact hstep hintact

/-- A call of `send` or `shutdown` from another thread acts on what it was given. In every run
of an established connection with calls from any threads, the strings and pointers of these
threads, the removal of the connection and the loop, in which every step keeps what the
unfinished functors were given: as long as the loop is inside a functor of `send`, the
connection is alive and the string has the contents that it had at the call, and as long as
it is inside one of `shutdown`, the connection is alive. -/
theorem given_when_called (s₀ : CrossSend) (hest : s₀.Established)
    (as : List CrossSendAction) (s : CrossSend) (hrun : crossSendMachine.Run s₀ as s)
    (hkeeps : crossSendMachine.EveryStep s₀ as KeepsGiven) :
    (∀ t x message, s.loop.running = some (.sendMessageFun t x message) →
      s.alive = true ∧ s.strings t x = some message) ∧
    (s.loop.running = some .shutdownWR → s.alive = true) := by
  have hall := (unfinished_intact_iff s₀ hest as s hrun).mpr hkeeps
  have hintact : ∀ f, s.loop.running = some f → s.Intact f := by
    intro f hf
    exact hall as s (List.prefix_refl as) hrun f (LoopThread.mem_unfinished_of_running hf)
  constructor
  · intro t x message hrunning
    exact hintact _ hrunning
  · intro hrunning
    exact hintact _ hrunning

/-! ### A string that changes after the call -/

/-- Another thread holds the connection and has one string. -/
def sender : CrossSend where
  loop := LoopThread.new
  state := .kConnected
  listed := true
  holders := [.other 0]
  strings t x := if t = 0 ∧ x = 0 then some [1, 2] else none
  threads _ := none

theorem sender_established : sender.Established where
  loop := ⟨LoopThread.new, [], Or.inl rfl, .start⟩
  fresh := by simp [sender, LoopThread.held, LoopThread.new]
  state := rfl
  listed := rfl
  threads _ := rfl

/-- `send` of the string, from the test of `state_` to the return. -/
def sendCall : List CrossSendAction := [.send 0 0, .resume 0, .loop (.finish (.other 0))]

/-- The loop, from its start into its first functor. -/
def loopToFunctor : List CrossSendAction :=
  [.loop (.loop .loop), .loop .advance, .loop .advance, .loop .advance, .loop .handleRead,
    .loop .advance, .loop .advance, .loop .advance, .loop .advance]

/-- The theorem at a thread that keeps its string. -/
theorem given_when_called_kept :
    ∃ s, crossSendMachine.Run sender (sendCall ++ loopToFunctor) s ∧
      s.loop.running = some (.sendMessageFun 0 0 [1, 2]) ∧
      s.alive = true ∧ s.strings 0 0 = some [1, 2] := by
  obtain ⟨s, hrun, hrunning⟩ := Machine.exists_run (M := crossSendMachine.restrict KeepsGiven)
    (P := fun s => s.loop.running = some (.sendMessageFun 0 0 [1, 2])) sender
    (sendCall ++ loopToFunctor) (by decide +kernel)
  obtain ⟨hrun', hkeeps⟩ := Machine.run_restrict.mp hrun
  exact ⟨s, hrun', hrunning,
    (given_when_called sender sender_established _ s hrun' hkeeps).1 0 0 [1, 2] hrunning⟩

/-- A thread that writes its string after `send` has returned changes what is sent. -/
theorem not_given_when_called :
    ¬ ∀ s₀ : CrossSend, s₀.Established → ∀ as s, crossSendMachine.Run s₀ as s →
      ∀ t x message, s.loop.running = some (.sendMessageFun t x message) →
        s.alive = true ∧ s.strings t x = some message := by
  intro hall
  obtain ⟨s, hrun, hrunning, hstring⟩ := Machine.exists_run (M := crossSendMachine)
    (P := fun s => s.loop.running = some (.sendMessageFun 0 0 [1, 2]) ∧
      s.strings 0 0 = some [3]) sender
    (sendCall ++ [.setString 0 0 (some [3])] ++ loopToFunctor) (by decide +kernel)
  have hgiven := (hall sender sender_established _ s hrun 0 0 [1, 2] hrunning).2
  rw [hstring] at hgiven
  cases hgiven

end CrossSend

end SecondGear
