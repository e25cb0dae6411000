import SecondGear.Lib.Monitor

/-!
# `SecondGear.Lib.MonitorProgress`: nobody waits for ever

Where the data of a monitor is not blocked, a thread in `await` is kept from going on by the
thread inside alone, and that one is at most three steps from unlocking. With
`SecondGear.Lib.Monitor` nobody is parked then without a notification to come.

* `Leaving`: the state that this starts from.
* `leads_outside`: a run leads out of `await`, of steps of the two threads only.
-/

set_option autoImplicit false

namespace SecondGear.Lib

namespace MonitorPc

variable {υ : Type}

/-- How many steps it is from being out of `await`, where the data is not blocked. -/
def stepsToLeave : MonitorPc υ → Nat
  | .await | .waiting => 3
  | .test => 2
  | .leave => 1
  | .outside | .wait | .update _ | .store _ | .notify | .release => 0

/-- How many steps it is from unlocking, where the data is not blocked. -/
def stepsToUnlock : MonitorPc υ → Nat
  | .store _ => 3
  | .notify | .test => 2
  | .release | .leave => 1
  | .outside | .await | .wait | .waiting | .update _ => 0

end MonitorPc

namespace Monitor

variable {T δ υ : Type} [DecidableEq T] {c : MonitorCode δ υ} {s s' : Monitor T δ υ}

/-- `t` is in `await`, and the data is not blocked, nor will it be when the thread inside has
stored. -/
structure Leaving (c : MonitorCode δ υ) (d : δ) (D : δ → Prop) (w t : T) (s : Monitor T δ υ) :
    Prop where
  inv : s.Inv
  sound : Sound c d s
  covered : s.Covered c
  data : D s.data
  one : c.all = true ∨ s.OneWaiter w
  pass : c.blocked s.data = false
  store : ∀ u v, s.threads u = .store v → c.blocked (c.store v s.data) = false
  inside : (s.threads t).inAwait = true ∨ s.threads t = .outside

/-- The other threads stay where they are. -/
theorem next_ne {t u : T} (h : u ≠ t) (woken : Option T) :
    (s.next c t woken).threads u = s.threads u := by
  rw [next]
  cases s.threads t with
  | outside => rfl
  | test =>
      dsimp only
      split <;> exact setPc_ne s h _
  | _ => exact setPc_ne s h _

/-- The data is stored by a thread in front of its store. -/
theorem next_data (c : MonitorCode δ υ) (s : Monitor T δ υ) (t : T) (woken : Option T) :
    (∃ v, s.threads t = .store v ∧ (s.next c t woken).data = c.store v s.data) ∨
      (∀ v, s.threads t ≠ .store v) ∧ (s.next c t woken).data = s.data := by
  rw [next]
  cases hpc : s.threads t with
  | store v => exact .inl ⟨v, rfl, rfl⟩
  | test =>
      dsimp only
      split <;> exact .inr ⟨by simp, rfl⟩
  | _ => exact .inr ⟨by simp, rfl⟩

/-- A thread comes to its store from the call of `update`. -/
theorem update_of_next {t : T} {woken : Option T} {v : υ}
    (h : (s.next c t woken).threads t = .update v ∨ (s.next c t woken).threads t = .store v) :
    s.threads t = .update v ∨ s.threads t = .store v := by
  have hother : ∀ pc : MonitorPc υ, pc ≠ .update v → pc ≠ .store v →
      ¬ ((s.setPc t pc).threads t = .update v ∨ (s.setPc t pc).threads t = .store v) := by
    intro pc hupdate hstore
    rw [setPc_self]
    exact not_or.mpr ⟨hupdate, hstore⟩
  rw [next] at h
  cases hpc : s.threads t with
  | update v' =>
      rw [hpc] at h
      have hnow : MonitorPc.store v' = .update v ∨ MonitorPc.store v' = .store v := by
        simpa using h
      simpa using hnow
  | outside =>
      rw [hpc] at h
      dsimp only at h
      rwa [hpc] at h
  | test =>
      rw [hpc] at h
      dsimp only at h
      split at h <;> exact absurd h (hother _ (by simp) (by simp))
  | _ =>
      rw [hpc] at h
      exact absurd h (hother _ (by simp) (by simp))

/-- A thread in `await` goes on in it, or out of it. -/
theorem inside_of_next {t : T} {woken : Option T}
    (h : (s.threads t).inAwait = true ∨ s.threads t = .outside) :
    ((s.next c t woken).threads t).inAwait = true ∨ (s.next c t woken).threads t = .outside := by
  rw [next]
  cases hpc : s.threads t with
  | outside => exact .inr hpc
  | leave => exact .inr (setPc_self s t _)
  | await | waiting | wait =>
      refine .inl ?_
      show ((s.setPc t _).threads t).inAwait = true
      rw [setPc_self]
      rfl
  | test =>
      dsimp only
      refine .inl ?_
      split
      · show ((s.setPc t _).threads t).inAwait = true
        rw [setPc_self]
        rfl
      · show ((s.setPc t _).threads t).inAwait = true
        rw [setPc_self]
        rfl
  | update v | store v | notify | release =>
      rw [hpc] at h
      simp [MonitorPc.inAwait] at h

/-- No step of a thread is a call of `await`. -/
theorem OneWaiter.next {w : T} (hone : s.OneWaiter w) (t : T) (woken : Option T) :
    (s.next c t woken).OneWaiter w := by
  have hmove : ∀ pc : MonitorPc υ, (pc.inAwait = true → (s.threads t).inAwait = true) →
      (s.setPc t pc).OneWaiter w := by
    intro pc hpc u hu
    by_cases heq : u = t
    · subst heq
      rw [setPc_self] at hu
      exact hone u (hpc hu)
    · rw [setPc_ne s heq] at hu
      exact hone u hu
  rw [Monitor.next]
  cases hpc : s.threads t with
  | outside => exact hone
  | test =>
      dsimp only
      split
      · exact hmove .wait fun _ => by rw [hpc]; rfl
      · exact hmove .leave fun _ => by rw [hpc]; rfl
  | await => exact hmove .test fun _ => by rw [hpc]; rfl
  | waiting => exact hmove .test fun _ => by rw [hpc]; rfl
  | wait => exact hmove .waiting fun _ => by rw [hpc]; rfl
  | leave => exact hmove .outside (by simp [MonitorPc.inAwait])
  | release => exact hmove .outside (by simp [MonitorPc.inAwait])
  | update v => exact hmove (.store v) (by simp [MonitorPc.inAwait])
  | store v => exact hmove .notify (by simp [MonitorPc.inAwait])
  | notify => exact hmove .release (by simp [MonitorPc.inAwait])

/-- The next step of a thread that is not to lock for a store. -/
theorem Leaving.next {d : δ} {D : δ → Prop} {w t u : T} {woken : Option T}
    (h : s.Leaving c d D w t) (hcode : Notifying c D) (hready : s.Ready u woken (s.threads u))
    (hnot : ∀ v, s.threads u ≠ .update v) : (s.next c u woken).Leaving c d D w t := by
  have hstep : Step c s (s.next c u woken) := step_cases (a := .next u woken) hready
  refine ⟨h.inv.step hstep, h.sound.step h.inv hstep,
    h.covered.step h.inv h.sound hcode h.data h.one hstep, ?_, h.one.imp_right (·.next u woken),
    ?_, fun x v hx => ?_, ?_⟩
  · rcases next_data c s u woken with ⟨v, -, heq⟩ | ⟨-, heq⟩
    · rw [heq]
      exact hcode.store v _ h.data
    · rw [heq]
      exact h.data
  · rcases next_data c s u woken with ⟨v, hpc, heq⟩ | ⟨-, heq⟩
    · rw [heq]
      exact h.store u v hpc
    · rw [heq]
      exact h.pass
  · -- Whoever is in front of a store was there before, and nobody else has stored since.
    have hbefore : s.threads x = .store v := by
      by_cases heq : x = u
      · subst heq
        exact (update_of_next (.inr hx)).resolve_left (hnot v)
      · rwa [next_ne heq] at hx
    rcases next_data c s u woken with ⟨v', hpc, -⟩ | ⟨-, heq⟩
    · obtain rfl := h.inv.holds_inj (t := u) (by rw [hpc]; rfl) (u := x) (by rw [hbefore]; rfl)
      have hafter : (s.next c x woken).threads x = .notify := by
        rw [Monitor.next, hpc]
        exact setPc_self s x _
      rw [hafter] at hx
      cases hx
    · rw [heq]
      exact h.store x v hbefore
  · by_cases heq : t = u
    · subst heq
      exact inside_of_next h.inside
    · rw [next_ne heq]
      exact h.inside

/-- How far `t` is from being out: its own steps, and those of another thread inside. -/
def stepsToOutside (t : T) (s : Monitor T δ υ) : Nat :=
  (s.threads t).stepsToLeave +
    s.holder.elim 0 fun u => if u = t then 0 else (s.threads u).stepsToUnlock

/-- The distance, when `u` is inside or has just come out. -/
theorem stepsToOutside_eq {t u : T} {pc : MonitorPc υ}
    (hthreads : s'.threads = Function.update s.threads u pc)
    (hholder : s'.holder = some u ∨ s'.holder = none ∧ pc.stepsToUnlock = 0) :
    stepsToOutside t s' = if t = u then pc.stepsToLeave
      else (s.threads t).stepsToLeave + pc.stepsToUnlock := by
  rw [stepsToOutside, hthreads]
  by_cases heq : t = u
  · subst heq
    rcases hholder with hholder | ⟨hholder, -⟩ <;> simp [hholder]
  · rcases hholder with hholder | ⟨hholder, hzero⟩
    · simp [hholder, heq, Ne.symm heq]
    · simp [hholder, heq, hzero]

/-- A step of the thread inside brings everybody nearer. -/
theorem Leaving.nearer {d : δ} {D : δ → Prop} {w t u : T} (h : s.Leaving c d D w t)
    (pc : MonitorPc υ) (hu : s.holder = some u)
    (hthreads : s'.threads = Function.update s.threads u pc)
    (hholder : s'.holder = some u ∨ s'.holder = none ∧ pc.stepsToUnlock = 0)
    (hunlock : pc.stepsToUnlock < (s.threads u).stepsToUnlock)
    (hleave : (s.threads u).inAwait = true → pc.stepsToLeave < (s.threads u).stepsToLeave) :
    stepsToOutside t s' < stepsToOutside t s := by
  rw [stepsToOutside_eq hthreads hholder,
    stepsToOutside_eq (Function.update_eq_self u s.threads).symm (.inl hu)]
  split
  · rename_i heq
    subst heq
    refine hleave (h.inside.resolve_right fun hout => ?_)
    -- The thread inside is not outside.
    have hholds := (h.inv.mutex t).mpr hu
    rw [hout] at hholds
    cases hholds
  · omega

/-- Somebody can go on, and `t` is nearer then. -/
theorem Leaving.progress {d : δ} {D : δ → Prop} {w t : T} (h : s.Leaving c d D w t)
    (hcode : Notifying c D) : s.threads t = .outside ∨ ∃ u woken, s.Legal (.next u woken) ∧
      (s.next c u woken).Leaving c d D w t ∧
      stepsToOutside t (s.next c u woken) < stepsToOutside t s := by
  cases hholder : s.holder with
  | none =>
      -- The mutex is free, so `t` can lock it.
      have hlock : s.threads t = .outside ∨
          (s.threads t = .await ∨ s.threads t = .waiting) ∧ s.Ready t none (s.threads t) := by
        have hfree := h.inv.mutex t
        rw [hholder] at hfree
        cases hpc : s.threads t with
        | outside => exact .inl rfl
        | await => exact .inr ⟨.inl rfl, hholder⟩
        | waiting =>
            refine .inr ⟨.inr rfl, hholder, ?_⟩
            rcases h.covered h.pass with hnobody | ⟨v, hv, -⟩
            · simp [hnobody]
            · -- Nobody is in front of a notification.
              have hinside := (h.inv.mutex v).mp (by rw [hv]; rfl)
              rw [hholder] at hinside
              cases hinside
        | update v =>
            have hinside := h.inside
            rw [hpc] at hinside
            simp [MonitorPc.inAwait] at hinside
        | _ =>
            rw [hpc] at hfree
            simp [MonitorPc.holds] at hfree
      rcases hlock with hout | ⟨hpc, hready⟩
      · exact .inl hout
      · refine .inr ⟨t, none, hready, h.next hcode hready fun v hv => ?_, ?_⟩
        · rw [hv] at hpc
          simp at hpc
        · have hnext : s.next c t none = { s.setPc t .test with holder := some t } := by
            rw [Monitor.next]
            rcases hpc with hpc | hpc <;> rw [hpc]
          rw [hnext, stepsToOutside_eq (s := s) rfl (.inl rfl), if_pos rfl, stepsToOutside, hholder]
          rcases hpc with hpc | hpc <;> rw [hpc] <;> simp [MonitorPc.stepsToLeave]
  | some u =>
      -- The thread inside goes on.
      have hholds := (h.inv.mutex u).mpr hholder
      refine .inr ⟨u, s.parked.head?, ?_⟩
      have hready : s.Ready u s.parked.head? (s.threads u) := by
        cases hpc : s.threads u with
        | notify =>
            show s.parked.head?.elim (s.parked = []) (· ∈ s.parked)
            cases hparked : s.parked <;> simp
        | outside | await | waiting | update v =>
            rw [hpc] at hholds
            cases hholds
        | _ => trivial
      have hnot : ∀ v, s.threads u ≠ .update v := by
        intro v hv
        rw [hv] at hholds
        cases hholds
      refine ⟨hready, h.next hcode hready hnot, ?_⟩
      rw [Monitor.next]
      cases hpc : s.threads u with
      | outside | await | waiting | update v =>
          rw [hpc] at hholds
          cases hholds
      | wait =>
          have hblocked := h.sound.wait u hpc
          exact absurd (hblocked.symm.trans h.pass) (by simp)
      | test =>
          dsimp only
          rw [if_neg (by simp [h.pass])]
          exact h.nearer .leave hholder rfl (.inl hholder)
            (by simp [hpc, MonitorPc.stepsToUnlock])
            fun _ => by simp [hpc, MonitorPc.stepsToLeave]
      | leave =>
          exact h.nearer .outside hholder rfl (.inr ⟨rfl, rfl⟩)
            (by simp [hpc, MonitorPc.stepsToUnlock])
            fun _ => by simp [hpc, MonitorPc.stepsToLeave]
      | release =>
          exact h.nearer .outside hholder rfl (.inr ⟨rfl, rfl⟩)
            (by simp [hpc, MonitorPc.stepsToUnlock])
            fun hin => by simp [hpc, MonitorPc.inAwait] at hin
      | store v =>
          exact h.nearer .notify hholder rfl (.inl hholder)
            (by simp [hpc, MonitorPc.stepsToUnlock])
            fun hin => by simp [hpc, MonitorPc.inAwait] at hin
      | notify =>
          exact h.nearer .release hholder rfl (.inl hholder)
            (by simp [hpc, MonitorPc.stepsToUnlock])
            fun hin => by simp [hpc, MonitorPc.inAwait] at hin

/-- Where the data is not blocked, everybody in `await` can get out: by steps of its own and of
the thread inside. -/
theorem leads_outside {d : δ} {D : δ → Prop} {w t : T} (hcode : Notifying c D) :
    (monitorMachine c).Leads (fun s : Monitor T δ υ => s.Leaving c d D w t)
      (fun s => s.threads t = .outside) := by
  refine Machine.Leads.of_measure (stepsToOutside t) fun s h => ?_
  rcases h.progress hcode with hout | ⟨u, woken, hlegal, hnext, hless⟩
  · exact .inl hout
  · exact .inr ⟨.next u woken, s.next c u woken, hlegal, rfl, hnext, hless⟩

end Monitor

end SecondGear.Lib
