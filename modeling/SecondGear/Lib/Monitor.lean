import Mathlib.Data.List.Nodup
import Mathlib.Logic.Function.Basic
import SecondGear.Lib.Machine

/-!
# `SecondGear.Lib.Monitor`: a mutex, a condition and a guarded wait

The data of a monitor is used under a mutex by two methods:

    await:  lock; while (blocked) cond.wait(); unlock
    update: lock; store; if (notifies) cond.notify(); unlock

`MonitorCode` is such a pair of methods, and `monitorMachine` runs it for any number of threads,
one statement a step. `cond.wait()` unlocks and parks in one step, returns by a notification or
by itself, and needs the mutex to go on. `cond.notify()` wakes one thread that is parked, if
there is one, or all of them.

* `Inv`: one thread at most is inside, and who is parked is in `cond.wait()`.
* `Sound`: `await` leaves its loop only where the data is not blocked.
* `Covered`: where the data is not blocked, nobody is parked who is not to be notified.
-/

set_option autoImplicit false

namespace SecondGear.Lib

/-- The two methods. `δ` is the type of the data and `υ` the type of what `update` is given. -/
structure MonitorCode (δ υ : Type) where
  /-- the condition of the `while` loop -/
  blocked : δ → Bool
  store : υ → δ → δ
  /-- `update` notifies, at the data that it has stored -/
  notifies : δ → Bool
  /-- it wakes all threads, not one -/
  all : Bool

/-- Where a thread is. -/
inductive MonitorPc (υ : Type) where
  | outside
  /-- in `await`, `lock` comes next -/
  | await
  /-- the test of the loop comes next -/
  | test
  /-- `cond.wait()` comes next -/
  | wait
  /-- in `cond.wait()` -/
  | waiting
  /-- out of the loop, `unlock` comes next -/
  | leave
  /-- in `update`, `lock` comes next -/
  | update (u : υ)
  /-- the store comes next -/
  | store (u : υ)
  /-- the notification comes next -/
  | notify
  /-- `unlock` comes next -/
  | release
deriving DecidableEq, Repr

namespace MonitorPc

variable {υ : Type}

/-- The thread has the mutex. -/
def holds : MonitorPc υ → Bool
  | .test | .wait | .leave | .store _ | .notify | .release => true
  | .outside | .await | .waiting | .update _ => false

/-- The thread is in `await`. -/
def inAwait : MonitorPc υ → Bool
  | .await | .test | .wait | .waiting | .leave => true
  | .outside | .update _ | .store _ | .notify | .release => false

end MonitorPc

/-- A monitor and its threads. -/
structure Monitor (T δ υ : Type) where
  /-- who has the mutex -/
  holder : Option T
  /-- who is parked: in `cond.wait()` without a notification -/
  parked : List T
  data : δ
  threads : T → MonitorPc υ
  /-- all stores so far -/
  stores : List υ
  /-- for each time that `await` left its loop: how many stores there were -/
  left : List Nat

inductive MonitorAction (T υ : Type) where
  /-- a thread calls `await` -/
  | await (t : T)
  /-- a thread calls `update` -/
  | update (t : T) (u : υ)
  /-- the next step of a thread; when it is to notify one, `woken` is the one -/
  | next (t : T) (woken : Option T)
  /-- `cond.wait()` returns by itself -/
  | spurious (t : T)
deriving DecidableEq, Repr

namespace Monitor

variable {T δ υ : Type} [DecidableEq T]

/-- Nobody inside. -/
def start (d : δ) : Monitor T δ υ where
  holder := none
  parked := []
  data := d
  threads _ := .outside
  stores := []
  left := []

def setPc (s : Monitor T δ υ) (t : T) (pc : MonitorPc υ) : Monitor T δ υ :=
  { s with threads := Function.update s.threads t pc }

/-- The next step of a thread at `pc` can be taken: the mutex is free where it is needed, and a
notification of one finds a thread that is parked, if there is one. -/
def Ready (s : Monitor T δ υ) (t : T) (woken : Option T) : MonitorPc υ → Prop
  | .outside => False
  | .await | .update _ => s.holder = none
  | .waiting => s.holder = none ∧ t ∉ s.parked
  | .notify => woken.elim (s.parked = []) (· ∈ s.parked)
  | .test | .wait | .leave | .store _ | .release => True

/-- Threads go on where they are. -/
def Legal (s : Monitor T δ υ) : MonitorAction T υ → Prop
  | .await t | .update t _ => s.threads t = .outside
  | .next t woken => s.Ready t woken (s.threads t)
  | .spurious t => t ∈ s.parked

/-- What a notification leaves of those who are parked. -/
def notified (c : MonitorCode δ υ) (s : Monitor T δ υ) (woken : Option T) : List T :=
  if c.notifies s.data then
    if c.all then [] else woken.elim s.parked s.parked.erase
  else s.parked

/-- The next step of a thread. -/
def next (c : MonitorCode δ υ) (s : Monitor T δ υ) (t : T) (woken : Option T) :
    Monitor T δ υ :=
  match s.threads t with
  | .outside => s
  | .await | .waiting => { s.setPc t .test with holder := some t }
  | .test =>
      if c.blocked s.data then s.setPc t .wait
      else { s.setPc t .leave with left := s.left ++ [s.stores.length] }
  | .wait => { s.setPc t .waiting with holder := none, parked := s.parked ++ [t] }
  | .leave | .release => { s.setPc t .outside with holder := none }
  | .update u => { s.setPc t (.store u) with holder := some t }
  | .store u => { s.setPc t .notify with data := c.store u s.data, stores := s.stores ++ [u] }
  | .notify => { s.setPc t .release with parked := s.notified c woken }

def step (c : MonitorCode δ υ) (s : Monitor T δ υ) : MonitorAction T υ → Monitor T δ υ
  | .await t => s.setPc t .await
  | .update t u => s.setPc t (.update u)
  | .next t woken => s.next c t woken
  | .spurious t => { s with parked := s.parked.erase t }

end Monitor

def monitorMachine {T δ υ : Type} [DecidableEq T] (c : MonitorCode δ υ) :
    Machine (Monitor T δ υ) (MonitorAction T υ) where
  legal := Monitor.Legal
  step s a := some (s.step c a)

namespace Monitor

variable {T δ υ : Type} [DecidableEq T] {c : MonitorCode δ υ} {s s' : Monitor T δ υ}
  {a : MonitorAction T υ}

instance (s : Monitor T δ υ) (t : T) (woken : Option T) :
    (pc : MonitorPc υ) → Decidable (s.Ready t woken pc)
  | .outside => isFalse id
  | .await | .update _ => inferInstanceAs (Decidable (_ = _))
  | .waiting => inferInstanceAs (Decidable (_ ∧ _))
  | .notify =>
      match woken with
      | none => decidable_of_iff (s.parked.isEmpty = true) List.isEmpty_iff
      | some _ => inferInstanceAs (Decidable (_ ∈ _))
  | .test | .wait | .leave | .store _ | .release => isTrue trivial

instance [DecidableEq υ] (s : Monitor T δ υ) :
    (a : MonitorAction T υ) → Decidable (s.Legal a)
  | .await _ | .update _ _ => inferInstanceAs (Decidable (_ = _))
  | .next _ _ => inferInstanceAs (Decidable (s.Ready _ _ _))
  | .spurious _ => inferInstanceAs (Decidable (_ ∈ _))

instance [DecidableEq υ] (s : Monitor T δ υ) (a : MonitorAction T υ) :
    Decidable ((monitorMachine c).legal s a) :=
  inferInstanceAs (Decidable (s.Legal a))

/-! ### Steps -/

@[simp] theorem setPc_self (s : Monitor T δ υ) (t : T) (pc : MonitorPc υ) :
    (s.setPc t pc).threads t = pc := by
  simp [setPc]

@[simp] theorem setPc_ne (s : Monitor T δ υ) {t u : T} (h : u ≠ t) (pc : MonitorPc υ) :
    (s.setPc t pc).threads u = s.threads u := by
  simp [setPc, h]

@[simp] theorem setPc_data (s : Monitor T δ υ) (t : T) (pc : MonitorPc υ) :
    (s.setPc t pc).data = s.data :=
  rfl

/-- What a step can do. -/
inductive Step (c : MonitorCode δ υ) (s : Monitor T δ υ) : Monitor T δ υ → Prop
  | await {t : T} (hpc : s.threads t = .outside) : Step c s (s.setPc t .await)
  | update {t : T} (u : υ) (hpc : s.threads t = .outside) : Step c s (s.setPc t (.update u))
  | lock {t : T} (hpc : s.threads t = .await ∨ s.threads t = .waiting ∧ t ∉ s.parked)
      (hfree : s.holder = none) : Step c s { s.setPc t .test with holder := some t }
  | block {t : T} (hpc : s.threads t = .test) (hblocked : c.blocked s.data = true) :
      Step c s (s.setPc t .wait)
  | pass {t : T} (hpc : s.threads t = .test) (hpass : c.blocked s.data = false) :
      Step c s { s.setPc t .leave with left := s.left ++ [s.stores.length] }
  | park {t : T} (hpc : s.threads t = .wait) :
      Step c s { s.setPc t .waiting with holder := none, parked := s.parked ++ [t] }
  | unlock {t : T} (hpc : s.threads t = .leave ∨ s.threads t = .release) :
      Step c s { s.setPc t .outside with holder := none }
  | lockUpdate {t : T} {u : υ} (hpc : s.threads t = .update u) (hfree : s.holder = none) :
      Step c s { s.setPc t (.store u) with holder := some t }
  | store {t : T} {u : υ} (hpc : s.threads t = .store u) :
      Step c s { s.setPc t .notify with data := c.store u s.data, stores := s.stores ++ [u] }
  | notify {t : T} (woken : Option T) (hpc : s.threads t = .notify)
      (hwoken : woken.elim (s.parked = []) (· ∈ s.parked)) :
      Step c s { s.setPc t .release with parked := s.notified c woken }
  | spurious {t : T} (ht : t ∈ s.parked) : Step c s { s with parked := s.parked.erase t }

theorem step_cases (hlegal : s.Legal a) : Step c s (s.step c a) := by
  cases a with
  | await t => exact .await hlegal
  | update t u => exact .update u hlegal
  | spurious t => exact .spurious hlegal
  | next t woken =>
      rw [Legal] at hlegal
      rw [step, next]
      cases hpc : s.threads t with
      | outside =>
          rw [hpc] at hlegal
          exact hlegal.elim
      | await =>
          rw [hpc] at hlegal
          exact .lock (.inl hpc) hlegal
      | waiting =>
          rw [hpc] at hlegal
          exact .lock (.inr ⟨hpc, hlegal.2⟩) hlegal.1
      | test =>
          dsimp only
          split
          · rename_i hblocked
            exact .block hpc hblocked
          · rename_i hpass
            exact .pass hpc (Bool.eq_false_iff.mpr hpass)
      | wait => exact .park hpc
      | leave => exact .unlock (.inl hpc)
      | release => exact .unlock (.inr hpc)
      | update u =>
          rw [hpc] at hlegal
          exact .lockUpdate hpc hlegal
      | store u => exact .store hpc
      | notify =>
          rw [hpc] at hlegal
          exact .notify woken hpc hlegal

/-! ### The mutex and the condition -/

/-- One thread at most is inside, and who is parked is in `cond.wait()`, once. -/
structure Inv (s : Monitor T δ υ) : Prop where
  mutex : ∀ t, (s.threads t).holds = true ↔ s.holder = some t
  condition : ∀ t ∈ s.parked, s.threads t = .waiting
  nodup : s.parked.Nodup

omit [DecidableEq T] in
theorem start_inv (d : δ) : (start d : Monitor T δ υ).Inv where
  mutex t := by simp [start, MonitorPc.holds]
  condition t ht := by simp [start] at ht
  nodup := by simp [start]

omit [DecidableEq T] in
/-- Nobody else has the mutex. -/
theorem Inv.holds_inj (h : s.Inv) {t u : T} (ht : (s.threads t).holds = true)
    (hu : (s.threads u).holds = true) : u = t :=
  Option.some.inj (((h.mutex u).mp hu).symm.trans ((h.mutex t).mp ht))

/-- A thread that is not in `cond.wait()` moves. -/
theorem Inv.condition_setPc (h : s.Inv) {t : T} {pc : MonitorPc υ}
    (hpc : s.threads t ≠ .waiting ∨ t ∉ s.parked) :
    ∀ u ∈ s.parked, (s.setPc t pc).threads u = .waiting := by
  intro u hu
  by_cases heq : u = t
  · subst heq
    rcases hpc with hpc | hpc
    · exact absurd (h.condition u hu) hpc
    · exact absurd hu hpc
  · rw [setPc_ne s heq]
    exact h.condition u hu

/-- A thread keeps the mutex, or stays without it. -/
theorem Inv.mutex_setPc (h : s.Inv) {t : T} {pc : MonitorPc υ}
    (hpc : pc.holds = (s.threads t).holds) (u : T) :
    ((s.setPc t pc).threads u).holds = true ↔ s.holder = some u := by
  by_cases heq : u = t
  · subst heq
    rw [setPc_self, hpc, h.mutex]
  · rw [setPc_ne s heq, h.mutex]

/-- A thread takes the mutex. -/
theorem Inv.mutex_lock (h : s.Inv) (hfree : s.holder = none) {t : T} {pc : MonitorPc υ}
    (hpc : pc.holds = true) (u : T) :
    ((s.setPc t pc).threads u).holds = true ↔ some t = some u := by
  by_cases heq : u = t
  · subst heq
    simp [hpc]
  · rw [setPc_ne s heq, h.mutex, hfree, Option.some.injEq]
    simp [Ne.symm heq]

/-- A thread gives it back. -/
theorem Inv.mutex_unlock (h : s.Inv) {t : T} (ht : (s.threads t).holds = true)
    {pc : MonitorPc υ} (hpc : pc.holds = false) (u : T) :
    ((s.setPc t pc).threads u).holds = true ↔ none = some u := by
  by_cases heq : u = t
  · subst heq
    simp [hpc]
  · rw [setPc_ne s heq]
    constructor
    · exact fun hu => absurd (h.holds_inj ht hu) heq
    · exact fun hu => by cases hu

/-- Every step keeps it. -/
theorem Inv.step (h : s.Inv) (hstep : Step c s s') : s'.Inv := by
  cases hstep with
  | await hpc =>
      exact ⟨h.mutex_setPc (by rw [hpc]; rfl), h.condition_setPc (.inl (by simp [hpc])), h.nodup⟩
  | update u hpc =>
      exact ⟨h.mutex_setPc (by rw [hpc]; rfl), h.condition_setPc (.inl (by simp [hpc])), h.nodup⟩
  | lock hpc hfree =>
      refine ⟨h.mutex_lock hfree rfl, h.condition_setPc ?_, h.nodup⟩
      rcases hpc with hpc | ⟨-, hout⟩
      · exact .inl (by simp [hpc])
      · exact .inr hout
  | block hpc =>
      exact ⟨h.mutex_setPc (by rw [hpc]; rfl), h.condition_setPc (.inl (by simp [hpc])), h.nodup⟩
  | pass hpc =>
      exact ⟨h.mutex_setPc (by rw [hpc]; rfl), h.condition_setPc (.inl (by simp [hpc])), h.nodup⟩
  | @park t hpc =>
      refine ⟨h.mutex_unlock (by rw [hpc]; rfl) rfl, fun u hu => ?_, ?_⟩
      · rcases List.mem_append.mp hu with hu | hu
        · exact h.condition_setPc (.inl (by simp [hpc])) u hu
        · rw [List.mem_singleton.mp hu]
          exact setPc_self s t .waiting
      · have hout : t ∉ s.parked := fun ht => by
          rw [h.condition t ht] at hpc
          cases hpc
        exact List.nodup_append.mpr ⟨h.nodup, List.nodup_singleton t, by
          rintro u hu v hv rfl
          exact hout (List.mem_singleton.mp hv ▸ hu)⟩
  | unlock hpc =>
      refine ⟨h.mutex_unlock ?_ rfl, h.condition_setPc (.inl ?_), h.nodup⟩
      · rcases hpc with hpc | hpc <;> rw [hpc] <;> rfl
      · rcases hpc with hpc | hpc <;> simp [hpc]
  | lockUpdate hpc hfree =>
      exact ⟨h.mutex_lock hfree rfl, h.condition_setPc (.inl (by simp [hpc])), h.nodup⟩
  | store hpc =>
      exact ⟨h.mutex_setPc (by rw [hpc]; rfl), h.condition_setPc (.inl (by simp [hpc])), h.nodup⟩
  | notify woken hpc hwoken =>
      have hsub : (s.notified c woken).Sublist s.parked := by
        rw [notified]
        split
        · split
          · exact List.nil_sublist _
          · cases woken with
            | none => exact List.Sublist.refl _
            | some u => exact List.erase_sublist
        · exact List.Sublist.refl _
      refine ⟨h.mutex_setPc (by rw [hpc]; rfl), fun u hu => ?_, h.nodup.sublist hsub⟩
      exact h.condition_setPc (.inl (by simp [hpc])) u (hsub.subset hu)
  | spurious ht =>
      exact ⟨h.mutex, fun u hu => h.condition u (List.mem_of_mem_erase hu), h.nodup.erase _⟩

/-! ### The guarded wait -/

/-- The data `d` after some stores. -/
def after (c : MonitorCode δ υ) (d : δ) (us : List υ) : δ := us.foldl (fun d u => c.store u d) d

/-- `await` waits only where the data is blocked, and leaves its loop only where it is not. -/
structure Sound (c : MonitorCode δ υ) (d : δ) (s : Monitor T δ υ) : Prop where
  data : s.data = after c d s.stores
  wait : ∀ t, s.threads t = .wait → c.blocked s.data = true
  left : ∀ k ∈ s.left, k ≤ s.stores.length ∧ c.blocked (after c d (s.stores.take k)) = false

omit [DecidableEq T] in
theorem start_sound (c : MonitorCode δ υ) (d : δ) : Sound c d (start d : Monitor T δ υ) where
  data := rfl
  wait t ht := by simp [start] at ht
  left k hk := by simp [start] at hk

/-- A thread moves, and not to `cond.wait()`. -/
theorem wait_of_setPc {t u : T} {pc : MonitorPc υ} (hpc : pc ≠ .wait)
    (hu : (s.setPc t pc).threads u = .wait) : s.threads u = .wait := by
  by_cases heq : u = t
  · subst heq
    rw [setPc_self] at hu
    exact absurd hu hpc
  · rwa [setPc_ne s heq] at hu

/-- Every step keeps it. -/
theorem Sound.step {d : δ} (hsound : Sound c d s) (h : s.Inv) (hstep : Step c s s') :
    Sound c d s' := by
  obtain ⟨hdata, hwait, hleft⟩ := hsound
  cases hstep with
  | @block t hpc hblocked => exact ⟨hdata, fun _ _ => hblocked, hleft⟩
  | pass hpc hpass =>
      refine ⟨hdata, fun u hu => hwait u (wait_of_setPc (by simp) hu), fun k hk => ?_⟩
      rcases List.mem_append.mp hk with hbefore | hnow
      · exact hleft k hbefore
      · -- All stores so far lead to the data of the test.
        show k ≤ s.stores.length ∧ c.blocked (after c d (s.stores.take k)) = false
        rw [List.mem_singleton.mp hnow, List.take_length, ← hdata]
        exact ⟨Nat.le_refl _, hpass⟩
  | @store t v hpc =>
      refine ⟨?_, fun u hu => ?_, fun k hk => ?_⟩
      · show c.store v s.data = after c d (s.stores ++ [v])
        rw [hdata, after, after, List.foldl_append]
        rfl
      · -- The thread that stores has the mutex, so nobody is in front of `cond.wait()`.
        have hwaits : s.threads u = .wait := wait_of_setPc (by simp) hu
        obtain rfl := h.holds_inj (t := t) (by rw [hpc]; rfl) (u := u) (by rw [hwaits]; rfl)
        rw [hpc] at hwaits
        cases hwaits
      · obtain ⟨hk, hpass⟩ := hleft k hk
        show k ≤ (s.stores ++ [v]).length ∧
          c.blocked (after c d ((s.stores ++ [v]).take k)) = false
        rw [List.take_append_of_le_length hk, List.length_append]
        exact ⟨by omega, hpass⟩
  | spurious ht => exact ⟨hdata, hwait, hleft⟩
  | _ => exact ⟨hdata, fun u hu => hwait u (wait_of_setPc (by simp) hu), hleft⟩

/-! ### Notifications -/

/-- A store that lets threads go on notifies, for all data with `D`. -/
structure Notifying (c : MonitorCode δ υ) (D : δ → Prop) : Prop where
  store : ∀ u d, D d → D (c.store u d)
  notifies : ∀ u d, D d → c.blocked d = true → c.blocked (c.store u d) = false →
    c.notifies (c.store u d) = true

/-- Every step keeps `D`. -/
theorem Notifying.data_step {D : δ → Prop} (hcode : Notifying c D) (hdata : D s.data)
    (hstep : Step c s s') : D s'.data := by
  cases hstep with
  | store hpc => exact hcode.store _ _ hdata
  | _ => exact hdata

/-- Only `w` calls `await`. -/
def OneWaiter (w : T) (s : Monitor T δ υ) : Prop := ∀ u, (s.threads u).inAwait = true → u = w

/-- Where the data is not blocked, nobody is parked who is not to be notified. -/
def Covered (c : MonitorCode δ υ) (s : Monitor T δ υ) : Prop :=
  c.blocked s.data = false →
    s.parked = [] ∨ ∃ t, s.threads t = .notify ∧ c.notifies s.data = true

omit [DecidableEq T] in
theorem start_covered (c : MonitorCode δ υ) (d : δ) : Covered c (start d : Monitor T δ υ) :=
  fun _ => .inl rfl

/-- A thread moves that is not in front of a notification. -/
theorem notify_setPc {t u : T} {pc : MonitorPc υ} (ht : s.threads t ≠ .notify)
    (hu : s.threads u = .notify) : (s.setPc t pc).threads u = .notify := by
  rw [setPc_ne s, hu]
  rintro rfl
  exact ht hu

omit [DecidableEq T] in
/-- Only `w` is parked. -/
theorem OneWaiter.parked {w : T} (hone : s.OneWaiter w) (h : s.Inv) {u : T} (hu : u ∈ s.parked) :
    s.parked = [w] := by
  have hall : ∀ v ∈ s.parked, v = w := fun v hv => hone v (by rw [h.condition v hv]; rfl)
  have hw : w ∈ s.parked := hall u hu ▸ hu
  have hiff := List.perm_ext_iff_of_nodup h.nodup (List.nodup_singleton w)
  refine List.perm_singleton.mp (hiff.mpr ?_)
  intro v
  rw [List.mem_singleton]
  exact ⟨hall v, fun hv => hv ▸ hw⟩

/-- A notification wakes everybody, when it is one for all or one thread waits at most. -/
theorem notified_eq_nil {w : T} (h : s.Inv) (hone : c.all = true ∨ s.OneWaiter w)
    (hnotifies : c.notifies s.data = true) {woken : Option T}
    (hwoken : woken.elim (s.parked = []) (· ∈ s.parked)) : s.notified c woken = [] := by
  rw [notified, if_pos hnotifies]
  rcases hone with hall | hone
  · rw [if_pos hall]
  · split
    · rfl
    · cases woken with
      | none => exact hwoken
      | some u =>
          have hparked := hone.parked h hwoken
          have hu : u = w := List.mem_singleton.mp (hparked ▸ hwoken)
          show s.parked.erase u = []
          rw [hparked, hu, List.erase_cons_head]

/-- Every step keeps it. -/
theorem Covered.step {D : δ → Prop} {d : δ} {w : T} (hcovered : s.Covered c) (h : s.Inv)
    (hsound : Sound c d s) (hcode : Notifying c D) (hdata : D s.data)
    (hone : c.all = true ∨ s.OneWaiter w) (hstep : Step c s s') : s'.Covered c := by
  intro hpass
  cases hstep with
  | park hpc =>
      -- It parks where the data is blocked.
      have hblocked := hsound.wait _ hpc
      exact absurd (hblocked.symm.trans hpass) (by simp)
  | @store t v hpc =>
      cases hblocked : c.blocked s.data with
      | true =>
          exact .inr ⟨t, setPc_self s t .notify, hcode.notifies v s.data hdata hblocked hpass⟩
      | false =>
          rcases hcovered hblocked with hnobody | ⟨u, hu, -⟩
          · exact .inl hnobody
          · -- Nobody else is inside.
            obtain rfl := h.holds_inj (t := t) (by rw [hpc]; rfl) (u := u) (by rw [hu]; rfl)
            rw [hpc] at hu
            cases hu
  | @notify t woken hpc hwoken =>
      refine .inl ?_
      show s.notified c woken = []
      by_cases hnotifies : c.notifies s.data = true
      · exact notified_eq_nil h hone hnotifies hwoken
      · rw [notified, if_neg hnotifies]
        exact (hcovered hpass).resolve_right fun ⟨_, _, hyes⟩ => hnotifies hyes
  | @spurious t ht =>
      rcases hcovered hpass with hnobody | hnotify
      · rw [hnobody] at ht
        cases ht
      · exact .inr hnotify
  | unlock hpc =>
      refine (hcovered hpass).imp_right fun ⟨u, hu, hyes⟩ => ⟨u, notify_setPc ?_ hu, hyes⟩
      rcases hpc with hpc | hpc <;> simp [hpc]
  | lock hpc =>
      refine (hcovered hpass).imp_right fun ⟨u, hu, hyes⟩ => ⟨u, notify_setPc ?_ hu, hyes⟩
      rcases hpc with hpc | ⟨hpc, -⟩ <;> simp [hpc]
  | await hpc | update _ hpc | block hpc | pass hpc | lockUpdate hpc =>
      refine (hcovered hpass).imp_right fun ⟨u, hu, hyes⟩ => ⟨u, notify_setPc ?_ hu, hyes⟩
      simp [hpc]

end Monitor

end SecondGear.Lib
