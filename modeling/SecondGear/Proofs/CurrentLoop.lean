import SecondGear.Model.CurrentLoop

/-!
# `SecondGear.Proofs.CurrentLoop`: one loop per thread

`Right` is what `getEventLoopOfCurrentThread` and `isInLoopThread` are for: the one is the thread's
living loop, and the other is true in the thread that constructed the loop and in no other. Two
things can break it. A destructor that runs elsewhere sets the wrong `t_loopInThisThread`, and a
thread that gets the id of an ended one passes for it. `OwnThread` excludes both.

* `Right.step_iff`: exactly the steps with `OwnThread` keep it.
* `one_loop_per_thread`: so do exactly the runs of such steps.
-/

set_option autoImplicit false

namespace SecondGear

open SecondGear.Lib

namespace CurrentLoop

variable {s s' : CurrentLoop} {a : CurrentLoopAction} {t l : Nat}

/-- Both tests of the current thread are right, and a loop runs in its own thread. -/
structure Right (s : CurrentLoop) : Prop where
  pointer : ∀ t l, s.Living t →
    ((s.thread t).loopInThisThread = some l ↔ (s.loop l).alive = true ∧ (s.loop l).creator = t)
  test : ∀ t l, s.Living t → (s.loop l).alive = true →
    (s.isInLoopThread t l = true ↔ (s.loop l).creator = t)
  runner : ∀ t l, (s.loop l).runner = some t → (s.loop l).creator = t

/-- A thread destroys its own loop, or one whose thread has ended when it has none itself. A new
thread has not got the id that a living loop has kept. -/
def OwnThread (s : CurrentLoop) : CurrentLoopAction → Prop
  | .spawn tid => ∀ l < s.loops, (s.loop l).alive = true → (s.loop l).threadId ≠ tid
  | .destroy t l => (s.loop l).creator = t ∨
      ¬ s.Living (s.loop l).creator ∧ (s.thread t).loopInThisThread = none
  | .exit _ | .construct _ | .loop _ _ | .loopReturns _ => True

instance (s : CurrentLoop) : (a : CurrentLoopAction) → Decidable (s.OwnThread a)
  | .spawn tid => inferInstanceAs (Decidable
      (∀ l < s.loops, (s.loop l).alive = true → (s.loop l).threadId ≠ tid))
  | .destroy _ _ => inferInstanceAs (Decidable (_ ∨ _))
  | .exit _ | .construct _ | .loop _ _ | .loopReturns _ => isTrue trivial

/-- What holds in every run. -/
structure Inv (s : CurrentLoop) : Prop where
  /-- the threads that were not started yet -/
  threads : ∀ t, s.threads ≤ t → ¬ s.Living t ∧ (s.thread t).loopInThisThread = none
  /-- the kernel's ids tell the living threads apart -/
  tids : ∀ t u tid, (s.thread t).tid = some tid → (s.thread u).tid = some tid → t = u
  /-- the loops that were not constructed yet -/
  loops : ∀ l, s.loops ≤ l → (s.loop l).alive = false
  pointers : ∀ t l, (s.thread t).loopInThisThread = some l → l < s.loops
  creators : ∀ l, (s.loop l).alive = true → (s.loop l).creator < s.threads

/-- In the beginning there is the main thread, and no loop. -/
theorem new_inv (tid : Nat) : (new tid).Inv where
  threads := by
    intro t ht
    have hne : t ≠ 0 := Nat.ne_of_gt ht
    simp [Living, new, hne]
  tids := by
    intro t u id ht hu
    simp only [new] at ht hu
    split at ht <;> split at hu <;> simp_all
  loops := fun _ _ => rfl
  pointers := by
    intro t l hl
    cases hl
  creators := by
    intro l hl
    cases hl

theorem new_right (tid : Nat) : (new tid).Right where
  pointer := by
    intro t l _
    simp [new]
  test := by
    intro t l _ hl
    cases hl
  runner := by
    intro t l hl
    cases hl

@[simp] theorem thread_setThread (s : CurrentLoop) (t u : Nat) (thread : ThreadLocals) :
    (s.setThread t thread).thread u = if u = t then thread else s.thread u :=
  Function.update_apply _ _ _ _

@[simp] theorem loop_setLoop (s : CurrentLoop) (l m : Nat) (loop : LoopObject) :
    (s.setLoop l loop).loop m = if m = l then loop else s.loop m :=
  Function.update_apply _ _ _ _

@[simp] theorem loop_setThread (s : CurrentLoop) (t : Nat) (thread : ThreadLocals) :
    (s.setThread t thread).loop = s.loop := rfl

@[simp] theorem threads_setThread (s : CurrentLoop) (t : Nat) (thread : ThreadLocals) :
    (s.setThread t thread).threads = s.threads := rfl

@[simp] theorem threads_setLoop (s : CurrentLoop) (l : Nat) (loop : LoopObject) :
    (s.setLoop l loop).threads = s.threads := rfl

@[simp] theorem thread_setLoop (s : CurrentLoop) (l : Nat) (loop : LoopObject) :
    (s.setLoop l loop).thread = s.thread := rfl

/-- Setting `t_loopInThisThread` changes no id. -/
theorem tid_points (s : CurrentLoop) (t u : Nat) (pointer : Option Nat) :
    ((s.setThread t { s.thread t with loopInThisThread := pointer }).thread u).tid =
      (s.thread u).tid := by
  rw [thread_setThread]
  split
  · rename_i hut
    rw [hut]
  · rfl

/-- Nor does it end a thread. -/
theorem living_points (s : CurrentLoop) (t u : Nat) (pointer : Option Nat) :
    (s.setThread t { s.thread t with loopInThisThread := pointer }).Living u ↔ s.Living u := by
  rw [Living, Living, tid_points]

/-- The constructor asserts that the thread has no loop yet, keeps the thread's id and makes
`t_loopInThisThread` point to the new loop. -/
theorem construct_spec (hstep : s.step (.construct t) = some s') :
    (s.thread t).loopInThisThread = none ∧ ∃ tid, (s.thread t).tid = some tid ∧
      s' = { (s.setLoop s.loops
          { creator := t, threadId := tid, runner := none, alive := true }).setThread t
          { s.thread t with loopInThisThread := some s.loops } with loops := s.loops + 1 } := by
  obtain ⟨hnone, hstep⟩ := assert_bind_eq_some_iff.mp hstep
  obtain ⟨tid, htid, hs'⟩ := bind_eq_some_iff.mp hstep
  exact ⟨hnone, tid, htid, (Option.some.inj hs').symm⟩

/-- `loop()` asserts that the loop does not run, and that it is called in the thread whose id the
loop has kept. -/
theorem loop_spec (hstep : s.step (.loop t l) = some s') :
    (s.loop l).runner = none ∧ s.isInLoopThread t l = true ∧
      s' = s.setLoop l { s.loop l with runner := some t } := by
  obtain ⟨hnone, hstep⟩ := assert_bind_eq_some_iff.mp hstep
  obtain ⟨htest, hs'⟩ := assert_bind_eq_some_iff.mp hstep
  exact ⟨hnone, htest, (Option.some.inj hs').symm⟩

/-- The destructor asserts that the loop does not run. It does not ask which thread runs it, and
clears the `t_loopInThisThread` of that one. -/
theorem destroy_spec (hstep : s.step (.destroy t l) = some s') :
    (s.loop l).runner = none ∧
      s' = (s.setLoop l { s.loop l with alive := false }).setThread t
        { s.thread t with loopInThisThread := none } := by
  obtain ⟨hidle, hs'⟩ := assert_bind_eq_some_iff.mp hstep
  exact ⟨hidle, (Option.some.inj hs').symm⟩

/-! ### Every step keeps the invariant -/

/-- A thread that is started lives in none of the places that are free. -/
theorem Inv.lt_of_living (h : s.Inv) (hlives : s.Living t) : t < s.threads := by
  by_contra hle
  exact (h.threads t (Nat.le_of_not_lt hle)).1 hlives

/-- A new thread has an id that no living thread has. The ids of ended threads are free again. -/
theorem Inv.step_spawn (h : s.Inv) {tid : Nat} (hlegal : s.Legal (.spawn tid)) :
    Inv { s.setThread s.threads { tid := some tid, loopInThisThread := none } with
      threads := s.threads + 1 } where
  threads := by
    intro t ht
    have hle : s.threads + 1 ≤ t := ht
    have hne : t ≠ s.threads := by omega
    simpa [Living, hne] using h.threads t (by omega)
  tids := by
    intro t u id ht hu
    -- The new id is that of no living thread.
    have hnew : ∀ v, (s.thread v).tid ≠ some tid := by
      intro v hv
      exact hlegal v (h.lt_of_living (by simp [Living, hv])) hv
    have ht : (if t = s.threads then ThreadLocals.mk (some tid) none
        else s.thread t).tid = some id := by simpa using ht
    have hu : (if u = s.threads then ThreadLocals.mk (some tid) none
        else s.thread u).tid = some id := by simpa using hu
    split at ht <;> split at hu
    · rename_i heq heq'
      rw [heq, heq']
    · rw [← Option.some.inj ht] at hu
      exact absurd hu (hnew u)
    · rw [← Option.some.inj hu] at ht
      exact absurd ht (hnew t)
    · exact h.tids t u id ht hu
  loops := h.loops
  pointers := by
    intro t l hl
    have hl : (if t = s.threads then ThreadLocals.mk (some tid) none
        else s.thread t).loopInThisThread = some l := by simpa using hl
    split at hl
    · cases hl
    · exact h.pointers t l hl
  creators := fun l hl => Nat.lt_succ_of_lt (h.creators l hl)

/-- A thread that ends gives its id back. What its loop has kept of it stays. -/
theorem Inv.step_exit (h : s.Inv) : (s.setThread t { s.thread t with tid := none }).Inv where
  threads := by
    intro u hu
    have hold := h.threads u hu
    by_cases hut : u = t
    · subst hut
      simpa [Living] using hold.2
    · simpa [Living, hut] using hold
  tids := by
    intro u v id hu hv
    by_cases hut : u = t
    · simp [hut] at hu
    · by_cases hvt : v = t
      · simp [hvt] at hv
      · exact h.tids u v id (by simpa [hut] using hu) (by simpa [hvt] using hv)
  loops := h.loops
  pointers := by
    intro u l hl
    by_cases hut : u = t
    · subst hut
      exact h.pointers u l (by simpa using hl)
    · exact h.pointers u l (by simpa [hut] using hl)
  creators := h.creators

/-- The constructor: the loop is the next one, and its thread is one that was started. -/
theorem Inv.step_construct (h : s.Inv) (hlives : s.Living t)
    (hstep : s.step (.construct t) = some s') : s'.Inv := by
  obtain ⟨-, tid, htid, rfl⟩ := construct_spec hstep
  have hlt := h.lt_of_living hlives
  refine ⟨fun u hu => ?_, fun u v id hu hv => ?_, fun l hl => ?_, fun u l hl => ?_, fun l hl => ?_⟩
  · have hle : s.threads ≤ u := hu
    have hut : u ≠ t := by omega
    simpa [Living, hut] using h.threads u hle
  · have hu : (s.thread u).tid = some id := (tid_points s t u _).symm.trans hu
    have hv : (s.thread v).tid = some id := (tid_points s t v _).symm.trans hv
    exact h.tids u v id hu hv
  · have hle : s.loops + 1 ≤ l := hl
    have hne : l ≠ s.loops := by omega
    simpa [hne] using h.loops l (by omega)
  · by_cases hut : u = t
    · subst hut
      have heq : s.loops = l := by simpa using hl
      rw [← heq]
      exact Nat.lt_succ_self _
    · exact Nat.lt_succ_of_lt (h.pointers u l (by simpa [hut] using hl))
  · by_cases hls : l = s.loops
    · subst hls
      simpa using hlt
    · simpa [hls] using h.creators l (by simpa [hls] using hl)

/-- A loop that changes neither its thread nor comes to life. -/
theorem Inv.of_setLoop (h : s.Inv) {loop : LoopObject}
    (hcreator : loop.creator = (s.loop l).creator)
    (halive : loop.alive = true → (s.loop l).alive = true) : (s.setLoop l loop).Inv where
  threads := h.threads
  tids := h.tids
  loops := by
    intro m hm
    have hold := h.loops m hm
    by_cases hml : m = l
    · subst hml
      by_contra hnot
      have halive' : loop.alive = true := by simpa using hnot
      rw [halive halive'] at hold
      cases hold
    · simpa [hml] using hold
  pointers := h.pointers
  creators := by
    intro m hm
    by_cases hml : m = l
    · subst hml
      have hm : loop.alive = true := by simpa using hm
      simpa [hcreator] using h.creators m (halive hm)
    · simpa [hml] using h.creators m (by simpa [hml] using hm)

/-- A thread that forgets its loop. -/
theorem Inv.of_forget (h : s.Inv) :
    (s.setThread t { s.thread t with loopInThisThread := none }).Inv where
  threads := by
    intro u hu
    have hold := h.threads u hu
    by_cases hut : u = t
    · subst hut
      simpa [Living] using hold.1
    · simpa [Living, hut] using hold
  tids := by
    intro u v id hu hv
    rw [tid_points] at hu hv
    exact h.tids u v id hu hv
  loops := h.loops
  pointers := by
    intro u l hl
    by_cases hut : u = t
    · simp [hut] at hl
    · exact h.pointers u l (by simpa [hut] using hl)
  creators := h.creators

/-- No step needs `OwnThread` for this: the invariant does not say that the tests are right. -/
theorem Inv.step (h : s.Inv) (hlegal : s.Legal a) (hstep : s.step a = some s') : s'.Inv := by
  cases a with
  | spawn tid =>
      cases hstep
      exact h.step_spawn hlegal
  | exit t =>
      cases hstep
      exact h.step_exit
  | construct t => exact h.step_construct hlegal hstep
  | loop t l =>
      obtain ⟨-, -, rfl⟩ := loop_spec hstep
      exact h.of_setLoop rfl id
  | loopReturns l =>
      cases hstep
      exact h.of_setLoop rfl id
  | destroy t l =>
      obtain ⟨-, rfl⟩ := destroy_spec hstep
      have hdead : (s.setLoop l { s.loop l with alive := false }).Inv := by
        refine h.of_setLoop ?_ ?_
        · rfl
        · intro halive
          cases halive
      exact hdead.of_forget

/-! ### Which steps keep the tests right -/

/-- A thread that is not there yet has neither a loop nor the id of one. -/
theorem Right.spawn_iff (h : s.Right) (hinv : s.Inv) {tid : Nat} :
    Right { s.setThread s.threads { tid := some tid, loopInThisThread := none } with
      threads := s.threads + 1 } ↔ s.OwnThread (.spawn tid) := by
  have hnotNew : ∀ l, (s.loop l).alive = true → (s.loop l).creator ≠ s.threads := by
    intro l hl
    exact Nat.ne_of_lt (hinv.creators l hl)
  constructor
  · intro hright l _ hl heq
    -- The new thread would pass for the one of this loop.
    have htest := hright.test s.threads l (by simp [Living]) hl
    have hpasses : (s.loop l).creator = s.threads := htest.mp (by simp [isInLoopThread, heq])
    exact hnotNew l hl hpasses
  · intro hown
    refine ⟨fun t l ht => ?_, fun t l ht hl => ?_, h.runner⟩
    · by_cases hnew : t = s.threads
      · simpa [hnew] using hnotNew l
      · simpa [hnew] using h.pointer t l (by simpa [Living, hnew] using ht)
    · by_cases hnew : t = s.threads
      · have hlt : l < s.loops := by
          by_contra hle
          have hdead := hinv.loops l (Nat.le_of_not_lt hle)
          have halive : (s.loop l).alive = true := hl
          rw [hdead] at halive
          cases halive
        have hid : tid ≠ (s.loop l).threadId := (hown l hlt hl).symm
        have hcreator : (s.loop l).creator ≠ s.threads := hnotNew l hl
        simp [isInLoopThread, hnew, hid, hcreator]
      · simpa [isInLoopThread, hnew] using h.test t l (by simpa [Living, hnew] using ht) hl

/-- The tests are about living threads, so an end takes away only what they have to say of that
one. -/
theorem Right.exit (h : s.Right) : Right (s.setThread t { s.thread t with tid := none }) where
  pointer := by
    intro u l hu
    have hne : u ≠ t := by
      rintro rfl
      simp [Living] at hu
    simpa [hne] using h.pointer u l (by simpa [Living, hne] using hu)
  test := by
    intro u l hu hl
    have hne : u ≠ t := by
      rintro rfl
      simp [Living] at hu
    simpa [isInLoopThread, hne] using h.test u l (by simpa [Living, hne] using hu) hl
  runner := h.runner

/-- The constructor. The thread had no loop, so it is right that it points to the new one. The loop
keeps its id, and no other living thread has that. -/
theorem Right.construct (h : s.Right) (hinv : s.Inv) (hlives : s.Living t)
    (hstep : s.step (.construct t) = some s') : s'.Right := by
  obtain ⟨hnone, tid, htid, rfl⟩ := construct_spec hstep
  have hfresh : ∀ u, (s.thread u).loopInThisThread ≠ some s.loops := by
    intro u hu
    exact absurd (hinv.pointers u s.loops hu) (Nat.lt_irrefl _)
  refine ⟨fun u l hu => ?_, fun u l hu hl => ?_, fun u l hl => ?_⟩
  · have hu : s.Living u := (living_points s t u _).mp hu
    have hold := h.pointer u l hu
    by_cases hut : u = t
    · subst hut
      by_cases hls : l = s.loops
      · simp [hls]
      · -- It had no loop, so no other loop is its own.
        rw [hnone] at hold
        have hnot : ¬ ((s.loop l).alive = true ∧ (s.loop l).creator = u) := by
          intro hboth
          cases hold.mpr hboth
        simpa [hls, Ne.symm hls] using hnot
    · by_cases hls : l = s.loops
      · simpa [hls, hut, Ne.symm hut] using hfresh u
      · simpa [hls, hut] using hold
  · have hu : s.Living u := (living_points s t u _).mp hu
    by_cases hls : l = s.loops
    · have hiff : (s.thread u).tid = some tid ↔ t = u := by
        constructor
        · intro heq
          exact hinv.tids t u tid htid heq
        · rintro rfl
          exact htid
      rw [← tid_points s t u (some s.loops)] at hiff
      simpa [isInLoopThread, hls] using hiff
    · have hl : (s.loop l).alive = true := by simpa [hls] using hl
      have hold := h.test u l hu hl
      rw [isInLoopThread, ← tid_points s t u (some s.loops)] at hold
      simpa [isInLoopThread, hls] using hold
  · by_cases hls : l = s.loops
    · simp [hls] at hl
    · simpa [hls] using h.runner u l (by simpa [hls] using hl)

/-- A loop that starts or ends its `loop()`. -/
theorem Right.setRunner (h : s.Right) {runner : Option Nat}
    (hrunner : ∀ t, runner = some t → (s.loop l).creator = t) :
    Right (s.setLoop l { s.loop l with runner }) where
  pointer := by
    intro t m ht
    have hold := h.pointer t m ht
    by_cases hml : m = l
    · subst hml
      simpa using hold
    · simpa [hml] using hold
  test := by
    intro t m ht hm
    by_cases hml : m = l
    · subst hml
      simpa [isInLoopThread] using h.test t m ht (by simpa using hm)
    · simpa [isInLoopThread, hml] using h.test t m ht (by simpa [hml] using hm)
  runner := by
    intro t m hm
    by_cases hml : m = l
    · subst hml
      simpa using hrunner t (by simpa using hm)
    · simpa [hml] using h.runner t m (by simpa [hml] using hm)

/-- A thread points to the loop that is destroyed exactly if it is the one that forgets it. -/
theorem Right.forgets_iff (h : s.Right) (hlives : s.Living t) (halive : (s.loop l).alive = true)
    (hown : s.OwnThread (.destroy t l)) {u m : Nat} (hu : s.Living u)
    (hm : (s.loop m).alive = true) (hcreator : (s.loop m).creator = u) : u = t ↔ m = l := by
  have hpointer := (h.pointer u m hu).mpr ⟨hm, hcreator⟩
  rcases hown with hown | ⟨hgone, hnone⟩
  · constructor
    · rintro rfl
      have hpointer' := (h.pointer u l hlives).mpr ⟨halive, hown⟩
      rw [hpointer'] at hpointer
      exact (Option.some.inj hpointer).symm
    · rintro rfl
      exact hcreator.symm.trans hown
  · refine iff_of_false ?_ ?_
    · rintro rfl
      rw [hnone] at hpointer
      cases hpointer
    · rintro rfl
      rw [hcreator] at hgone
      exact hgone hu

/-- The destructor, as it should be run: in the loop's own thread, or after the end of that one in a
thread without a loop. -/
theorem Right.destroy (h : s.Right) (hlives : s.Living t) (halive : (s.loop l).alive = true)
    (hown : s.OwnThread (.destroy t l)) (hstep : s.step (.destroy t l) = some s') : s'.Right := by
  obtain ⟨hidle, rfl⟩ := destroy_spec hstep
  refine ⟨fun u m hu => ?_, fun u m hu hm => ?_, fun u m hm => ?_⟩
  · have hu : s.Living u := (living_points s t u _).mp hu
    have hold := h.pointer u m hu
    have hforgets : (s.loop m).alive = true → (s.loop m).creator = u → (u = t ↔ m = l) :=
      h.forgets_iff hlives halive hown hu
    by_cases hut : u = t <;> by_cases hml : m = l
    · simp [hut, hml]
    · have hnot : ¬ ((s.loop m).alive = true ∧ (s.loop m).creator = u) := by
        rintro ⟨hm, hcreator⟩
        exact hml ((hforgets hm hcreator).mp hut)
      subst hut
      simpa [hml] using hnot
    · have hnot : (s.thread u).loopInThisThread ≠ some m := by
        intro hpointer
        obtain ⟨hm, hcreator⟩ := hold.mp hpointer
        exact hut ((hforgets hm hcreator).mpr hml)
      subst hml
      simpa [hut] using hnot
    · simpa [hut, hml] using hold
  · have hu : s.Living u := (living_points s t u _).mp hu
    have hml : m ≠ l := by
      rintro rfl
      simp at hm
    have hold := h.test u m hu (by simpa [hml] using hm)
    rw [isInLoopThread, ← tid_points s t u none] at hold
    simpa [isInLoopThread, hml] using hold
  · by_cases hml : m = l
    · subst hml
      have hrunner : (s.loop m).runner = some u := by simpa using hm
      rw [hidle] at hrunner
      cases hrunner
    · simpa [hml] using h.runner u m (by simpa [hml] using hm)

/-- If the tests are right behind it, the destructor was run as it should be. -/
theorem Right.ownThread_of_destroy (h : s.Right) (hlives : s.Living t)
    (halive : (s.loop l).alive = true) (hstep : s.step (.destroy t l) = some s')
    (hright : s'.Right) : s.OwnThread (.destroy t l) := by
  obtain ⟨-, rfl⟩ := destroy_spec hstep
  rcases eq_or_ne (s.loop l).creator t with hown | hother
  · exact .inl hown
  · refine .inr ⟨fun hcreator => ?_, ?_⟩
    · -- The thread of the loop would still point to it.
      have hold := (h.pointer _ l hcreator).mpr ⟨halive, rfl⟩
      have hpointer := hright.pointer (s.loop l).creator l
        (by simpa [Living, hother] using hcreator)
      have hdead := hpointer.mp (by simpa [hother] using hold)
      simp at hdead
    · -- The destroying thread would forget its own loop.
      cases hm : (s.thread t).loopInThisThread with
      | none => rfl
      | some m =>
          obtain ⟨hmalive, hmcreator⟩ := (h.pointer t m hlives).mp hm
          have hml : m ≠ l := by
            rintro rfl
            exact hother hmcreator
          have hpointer := hright.pointer t m (by simpa [Living] using hlives)
          have hkept := hpointer.mpr (by simpa [hml] using ⟨hmalive, hmcreator⟩)
          simp at hkept

/-- Exactly the steps with `OwnThread` keep both tests right. -/
theorem Right.step_iff (h : s.Right) (hinv : s.Inv) (hlegal : s.Legal a)
    (hstep : s.step a = some s') : s'.Right ↔ s.OwnThread a := by
  cases a with
  | spawn tid =>
      cases hstep
      exact h.spawn_iff hinv
  | exit t =>
      cases hstep
      exact iff_of_true h.exit trivial
  | construct t => exact iff_of_true (h.construct hinv hlegal hstep) trivial
  | loop t l =>
      obtain ⟨-, htest, rfl⟩ := loop_spec hstep
      refine iff_of_true (h.setRunner fun u hu => ?_) trivial
      cases hu
      exact (h.test t l hlegal.1 hlegal.2).mp htest
  | loopReturns l =>
      cases hstep
      exact iff_of_true (h.setRunner fun u hu => by cases hu) trivial
  | destroy t l =>
      constructor
      · exact h.ownThread_of_destroy hlegal.1 hlegal.2 hstep
      · intro hown
        exact h.destroy hlegal.1 hlegal.2 hown hstep

/-- `getEventLoopOfCurrentThread` and `isInLoopThread` are right in all of a run, and every loop
runs in the thread that constructed it, exactly if each step of the run has `OwnThread`. -/
theorem one_loop_per_thread (tid : Nat) {as : List CurrentLoopAction}
    (hrun : currentLoopMachine.Run (new tid) as s) :
    currentLoopMachine.Throughout (new tid) as Right ↔
      currentLoopMachine.EveryStep (new tid) as OwnThread := by
  refine Machine.throughout_iff_everyStep (new_inv tid) (new_right tid) ?_ ?_ hrun
  · intro s a s' hinv hlegal hstep
    exact hinv.step hlegal hstep
  · intro s a s' hinv hright hlegal hstep
    exact hright.step_iff hinv hlegal hstep

/-- A thread constructs a loop, runs it and destroys it, and ends. Another one gets its id. -/
theorem one_loop_per_thread_reuse : currentLoopMachine.Throughout (new 7)
    [.construct 0, .spawn 8, .construct 1, .loop 1 1, .loopReturns 1, .destroy 1 1, .exit 1,
      .spawn 8, .construct 2, .loop 2 2] Right := by
  obtain ⟨s, hrun, -⟩ := Machine.exists_run (M := currentLoopMachine.restrict OwnThread)
    (P := fun _ => True) (new 7)
    [.construct 0, .spawn 8, .construct 1, .loop 1 1, .loopReturns 1, .destroy 1 1, .exit 1,
      .spawn 8, .construct 2, .loop 2 2] (by decide +kernel)
  obtain ⟨hrun', hevery⟩ := Machine.run_restrict.mp hrun
  exact (one_loop_per_thread 7 hrun').mpr hevery

end CurrentLoop

end SecondGear
