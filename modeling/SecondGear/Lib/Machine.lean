import Mathlib.Data.List.Basic
import Mathlib.Data.List.Infix

/-!
# `SecondGear.Lib.Machine`: machines, runs, invariants

A `Machine` has a step function and a legality predicate. The step function is partial:
`none` is an execution that dies (a failed assertion). The legality predicate holds what
the callers and the environment promise about an action in a state.

`Run M s₀ as s` says that the actions `as`, each legal where it is taken, lead from `s₀`
to `s`. The rules:

* `everyStep_nil`, `everyStep_snoc`: a condition on the steps of a run, one step at a time;
* `Run.invariant`: a predicate that holds at the start and that each legal step keeps
  holds at the end of every run;
* `Run.since`: what an event leads to and every step keeps holds ever since;
* `Run.foldl_eq`: a function of the state that follows an abstract step, under an
  invariant, has followed the whole abstract run;
* `run_restrict`: the runs of a machine with more legality are the runs whose steps all
  meet the extra condition;
* `throughout_iff_of_restrict`, `throughout_iff_everyStep`: a predicate holds in every state
  of a run exactly when every step meets a condition, given the two step lemmas;
* `Leads.trans` / `Leads.iterate` / `Leads.of_measure`: runs that are known to exist;
* `Run.of_exec` / `exists_run`: a run computed by `exec` is a run.
-/

set_option autoImplicit false

namespace SecondGear.Lib

/-- A machine over states `σ` and actions `α`. -/
structure Machine (σ α : Type) where
  /-- What is promised about an action in the state where it is taken. -/
  legal : σ → α → Prop
  /-- One step. `none` is a step that does not return. -/
  step : σ → α → Option σ

namespace Machine

variable {σ τ α : Type} {M : Machine σ α}

/-- The actions lead from `s₀` to the final state, each of them legal where it is taken. -/
inductive Run (M : Machine σ α) (s₀ : σ) : List α → σ → Prop
  | start : Run M s₀ [] s₀
  | next {as : List α} {s s' : σ} {a : α} :
      Run M s₀ as s → M.legal s a → M.step s a = some s' → Run M s₀ (as ++ [a]) s'

/-- No legal step of any run from `s₀` dies. -/
def Safe (M : Machine σ α) (s₀ : σ) : Prop :=
  ∀ as s a, Run M s₀ as s → M.legal s a → (M.step s a).isSome

/-- `P` holds in every state that the actions `as` pass through. -/
def Throughout (M : Machine σ α) (s₀ : σ) (as : List α) (P : σ → Prop) : Prop :=
  ∀ pre s, pre <+: as → Run M s₀ pre s → P s

/-- `Q` holds of every step that the actions `as` take. -/
def EveryStep (M : Machine σ α) (s₀ : σ) (as : List α) (Q : σ → α → Prop) : Prop :=
  ∀ pre a s, pre ++ [a] <+: as → Run M s₀ pre s → Q s a

/-- The machine with a further condition on its actions. -/
def restrict (M : Machine σ α) (Q : σ → α → Prop) : Machine σ α where
  legal s a := M.legal s a ∧ Q s a
  step := M.step

/-! ### Shape of runs -/

/-- The last step of a run. -/
theorem Run.snoc_inv {s₀ s' : σ} {as : List α} {a : α} (h : Run M s₀ (as ++ [a]) s') :
    ∃ s, Run M s₀ as s ∧ M.legal s a ∧ M.step s a = some s' := by
  generalize hbs : as ++ [a] = bs at h
  cases h with
  | start => simp at hbs
  | @next as' s _ a' hrun hlegal hstep =>
      obtain ⟨rfl, rfl⟩ := List.append_inj' hbs rfl |>.imp_right (List.cons.inj · |>.1)
      exact ⟨s, hrun, hlegal, hstep⟩

/-- The empty run stays where it is. -/
theorem Run.nil_inv {s₀ s : σ} (h : Run M s₀ [] s) : s = s₀ := by
  generalize hbs : ([] : List α) = bs at h
  cases h with
  | start => rfl
  | next => simp at hbs

/-- The first step of a run. -/
theorem Run.cons_inv {s₀ s' : σ} {a : α} {as : List α} (h : Run M s₀ (a :: as) s') :
    ∃ s, (M.legal s₀ a ∧ M.step s₀ a = some s) ∧ Run M s as s' := by
  induction as using List.reverseRecOn generalizing s' with
  | nil =>
      obtain ⟨s, hrun, hlegal, hstep⟩ := Run.snoc_inv (show Run M s₀ ([] ++ [a]) s' from h)
      rw [hrun.nil_inv] at hlegal hstep
      exact ⟨s', ⟨hlegal, hstep⟩, .start⟩
  | append_singleton as b ih =>
      obtain ⟨t, hrun, hlegal, hstep⟩ := Run.snoc_inv (show Run M s₀ ((a :: as) ++ [b]) s' from h)
      obtain ⟨s, hfirst, hrest⟩ := ih hrun
      exact ⟨s, hfirst, hrest.next hlegal hstep⟩

/-- The actions determine the final state. -/
theorem Run.deterministic {s₀ s s' : σ} {as : List α} (h : Run M s₀ as s)
    (h' : Run M s₀ as s') : s = s' := by
  induction h generalizing s' with
  | start => exact h'.nil_inv.symm
  | next _ _ hstep ih =>
      obtain ⟨t, hrun, -, hstep'⟩ := h'.snoc_inv
      rw [← ih hrun, hstep] at hstep'
      exact Option.some.inj hstep'

/-- Two runs, one after the other. -/
theorem Run.append {s₀ s₁ s₂ : σ} {as bs : List α} (h : Run M s₀ as s₁)
    (h' : Run M s₁ bs s₂) : Run M s₀ (as ++ bs) s₂ := by
  induction h' with
  | start => simpa using h
  | next _ hlegal hstep ih =>
      rw [← List.append_assoc]
      exact ih.next hlegal hstep

/-- A run of one action. -/
theorem Run.single {s s' : σ} {a : α} (hlegal : M.legal s a)
    (hstep : M.step s a = some s') : Run M s [a] s' :=
  Run.start.next hlegal hstep

/-- A run without steps meets every condition on them. -/
theorem everyStep_nil {Q : σ → α → Prop} {s₀ : σ} : M.EveryStep s₀ [] Q := by
  intro pre a s hpre
  simp at hpre

/-- The steps of a run are those of the run without its last step, and the last one. -/
theorem everyStep_snoc {Q : σ → α → Prop} {s₀ s : σ} {as : List α} {a : α} (h : Run M s₀ as s) :
    M.EveryStep s₀ (as ++ [a]) Q ↔ M.EveryStep s₀ as Q ∧ Q s a := by
  constructor
  · intro hall
    refine ⟨fun pre b t hpre ht => ?_, hall as a s (List.prefix_refl _) h⟩
    exact hall pre b t (hpre.trans (List.prefix_append _ _)) ht
  · rintro ⟨hinit, hlast⟩ pre b t hpre ht
    rcases List.prefix_concat_iff.mp hpre with heq | hpre'
    · obtain ⟨rfl, rfl⟩ := List.append_inj' heq rfl |>.imp_right (List.cons.inj · |>.1)
      exact ht.deterministic h ▸ hlast
    · exact hinit pre b t hpre' ht

/-! ### Invariants -/

/-- The invariant rule: what holds at the start and is kept by every legal step holds at
the end of every run. -/
theorem Run.invariant {I : σ → Prop} {s₀ s : σ} {as : List α} (hinit : I s₀)
    (hstep : ∀ s a s', I s → M.legal s a → M.step s a = some s' → I s')
    (h : Run M s₀ as s) : I s := by
  induction h with
  | start => exact hinit
  | next _ hlegal hnext ih => exact hstep _ _ _ ih hlegal hnext

/-- The event rule: when a step with the event `E` leads to `P` and every step keeps `P`, a
run that took a step with `E` ends with `P`. -/
theorem Run.since {I P : σ → Prop} {E : σ → α → Prop} {s₀ s t : σ} {as pre : List α} {a : α}
    (hinit : I s₀) (hinv : ∀ s a s', I s → M.legal s a → M.step s a = some s' → I s')
    (hevent : ∀ s a s', I s → E s a → M.legal s a → M.step s a = some s' → P s')
    (hkeep : ∀ s a s', I s → P s → M.legal s a → M.step s a = some s' → P s')
    (h : Run M s₀ as s) (hpre : pre ++ [a] <+: as) (ht : Run M s₀ pre t) (hE : E t a) : P s := by
  induction h with
  | start => simp at hpre
  | next hrun hlegal hnext ih =>
      have hI := hrun.invariant hinit hinv
      rcases List.prefix_concat_iff.mp hpre with heq | hpre'
      · -- The event is the last step.
        obtain ⟨rfl, rfl⟩ := List.append_inj' heq rfl |>.imp_right (List.cons.inj · |>.1)
        rw [ht.deterministic hrun] at hE
        exact hevent _ _ _ hI hE hlegal hnext
      · exact hkeep _ _ _ hI (ih hpre') hlegal hnext

/-- The safety rule: under an invariant that every legal step keeps and from which every
legal step returns, no run dies. -/
theorem safe_of_invariant {I : σ → Prop} {s₀ : σ} (hinit : I s₀)
    (hstep : ∀ s a, I s → M.legal s a → ∃ s', M.step s a = some s' ∧ I s') :
    M.Safe s₀ := by
  intro as s a hrun hlegal
  have hI : I s := hrun.invariant hinit fun s a s' hs hl hs' => by
    obtain ⟨t, ht, hIt⟩ := hstep s a hs hl
    rw [hs'] at ht
    exact Option.some.inj ht ▸ hIt
  obtain ⟨s', hs', -⟩ := hstep s a hI hlegal
  simp [hs']

/-- The refinement rule: when each step moves the abstraction `f` by the abstract step
`g`, a run moves it by the abstract run. -/
theorem Run.foldl_eq {I : σ → Prop} {f : σ → τ} {g : τ → α → τ} {s₀ s : σ} {as : List α}
    (hinit : I s₀) (hstep : ∀ s a s', I s → M.legal s a → M.step s a = some s' → I s')
    (hsim : ∀ s a s', I s → M.legal s a → M.step s a = some s' → f s' = g (f s) a)
    (h : Run M s₀ as s) : f s = as.foldl g (f s₀) := by
  induction h with
  | start => rfl
  | next hrun hlegal hnext ih =>
      rw [List.foldl_append, List.foldl_cons, List.foldl_nil, ← ih]
      exact hsim _ _ _ (hrun.invariant hinit hstep) hlegal hnext

/-! ### Restricted machines -/

instance {Q : σ → α → Prop} [∀ s a, Decidable (M.legal s a)] [∀ s a, Decidable (Q s a)]
    (s : σ) (a : α) : Decidable ((M.restrict Q).legal s a) :=
  inferInstanceAs (Decidable (M.legal s a ∧ Q s a))

/-- A run of the restricted machine is a run of the machine. -/
theorem Run.of_restrict {Q : σ → α → Prop} {s₀ s : σ} {as : List α}
    (h : Run (M.restrict Q) s₀ as s) : Run M s₀ as s := by
  induction h with
  | start => exact .start
  | next _ hlegal hstep ih => exact ih.next hlegal.1 hstep

/-- The runs of the restricted machine are the runs whose every step meets the
condition. -/
theorem run_restrict {Q : σ → α → Prop} {s₀ s : σ} {as : List α} :
    Run (M.restrict Q) s₀ as s ↔ Run M s₀ as s ∧ M.EveryStep s₀ as Q := by
  constructor
  · intro h
    refine ⟨h.of_restrict, ?_⟩
    induction h with
    | start => exact everyStep_nil
    | next hrun hlegal hstep ih => exact (everyStep_snoc hrun.of_restrict).mpr ⟨ih, hlegal.2⟩
  · rintro ⟨h, hQ⟩
    induction h with
    | start => exact .start
    | next hrun hlegal hstep ih =>
        obtain ⟨hinit, hlast⟩ := (everyStep_snoc hrun).mp hQ
        exact (ih hinit).next ⟨hlegal, hlast⟩ hstep

/-- A prefix of a run is a run, from the same start. -/
theorem Run.of_prefix {s₀ s : σ} {as pre : List α} (h : Run M s₀ as s) (hpre : pre <+: as) :
    ∃ t, Run M s₀ pre t := by
  induction h with
  | start => exact ⟨s₀, by rw [List.prefix_nil.mp hpre]; exact .start⟩
  | next hrun hlegal hstep ih =>
      rcases List.prefix_concat_iff.mp hpre with heq | hpre'
      · exact ⟨_, heq ▸ hrun.next hlegal hstep⟩
      · exact ih hpre'

/-- What a condition `Q` on the steps is worth: it keeps an invariant from which `P` follows,
and a step after which `P` holds has met it. Then a run has `P` throughout exactly if every
one of its steps meets `Q`. -/
theorem throughout_iff_of_restrict {I P : σ → Prop} {Q : σ → α → Prop} {s₀ s : σ}
    {as : List α} (hinit : I s₀)
    (hkeep : ∀ s a s', I s → M.legal s a → Q s a → M.step s a = some s' → I s')
    (hP : ∀ s, I s → P s)
    (hneed : ∀ s a s', I s → M.legal s a → M.step s a = some s' → P s' → Q s a)
    (h : Run M s₀ as s) : M.Throughout s₀ as P ↔ M.EveryStep s₀ as Q := by
  constructor
  · intro hall
    have hI : ∀ pre t, pre <+: as → Run M s₀ pre t → I t := by
      intro pre t hpre ht
      induction ht with
      | start => exact hinit
      | next hrun hlegal hstep ih =>
          have hIs := ih ((List.prefix_append _ _).trans hpre)
          have hPs := hall _ _ hpre (hrun.next hlegal hstep)
          exact hkeep _ _ _ hIs hlegal (hneed _ _ _ hIs hlegal hstep hPs) hstep
    intro pre a t hpre ht
    obtain ⟨t', ht'⟩ := h.of_prefix hpre
    obtain ⟨u, hu, hlegal, hstep⟩ := ht'.snoc_inv
    rw [hu.deterministic ht] at hlegal hstep
    exact hneed t a t' (hI pre t ((List.prefix_append _ _).trans hpre) ht) hlegal hstep
      (hall _ t' hpre ht')
  · intro hall pre t hpre ht
    have hrestrict : Run (M.restrict Q) s₀ pre t :=
      run_restrict.mpr ⟨ht, fun pre' b u hpre' hu => hall pre' b u (hpre'.trans hpre) hu⟩
    have hIt : I t := by
      refine hrestrict.invariant (I := I) hinit ?_
      intro s a s' hs hlegal hstep
      exact hkeep s a s' hs hlegal.1 hlegal.2 hstep
    exact hP t hIt

/-- When a step keeps `P` exactly if it meets `Q`, under an invariant, a run keeps `P`
throughout exactly if every one of its steps meets `Q`. -/
theorem throughout_iff_everyStep {I P : σ → Prop} {Q : σ → α → Prop} {s₀ s : σ}
    {as : List α} (hinit : I s₀) (hP : P s₀)
    (hinv : ∀ s a s', I s → M.legal s a → M.step s a = some s' → I s')
    (hiff : ∀ s a s', I s → P s → M.legal s a → M.step s a = some s' → (P s' ↔ Q s a))
    (h : Run M s₀ as s) : M.Throughout s₀ as P ↔ M.EveryStep s₀ as Q := by
  have hboth : ∀ s, (I s ∧ P s) → P s := fun s hs => hs.2
  refine throughout_iff_of_restrict (I := fun s => I s ∧ P s) ⟨hinit, hP⟩ ?_ hboth ?_ h
  · intro s a s' hs hlegal hQ hstep
    exact ⟨hinv s a s' hs.1 hlegal hstep, (hiff s a s' hs.1 hs.2 hlegal hstep).mpr hQ⟩
  · intro s a s' hs hlegal hstep hP'
    exact (hiff s a s' hs.1 hs.2 hlegal hstep).mp hP'

/-! ### Reaching -/

/-- From every state with `P` some run leads to a state with `Q`. -/
def Leads (M : Machine σ α) (P Q : σ → Prop) : Prop :=
  ∀ s, P s → ∃ as s', Run M s as s' ∧ Q s'

variable {P Q R : σ → Prop}

/-- One step. -/
theorem Leads.of_step
    (h : ∀ s, P s → ∃ a s', M.legal s a ∧ M.step s a = some s' ∧ Q s') : M.Leads P Q := by
  intro s hs
  obtain ⟨a, s', hlegal, hstep, hQ⟩ := h s hs
  exact ⟨[a], s', .single hlegal hstep, hQ⟩

/-- One run after the other. -/
theorem Leads.trans (h : M.Leads P Q) (h' : M.Leads Q R) : M.Leads P R := by
  intro s hs
  obtain ⟨as, t, hrun, ht⟩ := h s hs
  obtain ⟨bs, u, hrun', hu⟩ := h' t ht
  exact ⟨as ++ bs, u, hrun.append hrun', hu⟩

/-- A loop, by induction on the number of turns. -/
theorem Leads.iterate {P : Nat → σ → Prop} (n : Nat)
    (h : ∀ i < n, M.Leads (P i) (P (i + 1))) : M.Leads (P 0) (P n) := by
  induction n with
  | zero => exact fun s hs => ⟨[], s, .start, hs⟩
  | succ n ih => exact (ih fun i hi => h i (by omega)).trans (h n (by omega))

/-- Progress: as long as `Q` does not hold, some step keeps `P` and makes `f` smaller. By
strong induction on `f`. -/
theorem Leads.of_measure (f : σ → Nat)
    (h : ∀ s, P s → Q s ∨ ∃ a s', M.legal s a ∧ M.step s a = some s' ∧ P s' ∧ f s' < f s) :
    M.Leads P Q := by
  intro s
  induction hn : f s using Nat.strong_induction_on generalizing s with
  | _ n ih =>
      intro hs
      rcases h s hs with hQ | ⟨a, s', hlegal, hstep, hs', hless⟩
      · exact ⟨[], s, .start, hQ⟩
      · obtain ⟨as, t, hrun, ht⟩ := ih (f s') (hn ▸ hless) s' rfl hs'
        exact ⟨[a] ++ as, t, (Run.single hlegal hstep).append hrun, ht⟩

/-! ### Computed runs -/

/-- The final state of a run, computed. `none` when an action is not legal or dies. -/
def exec (M : Machine σ α) [∀ s a, Decidable (M.legal s a)] : σ → List α → Option σ
  | s, [] => some s
  | s, a :: as => if M.legal s a then (M.step s a).bind fun s' => exec M s' as else none

/-- A computed run is a run. -/
theorem Run.of_exec [∀ s a, Decidable (M.legal s a)] {s₀ s : σ} {as : List α}
    (h : M.exec s₀ as = some s) : Run M s₀ as s := by
  induction as generalizing s₀ with
  | nil =>
      rw [exec, Option.some.injEq] at h
      exact h ▸ .start
  | cons a as ih =>
      rw [exec] at h
      split at h
      · rename_i hlegal
        obtain ⟨s', hstep, hrest⟩ := Option.bind_eq_some_iff.mp h
        exact (Run.single hlegal hstep).append (ih hrest)
      · cases h

/-- A computed run that ends in a state with `P`. -/
theorem exists_run [∀ s a, Decidable (M.legal s a)] {P : σ → Prop} [DecidablePred P] (s₀ : σ)
    (as : List α) (h : (M.exec s₀ as).any (fun s => decide (P s)) = true) :
    ∃ s, Run M s₀ as s ∧ P s := by
  obtain ⟨s, hs, hP⟩ := (Option.any_eq_true _ _).mp h
  exact ⟨s, .of_exec hs, of_decide_eq_true hP⟩

/-- The same from a start that is itself computed. -/
theorem exists_run_from [∀ s a, Decidable (M.legal s a)] {P : σ → Prop} [DecidablePred P]
    (start : Option σ) (as : List α)
    (h : (start.bind fun s₀ => M.exec s₀ as).any (fun s => decide (P s)) = true) :
    ∃ s₀ s, start = some s₀ ∧ Run M s₀ as s ∧ P s := by
  obtain ⟨s, hs, hP⟩ := (Option.any_eq_true _ _).mp h
  obtain ⟨s₀, hstart, hexec⟩ := Option.bind_eq_some_iff.mp hs
  exact ⟨s₀, s, hstart, .of_exec hexec, of_decide_eq_true hP⟩

end Machine

end SecondGear.Lib
