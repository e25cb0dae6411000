import SecondGear.Lib.Machine

/-!
# `SecondGear.Lib.History`: what an observer of a run has seen

An observer looks at the state and the action of each step and writes something down.
`observe` is what it has written after a run. It reads the run and takes no part in it, so
every run of the machine has a history, whatever the observer looks for.

* `observe_append`, `observe_snoc`: the history of a run, one step at a time.
* `Run.observe_balance`: a store with an entrance and an exit. When each step keeps the
  account of what came in, what is there and what went out, a run keeps it.
* `Run.observe_eq`: a store without an exit.
-/

set_option autoImplicit false

namespace SecondGear.Lib.Machine

variable {σ α β : Type} {M : Machine σ α}

/-- What the observer `obs` writes down along the actions. It sees nothing behind a step that
does not return. -/
def observe (M : Machine σ α) (obs : σ → α → List β) : σ → List α → List β
  | _, [] => []
  | s, a :: as => obs s a ++ (M.step s a).elim [] fun s' => observe M obs s' as

variable {obs : σ → α → List β}

@[simp] theorem observe_nil (s : σ) : M.observe obs s [] = [] := rfl

theorem observe_cons {s s' : σ} {a : α} (as : List α) (h : M.step s a = some s') :
    M.observe obs s (a :: as) = obs s a ++ M.observe obs s' as := by
  rw [observe, h]
  rfl

/-- The history of two runs, one after the other. -/
theorem observe_append {s₀ s : σ} {as : List α} (h : Run M s₀ as s) (bs : List α) :
    M.observe obs s₀ (as ++ bs) = M.observe obs s₀ as ++ M.observe obs s bs := by
  induction as generalizing s₀ with
  | nil =>
      rw [h.nil_inv]
      rfl
  | cons a as ih =>
      obtain ⟨s₁, ⟨-, hstep⟩, hrest⟩ := h.cons_inv
      rw [List.cons_append, observe_cons _ hstep, observe_cons _ hstep, ih hrest,
        List.append_assoc]

/-- The last step. -/
theorem observe_snoc {s₀ s : σ} {as : List α} (h : Run M s₀ as s) (a : α) :
    M.observe obs s₀ (as ++ [a]) = M.observe obs s₀ as ++ obs s a := by
  have hlast : M.observe obs s [a] = obs s a := by
    rw [observe]
    cases M.step s a <;> exact List.append_nil _
  rw [observe_append h, hlast]

/-- The history of a restricted machine is the history of the machine. -/
theorem observe_restrict {Q : σ → α → Prop} (s : σ) (as : List α) :
    (M.restrict Q).observe obs s as = M.observe obs s as := by
  induction as generalizing s with
  | nil => rfl
  | cons a as ih =>
      rw [observe, observe]
      show _ ++ (M.step s a).elim [] _ = _ ++ (M.step s a).elim [] _
      congr 2
      funext s'
      exact ih s'

/-- The balance rule: `f` is what a store holds, in order. When what it held and what comes in
is what goes out and what it holds afterwards, at each step, then it is so over a run. -/
theorem Run.observe_balance {I : σ → Prop} {f : σ → List β} {entering leaving : σ → α → List β}
    {s₀ s : σ} {as : List α} (hinit : I s₀)
    (hinv : ∀ s a s', I s → M.legal s a → M.step s a = some s' → I s')
    (hstep : ∀ s a s', I s → M.legal s a → M.step s a = some s' →
      f s ++ entering s a = leaving s a ++ f s')
    (h : Run M s₀ as s) :
    f s₀ ++ M.observe entering s₀ as = M.observe leaving s₀ as ++ f s := by
  induction h with
  | start => exact List.append_nil _
  | next hrun hlegal hnext ih =>
      have hone := hstep _ _ _ (hrun.invariant hinit hinv) hlegal hnext
      rw [observe_snoc hrun, observe_snoc hrun, ← List.append_assoc, ih, List.append_assoc, hone,
        List.append_assoc]

/-- The rule for a store that only grows. -/
theorem Run.observe_eq {I : σ → Prop} {f : σ → List β} {s₀ s : σ} {as : List α} (hinit : I s₀)
    (hinv : ∀ s a s', I s → M.legal s a → M.step s a = some s' → I s')
    (hstep : ∀ s a s', I s → M.legal s a → M.step s a = some s' → f s' = f s ++ obs s a)
    (h : Run M s₀ as s) : f s = f s₀ ++ M.observe obs s₀ as := by
  induction h with
  | start => exact (List.append_nil _).symm
  | next hrun hlegal hnext ih =>
      rw [observe_snoc hrun, ← List.append_assoc, ← ih]
      exact hstep _ _ _ (hrun.invariant hinit hinv) hlegal hnext

end SecondGear.Lib.Machine
