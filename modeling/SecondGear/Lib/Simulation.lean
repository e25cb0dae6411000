import SecondGear.Lib.Machine

/-!
# `SecondGear.Lib.Simulation`: one machine follows another

A relation between the states of two machines is a simulation when every step of the first
machine is matched by a run of the second one, which may be empty. Then so is every run.

* `Simulates.of_step`: it is enough to match each step by one step or by none.
* `Simulates.run`: runs are matched.
-/

set_option autoImplicit false

namespace SecondGear.Lib

namespace Machine

variable {σ τ α β : Type} {M : Machine σ α} {N : Machine τ β} {R : σ → τ → Prop}

/-- `N` follows every step of `M`, from related states to related states. -/
def Simulates (M : Machine σ α) (N : Machine τ β) (R : σ → τ → Prop) : Prop :=
  ∀ s t a s', R s t → M.legal s a → M.step s a = some s' → ∃ bs t', N.Run t bs t' ∧ R s' t'

/-- A step is matched by one step, or leaves the states related. -/
theorem Simulates.of_step
    (h : ∀ s t a s', R s t → M.legal s a → M.step s a = some s' →
      R s' t ∨ ∃ b t', N.legal t b ∧ N.step t b = some t' ∧ R s' t') : M.Simulates N R := by
  intro s t a s' hR hlegal hstep
  rcases h s t a s' hR hlegal hstep with hstay | ⟨b, t', hlegal', hstep', hR'⟩
  · exact ⟨[], t, .start, hstay⟩
  · exact ⟨[b], t', .single hlegal' hstep', hR'⟩

/-- By induction on the run. -/
theorem Simulates.run (h : M.Simulates N R) {s₀ s : σ} {t₀ : τ} {as : List α} (hstart : R s₀ t₀)
    (hrun : M.Run s₀ as s) : ∃ bs t, N.Run t₀ bs t ∧ R s t := by
  induction hrun with
  | start => exact ⟨[], t₀, .start, hstart⟩
  | next _ hlegal hstep ih =>
      obtain ⟨bs, t, hrun, hR⟩ := ih
      obtain ⟨cs, t', hrun', hR'⟩ := h _ t _ _ hR hlegal hstep
      exact ⟨bs ++ cs, t', hrun.append hrun', hR'⟩

end Machine

end SecondGear.Lib
