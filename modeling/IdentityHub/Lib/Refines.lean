import IdentityHub.Lib.StepSystem

/-!
# One machine refining another

Every step of the refining machine is a step of the refined one, or is not seen by it.
Then what holds of all reachable states of the refined machine holds of what is seen of
the refining one.
-/

namespace StepSystem

variable {σ τ α β : Type*}

/-- `view` is what is seen of the states of `M`. -/
structure Refines (M : Machine σ α) (N : Machine τ β) (view : σ → τ) : Prop where
  init : view M.init = N.init
  step : ∀ s a s', M.step s a = some s' →
    view s' = view s ∨ ∃ b, N.step (view s) b = some (view s')

namespace Refines

variable {M : Machine σ α} {N : Machine τ β} {view : σ → τ}

theorem steps (h : Refines M N view) {G : Guard σ α} {s s' : σ} (hss : Steps M G s s') :
    Steps N anyStep (view s) (view s') := by
  induction hss with
  | refl => exact .refl
  | tail a _ _ hstep ih =>
      rcases h.step _ a _ hstep with hsame | ⟨b, hb⟩
      · rw [hsame]
        exact ih
      · exact ih.tail b trivial hb

/-- **What is seen of a reachable state is reachable.** -/
theorem reachable (h : Refines M N view) {G : Guard σ α} {s : σ} (hs : ReachableBy M G s) :
    Reachable N (view s) := by
  have hsteps := h.steps hs
  rw [h.init] at hsteps
  exact hsteps

end Refines

end StepSystem
