import IdentityHub.Lib.StepSystem
import Mathlib.Algebra.BigOperators.Group.List.Basic
import Mathlib.Algebra.GroupWithZero.Nat

/-!
# Runs that come to an end

Some of a machine's actions are work on what is already there. Such work drains when
every step of it lowers a measure and when, short of the goal, some step of it can be
taken. Then work that can not be continued has reached the goal, and there is a schedule
that does.

`Pays` is the account over arbitrary schedules, in which other actions bring in new work:
what they bring in is on the budget, and every step of work is paid from it.
-/

namespace StepSystem

variable {σ α : Type*}

/-! ## The account -/

/-- What an action costs is taken off the measure; the measure rises by what is added
to the budget at most. `I` is what the states have in common. -/
structure Pays (M : Machine σ α) (I : σ → Prop) (cost : α → ℕ) (measure budget : σ → ℕ) :
    Prop where
  keeps : ∀ s a s', I s → M.step s a = some s' → I s'
  pays : ∀ s a s', I s → M.step s a = some s' →
    cost a + measure s' + budget s ≤ measure s + budget s'

/-- **Bound.** All that a run costs is on the budget. -/
theorem Pays.run {M : Machine σ α} {I : σ → Prop} {cost : α → ℕ} {measure budget : σ → ℕ}
    (h : Pays M I cost measure budget) {as : List α} {s s' : σ} (hs : I s)
    (hrun : M.run s as = some s') :
    (as.map cost).sum + measure s' + budget s ≤ measure s + budget s' := by
  induction as generalizing s with
  | nil =>
      cases hrun
      rw [List.map_nil, List.sum_nil]
      omega
  | cons a as ih =>
      obtain ⟨s₁, hstep, hrest⟩ := Option.bind_eq_some_iff.mp hrun
      have hfirst := h.pays s a s₁ hs hstep
      have hothers := ih (h.keeps s a s₁ hs hstep) hrest
      rw [List.map_cons, List.sum_cons]
      omega

/-! ## Work on what is there -/

/-- Work that lowers `measure` with every step, and can go on until `goal` holds. -/
structure Drains (M : Machine σ α) (work : α → Prop) (I : σ → Prop) (measure : σ → ℕ)
    (goal : σ → Prop) : Prop where
  keeps : ∀ s a s', I s → work a → M.step s a = some s' → I s'
  lowers : ∀ s a s', I s → work a → M.step s a = some s' → measure s' < measure s
  goesOn : ∀ s, I s → ¬ goal s → ∃ a s', work a ∧ M.step s a = some s'

namespace Drains

variable {M : Machine σ α} {work : α → Prop} {I goal : σ → Prop} {measure : σ → ℕ}
  (h : Drains M work I measure goal)
include h

/-- Work that can not be continued has reached the goal. -/
theorem goal_of_stuck {s : σ} (hs : I s) (hstuck : ∀ a, work a → M.step s a = none) : goal s := by
  by_contra hnot
  obtain ⟨a, s', ha, hstep⟩ := h.goesOn s hs hnot
  rw [hstuck a ha] at hstep
  cases hstep

/-- Some schedule of work reaches the goal. -/
theorem exists_run {s : σ} (hs : I s) :
    ∃ as s', (∀ a ∈ as, work a) ∧ M.run s as = some s' ∧ I s' ∧ goal s' := by
  -- on what is left of the measure
  induction hm : measure s using Nat.strongRecOn generalizing s with
  | ind m ih =>
    by_cases hgoal : goal s
    · exact ⟨[], s, fun a ha => absurd ha List.not_mem_nil, rfl, hs, hgoal⟩
    · obtain ⟨a, s₁, ha, hstep⟩ := h.goesOn s hs hgoal
      have hlower := h.lowers s a s₁ hs ha hstep
      obtain ⟨as, s', hwork, hrun, hend⟩ :=
        ih (measure s₁) (hm ▸ hlower) (h.keeps s a s₁ hs ha hstep) rfl
      refine ⟨a :: as, s', ?_, ?_, hend⟩
      · intro b hb
        rcases List.mem_cons.mp hb with rfl | hb
        · exact ha
        · exact hwork b hb
      · rw [run_cons, hstep]
        exact hrun

end Drains

end StepSystem
