import Mathlib.Data.List.Basic
import Mathlib.Logic.Relation

/-!
# Step systems: schedules, reachable states, invariants

A machine is an initial state together with a partial step for every action.
Interleavings of several parties are schedules (lists of actions): the
scheduler picks the next action, the machine says whether it is enabled and
what it does. Everything in this file is about an arbitrary machine.

* `run` replays a schedule; it is executable, so a concrete schedule is a proof
  of reachability by evaluation (`reachable_of_run`).
* `Steps` is the relation between two states some schedule leads between, with
  an optional restriction of the steps that may be taken.
* `invariant` and `Steps.mono` are the two induction rules: a predicate that
  every step preserves, and a relation that every step extends.
-/

namespace StepSystem

/-- A machine: where it starts, and what each action does when enabled. -/
structure Machine (σ : Type*) (α : Type*) where
  init : σ
  step : σ → α → Option σ

variable {σ α : Type*}

/-- Replay a schedule; `none` when one of its actions is not enabled. -/
def Machine.run (M : Machine σ α) : σ → List α → Option σ
  | s, [] => some s
  | s, a :: as => (M.step s a).bind (fun s' => M.run s' as)

variable (M : Machine σ α)

theorem run_cons (s : σ) (a : α) (as : List α) :
    M.run s (a :: as) = (M.step s a).bind (fun s' => M.run s' as) := rfl

theorem run_append (s : σ) (as bs : List α) :
    M.run s (as ++ bs) = (M.run s as).bind (fun s' => M.run s' bs) := by
  induction as generalizing s with
  | nil => rfl
  | cons a as ih =>
      rw [List.cons_append, run_cons, run_cons, Option.bind_assoc]
      congr 1
      funext s'
      exact ih s'

/-- A restriction on the steps that may be taken, judged in the state the
action is taken in. -/
abbrev Guard (σ α : Type*) := σ → α → Prop

/-- The unrestricted guard. -/
def anyStep : Guard σ α := fun _ _ => True

/-- `Steps G s s'`: some schedule whose steps all meet `G` leads from `s` to
`s'`. -/
inductive Steps (G : Guard σ α) (s : σ) : σ → Prop
  | refl : Steps G s s
  | tail {s₁ s₂ : σ} (a : α) :
      Steps G s s₁ → G s₁ a → M.step s₁ a = some s₂ → Steps G s s₂

/-- States some schedule of steps meeting `G` leads to from the start. -/
def ReachableBy (G : Guard σ α) (s : σ) : Prop := Steps M G M.init s

/-- States some schedule leads to from the start. -/
def Reachable (s : σ) : Prop := ReachableBy M anyStep s

variable {M} {G : Guard σ α}

theorem Steps.trans {s s₁ s₂ : σ} (h : Steps M G s s₁) (h' : Steps M G s₁ s₂) :
    Steps M G s s₂ := by
  induction h' with
  | refl => exact h
  | tail a _ hg hs ih => exact ih.tail a hg hs

/-- Dropping the restriction. -/
theorem Steps.any {s s' : σ} (h : Steps M G s s') : Steps M anyStep s s' := by
  induction h with
  | refl => exact .refl
  | tail a _ _ hs ih => exact ih.tail a trivial hs

theorem ReachableBy.reachable {s : σ} (h : ReachableBy M G s) : Reachable M s :=
  h.any

theorem Reachable.step {s s' : σ} {a : α} (h : Reachable M s)
    (hs : M.step s a = some s') : Reachable M s' :=
  Steps.tail a h trivial hs

/-- A schedule that replays is a path of the machine. -/
theorem steps_of_run : ∀ {as : List α} {s s' : σ},
    M.run s as = some s' → Steps M anyStep s s'
  | [], s, s', h => by
      cases h
      exact .refl
  | a :: as, s, s', h => by
      rw [run_cons, Option.bind_eq_some_iff] at h
      obtain ⟨s₁, h₁, h₂⟩ := h
      exact (Steps.refl.tail a trivial h₁).trans (steps_of_run h₂)

theorem reachable_of_run {as : List α} {s : σ} (h : M.run M.init as = some s) :
    Reachable M s :=
  steps_of_run h

/-- A schedule that ends in a state satisfying a decidable predicate: the form
in which a concrete schedule is evaluated. -/
theorem exists_reachable_of_run (as : List α) {p : σ → Bool}
    (h : (M.run M.init as).map p = some true) : ∃ s, Reachable M s ∧ p s = true := by
  cases hr : M.run M.init as with
  | none => simp [hr] at h
  | some s =>
      rw [hr, Option.map_some, Option.some_inj] at h
      exact ⟨s, reachable_of_run hr, h⟩

/-- The machine that refuses the steps a decidable guard forbids: its runs are
the guarded runs of the original. -/
def Machine.restrict (M : Machine σ α) (g : σ → α → Bool) : Machine σ α where
  init := M.init
  step s a := if g s a then M.step s a else none

theorem steps_of_restrict_run {g : σ → α → Bool} : ∀ {as : List α} {s s' : σ},
    (M.restrict g).run s as = some s' → Steps M (fun s a => g s a = true) s s'
  | [], s, s', h => by
      cases h
      exact .refl
  | a :: as, s, s', h => by
      rw [run_cons, Option.bind_eq_some_iff] at h
      obtain ⟨s₁, h₁, h₂⟩ := h
      change (if g s a then M.step s a else none) = some s₁ at h₁
      split at h₁
      · rename_i hg
        exact (Steps.refl.tail a hg h₁).trans (steps_of_restrict_run h₂)
      · cases h₁

theorem exists_reachableBy_of_run {g : σ → α → Bool} (as : List α) {p : σ → Bool}
    (h : ((M.restrict g).run M.init as).map p = some true) :
    ∃ s, ReachableBy M (fun s a => g s a = true) s ∧ p s = true := by
  cases hr : (M.restrict g).run M.init as with
  | none => simp [hr] at h
  | some s =>
      rw [hr, Option.map_some, Option.some_inj] at h
      exact ⟨s, steps_of_restrict_run hr, h⟩

/-! ## The two induction rules -/

/-- A predicate that every permitted step preserves along a path. -/
theorem Steps.preserves {I : σ → Prop} {s s' : σ} (h : Steps M G s s') (hs : I s)
    (hstep : ∀ s₁ a s₂, I s₁ → G s₁ a → M.step s₁ a = some s₂ → I s₂) : I s' := by
  induction h with
  | refl => exact hs
  | tail a _ hg hst ih => exact hstep _ a _ ih hg hst

/-- **Invariant rule.** What holds at the start and is preserved by every
permitted step holds in every state so reachable. -/
theorem ReachableBy.invariant {I : σ → Prop} {s : σ} (h : ReachableBy M G s)
    (h0 : I M.init)
    (hstep : ∀ s₁ a s₂, I s₁ → G s₁ a → M.step s₁ a = some s₂ → I s₂) : I s :=
  Steps.preserves h h0 hstep

/-- The invariant rule for unrestricted schedules. -/
theorem Reachable.invariant {I : σ → Prop} {s : σ} (h : Reachable M s)
    (h0 : I M.init) (hstep : ∀ s₁ a s₂, I s₁ → M.step s₁ a = some s₂ → I s₂) :
    I s :=
  ReachableBy.invariant h h0 (fun s₁ a s₂ hi _ hs => hstep s₁ a s₂ hi hs)

/-- The invariant rule relative to a predicate already known to hold of every
reachable state. -/
theorem ReachableBy.invariant_of {J I : σ → Prop} {s : σ} (h : ReachableBy M G s)
    (hJ : ∀ s₁, Reachable M s₁ → J s₁) (h0 : I M.init)
    (hstep : ∀ s₁ a s₂, J s₁ → I s₁ → G s₁ a → M.step s₁ a = some s₂ → I s₂) : I s := by
  have both : Reachable M s ∧ I s := by
    refine Steps.preserves (I := fun s => Reachable M s ∧ I s) h ⟨.refl, h0⟩ ?_
    rintro s₁ a s₂ ⟨hr, hi⟩ hg hs
    exact ⟨hr.step hs, hstep s₁ a s₂ (hJ s₁ hr) hi hg hs⟩
  exact both.2

theorem Reachable.invariant_of {J I : σ → Prop} {s : σ} (h : Reachable M s)
    (hJ : ∀ s₁, Reachable M s₁ → J s₁) (h0 : I M.init)
    (hstep : ∀ s₁ a s₂, J s₁ → I s₁ → M.step s₁ a = some s₂ → I s₂) : I s :=
  ReachableBy.invariant_of h hJ h0 (fun s₁ a s₂ hj hi _ hs => hstep s₁ a s₂ hj hi hs)

/-- **History rule.** A reflexive relation that every step from a reachable
state extends relates the two ends of every path. -/
theorem Steps.mono {R : σ → σ → Prop} {s s' : σ} (hs : Reachable M s)
    (h : Steps M G s s') (hrefl : R s s)
    (hstep : ∀ s₁ a s₂, Reachable M s₁ → G s₁ a → M.step s₁ a = some s₂ →
      R s s₁ → R s s₂) : R s s' := by
  have both : Reachable M s' ∧ R s s' := by
    refine Steps.preserves (I := fun s₁ => Reachable M s₁ ∧ R s s₁) h ⟨hs, hrefl⟩ ?_
    rintro s₁ a s₂ ⟨hr, hR⟩ hg hst
    exact ⟨hr.step hst, hstep s₁ a s₂ hr hg hst hR⟩
  exact both.2

end StepSystem
