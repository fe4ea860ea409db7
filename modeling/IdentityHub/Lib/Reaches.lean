import IdentityHub.Lib.Ensures

/-!
# What a program can reach

The angelic counterpart of `Ensures`: `env.Reaches p post s` says that `p`, started in `s`,
has a run that comes to a value of which, and of the state then, `post` holds. One answer
at each operation is enough, if `env` can give it.

The rules are those of `Ensures` with a choice of the answer in place of all of them.
-/

variable {E : Effects} {σ : Type*} {ε ε' α β : Type}

namespace Environment

variable (env : Environment E σ)

def Reaches : Program E ε α → (α → σ → Prop) → σ → Prop
  | .pure a, post, s => post a s
  | .throw _, _, _ => False
  | .ask op next, post, s =>
      ∃ answer s', env.respond s ⟨op, answer⟩ s' ∧ Reaches (next answer) post s'

variable {env} {s : σ}

@[simp] theorem reaches_pure {a : α} {post : α → σ → Prop} :
    env.Reaches (Pure.pure a : Program E ε α) post s ↔ post a s := Iff.rfl

@[simp] theorem reaches_done {a : α} {post : α → σ → Prop} :
    env.Reaches (.pure a : Program E ε α) post s ↔ post a s := Iff.rfl

theorem reaches_ask {op : E.Op} {next : E.Answer op → Program E ε α} {post : α → σ → Prop} :
    env.Reaches (.ask op next : Program E ε α) post s ↔
      ∃ answer s', env.respond s ⟨op, answer⟩ s' ∧ env.Reaches (next answer) post s' := Iff.rfl

@[simp] theorem reaches_ofExcept {x : Except ε α} {post : α → σ → Prop} :
    env.Reaches (.ofExcept x : Program E ε α) post s ↔ ∃ a, x = .ok a ∧ post a s := by
  cases x with
  | ok a => simp
  | error e => simp [Program.ofExcept, Reaches]

@[simp] theorem reaches_require {c : Prop} [Decidable c] {e : ε} {post : Unit → σ → Prop} :
    env.Reaches (.require c e : Program E ε Unit) post s ↔ c ∧ post () s := by
  by_cases h : c
  · simp [Program.require, h]
  · simp [Program.require, h, Reaches]

@[simp] theorem reaches_bind {p : Program E ε α} {f : α → Program E ε β} {post : β → σ → Prop} :
    env.Reaches (p >>= f) post s ↔ env.Reaches p (fun a s' => env.Reaches (f a) post s') s := by
  induction p generalizing s with
  | pure a => exact Iff.rfl
  | throw e => exact Iff.rfl
  | ask op next ih =>
      apply exists_congr
      intro answer
      apply exists_congr
      intro s'
      exact and_congr_right (fun _ => ih answer)

@[simp] theorem reaches_mapError {p : Program E ε α} {f : ε → ε'} {post : α → σ → Prop} :
    env.Reaches (p.mapError f) post s ↔ env.Reaches p post s := by
  induction p generalizing s with
  | pure a => exact Iff.rfl
  | throw e => exact Iff.rfl
  | ask op next ih =>
      apply exists_congr
      intro answer
      apply exists_congr
      intro s'
      exact and_congr_right (fun _ => ih answer)

namespace Reaches

variable {p : Program E ε α} {post post' : α → σ → Prop}

theorem mono (h : env.Reaches p post s) (hpost : ∀ a s', post a s' → post' a s') :
    env.Reaches p post' s := by
  induction p generalizing s with
  | pure a => exact hpost a s h
  | throw e => exact h
  | ask op next ih =>
      obtain ⟨answer, s', hrespond, hrest⟩ := h
      exact ⟨answer, s', hrespond, ih answer hrest⟩

/-- **Soundness.** There is such a run. -/
theorem runs (h : env.Reaches p post s) : ∃ a s', env.Runs p s a s' ∧ post a s' := by
  induction p generalizing s with
  | pure a => exact ⟨a, s, .of_returns (.refl _), h⟩
  | throw e => exact h.elim
  | ask op next ih =>
      obtain ⟨answer, s₁, hrespond, hrest⟩ := h
      obtain ⟨a, s', ⟨events, hreturns, hreplays⟩, hpost⟩ := ih answer hrest
      exact ⟨a, s', ⟨⟨op, answer⟩ :: events, .ask hreturns, .cons hrespond hreplays⟩, hpost⟩

end Reaches

/-- A run is one in all surroundings that answer at least as much. -/
theorem Runs.of_narrower {env' : Environment E σ} {p : Program E ε α} {a : α} {s' : σ}
    (hnarrower : ∀ s e s', env'.respond s e s' → env.respond s e s') (h : env'.Runs p s a s') :
    env.Runs p s a s' := by
  obtain ⟨events, hreturns, hreplays⟩ := h
  refine ⟨events, hreturns, ?_⟩
  clear hreturns
  induction hreplays with
  | nil => exact .nil _
  | cons he _ ih => exact .cons (hnarrower _ _ _ he) ih

-- a goal is to be met by the rules, never by running the program
attribute [irreducible] Reaches

end Environment
