import IdentityHub.Lib.Interleaving

/-!
# Programs that cannot fail

In an environment that answers only so much, a program may have no way to fail and none to
be left without an answer. `env.Ensures p post s` says this of the program `p` started in
`s`, and that `post` holds of its value and of the state at the end, whatever `env` answers.

* The rules go through a program from its start, as those of `wp` do; here an error is
  something to rule out, and the state is at hand.
* `Ensures.comesTo` and `Ensures.runs` say what that means for the runs: each one comes to
  such a value, and there is one.
-/

variable {E : Effects} {σ : Type*} {ε ε' α β : Type}

namespace Environment

/-- The environment, limited to the answers `P` allows. -/
def limit (env : Environment E σ) (P : σ → Event E → Prop) : Environment E σ where
  respond s e s' := P s e ∧ env.respond s e s'

variable (env : Environment E σ)

def Ensures : Program E ε α → (α → σ → Prop) → σ → Prop
  | .pure a, post, s => post a s
  | .throw _, _, _ => False
  | .ask op next, post, s =>
      (∃ answer s', env.respond s ⟨op, answer⟩ s') ∧
        ∀ answer s', env.respond s ⟨op, answer⟩ s' → Ensures (next answer) post s'

variable {env} {s : σ}

@[simp] theorem ensures_pure {a : α} {post : α → σ → Prop} :
    env.Ensures (Pure.pure a : Program E ε α) post s ↔ post a s := Iff.rfl

@[simp] theorem ensures_done {a : α} {post : α → σ → Prop} :
    env.Ensures (.pure a : Program E ε α) post s ↔ post a s := Iff.rfl

theorem ensures_ask {op : E.Op} {next : E.Answer op → Program E ε α} {post : α → σ → Prop} :
    env.Ensures (.ask op next : Program E ε α) post s ↔
      (∃ answer s', env.respond s ⟨op, answer⟩ s') ∧
        ∀ answer s', env.respond s ⟨op, answer⟩ s' → env.Ensures (next answer) post s' := Iff.rfl

@[simp] theorem ensures_ofExcept {x : Except ε α} {post : α → σ → Prop} :
    env.Ensures (.ofExcept x : Program E ε α) post s ↔ ∃ a, x = .ok a ∧ post a s := by
  cases x with
  | ok a => simp
  | error e => simp [Program.ofExcept, Ensures]

@[simp] theorem ensures_require {c : Prop} [Decidable c] {e : ε} {post : Unit → σ → Prop} :
    env.Ensures (.require c e : Program E ε Unit) post s ↔ c ∧ post () s := by
  by_cases h : c
  · simp [Program.require, h]
  · simp [Program.require, h, Ensures]

@[simp] theorem ensures_bind {p : Program E ε α} {f : α → Program E ε β} {post : β → σ → Prop} :
    env.Ensures (p >>= f) post s ↔ env.Ensures p (fun a s' => env.Ensures (f a) post s') s := by
  induction p generalizing s with
  | pure a => exact Iff.rfl
  | throw e => exact Iff.rfl
  | ask op next ih =>
      apply and_congr Iff.rfl
      apply forall_congr'
      intro answer
      exact forall₂_congr (fun s' _ => ih answer)

@[simp] theorem ensures_mapError {p : Program E ε α} {f : ε → ε'} {post : α → σ → Prop} :
    env.Ensures (p.mapError f) post s ↔ env.Ensures p post s := by
  induction p generalizing s with
  | pure a => exact Iff.rfl
  | throw e => exact Iff.rfl
  | ask op next ih =>
      apply and_congr Iff.rfl
      apply forall_congr'
      intro answer
      exact forall₂_congr (fun s' _ => ih answer)

namespace Ensures

variable {p : Program E ε α} {post post' : α → σ → Prop}

theorem mono (h : env.Ensures p post s) (hpost : ∀ a s', post a s' → post' a s') :
    env.Ensures p post' s := by
  induction p generalizing s with
  | pure a => exact hpost a s h
  | throw e => exact h
  | ask op next ih =>
      refine ⟨h.1, ?_⟩
      intro answer s' hrespond
      exact ih answer (h.2 answer s' hrespond)

/-- **Soundness.** A run that comes to its end comes to a value as promised. -/
theorem comesTo {result : Except ε α} {s' : σ} (h : env.Ensures p post s)
    (hcomes : env.ComesTo p s result s') : ∃ a, result = .ok a ∧ post a s' := by
  induction p generalizing s with
  | pure a =>
      obtain ⟨rfl, rfl⟩ := hcomes.pure
      exact ⟨a, rfl, h⟩
  | throw e => exact h.elim
  | ask op next ih =>
      obtain ⟨answer, s₁, hrespond, hrest⟩ := hcomes.ask
      exact ih answer (h.2 answer s₁ hrespond) hrest

/-- **Progress.** There is such a run. -/
theorem runs (h : env.Ensures p post s) : ∃ a s', env.Runs p s a s' ∧ post a s' := by
  induction p generalizing s with
  | pure a => exact ⟨a, s, .of_returns (.refl _), h⟩
  | throw e => exact h.elim
  | ask op next ih =>
      obtain ⟨answer, s₁, hrespond⟩ := h.1
      obtain ⟨a, s', ⟨events, hreturns, hreplays⟩, hpost⟩ := ih answer (h.2 answer s₁ hrespond)
      exact ⟨a, s', ⟨⟨op, answer⟩ :: events, .ask hreturns, .cons hrespond hreplays⟩, hpost⟩

end Ensures

-- a goal is to be met by the rules, never by running the program
attribute [irreducible] Ensures

end Environment
