import IdentityHub.Lib.Ensures

/-!
# What a program yields

The partial counterpart of `Ensures`: `env.Yields p post s` says that whenever `p`, started
in `s`, comes to a value, `post` holds of it and of the state then, whatever `env`
answers. A program that fails, or is left without an answer, yields nothing.

The rules are those of `Ensures`, where an error is now a case that may be forgotten.
-/

variable {E : Effects} {σ : Type*} {ε ε' α β : Type}

namespace Environment

variable (env : Environment E σ)

def Yields : Program E ε α → (α → σ → Prop) → σ → Prop
  | .pure a, post, s => post a s
  | .throw _, _, _ => True
  | .ask op next, post, s =>
      ∀ answer s', env.respond s ⟨op, answer⟩ s' → Yields (next answer) post s'

variable {env} {s : σ}

@[simp] theorem yields_pure {a : α} {post : α → σ → Prop} :
    env.Yields (Pure.pure a : Program E ε α) post s ↔ post a s := Iff.rfl

@[simp] theorem yields_done {a : α} {post : α → σ → Prop} :
    env.Yields (.pure a : Program E ε α) post s ↔ post a s := Iff.rfl

@[simp] theorem yields_throw {e : ε} {post : α → σ → Prop} :
    env.Yields (.throw e : Program E ε α) post s ↔ True := Iff.rfl

theorem yields_ask {op : E.Op} {next : E.Answer op → Program E ε α} {post : α → σ → Prop} :
    env.Yields (.ask op next : Program E ε α) post s ↔
      ∀ answer s', env.respond s ⟨op, answer⟩ s' → env.Yields (next answer) post s' := Iff.rfl

@[simp] theorem yields_ofExcept {x : Except ε α} {post : α → σ → Prop} :
    env.Yields (.ofExcept x : Program E ε α) post s ↔ ∀ a, x = .ok a → post a s := by
  cases x with
  | ok a => simp
  | error e => simp [Program.ofExcept]

@[simp] theorem yields_require {c : Prop} [Decidable c] {e : ε} {post : Unit → σ → Prop} :
    env.Yields (.require c e : Program E ε Unit) post s ↔ (c → post () s) := by
  by_cases h : c
  · simp [Program.require, h]
  · simp [Program.require, h]

@[simp] theorem yields_bind {p : Program E ε α} {f : α → Program E ε β} {post : β → σ → Prop} :
    env.Yields (p >>= f) post s ↔ env.Yields p (fun a s' => env.Yields (f a) post s') s := by
  induction p generalizing s with
  | pure a => exact Iff.rfl
  | throw e => exact Iff.rfl
  | ask op next ih =>
      apply forall_congr'
      intro answer
      exact forall₂_congr (fun s' _ => ih answer)

@[simp] theorem yields_mapError {p : Program E ε α} {f : ε → ε'} {post : α → σ → Prop} :
    env.Yields (p.mapError f) post s ↔ env.Yields p post s := by
  induction p generalizing s with
  | pure a => exact Iff.rfl
  | throw e => exact Iff.rfl
  | ask op next ih =>
      apply forall_congr'
      intro answer
      exact forall₂_congr (fun s' _ => ih answer)

namespace Yields

variable {p : Program E ε α} {post post' : α → σ → Prop}

theorem mono (h : env.Yields p post s) (hpost : ∀ a s', post a s' → post' a s') :
    env.Yields p post' s := by
  induction p generalizing s with
  | pure a => exact hpost a s h
  | throw e => trivial
  | ask op next ih =>
      intro answer s' hrespond
      exact ih answer (h answer s' hrespond)

theorem of_forall (h : ∀ a s', post a s') : env.Yields p post s := by
  induction p generalizing s with
  | pure a => exact h a s
  | throw e => trivial
  | ask op next ih =>
      intro answer s' _
      exact ih answer

/-- What `wp` says of a program holds of what it yields; and what is kept wherever `wp` lets
it ask is kept. -/
theorem of_wp {I : σ → Prop} {Q : List (Event E) → E.Op → Prop} {past : List (Event E)}
    {post : List (Event E) → α → Prop} (h : p.wp Q post past)
    (hkeeps : ∀ s past op answer s', I s → Q past op → env.respond s ⟨op, answer⟩ s' → I s')
    (hs : I s) : env.Yields p (fun a s' => I s' ∧ ∃ later, post later a) s := by
  induction p generalizing s past with
  | pure a => exact ⟨hs, past, Program.wp_pure.mp h⟩
  | throw e => trivial
  | ask op next ih =>
      rw [Program.wp_ask] at h
      intro answer s' hrespond
      exact ih answer (h.2 answer) (hkeeps s past op answer s' hs h.1 hrespond)

/-- **Soundness.** -/
theorem of_runs (h : env.Yields p post s) {a : α} {s' : σ} (hruns : env.Runs p s a s') :
    post a s' := by
  obtain ⟨events, hreturns, hreplays⟩ := hruns
  induction p generalizing s events with
  | pure b =>
      obtain ⟨rfl, rfl⟩ := Program.returns_pure.mp hreturns
      cases hreplays
      exact h
  | throw e => cases hreturns
  | ask op next ih =>
      cases hreturns with
      | ask hrest =>
          cases hreplays with
          | cons he hafter => exact ih _ (h _ _ he) _ hrest hafter

end Yields

-- as for `Ensures`
attribute [irreducible] Yields

end Environment
