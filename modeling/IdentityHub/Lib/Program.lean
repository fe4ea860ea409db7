import Mathlib.Data.List.Basic

/-!
# Programs that ask their environment

A program computes, and asks operations of its environment for what it cannot
compute: the clock, the network, a table behind a lock. It ends with a value or
with an error. Nothing is assumed about the answers; a statement about every
run of a program is a statement about every list of answers.

* `Evolves` is the run itself: the events so far, and what is left of the
  program. `Returns` is a run that has ended well.
* `wp` is the rule that goes through a program from its start: what each
  operation may rely on having happened before it, and what holds at the end.
* `interpret` carries out the operations of a program by programs over others.
* `eval` runs a program against an oracle whose answers do not change.
-/

/-- The value of an option, or an error where it has none. -/
def Option.okOr {ε α : Type*} (o : Option α) (e : ε) : Except ε α :=
  match o with
  | some a => .ok a
  | none => .error e

@[simp] theorem Option.okOr_eq_ok {ε α : Type*} {o : Option α} {e : ε} {a : α} :
    o.okOr e = .ok a ↔ o = some a := by
  cases o <;> simp [Option.okOr]

@[simp] theorem Except.mapError_eq_ok {ε ε' α : Type*} {f : ε → ε'} {x : Except ε α} {a : α} :
    x.mapError f = .ok a ↔ x = .ok a := by
  cases x <;> simp [Except.mapError]

theorem Except.bind_eq_ok {ε α β : Type*} {x : Except ε α} {f : α → Except ε β} {b : β} :
    x.bind f = .ok b ↔ ∃ a, x = .ok a ∧ f a = .ok b := by
  cases x <;> simp [Except.bind]

theorem Except.ok_bind {ε α β : Type} (a : α) (f : α → Except ε β) :
    (Except.ok a >>= f) = f a := rfl

/-- The operations a program may ask for, and the type of each one's answer. -/
structure Effects where
  Op : Type
  Answer : Op → Type

inductive Program (E : Effects) (ε α : Type) where
  | pure (a : α)
  | throw (e : ε)
  | ask (op : E.Op) (next : E.Answer op → Program E ε α)

/-- An operation and the answer it got. -/
structure Event (E : Effects) where
  op : E.Op
  answer : E.Answer op

namespace Program

variable {E : Effects} {ε ε' α β : Type} {events : List (Event E)}

def bind : Program E ε α → (α → Program E ε β) → Program E ε β
  | .pure a, f => f a
  | .throw e, _ => .throw e
  | .ask op next, f => .ask op (fun answer => (next answer).bind f)

instance : Monad (Program E ε) where
  pure := .pure
  bind := .bind

/-- One operation and its answer. -/
def perform (op : E.Op) : Program E ε (E.Answer op) := .ask op .pure

def ofExcept : Except ε α → Program E ε α
  | .ok a => .pure a
  | .error e => .throw e

/-- Go on only if `c` holds. -/
def require (c : Prop) [Decidable c] (e : ε) : Program E ε Unit :=
  if c then .pure () else .throw e

def mapError (f : ε → ε') : Program E ε α → Program E ε' α
  | .pure a => .pure a
  | .throw e => .throw (f e)
  | .ask op next => .ask op (fun answer => (next answer).mapError f)

/-- The result of a program as a value, to be looked at by what follows. -/
def attempt : Program E ε α → Program E ε' (Except ε α)
  | .pure a => .pure (.ok a)
  | .throw e => .pure (.error e)
  | .ask op next => .ask op (fun answer => (next answer).attempt)

@[simp] theorem pure_bind (a : α) (f : α → Program E ε β) :
    ((Pure.pure a : Program E ε α) >>= f) = f a := rfl

theorem bind_assoc {γ : Type} (p : Program E ε α) (f : α → Program E ε β)
    (g : β → Program E ε γ) : ((p >>= f) >>= g) = (p >>= fun a => f a >>= g) := by
  induction p with
  | pure a => rfl
  | throw e => rfl
  | ask op next ih => exact congrArg (Program.ask op) (funext fun answer => ih answer)

@[simp] theorem ofExcept_ok (a : α) : (ofExcept (.ok a) : Program E ε α) = Pure.pure a := rfl

/-! ## Runs -/

/-- `p.Evolves events q`: the answers in `events` lead from `p` to `q`. -/
inductive Evolves : Program E ε α → List (Event E) → Program E ε α → Prop
  | refl (p : Program E ε α) : Evolves p [] p
  | ask {op : E.Op} {next : E.Answer op → Program E ε α} {answer : E.Answer op}
      {events : List (Event E)} {q : Program E ε α} :
      Evolves (next answer) events q → Evolves (.ask op next) (⟨op, answer⟩ :: events) q

/-- A run of `p >>= f` is a run of `p`, or one of `p` to its end and then of what
`f` makes of the value. -/
theorem evolves_bind {p : Program E ε α} {f : α → Program E ε β}
    {q : Program E ε β} (h : (p >>= f).Evolves events q) :
    (∃ p', p.Evolves events p' ∧ q = p' >>= f) ∨
      ∃ before a after, events = before ++ after ∧ p.Evolves before (.pure a) ∧
        (f a).Evolves after q := by
  induction p generalizing events with
  | pure a => exact Or.inr ⟨[], a, events, rfl, .refl _, h⟩
  | throw e =>
      cases h
      exact Or.inl ⟨.throw e, .refl _, rfl⟩
  | ask op next ih =>
      cases h with
      | refl => exact Or.inl ⟨.ask op next, .refl _, rfl⟩
      | @ask _ _ answer events _ hrest =>
          rcases ih answer hrest with ⟨p', hp, hq⟩ | ⟨before, a, after, rfl, hp, hf⟩
          · exact Or.inl ⟨p', .ask hp, hq⟩
          · exact Or.inr ⟨⟨op, answer⟩ :: before, a, after, rfl, .ask hp, hf⟩

/-- The events of a run that ends with a value. -/
def Returns (p : Program E ε α) (events : List (Event E)) (a : α) : Prop :=
  p.Evolves events (.pure a)

/-- The program is still to ask for something. -/
def Asks (p : Program E ε α) : Prop := ∃ op next, p = .ask op next

theorem Asks.bind {p : Program E ε α} {f : α → Program E ε β} (h : p.Asks) : (p >>= f).Asks := by
  obtain ⟨op, next, rfl⟩ := h
  exact ⟨op, fun answer => (next answer).bind f, rfl⟩

theorem not_asks_pure (a : α) : ¬ (Pure.pure a : Program E ε α).Asks := by
  rintro ⟨op, next, h⟩
  cases h

/-- A returning run of `p >>= f` is one of `p` followed by one of what `f` makes of
its value. -/
theorem returns_bind {p : Program E ε α} {f : α → Program E ε β} {b : β}
    (h : (p >>= f).Returns events b) :
    ∃ before a after, events = before ++ after ∧ p.Returns before a ∧ (f a).Returns after b := by
  rcases evolves_bind h with ⟨p', hp, hq⟩ | hsplit
  · cases p' with
    | pure a =>
        refine ⟨events, a, [], (List.append_nil _).symm, hp, ?_⟩
        rw [show f a = .pure b from hq.symm]
        exact .refl _
    | throw e => cases hq
    | ask op next => cases hq
  · exact hsplit

/-- A run of `p >>= f` to its end is one of `p` that fails, or one of `p` followed by one
of what `f` makes of its value. -/
theorem evolves_bind_ofExcept {p : Program E ε α} {f : α → Program E ε β} {result : Except ε β}
    (h : (p >>= f).Evolves events (.ofExcept result)) :
    (∃ e, result = .error e ∧ p.Evolves events (.throw e)) ∨
      ∃ before a after, events = before ++ after ∧ p.Returns before a ∧
        (f a).Evolves after (.ofExcept result) := by
  rcases evolves_bind h with ⟨p', hp, hq⟩ | hsplit
  · cases p' with
    | pure a =>
        refine Or.inr ⟨events, a, [], (List.append_nil _).symm, hp, ?_⟩
        rw [show f a = .ofExcept result from hq.symm]
        exact .refl _
    | throw e =>
        cases result with
        | ok b => cases hq
        | error e' =>
            cases hq
            exact Or.inl ⟨e, rfl, hp⟩
    | ask op next => cases result <;> cases hq
  · exact Or.inr hsplit

theorem returns_pure {a b : α} :
    (Pure.pure a : Program E ε α).Returns events b ↔ events = [] ∧ a = b := by
  constructor
  · intro h
    cases h
    exact ⟨rfl, rfl⟩
  · rintro ⟨rfl, rfl⟩
    exact .refl _

theorem returns_ofExcept {x : Except ε α} {a : α} :
    (ofExcept x : Program E ε α).Returns events a ↔ events = [] ∧ x = .ok a := by
  cases x with
  | ok b => simpa using returns_pure
  | error e =>
      constructor
      · intro h
        cases h
      · rintro ⟨-, h⟩
        cases h

/-- Renaming the errors of a program changes none of its runs. -/
theorem evolves_mapError {p : Program E ε α} {f : ε → ε'} {q : Program E ε' α}
    (h : (p.mapError f).Evolves events q) :
    ∃ p', p.Evolves events p' ∧ q = p'.mapError f := by
  induction p generalizing events with
  | pure a =>
      cases h
      exact ⟨.pure a, .refl _, rfl⟩
  | throw e =>
      cases h
      exact ⟨.throw e, .refl _, rfl⟩
  | ask op next ih =>
      cases h with
      | refl => exact ⟨.ask op next, .refl _, rfl⟩
      | ask hrest =>
          obtain ⟨p', hp, hq⟩ := ih _ hrest
          exact ⟨p', .ask hp, hq⟩

theorem returns_mapError {p : Program E ε α} {f : ε → ε'} {a : α}
    (h : (p.mapError f).Returns events a) : p.Returns events a := by
  obtain ⟨p', hp, hq⟩ := evolves_mapError h
  cases p' with
  | pure b =>
      cases hq
      exact hp
  | throw e => cases hq
  | ask op next => cases hq

/-- Looking at the result of a program changes none of its runs. -/
theorem evolves_attempt {p : Program E ε α} {q : Program E ε' (Except ε α)}
    (h : (p.attempt : Program E ε' _).Evolves events q) :
    ∃ p', p.Evolves events p' ∧ q = p'.attempt := by
  induction p generalizing events with
  | pure a =>
      cases h
      exact ⟨.pure a, .refl _, rfl⟩
  | throw e =>
      cases h
      exact ⟨.throw e, .refl _, rfl⟩
  | ask op next ih =>
      cases h with
      | refl => exact ⟨.ask op next, .refl _, rfl⟩
      | ask hrest =>
          obtain ⟨p', hp, hq⟩ := ih _ hrest
          exact ⟨p', .ask hp, hq⟩

theorem returns_attempt {p : Program E ε α} {result : Except ε α}
    (h : (p.attempt : Program E ε' _).Returns events result) :
    p.Evolves events (.ofExcept result) := by
  obtain ⟨p', hp, hq⟩ := evolves_attempt h
  cases p' with
  | pure a =>
      cases hq
      exact hp
  | throw e =>
      cases hq
      exact hp
  | ask op next => cases hq

theorem Evolves.split {p q : Program E ε α} {before after : List (Event E)}
    (h : p.Evolves (before ++ after) q) : ∃ r, p.Evolves before r ∧ r.Evolves after q := by
  induction before generalizing p with
  | nil => exact ⟨p, .refl p, h⟩
  | cons e before ih =>
      cases h with
      | ask hrest =>
          obtain ⟨r, hbefore, hafter⟩ := ih hrest
          exact ⟨r, .ask hbefore, hafter⟩

theorem Evolves.unique {p q q' : Program E ε α} (h : p.Evolves events q)
    (h' : p.Evolves events q') : q = q' := by
  induction h with
  | refl =>
      cases h'
      rfl
  | ask _ ih =>
      cases h' with
      | ask hrest => exact ih hrest

theorem Evolves.trans {p q r : Program E ε α} {before after : List (Event E)}
    (h : p.Evolves before q) (h' : q.Evolves after r) : p.Evolves (before ++ after) r := by
  induction h with
  | refl => exact h'
  | ask _ ih => exact .ask (ih h')

theorem Evolves.mapError {p q : Program E ε α} {f : ε → ε'} (h : p.Evolves events q) :
    (p.mapError f).Evolves events (q.mapError f) := by
  induction h with
  | refl => exact .refl _
  | ask _ ih => exact .ask ih

theorem Evolves.attempt {p q : Program E ε α} (h : p.Evolves events q) :
    (p.attempt : Program E ε' _).Evolves events q.attempt := by
  induction h with
  | refl => exact .refl _
  | ask _ ih => exact .ask ih

theorem Evolves.bind {p q : Program E ε α} {f : α → Program E ε β} (h : p.Evolves events q) :
    (p >>= f).Evolves events (q >>= f) := by
  induction h with
  | refl => exact .refl _
  | ask _ ih => exact .ask ih

/-- A first part to its end, and a run of the rest. -/
theorem Returns.followed {p : Program E ε α} {f : α → Program E ε β} {a : α} {q : Program E ε β}
    {before after : List (Event E)} (hp : p.Returns before a) (hf : (f a).Evolves after q) :
    (p >>= f).Evolves (before ++ after) q :=
  (Evolves.bind hp).trans hf

/-- A program whose value is only wrapped. -/
theorem returns_wrap {p : Program E ε α} {f : α → β} {b : β} :
    (p >>= fun a => Pure.pure (f a)).Returns events b ↔ ∃ a, p.Returns events a ∧ b = f a := by
  constructor
  · intro h
    obtain ⟨before, a, after, rfl, hp, hf⟩ := returns_bind h
    obtain ⟨rfl, rfl⟩ := returns_pure.mp hf
    rw [List.append_nil]
    exact ⟨a, hp, rfl⟩
  · rintro ⟨a, hp, rfl⟩
    have hwrapped := hp.followed (f := fun a => (Pure.pure (f a) : Program E ε β)) (.refl _)
    rwa [List.append_nil] at hwrapped

/-- A silent first part. -/
theorem Returns.after {p : Program E ε α} {f : α → Program E ε β} {a : α} {b : β}
    (hp : p.Returns [] a) (hf : (f a).Returns events b) : (p >>= f).Returns events b :=
  (Evolves.bind hp).trans hf

/-- A first part with one event. -/
theorem Returns.afterEvent {p : Program E ε α} {f : α → Program E ε β} {a : α} {b : β} {e : Event E}
    (hp : p.Returns [e] a) (hf : (f a).Returns events b) : (p >>= f).Returns (e :: events) b :=
  (Evolves.bind hp).trans hf

theorem Returns.ofExcept {x : Except ε α} {a : α} (h : x = .ok a) :
    (ofExcept x : Program E ε α).Returns [] a := by
  subst h
  exact .refl _

theorem Returns.require {c : Prop} [Decidable c] {e : ε} (h : c) :
    (require c e : Program E ε Unit).Returns [] () := by
  rw [Program.require, if_pos h]
  exact .refl _

theorem Returns.mapError {p : Program E ε α} {f : ε → ε'} {a : α} (h : p.Returns events a) :
    (p.mapError f).Returns events a :=
  Evolves.mapError h

/-! ## Going through a program

`p.wp Q post past` says of every continuation of a run whose events so far are
`past`: an operation is only asked for when `Q` holds of the events before it,
and `post` holds of all events and the value the run ends with. -/

def wp (Q : List (Event E) → E.Op → Prop) :
    Program E ε α → (List (Event E) → α → Prop) → List (Event E) → Prop
  | .pure a, post, past => post past a
  | .throw _, _, _ => True
  | .ask op next, post, past =>
      Q past op ∧ ∀ answer, (next answer).wp Q post (past ++ [⟨op, answer⟩])

variable {Q : List (Event E) → E.Op → Prop} {past : List (Event E)}

@[simp] theorem wp_pure {a : α} {post : List (Event E) → α → Prop} :
    (Pure.pure a : Program E ε α).wp Q post past ↔ post past a := Iff.rfl

@[simp] theorem wp_throw {e : ε} {post : List (Event E) → α → Prop} :
    (.throw e : Program E ε α).wp Q post past ↔ True := Iff.rfl

theorem wp_ask {op : E.Op} {next : E.Answer op → Program E ε α}
    {post : List (Event E) → α → Prop} :
    (.ask op next : Program E ε α).wp Q post past ↔
      Q past op ∧ ∀ answer, (next answer).wp Q post (past ++ [⟨op, answer⟩]) := Iff.rfl

@[simp] theorem wp_perform {op : E.Op} {post : List (Event E) → E.Answer op → Prop} :
    (perform op : Program E ε _).wp Q post past ↔
      Q past op ∧ ∀ answer, post (past ++ [⟨op, answer⟩]) answer := Iff.rfl

@[simp] theorem wp_ofExcept {x : Except ε α} {post : List (Event E) → α → Prop} :
    (ofExcept x : Program E ε α).wp Q post past ↔ ∀ a, x = .ok a → post past a := by
  cases x with
  | ok a => simp [ofExcept, wp]
  | error e => simp [ofExcept]

@[simp] theorem wp_require {c : Prop} [Decidable c] {e : ε} {post : List (Event E) → Unit → Prop} :
    (require c e : Program E ε Unit).wp Q post past ↔ (c → post past ()) := by
  by_cases h : c
  · simp [require, h, wp]
  · simp [require, h]

@[simp] theorem wp_bind {p : Program E ε α} {f : α → Program E ε β}
    {post : List (Event E) → β → Prop} :
    (p >>= f).wp Q post past ↔ p.wp Q (fun past a => (f a).wp Q post past) past := by
  induction p generalizing past with
  | pure a => exact Iff.rfl
  | throw e => exact Iff.rfl
  | ask op next ih => exact and_congr Iff.rfl (forall_congr' (fun answer => ih answer))

@[simp] theorem wp_mapError {f : ε → ε'} {p : Program E ε α}
    {post : List (Event E) → α → Prop} :
    (p.mapError f).wp Q post past ↔ p.wp Q post past := by
  induction p generalizing past with
  | pure a => exact Iff.rfl
  | throw e => exact Iff.rfl
  | ask op next ih => exact and_congr Iff.rfl (forall_congr' (fun answer => ih answer))

/-- A program whose error is looked at: what holds at an error is proved of every
continuation. -/
theorem wp_attempt {p : Program E ε α} {post : List (Event E) → Except ε α → Prop}
    (h : p.wp Q (fun past a => post past (.ok a)) past)
    (herror : ∀ later e, post (past ++ later) (.error e)) :
    (p.attempt : Program E ε' _).wp Q post past := by
  induction p generalizing past with
  | pure a => exact h
  | throw e =>
      have hpast := herror [] e
      rwa [List.append_nil] at hpast
  | ask op next ih =>
      refine ⟨h.1, fun answer => ih answer (h.2 answer) (fun later e => ?_)⟩
      have hlater := herror (⟨op, answer⟩ :: later) e
      rwa [List.append_cons] at hlater

theorem wp_mono {Q' : List (Event E) → E.Op → Prop} {p : Program E ε α}
    {post post' : List (Event E) → α → Prop} (h : p.wp Q post past)
    (hQ : ∀ past op, Q past op → Q' past op) (hpost : ∀ past a, post past a → post' past a) :
    p.wp Q' post' past := by
  induction p generalizing past with
  | pure a => exact hpost _ _ h
  | throw e => trivial
  | ask op next ih => exact ⟨hQ _ _ h.1, fun answer => ih answer (h.2 answer)⟩

theorem wp_post {p : Program E ε α} {post post' : List (Event E) → α → Prop}
    (h : p.wp Q post past) (hpost : ∀ later a, post later a → post' later a) :
    p.wp Q post' past :=
  wp_mono h (fun _ _ hQ => hQ) hpost

/-- Events only ever join at the end. -/
theorem wp_extends {p : Program E ε α} {post : List (Event E) → α → Prop}
    (h : p.wp Q post past) : p.wp Q (fun later a => past <+: later ∧ post later a) past := by
  induction p generalizing past with
  | pure a => exact ⟨List.prefix_refl past, h⟩
  | throw e => trivial
  | ask op next ih =>
      refine ⟨h.1, fun answer => wp_mono (ih answer (h.2 answer)) (fun _ _ hQ => hQ) ?_⟩
      rintro later a ⟨hgrown, hpost⟩
      exact ⟨(List.prefix_append past _).trans hgrown, hpost⟩

/-- What `wp` says of a program it says of whatever the program evolves to. -/
theorem wp_evolves {p q : Program E ε α} {post : List (Event E) → α → Prop}
    (h : p.wp Q post past) (hr : p.Evolves events q) : q.wp Q post (past ++ events) := by
  induction hr generalizing past with
  | refl => rwa [List.append_nil]
  | ask _ ih =>
      have hrest := ih (h.2 _)
      rwa [List.append_assoc] at hrest

theorem wp_returns {p : Program E ε α} {post : List (Event E) → α → Prop} {a : α}
    (h : p.wp Q post past) (hr : p.Returns events a) : post (past ++ events) a :=
  wp_evolves h hr

/-- Each operation of a run is asked for when `Q` holds of what came before. -/
theorem wp_asked {p q : Program E ε α} {post : List (Event E) → α → Prop}
    {before after : List (Event E)} {e : Event E} (h : p.wp Q post past)
    (hr : p.Evolves (before ++ e :: after) q) : Q (past ++ before) e.op := by
  induction before generalizing p past with
  | nil =>
      rw [List.nil_append] at hr
      cases hr
      rw [List.append_nil]
      exact h.1
  | cons first before ih =>
      rw [List.cons_append] at hr
      cases hr with
      | ask hrest =>
          have hQ := ih (h.2 _) hrest
          rwa [List.append_assoc] at hQ

/-! ## Carrying operations out -/

section

variable {F : Effects} {carry : (op : E.Op) → Program F ε (E.Answer op)} {P : F.Op → Prop}

/-- Each operation is carried out by a program that asks for others. -/
def interpret (carry : (op : E.Op) → Program F ε (E.Answer op)) :
    Program E ε α → Program F ε α
  | .pure a => .pure a
  | .throw e => .throw e
  | .ask op next => (carry op).bind (fun answer => (next answer).interpret carry)

/-- What carrying an operation out may ask for where the operation may be asked for, the
program may ask for when it is carried out. -/
theorem wp_interpret {p : Program E ε α} {post : List (Event E) → α → Prop} (h : p.wp Q post past)
    (hcarry : ∀ past op, Q past op →
      ∀ done, (carry op).wp (fun _ asked => P asked) (fun _ _ => True) done)
    (done : List (Event F)) :
    (p.interpret carry).wp (fun _ asked => P asked) (fun _ _ => True) done := by
  induction p generalizing past done with
  | pure a => trivial
  | throw e => trivial
  | ask op next ih =>
      have hrest : ((carry op) >>= fun answer => (next answer).interpret carry).wp
          (fun _ asked => P asked) (fun _ _ => True) done := by
        rw [wp_bind]
        exact wp_post (hcarry past op h.1 done) (fun later answer _ => ih answer (h.2 answer) later)
      exact hrest

end

-- a goal is never to be met by running the program
attribute [irreducible] wp

/-! ## Against an oracle -/

/-- The result of a program whose operations an oracle answers. -/
def eval (oracle : (op : E.Op) → E.Answer op) : Program E ε α → Except ε α
  | .pure a => .ok a
  | .throw e => .error e
  | .ask op next => (next (oracle op)).eval oracle

variable (oracle : (op : E.Op) → E.Answer op)

@[simp] theorem eval_pure (a : α) : (Pure.pure a : Program E ε α).eval oracle = .ok a := rfl

@[simp] theorem eval_throw (e : ε) : (.throw e : Program E ε α).eval oracle = .error e := rfl

@[simp] theorem eval_ofExcept (x : Except ε α) :
    (ofExcept x : Program E ε α).eval oracle = x := by
  cases x <;> rfl

@[simp] theorem eval_require (c : Prop) [Decidable c] (e : ε) :
    (require c e : Program E ε Unit).eval oracle = if c then .ok () else .error e := by
  by_cases h : c
  · simp [require, h, eval]
  · simp [require, h]

theorem eval_require_eq_ok {c : Prop} [Decidable c] {e : ε} {u : Unit} :
    (require c e : Program E ε Unit).eval oracle = .ok u ↔ c := by
  rw [eval_require]
  by_cases h : c <;> simp [h]

@[simp] theorem eval_bind (p : Program E ε α) (f : α → Program E ε β) :
    (p >>= f).eval oracle = (p.eval oracle).bind (fun a => (f a).eval oracle) := by
  induction p with
  | pure a => rfl
  | throw e => rfl
  | ask op next ih => exact ih (oracle op)

/-- A run whose answers are the oracle's. -/
theorem Evolves.eval {p q : Program E ε α} (h : p.Evolves events q)
    (hanswers : ∀ e ∈ events, e.answer = oracle e.op) : p.eval oracle = q.eval oracle := by
  induction h with
  | refl => rfl
  | @ask op next answer events q _ ih =>
      have hanswer : answer = oracle op := hanswers ⟨op, answer⟩ List.mem_cons_self
      rw [hanswer] at ih
      exact ih (fun e he => hanswers e (List.mem_cons_of_mem _ he))

theorem Returns.eval {p : Program E ε α} {a : α} (h : p.Returns events a)
    (hanswers : ∀ e ∈ events, e.answer = oracle e.op) : p.eval oracle = .ok a :=
  Evolves.eval oracle h hanswers

@[simp] theorem eval_mapError (f : ε → ε') (p : Program E ε α) :
    (p.mapError f).eval oracle = (p.eval oracle).mapError f := by
  induction p with
  | pure a => rfl
  | throw e => rfl
  | ask op next ih => exact ih (oracle op)

end Program
