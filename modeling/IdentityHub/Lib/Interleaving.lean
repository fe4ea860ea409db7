import IdentityHub.Lib.Program

/-!
# Programs that run side by side

Several programs ask one environment, an operation at a time, in any order. A
run of all of them is a log of who asked what and what the answer was: each
program's own entries are a run of that program, and the answers, in the order
of the log, are answers the environment gives.
-/

/-- What an environment may answer: `respond s e s'` says that it may answer as in
`e` in state `s`, and is then in state `s'`. -/
structure Environment (E : Effects) (σ : Type*) where
  respond : σ → Event E → σ → Prop

variable {E : Effects} {σ τ ι : Type*}

/-- A sequence of events leads from one state to another. -/
inductive Environment.Replays (env : Environment E σ) : σ → List (Event E) → σ → Prop
  | nil (s : σ) : Replays env s [] s
  | cons {s s₁ s' : σ} {e : Event E} {events : List (Event E)} :
      env.respond s e s₁ → Replays env s₁ events s' → Replays env s (e :: events) s'

variable {env : Environment E σ}

theorem Environment.Replays.append {before after : List (Event E)} {s s₁ s' : σ}
    (h : env.Replays s before s₁) (h' : env.Replays s₁ after s') :
    env.Replays s (before ++ after) s' := by
  induction h with
  | nil => exact h'
  | cons he _ ih => exact .cons he (ih h')

theorem Environment.Replays.split {before after : List (Event E)} {s s' : σ}
    (h : env.Replays s (before ++ after) s') :
    ∃ s₁, env.Replays s before s₁ ∧ env.Replays s₁ after s' := by
  induction before generalizing s with
  | nil => exact ⟨s, .nil s, h⟩
  | cons e before ih =>
      cases h with
      | cons he hrest =>
          obtain ⟨s₁, hbefore, hafter⟩ := ih hrest
          exact ⟨s₁, .cons he hbefore, hafter⟩

/-- **Invariant rule.** What every response keeps holds after every sequence of
events. -/
theorem Environment.Replays.invariant {I : σ → Prop} {events : List (Event E)} {s s' : σ}
    (h : env.Replays s events s') (hs : I s)
    (hstep : ∀ s e s', I s → env.respond s e s' → I s') : I s' := by
  induction h with
  | nil => exact hs
  | cons he _ ih => exact ih (hstep _ _ _ hs he)

/-- **Origin rule.** Where a response brings `P` about only by its event, `P` held at
first or one of the events brought it about. -/
theorem Environment.Replays.origin {P : σ → Prop} {Q : Event E → Prop} {events : List (Event E)}
    {s s' : σ} (h : env.Replays s events s')
    (hstep : ∀ s e s', env.respond s e s' → P s' → P s ∨ Q e) (hP : P s') :
    P s ∨ ∃ e ∈ events, Q e := by
  induction h with
  | nil => exact Or.inl hP
  | cons he _ ih =>
      rcases ih hP with hmid | ⟨e', hmem, hbrought⟩
      · rcases hstep _ _ _ he hmid with hold | hnow
        · exact Or.inl hold
        · exact Or.inr ⟨_, List.mem_cons_self, hnow⟩
      · exact Or.inr ⟨e', List.mem_cons_of_mem _ hmem, hbrought⟩

/-! ## A program that goes through -/

/-- The program may return `a` and take the environment from `s` to `s'`. -/
def Environment.Runs {ε α : Type} (env : Environment E σ) (p : Program E ε α) (s : σ) (a : α)
    (s' : σ) : Prop :=
  ∃ events, p.Returns events a ∧ env.Replays s events s'

namespace Environment.Runs

variable {ε ε' α β : Type} {s s₁ s' : σ}

theorem of_returns {p : Program E ε α} {a : α} (h : p.Returns [] a) : env.Runs p s a s :=
  ⟨[], h, .nil s⟩

/-- One operation. -/
theorem of_event {p : Program E ε α} {a : α} {e : Event E} (h : p.Returns [e] a)
    (he : env.respond s e s') : env.Runs p s a s' :=
  ⟨[e], h, .cons he (.nil s')⟩

theorem bind {p : Program E ε α} {f : α → Program E ε β} {a : α} {b : β}
    (h : env.Runs p s a s₁) (h' : env.Runs (f a) s₁ b s') : env.Runs (p >>= f) s b s' := by
  obtain ⟨before, hreturns, hbefore⟩ := h
  obtain ⟨after, hreturns', hafter⟩ := h'
  exact ⟨before ++ after, hreturns.followed hreturns', hbefore.append hafter⟩

/-- A program whose value is only wrapped. -/
theorem wrap_iff {p : Program E ε α} {f : α → β} {b : β} :
    env.Runs (p >>= fun a => pure (f a)) s b s' ↔ ∃ a, env.Runs p s a s' ∧ b = f a := by
  constructor
  · rintro ⟨events, hreturns, hevents⟩
    obtain ⟨a, hp, rfl⟩ := Program.returns_wrap.mp hreturns
    exact ⟨a, ⟨events, hp, hevents⟩, rfl⟩
  · rintro ⟨a, ⟨events, hp, hevents⟩, rfl⟩
    exact ⟨events, Program.returns_wrap.mpr ⟨a, hp, rfl⟩, hevents⟩

theorem mapError {p : Program E ε α} {f : ε → ε'} {a : α} (h : env.Runs p s a s') :
    env.Runs (p.mapError f) s a s' := by
  obtain ⟨events, hreturns, hevents⟩ := h
  exact ⟨events, hreturns.mapError, hevents⟩

/-- A program that asks once. -/
theorem ask_iff {op : E.Op} {f : E.Answer op → α} {a : α} :
    env.Runs (.ask op (fun answer => .pure (f answer)) : Program E ε α) s a s' ↔
      ∃ answer, env.respond s ⟨op, answer⟩ s' ∧ a = f answer := by
  constructor
  · rintro ⟨events, hreturns, hevents⟩
    cases hreturns with
    | ask hrest =>
        cases hrest
        cases hevents with
        | cons he hnil =>
            cases hnil
            exact ⟨_, he, rfl⟩
  · rintro ⟨answer, he, rfl⟩
    exact ⟨[⟨op, answer⟩], .ask (.refl _), .cons he (.nil s')⟩

end Environment.Runs

/-! ## A program that comes to its end -/

/-- The program may come to `result` and take the environment from `s` to `s'`. -/
def Environment.ComesTo {ε α : Type} (env : Environment E σ) (p : Program E ε α) (s : σ)
    (result : Except ε α) (s' : σ) : Prop :=
  ∃ events, p.Evolves events (.ofExcept result) ∧ env.Replays s events s'

namespace Environment.ComesTo

variable {ε α β : Type} {s s' : σ}

theorem bind_cases {p : Program E ε α} {f : α → Program E ε β} {result : Except ε β}
    (h : env.ComesTo (p >>= f) s result s') :
    (∃ e, result = .error e ∧ env.ComesTo p s (.error e) s') ∨
      ∃ a s₁, env.ComesTo p s (.ok a) s₁ ∧ env.ComesTo (f a) s₁ result s' := by
  obtain ⟨events, hevolves, hreplays⟩ := h
  rcases Program.evolves_bind_ofExcept hevolves with
    ⟨e, rfl, hp⟩ | ⟨before, a, after, rfl, hp, hf⟩
  · exact Or.inl ⟨e, rfl, events, hp, hreplays⟩
  · obtain ⟨s₁, hbefore, hafter⟩ := hreplays.split
    exact Or.inr ⟨a, s₁, ⟨before, hp, hbefore⟩, after, hf, hafter⟩

theorem ofExcept {x result : Except ε α}
    (h : env.ComesTo (.ofExcept x : Program E ε α) s result s') : result = x ∧ s' = s := by
  obtain ⟨events, hevolves, hreplays⟩ := h
  cases x with
  | ok a =>
      cases result with
      | ok b =>
          cases hevolves
          cases hreplays
          exact ⟨rfl, rfl⟩
      | error e => cases hevolves
  | error e =>
      cases result with
      | ok b => cases hevolves
      | error e' =>
          cases hevolves
          cases hreplays
          exact ⟨rfl, rfl⟩

/-- A computed first part. -/
theorem ofExcept_cases {x : Except ε α} {f : α → Program E ε β} {result : Except ε β}
    (h : env.ComesTo (.ofExcept x >>= f) s result s') :
    (∃ e, x = .error e ∧ result = .error e ∧ s' = s) ∨
      ∃ a, x = .ok a ∧ env.ComesTo (f a) s result s' := by
  cases x with
  | ok a => exact Or.inr ⟨a, rfl, h⟩
  | error e =>
      obtain ⟨rfl, rfl⟩ := ofExcept (x := (.error e : Except ε β)) h
      exact Or.inl ⟨e, rfl, rfl, rfl⟩

theorem pure {a : α} {result : Except ε α}
    (h : env.ComesTo (Pure.pure a : Program E ε α) s result s') : result = .ok a ∧ s' = s :=
  ofExcept (x := .ok a) h

theorem require {c : Prop} [Decidable c] {e : ε} {result : Except ε Unit}
    (h : env.ComesTo (.require c e : Program E ε Unit) s result s') :
    result = (if c then .ok () else .error e) ∧ s' = s := by
  unfold Program.require at h
  by_cases hc : c
  · rw [if_pos hc] at h ⊢
    exact pure h
  · rw [if_neg hc] at h ⊢
    exact ofExcept (x := .error e) h

theorem ask {op : E.Op} {next : E.Answer op → Program E ε α} {result : Except ε α}
    (h : env.ComesTo (.ask op next) s result s') :
    ∃ answer s₁, env.respond s ⟨op, answer⟩ s₁ ∧ env.ComesTo (next answer) s₁ result s' := by
  obtain ⟨events, hevolves, hreplays⟩ := h
  generalize hend : (Program.ofExcept result : Program E ε α) = q at hevolves
  cases hevolves with
  | refl => cases result <;> cases hend
  | ask hrest =>
      subst hend
      cases hreplays with
      | cons he hafter => exact ⟨_, _, he, _, hrest, hafter⟩

end Environment.ComesTo

/-! ## Who asked what -/

theorem map_snd_tagged (i : ι) (events : List (Event E)) :
    (events.map (Prod.mk i)).map Prod.snd = events := by
  rw [List.map_map]
  exact List.map_id events

section

variable [DecidableEq ι]

/-- The events of one program, in order. -/
def eventsOf (i : ι) (log : List (ι × Event E)) : List (Event E) :=
  (log.filter (fun entry => entry.1 = i)).map Prod.snd

theorem eventsOf_nil (i : ι) : eventsOf i ([] : List (ι × Event E)) = [] := rfl

theorem eventsOf_append (i : ι) (log log' : List (ι × Event E)) :
    eventsOf i (log ++ log') = eventsOf i log ++ eventsOf i log' := by
  rw [eventsOf, List.filter_append, List.map_append]
  rfl

theorem eventsOf_cons (i j : ι) (e : Event E) (log : List (ι × Event E)) :
    eventsOf i ((j, e) :: log) = if j = i then e :: eventsOf i log else eventsOf i log := by
  unfold eventsOf
  by_cases h : j = i
  · simp [h]
  · simp [h]

/-- The place of a program's event in the log. -/
theorem eventsOf_split {i : ι} {e : Event E} {before after : List (Event E)} :
    ∀ {log : List (ι × Event E)}, eventsOf i log = before ++ e :: after →
      ∃ pre post, log = pre ++ (i, e) :: post ∧ eventsOf i pre = before ∧
        eventsOf i post = after
  | [], h => by simp [eventsOf_nil] at h
  | (j, e') :: log, h => by
      rw [eventsOf_cons] at h
      by_cases hj : j = i
      · subst hj
        rw [if_pos rfl] at h
        cases before with
        | nil =>
            obtain ⟨rfl, rfl⟩ := List.cons_eq_cons.mp h
            exact ⟨[], log, rfl, rfl, rfl⟩
        | cons e'' before =>
            obtain ⟨rfl, hrest⟩ := List.cons_eq_cons.mp h
            obtain ⟨pre, post, rfl, hpre, hpost⟩ := eventsOf_split hrest
            refine ⟨(j, e') :: pre, post, rfl, ?_, hpost⟩
            rw [eventsOf_cons, if_pos rfl, hpre]
      · rw [if_neg hj] at h
        obtain ⟨pre, post, rfl, hpre, hpost⟩ := eventsOf_split h
        refine ⟨(j, e') :: pre, post, rfl, ?_, hpost⟩
        rw [eventsOf_cons, if_neg hj, hpre]

theorem mem_eventsOf {i : ι} {e : Event E} {log : List (ι × Event E)} :
    e ∈ eventsOf i log ↔ (i, e) ∈ log := by
  simp [eventsOf]

/-- Two different entries of a list: one of them comes first. -/
theorem split_at_two {α : Type*} {log pre post pre' post' : List α} {a b : α}
    (ha : log = pre ++ a :: post) (hb : log = pre' ++ b :: post') (hne : a ≠ b) :
    (∃ pre mid post, log = pre ++ (a :: mid ++ [b]) ++ post) ∨
      ∃ pre mid post, log = pre ++ (b :: mid ++ [a]) ++ post := by
  subst ha
  rcases List.append_eq_append_iff.mp hb with ⟨c, rfl, hc⟩ | ⟨c, rfl, hc⟩
  · cases c with
    | nil => exact absurd (List.cons_eq_cons.mp hc).1 hne
    | cons x mid =>
        obtain ⟨rfl, rfl⟩ := List.cons_eq_cons.mp hc
        exact Or.inl ⟨pre, mid, post', by simp⟩
  · cases c with
    | nil => exact absurd (List.cons_eq_cons.mp hc).1.symm hne
    | cons x mid =>
        obtain ⟨rfl, rfl⟩ := List.cons_eq_cons.mp hc
        exact Or.inr ⟨pre', mid, post, by simp⟩

theorem eventsOf_tagged (i : ι) (events : List (Event E)) :
    eventsOf i (events.map (Prod.mk i)) = events := by
  rw [eventsOf, List.filter_eq_self.mpr (by simp), List.map_map]
  exact List.map_id events

theorem eventsOf_tagged_other {i j : ι} (h : j ≠ i) (events : List (Event E)) :
    eventsOf i (events.map (Prod.mk j)) = [] := by
  rw [eventsOf, List.filter_eq_nil_iff.mpr (by simp [h]), List.map_nil]

/-- Programs that run one after another, each with its own events. -/
theorem eventsOf_flatMap (block : ι → List (Event E)) (i : ι) :
    ∀ {order : List ι}, order.Nodup →
      eventsOf i (order.flatMap (fun j => (block j).map (Prod.mk j))) =
        if i ∈ order then block i else []
  | [], _ => rfl
  | j :: order, h => by
      obtain ⟨hj, hrest⟩ := List.nodup_cons.mp h
      rw [List.flatMap_cons, eventsOf_append, eventsOf_flatMap block i hrest]
      by_cases hij : j = i
      · subst hij
        rw [if_neg hj, if_pos List.mem_cons_self, List.append_nil, eventsOf_tagged]
      · rw [eventsOf_tagged_other hij, List.nil_append]
        simp [Ne.symm hij]

/-- A run of `programs` side by side: the log, what is left of each program, and
the state the environment is left in. -/
structure Interleaving {ε α : Type} (env : Environment E σ) (start : σ)
    (programs : ι → Program E ε α) where
  log : List (ι × Event E)
  thread : ι → Program E ε α
  evolves : ∀ i, (programs i).Evolves (eventsOf i log) (thread i)
  final : σ
  replays : env.Replays start (log.map Prod.snd) final

end

/-- A program on its own. -/
def Interleaving.alone {ε α : Type} {env : Environment E σ} {start final : σ}
    {p q : Program E ε α} {events : List (Event E)} (hruns : p.Evolves events q)
    (hreplays : env.Replays start events final) :
    Interleaving env start (fun _ : Unit => p) where
  log := events.map (Prod.mk ())
  thread _ := q
  evolves _ := by rwa [eventsOf_tagged]
  final := final
  replays := by rwa [map_snd_tagged]
