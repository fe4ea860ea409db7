import IdentityHub.Lib.Interleaving
import Mathlib.Data.List.Induction
import Mathlib.Data.List.Nodup

/-!
# From interleaved to one after another

Some events can be put off without any other event noticing, the draw of a fresh name for
one. The other events of a program, from the first to the last, are its *section*. If no
such event of another program falls into a section, a run side by side is a run of one
program after another, in the order of their first such events.
-/

variable {E : Effects} {σ ι : Type*} {env : Environment E σ} {Moves : Event E → Prop}

/-- The events in `Moves` can be put off until after the next event. -/
def Environment.PutsOff (env : Environment E σ) (Moves : Event E → Prop) : Prop :=
  ∀ {s s₁ s₂ : σ} {e e' : Event E}, Moves e → env.respond s e s₁ → env.respond s₁ e' s₂ →
    ∃ s₁', env.respond s e' s₁' ∧ env.respond s₁' e s₂

theorem Environment.Replays.putOff (hmoves : env.PutsOff Moves) {s s₁ s' : σ} {e : Event E}
    {events : List (Event E)} (he : Moves e) (hfirst : env.respond s e s₁)
    (h : env.Replays s₁ events s') : ∃ s₁', env.Replays s events s₁' ∧ env.respond s₁' e s' := by
  induction h generalizing s with
  | nil s₁ => exact ⟨s, .nil s, hfirst⟩
  | cons he' _ ih =>
      obtain ⟨s₁', hsooner, hlater⟩ := hmoves he hfirst he'
      obtain ⟨s₂', hrest, hlast⟩ := ih hlater
      exact ⟨s₂', .cons hsooner hrest, hlast⟩

section

variable [DecidableEq ι]

/-- The events of one program, before those of the others that can be put off. -/
theorem Environment.Replays.gather (hmoves : env.PutsOff Moves) (i : ι)
    {log : List (ι × Event E)} {s s' : σ} (hothers : ∀ entry ∈ log, entry.1 ≠ i → Moves entry.2)
    (h : env.Replays s (log.map Prod.snd) s') :
    env.Replays s (eventsOf i log ++ (log.filter (fun entry => entry.1 ≠ i)).map Prod.snd) s' := by
  induction log generalizing s with
  | nil => exact h
  | cons entry log ih =>
      obtain ⟨j, e⟩ := entry
      have hrest : ∀ entry ∈ log, entry.1 ≠ i → Moves entry.2 :=
        fun entry hmem => hothers entry (List.mem_cons_of_mem _ hmem)
      cases h with
      | cons he hlater =>
          have hgathered := ih hrest hlater
          rw [eventsOf_cons]
          by_cases hj : j = i
          · rw [if_pos hj, List.filter_cons_of_neg (by simpa using hj)]
            exact .cons he hgathered
          · obtain ⟨s₂, hown, hother⟩ := hgathered.split
            obtain ⟨s₁', hfirst, hlast⟩ :=
              hown.putOff hmoves (hothers (j, e) List.mem_cons_self hj) he
            rw [if_neg hj, List.filter_cons_of_pos (by simpa using hj)]
            exact hfirst.append (.cons hlast hother)

/-! ## The order of the sections -/

section

variable (Moves) [DecidablePred Moves]

def enter (order : List ι) (entry : ι × Event E) : List ι :=
  if Moves entry.2 ∨ entry.1 ∈ order then order else order ++ [entry.1]

/-- The programs whose sections have begun, in that order. -/
def entered (log : List (ι × Event E)) : List ι := log.foldl (enter Moves) []

theorem entered_snoc (log : List (ι × Event E)) (entry : ι × Event E) :
    entered Moves (log ++ [entry]) = enter Moves (entered Moves log) entry := by
  rw [entered, List.foldl_append]
  rfl

variable {Moves}

theorem entered_snoc_same {log : List (ι × Event E)} {entry : ι × Event E}
    (h : Moves entry.2 ∨ entry.1 ∈ entered Moves log) :
    entered Moves (log ++ [entry]) = entered Moves log := by
  rw [entered_snoc, enter, if_pos h]

theorem entered_snoc_new {log : List (ι × Event E)} {entry : ι × Event E}
    (hmoves : ¬ Moves entry.2) (hnew : entry.1 ∉ entered Moves log) :
    entered Moves (log ++ [entry]) = entered Moves log ++ [entry.1] := by
  rw [entered_snoc, enter, if_neg (not_or.mpr ⟨hmoves, hnew⟩)]

theorem nodup_entered (log : List (ι × Event E)) : (entered Moves log).Nodup := by
  induction log using List.reverseRecOn with
  | nil => exact List.nodup_nil
  | append_singleton log entry ih =>
      by_cases h : Moves entry.2 ∨ entry.1 ∈ entered Moves log
      · rwa [entered_snoc_same h]
      · rw [not_or] at h
        rw [entered_snoc_new h.1 h.2]
        exact ih.append (List.nodup_singleton _) (List.disjoint_singleton.mpr h.2)

theorem mem_entered {log : List (ι × Event E)} {i : ι} :
    i ∈ entered Moves log ↔ ∃ e ∈ eventsOf i log, ¬ Moves e := by
  simp only [mem_eventsOf]
  induction log using List.reverseRecOn with
  | nil => simp [entered]
  | append_singleton log entry ih =>
      have hsnoc : (∃ e, (i, e) ∈ log ++ [entry] ∧ ¬ Moves e) ↔
          i ∈ entered Moves log ∨ (i = entry.1 ∧ ¬ Moves entry.2) := by
        rw [ih]
        constructor
        · rintro ⟨e, hmem, he⟩
          rcases List.mem_append.mp hmem with hmem | hmem
          · exact Or.inl ⟨e, hmem, he⟩
          · cases List.mem_singleton.mp hmem
            exact Or.inr ⟨rfl, he⟩
        · rintro (⟨e, hmem, he⟩ | ⟨rfl, he⟩)
          · exact ⟨e, List.mem_append_left _ hmem, he⟩
          · exact ⟨entry.2, List.mem_append_right _ (List.mem_singleton_self _), he⟩
      rw [hsnoc]
      by_cases h : Moves entry.2 ∨ entry.1 ∈ entered Moves log
      · rw [entered_snoc_same h]
        refine ⟨Or.inl, fun hi => hi.elim id ?_⟩
        rintro ⟨rfl, he⟩
        exact h.resolve_left he
      · rw [not_or] at h
        rw [entered_snoc_new h.1 h.2, List.mem_append, List.mem_singleton]
        exact or_congr_right ⟨fun hi => ⟨hi, h.1⟩, fun hi => hi.1⟩

theorem entered_append (pre post : List (ι × Event E)) :
    entered Moves pre <+: entered Moves (pre ++ post) := by
  induction post using List.reverseRecOn with
  | nil => exact (List.append_nil pre).symm ▸ List.prefix_rfl
  | append_singleton post entry ih =>
      rw [← List.append_assoc]
      by_cases h : Moves entry.2 ∨ entry.1 ∈ entered Moves (pre ++ post)
      · rwa [entered_snoc_same h]
      · rw [not_or] at h
        rw [entered_snoc_new h.1 h.2]
        exact ih.trans (List.prefix_append _ _)

/-- One program's section begins before another's events: it comes first. -/
theorem idxOf_entered_lt {pre post : List (ι × Event E)} {i j : ι} (hi : i ∈ entered Moves pre)
    (hj : j ∉ entered Moves pre) :
    (entered Moves (pre ++ post)).idxOf i < (entered Moves (pre ++ post)).idxOf j := by
  obtain ⟨rest, hrest⟩ := @entered_append E ι Moves _ _ pre post
  rw [← hrest, List.idxOf_append_of_mem hi, List.idxOf_append_of_notMem hj]
  exact Nat.lt_of_lt_of_le (List.idxOf_lt_length_of_mem hi) (Nat.le_add_right _ _)

variable (Moves) in
/-- The entries of the programs whose sections have not begun. -/
def waiting (log : List (ι × Event E)) : List (ι × Event E) :=
  log.filter (fun entry => entry.1 ∉ entered Moves log)

theorem waiting_not_entered {log : List (ι × Event E)} :
    ∀ entry ∈ waiting Moves log, entry.1 ∉ entered Moves log :=
  fun _ hentry => of_decide_eq_true (List.mem_filter.mp hentry).2

theorem waiting_moves {log : List (ι × Event E)} : ∀ entry ∈ waiting Moves log, Moves entry.2 := by
  intro entry hentry
  have hmem := (List.mem_filter.mp hentry).1
  by_contra hstays
  exact waiting_not_entered entry hentry (mem_entered.mpr ⟨entry.2, mem_eventsOf.mpr hmem, hstays⟩)

theorem eventsOf_waiting {log : List (ι × Event E)} {i : ι} (h : i ∉ entered Moves log) :
    eventsOf i (waiting Moves log) = eventsOf i log := by
  rw [eventsOf, waiting, List.filter_filter]
  refine congrArg _ (List.filter_congr fun entry _ => ?_)
  by_cases hi : entry.1 = i
  · simp [hi, h]
  · simp [hi]

end

end

/-! ## The rule -/

section

variable {ε α : Type} [DecidableEq ι] {programs : ι → Program E ε α}
  {start s : σ}

/-- The program has come to its end. -/
def Program.Ends (p : Program E ε α) (events : List (Event E)) : Prop :=
  ∃ q, p.Evolves events q ∧ ¬ q.Asks

theorem Program.Ends.nothing_after {p q : Program E ε α} {events after : List (Event E)}
    (h : p.Ends events) (hruns : p.Evolves (events ++ after) q) : after = [] := by
  obtain ⟨r, hevents, hends⟩ := h
  obtain ⟨r', hevents', hafter⟩ := hruns.split
  obtain rfl := hevents.unique hevents'
  cases hafter with
  | refl => rfl
  | ask => exact absurd ⟨_, _, rfl⟩ hends

/-- No event of one program falls into the section of another: where it comes, the other's
section has not begun or the other has ended. -/
def Exclusive (Moves : Event E → Prop) (programs : ι → Program E ε α) (log : List (ι × Event E)) :
    Prop :=
  ∀ pre i e post, log = pre ++ (i, e) :: post → ¬ Moves e → ∀ j, j ≠ i →
    (∀ e' ∈ eventsOf j pre, Moves e') ∨ (programs j).Ends (eventsOf j pre)

theorem Exclusive.snoc {log : List (ι × Event E)} {entry : ι × Event E}
    (h : Exclusive Moves programs (log ++ [entry])) : Exclusive Moves programs log := by
  rintro pre i e post rfl
  exact h pre i e (post ++ [entry]) (by rw [List.append_assoc, List.cons_append])

/-- Two programs, the one after the other. -/
theorem exclusive_oneAfterAnother {i j : ι} {first second : List (Event E)}
    (hends : (programs i).Ends first) :
    Exclusive Moves programs (first.map (Prod.mk i) ++ second.map (Prod.mk j)) := by
  have hother : ∀ {k l : ι} {events : List (Event E)} {part : List (ι × Event E)}, l ≠ k →
      part ⊆ events.map (Prod.mk k) → eventsOf l part = [] := by
    intro k l events part hl hpart
    rw [eventsOf, List.map_eq_nil_iff, List.filter_eq_nil_iff]
    intro entry hentry heq
    obtain ⟨e, -, rfl⟩ := List.mem_map.mp (hpart hentry)
    exact hl (of_decide_eq_true heq).symm
  -- Where the second program is at an event, the first has ended.
  have hsecond : ∀ part ⊆ second.map (Prod.mk j), ∀ l, l ≠ j →
      (∀ e ∈ eventsOf l (first.map (Prod.mk i) ++ part), Moves e) ∨
        (programs l).Ends (eventsOf l (first.map (Prod.mk i) ++ part)) := by
    intro part hpart l hl
    rw [eventsOf_append, hother hl hpart, List.append_nil]
    by_cases hi : i = l
    · subst hi
      rw [eventsOf_tagged]
      exact Or.inr hends
    · rw [eventsOf_tagged_other hi]
      exact Or.inl (fun e he => absurd he List.not_mem_nil)
  intro pre k e post hlog hstays l hl
  rcases List.append_eq_append_iff.mp hlog with ⟨part, rfl, hpart⟩ | ⟨part, hpart, hrest⟩
  · have hmem : (k, e) ∈ second.map (Prod.mk j) := by
      rw [hpart]
      exact List.mem_append_right _ List.mem_cons_self
    obtain ⟨_, _, heq⟩ := List.mem_map.mp hmem
    cases heq
    exact hsecond part (hpart ▸ List.subset_append_left _ _) l hl
  · cases part with
    | nil =>
        rw [List.append_nil] at hpart
        have hmem : (k, e) ∈ second.map (Prod.mk j) := by
          rw [List.nil_append] at hrest
          exact hrest ▸ List.mem_cons_self
        obtain ⟨_, _, heq⟩ := List.mem_map.mp hmem
        cases heq
        have hnothing := hsecond [] (List.nil_subset _) l hl
        rwa [List.append_nil, hpart] at hnothing
    | cons entry part =>
        obtain ⟨rfl, -⟩ := List.cons_eq_cons.mp hrest
        have hmem : (k, e) ∈ first.map (Prod.mk i) := by
          rw [hpart]
          exact List.mem_append_right _ List.mem_cons_self
        obtain ⟨_, _, heq⟩ := List.mem_map.mp hmem
        cases heq
        rw [hother hl (hpart ▸ List.subset_append_left _ _)]
        exact Or.inl (fun e he => absurd he List.not_mem_nil)

variable [DecidablePred Moves]

theorem eventsOf_snoc (i : ι) (e : Event E) (log : List (ι × Event E)) :
    eventsOf i (log ++ [(i, e)]) = eventsOf i log ++ [e] := by
  rw [eventsOf_append, eventsOf_cons, if_pos rfl, eventsOf_nil]

theorem flatMap_snoc {log : List (ι × Event E)} {entry : ι × Event E} {order : List ι}
    (h : entry.1 ∉ order) :
    order.flatMap (fun i => eventsOf i (log ++ [entry])) = order.flatMap (fun i => eventsOf i log) := by
  refine List.flatMap_congr fun i hi => ?_
  have hne : entry.1 ≠ i := fun heq => h (heq ▸ hi)
  rw [eventsOf_append, eventsOf_cons, if_neg hne, eventsOf_nil, List.append_nil]

/-- A section that has begun, or begins with the event: what is left of the others. -/
theorem waiting_snoc {log : List (ι × Event E)} {i : ι} {e : Event E}
    (h : i ∈ entered Moves (log ++ [(i, e)])) :
    waiting Moves (log ++ [(i, e)]) = (waiting Moves log).filter (fun entry => entry.1 ≠ i) := by
  have hentered : ∀ j, j ∈ entered Moves (log ++ [(i, e)]) ↔ j ∈ entered Moves log ∨ j = i := by
    intro j
    by_cases hsame : Moves e ∨ i ∈ entered Moves log
    · rw [entered_snoc_same hsame] at h ⊢
      exact ⟨Or.inl, fun hj => hj.elim id (fun heq => heq ▸ h)⟩
    · rw [not_or] at hsame
      rw [entered_snoc_new hsame.1 hsame.2, List.mem_append, List.mem_singleton]
  rw [waiting, List.filter_append, List.filter_cons_of_neg (by simpa using h), List.filter_nil,
    List.append_nil, waiting, List.filter_filter]
  refine List.filter_congr fun entry _ => ?_
  rw [← Bool.decide_and, decide_eq_decide, hentered, not_or, and_comm]

/-- What the programs that wait have drawn, and then an event of a program: with what that
program has drawn the event can come first. -/
theorem gather_waiting (hmoves : env.PutsOff Moves) {log : List (ι × Event E)} {i : ι} {e : Event E}
    {s s₁ s' : σ} (hwait : env.Replays s ((waiting Moves log).map Prod.snd) s₁)
    (he : env.respond s₁ e s') :
    env.Replays s ((eventsOf i (waiting Moves log) ++ [e]) ++
      ((waiting Moves log).filter (fun entry => entry.1 ≠ i)).map Prod.snd) s' := by
  have hall : env.Replays s ((waiting Moves log ++ [(i, e)]).map Prod.snd) s' := by
    rw [List.map_append]
    exact hwait.append (.cons he (.nil s'))
  have hgathered := hall.gather hmoves i (fun entry hmem hne => ?_)
  · rw [eventsOf_snoc, List.filter_append, List.filter_singleton] at hgathered
    simpa using hgathered
  · rcases List.mem_append.mp hmem with hmem | hmem
    · exact waiting_moves entry hmem
    · exact absurd (congrArg Prod.fst (List.mem_singleton.mp hmem)) hne

/-- An event that is not one of those drawn while waiting: it belongs to the last section, which
has begun or begins with it. -/
theorem last_section (hmoves : env.PutsOff Moves) {log : List (ι × Event E)} {i : ι} {e : Event E}
    {s₀ s₁ : σ} (hexclusive : Exclusive Moves programs (log ++ [(i, e)]))
    (hruns : ∃ q, (programs i).Evolves (eventsOf i log ++ [e]) q)
    (hended : ∀ j ∈ (entered Moves log).dropLast, (programs j).Ends (eventsOf j log))
    (hsections : env.Replays start ((entered Moves log).flatMap (fun i => eventsOf i log)) s₀)
    (hwaiting : env.Replays s₀ ((waiting Moves log).map Prod.snd) s₁) (he : env.respond s₁ e s)
    (hsection : ¬ (Moves e ∧ i ∉ entered Moves log)) :
    ∃ init, entered Moves (log ++ [(i, e)]) = init ++ [i] ∧
      (∀ j ∈ init, (programs j).Ends (eventsOf j log)) ∧
        env.Replays start (init.flatMap (fun i => eventsOf i log) ++ ((eventsOf i log ++ [e]) ++
          ((waiting Moves log).filter (fun entry => entry.1 ≠ i)).map Prod.snd)) s := by
  have hgathered := gather_waiting (i := i) hmoves hwaiting he
  by_cases hin : i ∈ entered Moves log
  · have hnone : eventsOf i (waiting Moves log) = [] := by
      rw [eventsOf, List.map_eq_nil_iff, List.filter_eq_nil_iff]
      intro entry hentry heq
      exact waiting_not_entered entry hentry (of_decide_eq_true heq ▸ hin)
    rw [hnone, List.nil_append] at hgathered
    rw [entered_snoc_same (Or.inr hin)]
    rcases List.eq_nil_or_concat' (entered Moves log) with hnil | ⟨init, last, hsplit⟩
    · rw [hnil] at hin
      exact absurd hin List.not_mem_nil
    · rw [hsplit, List.dropLast_concat] at hended
      rw [hsplit, List.mem_append, List.mem_singleton] at hin
      rcases hin with hin | rfl
      · obtain ⟨q, hq⟩ := hruns
        exact absurd ((hended i hin).nothing_after hq) (List.cons_ne_nil e [])
      · refine ⟨init, hsplit, hended, ?_⟩
        rw [hsplit, List.flatMap_append, List.flatMap_singleton] at hsections
        simpa using hsections.append hgathered
  · have hstays : ¬ Moves e := fun hmove => hsection ⟨hmove, hin⟩
    rw [eventsOf_waiting hin] at hgathered
    refine ⟨_, entered_snoc_new hstays hin, fun j hj => ?_, hsections.append hgathered⟩
    have hne : j ≠ i := fun heq => hin (heq ▸ hj)
    refine (hexclusive log i e [] rfl hstays j hne).resolve_left fun hall => ?_
    obtain ⟨e', he', hstays'⟩ := mem_entered.mp hj
    exact hstays' (hall e' he')

/-- **Reduction**: the state is one that the programs lead to one after another, in the order
of their sections, with what the others have drawn at the end; and all but the last of them
have ended. -/
theorem replays_serial (hmoves : env.PutsOff Moves) {log : List (ι × Event E)}
    (hexclusive : Exclusive Moves programs log)
    (hruns : ∀ i, ∃ q, (programs i).Evolves (eventsOf i log) q)
    (hreplays : env.Replays start (log.map Prod.snd) s) :
    (∀ i ∈ (entered Moves log).dropLast, (programs i).Ends (eventsOf i log)) ∧
      env.Replays start ((entered Moves log).flatMap (fun i => eventsOf i log) ++
        (waiting Moves log).map Prod.snd) s := by
  induction log using List.reverseRecOn generalizing s with
  | nil => exact ⟨nofun, hreplays⟩
  | append_singleton log entry ih =>
      obtain ⟨i, e⟩ := entry
      rw [List.map_append] at hreplays
      obtain ⟨s₁, hbefore, hlast⟩ := hreplays.split
      have he : env.respond s₁ e s := by
        cases hlast with
        | cons he hnil =>
            cases hnil
            exact he
      have hbegun : ∀ j, ∃ q, (programs j).Evolves (eventsOf j log) q := by
        intro j
        obtain ⟨q, hq⟩ := hruns j
        rw [eventsOf_append] at hq
        obtain ⟨r, hr, -⟩ := hq.split
        exact ⟨r, hr⟩
      obtain ⟨hended, hserial⟩ := ih hexclusive.snoc hbegun hbefore
      obtain ⟨s₀, hsections, hwaiting⟩ := hserial.split
      by_cases hdraws : Moves e ∧ i ∉ entered Moves log
      · -- The program still waits, and the event is one more of those at the end.
        obtain ⟨hmove, hout⟩ := hdraws
        rw [entered_snoc_same (Or.inl hmove), flatMap_snoc hout, waiting, List.filter_append,
          entered_snoc_same (Or.inl hmove), List.filter_cons_of_pos (by simpa using hout),
          List.filter_nil, List.map_append, ← List.append_assoc]
        refine ⟨fun j hj => ?_, hserial.append (.cons he (.nil s))⟩
        have hne : i ≠ j := fun heq => hout (heq ▸ List.dropLast_subset _ hj)
        rw [eventsOf_append, eventsOf_cons, if_neg hne, eventsOf_nil, List.append_nil]
        exact hended j hj
      · have hown : ∃ q, (programs i).Evolves (eventsOf i log ++ [e]) q := by
          rw [← eventsOf_snoc]
          exact hruns i
        obtain ⟨init, horder, hdone, hsection⟩ :=
          last_section hmoves hexclusive hown hended hsections hwaiting he hdraws
        have hnew : i ∉ init := by
          have hnodup := @nodup_entered E ι Moves _ _ (log ++ [(i, e)])
          rw [horder] at hnodup
          exact fun hi => (List.nodup_append.mp hnodup).2.2 i hi i (List.mem_singleton_self i) rfl
        have hmem : i ∈ entered Moves (log ++ [(i, e)]) := by
          rw [horder]
          exact List.mem_append_right _ (List.mem_singleton_self i)
        rw [waiting_snoc hmem, horder, List.dropLast_concat, List.flatMap_append, flatMap_snoc hnew,
          List.flatMap_singleton, eventsOf_snoc, List.append_assoc]
        refine ⟨fun j hj => ?_, hsection⟩
        have hne : i ≠ j := fun heq => hnew (heq ▸ hj)
        rw [eventsOf_append, eventsOf_cons, if_neg hne, eventsOf_nil, List.append_nil]
        exact hdone j hj

end
