import Mathlib.Data.Finset.Card
import Mathlib.Data.Finset.Dedup
import Mathlib.Data.List.DropRight

/-!
# Sets that remember the most recent insertions

A set of bounded size together with a queue of its elements in arrival order.
Inserting a known element does nothing; inserting a new one evicts the oldest
elements until the size is within the capacity again.

`insert_insertAll_iff` is what the set remembers: exactly the last `capacity`
elements that were new when they were inserted.

`evicted_after_capacity` is the spacing of evictions: an element that was
inserted and is accepted as new again has been followed by `capacity` other
elements, all different.
-/

/-- A set and the arrival order of its elements. -/
structure RecentSet (α : Type*) [DecidableEq α] where
  seen : Finset α
  order : List α
  capacity : ℕ
  nodup : order.Nodup
  agree : seen = order.toFinset
  bounded : order.length ≤ capacity

namespace RecentSet

variable {α : Type*} [DecidableEq α]

def empty (capacity : ℕ) : RecentSet α where
  seen := ∅
  order := []
  capacity := capacity
  nodup := List.nodup_nil
  agree := rfl
  bounded := Nat.zero_le _

/-- Remove the oldest elements while there are more than `capacity`. -/
def evictOldest (capacity : ℕ) : Finset α → List α → Finset α × List α
  | seen, [] => (seen, [])
  | seen, oldest :: rest =>
      if capacity < seen.card then evictOldest capacity (seen.erase oldest) rest
      else (seen, oldest :: rest)

/-- Eviction drops the surplus from the front of the queue and the same
elements from the set. -/
theorem evictOldest_eq (capacity : ℕ) {order : List α} (hnodup : order.Nodup) :
    evictOldest capacity order.toFinset order =
      ((order.drop (order.length - capacity)).toFinset, order.drop (order.length - capacity)) := by
  induction order with
  | nil => simp [evictOldest]
  | cons oldest rest ih =>
      obtain ⟨hnotMem, hrest⟩ := List.nodup_cons.mp hnodup
      have hcard : (oldest :: rest).toFinset.card = rest.length + 1 :=
        List.toFinset_card_of_nodup hnodup
      have herase : (oldest :: rest).toFinset.erase oldest = rest.toFinset := by
        rw [List.toFinset_cons, Finset.erase_insert (by simpa using hnotMem)]
      rw [evictOldest, hcard]
      by_cases h : capacity < rest.length + 1
      · rw [if_pos h, herase, ih hrest, List.length_cons,
          show rest.length + 1 - capacity = rest.length - capacity + 1 by omega, List.drop_succ_cons]
      · rw [if_neg h, List.length_cons, show rest.length + 1 - capacity = 0 by omega, List.drop_zero]

variable (s : RecentSet α)

theorem mem_seen {x : α} : x ∈ s.seen ↔ x ∈ s.order := by
  rw [s.agree, List.mem_toFinset]

theorem nodup_append_new {x : α} (hx : x ∉ s.order) : (s.order ++ [x]).Nodup :=
  s.nodup.append (List.nodup_singleton x) (List.disjoint_singleton.mpr hx)

/-- What the queue holds once `x` has arrived and the surplus is gone. -/
def arrive (x : α) : List α := (s.order ++ [x]).drop (s.order.length + 1 - s.capacity)

theorem evictOldest_arrive {x : α} (hx : x ∉ s.order) :
    evictOldest s.capacity (insert x s.seen) (s.order ++ [x]) =
      ((s.arrive x).toFinset, s.arrive x) := by
  have hseen : insert x s.seen = (s.order ++ [x]).toFinset := by
    ext y
    simp [s.agree]
  rw [hseen, evictOldest_eq s.capacity (s.nodup_append_new hx), List.length_append,
    List.length_singleton, arrive]

/-- Insert `x`; the answer is whether it was new. -/
def insert (x : α) : Bool × RecentSet α :=
  if h : x ∈ s.seen then (false, s)
  else
    let evicted := evictOldest s.capacity (Insert.insert x s.seen) (s.order ++ [x])
    have hnew : x ∉ s.order := fun hx => h (s.mem_seen.mpr hx)
    have hevicted : evicted = ((s.arrive x).toFinset, s.arrive x) := s.evictOldest_arrive hnew
    (true,
      { seen := evicted.1
        order := evicted.2
        capacity := s.capacity
        nodup := by
          rw [hevicted]
          exact (s.nodup_append_new hnew).sublist (List.drop_sublist _ _)
        agree := by rw [hevicted]
        bounded := by
          rw [hevicted, arrive, List.length_drop, List.length_append, List.length_singleton]
          omega })

variable {s}

theorem insert_of_mem {x : α} (h : x ∈ s.order) : s.insert x = (false, s) := by
  rw [insert, dif_pos (s.mem_seen.mpr h)]

theorem insert_new_iff {x : α} : (s.insert x).1 = true ↔ x ∉ s.order := by
  rw [← s.mem_seen, insert]
  by_cases h : x ∈ s.seen
  · simp [h]
  · simp [h]

theorem capacity_insert (x : α) : (s.insert x).2.capacity = s.capacity := by
  rw [insert]
  by_cases h : x ∈ s.seen
  · rw [dif_pos h]
  · rw [dif_neg h]

theorem order_insert_new {x : α} (h : x ∉ s.order) : (s.insert x).2.order = s.arrive x := by
  rw [insert, dif_neg (fun hx => h (s.mem_seen.mp hx))]
  exact congrArg Prod.snd (s.evictOldest_arrive h)

/-! ## What is remembered -/

/-- Insert the elements one by one. -/
def insertAll : RecentSet α → List α → RecentSet α
  | s, [] => s
  | s, x :: xs => insertAll (s.insert x).2 xs

/-- The elements that are new when their turn comes. -/
def accepted : RecentSet α → List α → List α
  | _, [] => []
  | s, x :: xs =>
      if (s.insert x).1 = true then x :: accepted (s.insert x).2 xs
      else accepted (s.insert x).2 xs

theorem capacity_insertAll {xs : List α} : (s.insertAll xs).capacity = s.capacity := by
  induction xs generalizing s with
  | nil => rfl
  | cons x xs ih => rw [insertAll, ih, capacity_insert]

/-- The queue is the end of everything that was ever accepted. -/
theorem order_insertAll {xs : List α} :
    (s.insertAll xs).order = (s.order ++ s.accepted xs).rtake s.capacity := by
  induction xs generalizing s with
  | nil =>
      have hbounded := s.bounded
      rw [insertAll, accepted, List.append_nil, List.rtake, Nat.sub_eq_zero_of_le hbounded,
        List.drop_zero]
  | cons x xs ih =>
      rw [insertAll, accepted, ih, capacity_insert]
      by_cases hx : x ∈ s.order
      · rw [insert_of_mem hx, if_neg Bool.false_ne_true]
      · have hbounded := s.bounded
        have hlength : (s.order ++ [x]).length = s.order.length + 1 := by simp
        rw [if_pos (insert_new_iff.mpr hx), order_insert_new hx, arrive, List.rtake, List.rtake,
          ← List.drop_append_of_le_length (by omega), List.drop_drop, List.append_assoc,
          List.singleton_append, List.length_drop, List.length_append, List.length_cons]
        congr 1
        omega

/-- **The window.** An element is refused exactly when it is one of the last
`capacity` that were accepted. -/
theorem insert_insertAll_iff {capacity : ℕ} {xs : List α} {x : α} :
    (((empty capacity).insertAll xs).insert x).1 = false ↔
      x ∈ ((empty capacity).accepted xs).rtake capacity := by
  have horder : ((empty capacity).insertAll xs).order =
      ((empty capacity).order ++ (empty capacity).accepted xs).rtake (empty capacity).capacity :=
    order_insertAll
  have hempty : (empty capacity : RecentSet α).order = [] := rfl
  rw [hempty, List.nil_append] at horder
  have hcapacity : (empty capacity : RecentSet α).capacity = capacity := rfl
  rw [hcapacity] at horder
  rw [← horder, ← Bool.not_eq_true, insert_new_iff, not_not]

/-! ## Sequences of insertions -/

/-- Offer the elements one by one; none when one of the answers is not the
given one. -/
def replay : RecentSet α → List (α × Bool) → Option (RecentSet α)
  | s, [] => some s
  | s, (x, new) :: rest => if (s.insert x).1 = new then replay (s.insert x).2 rest else none

/-- The elements that were new when they were offered. -/
def recorded (offers : List (α × Bool)) : List α :=
  (offers.filter (fun offer => offer.2)).map Prod.fst

theorem replay_append : ∀ {offers rest : List (α × Bool)} {s s' : RecentSet α},
    replay s (offers ++ rest) = some s' →
      ∃ s₁, replay s offers = some s₁ ∧ replay s₁ rest = some s'
  | [], _, s, _, h => ⟨s, rfl, h⟩
  | (x, new) :: offers, rest, s, s', h => by
      rw [List.cons_append, replay] at h
      split at h
      · rename_i hx
        obtain ⟨s₁, h₁, h₂⟩ := replay_append h
        exact ⟨s₁, by rw [replay, if_pos hx, h₁], h₂⟩
      · cases h

theorem replay_append_of : ∀ {offers rest : List (α × Bool)} {s s₁ : RecentSet α},
    replay s offers = some s₁ → replay s (offers ++ rest) = replay s₁ rest
  | [], _, s, s₁, h => by
      cases h
      rfl
  | (x, new) :: offers, rest, s, s₁, h => by
      rw [replay] at h
      split at h
      · rename_i hx
        rw [List.cons_append, replay, if_pos hx]
        exact replay_append_of h
      · cases h

theorem capacity_replay : ∀ {offers : List (α × Bool)} {s s' : RecentSet α},
    replay s offers = some s' → s'.capacity = s.capacity
  | [], s, s', h => by
      cases h
      rfl
  | (x, new) :: offers, s, s', h => by
      rw [replay] at h
      split at h
      · rw [capacity_replay h, capacity_insert]
      · cases h

/-- Where `x` stands after the elements of `later` were recorded behind it: still
in the queue, right before them, or evicted by `capacity` of them. -/
def Behind (x : α) (later : List α) (s : RecentSet α) : Prop :=
  (∃ older, s.order = older ++ x :: later) ∨
    ∃ others, others <+: later ∧ others.length = s.capacity ∧ others.Nodup ∧ x ∉ others

theorem behind_insert_self {x : α} (hx : x ∉ s.order) : Behind x [] (s.insert x).2 := by
  by_cases hcap : s.capacity = 0
  · refine Or.inr ⟨[], List.nil_prefix, ?_, List.nodup_nil, List.not_mem_nil⟩
    rw [capacity_insert, hcap, List.length_nil]
  · have hbounded := s.bounded
    refine Or.inl ⟨s.order.drop (s.order.length + 1 - s.capacity), ?_⟩
    rw [order_insert_new hx, arrive, List.drop_append_of_le_length (by omega)]

theorem behind_insert_new {x y : α} {later : List α} (h : Behind x later s) (hy : y ∉ s.order) :
    Behind x (later ++ [y]) (s.insert y).2 := by
  rcases h with ⟨older, horder⟩ | ⟨others, hgrown, hlength, hnodup, hx⟩
  · have hnodup := s.nodup_append_new hy
    have hbounded := s.bounded
    have harrive := order_insert_new hy
    rw [arrive] at harrive
    rw [horder] at hnodup hbounded harrive
    simp only [List.length_append, List.length_cons] at hbounded harrive
    cases older with
    | nil =>
        rw [List.nil_append] at hnodup harrive
        simp only [List.length_nil, Nat.zero_add] at hbounded harrive
        by_cases hfull : later.length + 1 = s.capacity
        · refine Or.inr ⟨later ++ [y], List.prefix_rfl, ?_, ?_, ?_⟩
          · rw [capacity_insert, List.length_append, List.length_singleton, hfull]
          · exact (List.nodup_cons.mp hnodup).2
          · exact (List.nodup_cons.mp hnodup).1
        · refine Or.inl ⟨[], ?_⟩
          rw [harrive, show later.length + 1 + 1 - s.capacity = 0 by omega]
          rfl
    | cons oldest older =>
        simp only [List.length_cons] at hbounded harrive
        by_cases hfull : older.length + 1 + (later.length + 1) = s.capacity
        · refine Or.inl ⟨older, ?_⟩
          rw [harrive, hfull, Nat.add_sub_cancel_left]
          simp
        · refine Or.inl ⟨oldest :: older, ?_⟩
          rw [harrive, show older.length + 1 + (later.length + 1) + 1 - s.capacity = 0 by omega]
          simp
  · refine Or.inr ⟨others, hgrown.trans (List.prefix_append _ _), ?_, hnodup, hx⟩
    rw [capacity_insert, hlength]

theorem behind_replay {x : α} : ∀ {offers : List (α × Bool)} {later : List α} {s s' : RecentSet α},
    Behind x later s → replay s offers = some s' → Behind x (later ++ recorded offers) s'
  | [], later, s, s', h, hr => by
      cases hr
      rwa [recorded, List.filter_nil, List.map_nil, List.append_nil]
  | (y, new) :: offers, later, s, s', h, hr => by
      rw [replay] at hr
      split at hr
      · rename_i hnew
        by_cases hy : y ∈ s.order
        · rw [insert_of_mem hy] at hnew hr
          subst hnew
          have hrest := behind_replay h (show replay s offers = some s' from hr)
          simpa [recorded] using hrest
        · have htrue : new = true := by rw [← hnew, insert_new_iff.mpr hy]
          subst htrue
          have hrest := behind_replay (behind_insert_new h hy) hr
          rwa [List.append_assoc] at hrest
      · cases hr

/-- **Spacing of evictions.** Between two insertions of `x` that both find it new
there are `capacity` others, all different from each other and from `x`. -/
theorem evicted_after_capacity {x : α} {between : List (α × Bool)} {s s' : RecentSet α}
    (h : replay s ((x, true) :: between ++ [(x, true)]) = some s') :
    ∃ others, others <+: recorded between ∧ others.length = s.capacity ∧ others.Nodup ∧
      x ∉ others := by
  rw [List.cons_append, replay] at h
  split at h
  · rename_i hfirst
    obtain ⟨s₁, hbetween, hlast⟩ := replay_append h
    have hbehind := behind_replay (behind_insert_self (insert_new_iff.mp hfirst)) hbetween
    rw [replay] at hlast
    split at hlast
    · rename_i hnew
      rcases hbehind with ⟨older, horder⟩ | ⟨others, hgrown, hlength, hnodup, hnotMem⟩
      · exact absurd (by simp [horder]) (insert_new_iff.mp hnew)
      · refine ⟨others, hgrown, ?_, hnodup, hnotMem⟩
        rw [hlength, capacity_replay hbetween, capacity_insert]
    · cases hlast
  · cases h

/-- New elements are recorded one after another. -/
theorem replay_fresh : ∀ {xs : List α} {s : RecentSet α}, (s.order ++ xs).Nodup →
    ∃ s', replay s (xs.map (fun x => (x, true))) = some s' ∧
      s'.order = (s.order ++ xs).drop (s.order.length + xs.length - s.capacity)
  | [], s, _ => by
      have hbounded := s.bounded
      refine ⟨s, rfl, ?_⟩
      rw [List.length_nil, Nat.add_zero, Nat.sub_eq_zero_of_le hbounded, List.append_nil,
        List.drop_zero]
  | x :: xs, s, h => by
      have hbounded := s.bounded
      have hx : x ∉ s.order := fun hmem =>
        (List.disjoint_of_nodup_append h) hmem List.mem_cons_self
      have horder := order_insert_new hx
      have hrest : ((s.insert x).2.order ++ xs).Nodup := by
        have happ : s.order ++ x :: xs = s.order ++ [x] ++ xs := List.append_cons _ _ _
        rw [happ] at h
        rw [horder, arrive]
        exact h.sublist ((List.drop_sublist _ _).append_right xs)
      obtain ⟨s', hreplay, hs'⟩ := replay_fresh hrest
      refine ⟨s', ?_, ?_⟩
      · rw [List.map_cons, replay, if_pos (insert_new_iff.mpr hx)]
        exact hreplay
      · have hlength : (s.order ++ [x]).length = s.order.length + 1 := by simp
        rw [hs', capacity_insert, horder, arrive, ← List.drop_append_of_le_length (by omega),
          List.drop_drop, List.append_assoc, List.singleton_append, List.length_drop, hlength,
          List.length_cons]
        congr 1
        omega

/-- As many other elements as there are places, and an element is new again. -/
theorem replay_cycle {x : α} {others : List α} (h : (x :: others).Nodup) :
    ∃ s', replay (empty others.length) ((x :: others ++ [x]).map (fun y => (y, true))) =
      some s' := by
  obtain ⟨s₁, hreplay, horder⟩ := replay_fresh (s := empty others.length) h
  have hcap : (empty others.length : RecentSet α).capacity = others.length := rfl
  have hempty : (empty others.length : RecentSet α).order = [] := rfl
  rw [hcap, hempty, List.nil_append, List.length_nil, List.length_cons,
    show 0 + (others.length + 1) - others.length = 1 by omega, List.drop_succ_cons,
    List.drop_zero] at horder
  have hx : x ∉ s₁.order := by
    rw [horder]
    exact (List.nodup_cons.mp h).1
  refine ⟨(s₁.insert x).2, ?_⟩
  rw [List.map_append, replay_append_of hreplay, List.map_singleton, replay,
    if_pos (insert_new_iff.mpr hx)]
  rfl

end RecentSet
