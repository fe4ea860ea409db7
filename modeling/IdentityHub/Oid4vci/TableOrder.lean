import IdentityHub.Oid4vci.TableMemory
import Mathlib.Data.List.DropRight

/-!
# What a lookup in the expiring table answers

A run of calls with fresh keys decides every later lookup: an entry is found as
long as it lives, unless the run took it or evicted it. The queue is a suffix of the keys
in the order of their insertion, and no key with an entry is missing from it (`Aligned`); so
the eviction loop, which skips over the keys left behind, drops the entries that
were inserted first.
-/

namespace IdentityHub

open StepSystem

variable {V : Type*}

theorem mem_rtake_of_nodup {α : Type*} {l : List α} (h : l.Nodup) {n : ℕ} {x : α} :
    x ∈ l.rtake n ↔ x ∈ l ∧ x ∉ l.take (l.length - n) := by
  have hsplit := List.take_append_drop (l.length - n) l
  have hnodup := h
  rw [← hsplit] at hnodup
  have hdisjoint := List.disjoint_of_nodup_append hnodup
  constructor
  · intro hx
    exact ⟨List.mem_of_mem_drop hx, fun htake => hdisjoint htake hx⟩
  · rintro ⟨hx, hnotMem⟩
    rw [← hsplit] at hx
    exact (List.mem_append.mp hx).resolve_left hnotMem

namespace ExpiringTable

/-- The keys of the table in the order they are queued in. -/
def present (entries : KeyedTable String (ℕ × V)) (order : List String) : List String :=
  order.filter (fun key => key ∈ entries)

theorem mem_present {entries : KeyedTable String (ℕ × V)} {order : List String}
    (hqueued : ∀ key ∈ entries, key ∈ order) {key : String} :
    key ∈ present entries order ↔ key ∈ entries := by
  rw [present, List.mem_filter, decide_eq_true_eq]
  exact ⟨And.right, fun h => ⟨hqueued key h, h⟩⟩

theorem length_present {entries : KeyedTable String (ℕ × V)} {order : List String}
    (hqueued : ∀ key ∈ entries, key ∈ order) (hnodup : order.Nodup) :
    (present entries order).length = KeyedTable.size entries := by
  rw [KeyedTable.size_eq_length_keys]
  apply List.Perm.length_eq
  apply (List.perm_ext_iff_of_nodup (hnodup.filter _) entries.nodupKeys).mpr
  intro key
  exact (mem_present hqueued).trans AList.mem_keys

/-- **The eviction loop** keeps the end of the queue: keys without an entry do not
count. -/
theorem mem_evict {capacity : ℕ} {order : List String} {entries : KeyedTable String (ℕ × V)}
    (hqueued : ∀ key ∈ entries, key ∈ order) (hnodup : order.Nodup) {key : String} :
    key ∈ (evict capacity entries order).1 ↔ key ∈ (present entries order).rtake capacity := by
  induction order generalizing entries with
  | nil =>
      rw [evict, present, List.filter_nil, List.rtake_nil]
      exact ⟨fun h => hqueued key h, fun h => absurd h List.not_mem_nil⟩
  | cons oldest rest ih =>
      obtain ⟨hnew, hrest⟩ := List.nodup_cons.mp hnodup
      have hlength := length_present hqueued hnodup
      rw [evict]
      split
      · rename_i hfull
        have hqueued' : ∀ k ∈ entries.erase oldest, k ∈ rest := by
          intro k hk
          obtain ⟨hne, hmem⟩ := AList.mem_erase.mp hk
          exact (List.mem_cons.mp (hqueued k hmem)).resolve_left hne
        have hsame : present (entries.erase oldest) rest = present entries rest := by
          apply List.filter_congr
          intro k hk
          have hne : k ≠ oldest := ne_of_mem_of_not_mem hk hnew
          simp only [AList.mem_erase, ne_eq, hne, not_false_eq_true, true_and]
        rw [ih hqueued' hrest, hsame]
        by_cases hold : oldest ∈ entries
        · have hcons : present entries (oldest :: rest) = oldest :: present entries rest := by
            rw [present, List.filter_cons_of_pos (by simpa using hold), ← present]
          rw [hcons, List.length_cons] at hlength
          rw [hcons, List.rtake, List.rtake, List.length_cons,
            show (present entries rest).length + 1 - capacity =
              (present entries rest).length - capacity + 1 by omega, List.drop_succ_cons]
        · -- a stale key is popped without any effect
          have hskip : present entries (oldest :: rest) = present entries rest := by
            rw [present, List.filter_cons_of_neg (by simpa using hold), ← present]
          rw [hskip]
      · rename_i hfits
        rw [List.rtake, show (present entries (oldest :: rest)).length - capacity = 0 by omega,
          List.drop_zero, mem_present hqueued]

/-! ## Expiry times -/

/-- When the entry of a key expires, if it has one. -/
def expiry (t : ExpiringTable V) (key : String) : Option ℕ := (t.entries.lookup key).map Prod.fst

variable {t : ExpiringTable V} {key k : String} {now : ℕ}

theorem mem_of_expiry {exp : ℕ} (h : t.expiry key = some exp) : key ∈ t.entries := by
  obtain ⟨entry, hlookup, -⟩ := Option.map_eq_some_iff.mp h
  exact KeyedTable.mem_of_lookup hlookup

theorem exists_expiry (h : key ∈ t.entries) : ∃ exp, t.expiry key = some exp := by
  obtain ⟨entry, hlookup⟩ := KeyedTable.exists_lookup h
  exact ⟨entry.1, by rw [expiry, hlookup, Option.map_some]⟩

theorem expiry_remove (t : ExpiringTable V) (key k : String) :
    (t.remove key).expiry k = if k = key then none else t.expiry k := by
  rw [expiry, lookup_remove]
  split
  · rfl
  · rfl

theorem expiry_update (f : V → V) (k : String) : (t.update key f).expiry k = t.expiry k := by
  rw [expiry, lookup_update, expiry]
  split
  · rw [Option.map_map]
    rfl
  · rfl

theorem expiry_take (t : ExpiringTable V) (key k : String) (now : ℕ) :
    (t.take key now).2.expiry k = if k = key then none else t.expiry k := by
  unfold take
  cases hlookup : t.entries.lookup key with
  | none =>
      by_cases hk : k = key
      · rw [if_pos hk, hk, expiry, hlookup, Option.map_none]
      · rw [if_neg hk]
  | some entry => exact expiry_remove t key k

/-- A lookup drops an entry that has expired, and nothing else. -/
theorem expiry_getMut (t : ExpiringTable V) (key k : String) (now : ℕ) :
    (t.getMut key now).2.expiry k =
      if k = key ∧ ∃ e ≤ now, t.expiry key = some e then none else t.expiry k := by
  unfold getMut
  cases hlookup : t.entries.lookup key with
  | none =>
      have hnone : ¬ (k = key ∧ ∃ e ≤ now, t.expiry key = some e) := by
        rintro ⟨-, e, -, he⟩
        rw [expiry, hlookup] at he
        cases he
      rw [if_neg hnone]
  | some entry =>
      have hexpiry : t.expiry key = some entry.1 := by rw [expiry, hlookup, Option.map_some]
      by_cases hexpired : entry.1 ≤ now
      · dsimp only
        rw [if_pos hexpired]
        refine (expiry_remove t key k).trans ?_
        by_cases hk : k = key
        · rw [if_pos hk, if_pos ⟨hk, entry.1, hexpired, hexpiry⟩]
        · rw [if_neg hk, if_neg (fun h => hk h.1)]
      · have hkept : ¬ (k = key ∧ ∃ e ≤ now, t.expiry key = some e) := by
          rintro ⟨-, e, hle, he⟩
          rw [hexpiry] at he
          cases he
          exact hexpired hle
        dsimp only
        rw [if_neg hexpired, if_neg hkept]

/-- A lookup finds an entry exactly when it has time left. -/
theorem getMut_isSome : (t.getMut key now).1.isSome ↔ ∃ exp, t.expiry key = some exp ∧ now < exp := by
  unfold getMut expiry
  cases hlookup : t.entries.lookup key with
  | none => simp
  | some entry =>
      obtain ⟨exp, value⟩ := entry
      by_cases hexp : exp ≤ now
      · simp [hexp]
      · simp [hexp, Nat.lt_of_not_le hexp]

theorem take_isSome : (t.take key now).1.isSome ↔ ∃ exp, t.expiry key = some exp ∧ now < exp := by
  unfold take expiry
  cases hlookup : t.entries.lookup key with
  | none => simp
  | some entry =>
      obtain ⟨exp, value⟩ := entry
      by_cases hexp : now < exp
      · simp [hexp]
      · simp [hexp]

/-- An insertion gives the expiry of its own key, and keeps the others' it does not
evict. -/
theorem expiry_insert (t : ExpiringTable V) (key : String) (ttlSecs : ℕ) (value : V) (now : ℕ)
    (k : String) :
    (t.insert key ttlSecs value now).expiry k =
      if k ∈ (t.insert key ttlSecs value now).entries then
        if k = key then some (now + ttlSecs) else t.expiry k
      else none := by
  split
  · rename_i hmem
    obtain ⟨entry, hlookup⟩ := KeyedTable.exists_lookup hmem
    have hold := lookup_of_evict hlookup
    rw [KeyedTable.lookup_insert] at hold
    rw [expiry, hlookup, Option.map_some]
    split at hold
    · rename_i hk
      cases hold
      rw [if_pos hk]
    · rename_i hk
      rw [if_neg hk, expiry, hold, Option.map_some]
  · rename_i hnotMem
    rw [expiry, AList.lookup_eq_none.mpr hnotMem, Option.map_none]

end ExpiringTable

/-! ## What one call does to the expiry times -/

/-- The entries an insertion drops. -/
def TableCall.evicts (t : ExpiringTable V) : TableCall V → String → Prop
  | .insert key ttlSecs value now, k =>
      (k = key ∨ k ∈ t.entries) ∧ k ∉ (t.insert key ttlSecs value now).entries
  | _, _ => False

variable {s s' : TableState V} {key : String} {call : TableCall V} {exp : ℕ}

theorem TableState.insert_eq_some {ttlSecs : ℕ} {value : V} {now : ℕ} :
    s.step (.insert key ttlSecs value now) = some s' ↔
      (s.clock ≤ now ∧ key ∉ s.used) ∧
        s' = { table := s.table.insert key ttlSecs value now, clock := now,
               used := key :: s.used } := by
  simp only [TableState.step, Option.ite_none_right_eq_some, Option.some_inj]
  exact and_congr_right fun _ => eq_comm

theorem TableState.clock_step (h : s.step call = some s') : s.clock ≤ s'.clock := by
  cases call with
  | insert k ttlSecs value now =>
      obtain ⟨⟨hnow, -⟩, rfl⟩ := TableState.insert_eq_some.mp h
      exact hnow
  | getMut k write now =>
      simp only [TableState.step, Option.ite_none_right_eq_some] at h
      obtain ⟨hnow, h⟩ := h
      cases h
      exact hnow
  | take k now =>
      simp only [TableState.step, Option.ite_none_right_eq_some] at h
      obtain ⟨hnow, h⟩ := h
      cases h
      exact hnow

/-- After an insertion. -/
theorem TableState.expiry_insert {ttlSecs : ℕ} {value : V} {now : ℕ}
    (h : s.step (.insert key ttlSecs value now) = some s') (k : String) :
    s'.table.expiry k =
      if k ∈ s'.table.entries then if k = key then some (now + ttlSecs) else s.table.expiry k
      else none := by
  obtain ⟨-, rfl⟩ := TableState.insert_eq_some.mp h
  exact ExpiringTable.expiry_insert ..

theorem TableState.expiry_getMut {write : V → V} {now : ℕ}
    (h : s.step (.getMut key write now) = some s') (k : String) :
    s'.table.expiry k =
      if k = key ∧ ∃ e ≤ now, s.table.expiry key = some e then none else s.table.expiry k := by
  simp only [TableState.step, Option.ite_none_right_eq_some] at h
  obtain ⟨-, h⟩ := h
  cases h
  refine Eq.trans ?_ (ExpiringTable.expiry_getMut s.table key k now)
  dsimp only
  split
  · exact ExpiringTable.expiry_update write k
  · rfl

theorem TableState.expiry_take {now : ℕ} (h : s.step (.take key now) = some s') (k : String) :
    s'.table.expiry k = if k = key then none else s.table.expiry k := by
  simp only [TableState.step, Option.ite_none_right_eq_some] at h
  obtain ⟨-, h⟩ := h
  cases h
  exact ExpiringTable.expiry_take ..

theorem TableState.used_step (h : s.step call = some s') :
    s'.used = s.used ∨ ∃ k ttlSecs value now,
      call = .insert k ttlSecs value now ∧ k ∉ s.used ∧ s'.used = k :: s.used := by
  cases call with
  | insert k ttlSecs value now =>
      obtain ⟨⟨-, hfresh⟩, rfl⟩ := TableState.insert_eq_some.mp h
      exact Or.inr ⟨k, ttlSecs, value, now, rfl, hfresh, rfl⟩
  | getMut k write now =>
      simp only [TableState.step, Option.ite_none_right_eq_some] at h
      obtain ⟨-, h⟩ := h
      cases h
      exact Or.inl rfl
  | take k now =>
      simp only [TableState.step, Option.ite_none_right_eq_some] at h
      obtain ⟨-, h⟩ := h
      cases h
      exact Or.inl rfl

/-- An entry with time left after the call is there after it just when it was before
and the call neither takes nor evicts it. -/
theorem TableState.expiry_step (h : s.step call = some s') (hused : key ∈ s.used)
    (hlive : s'.clock < exp) :
    s'.table.expiry key = some exp ↔
      s.table.expiry key = some exp ∧ (∀ now, call ≠ .take key now) ∧
        ¬ call.evicts s.table key := by
  cases call with
  | insert k ttlSecs value now =>
      have hexpiry := TableState.expiry_insert h key
      obtain ⟨⟨-, hfresh⟩, rfl⟩ := TableState.insert_eq_some.mp h
      have hne : key ≠ k := ne_of_mem_of_not_mem hused hfresh
      rw [hexpiry, if_neg hne]
      simp only [ne_eq, reduceCtorEq, not_false_eq_true, implies_true, true_and,
        TableCall.evicts, hne, false_or, not_and, not_not]
      constructor
      · intro hkept
        split at hkept
        · rename_i hmem
          exact ⟨hkept, fun _ => hmem⟩
        · cases hkept
      · rintro ⟨hold, hkept⟩
        rw [if_pos (hkept (ExpiringTable.mem_of_expiry hold)), hold]
  | getMut k write now =>
      have hexpiry := TableState.expiry_getMut h key
      simp only [TableState.step, Option.ite_none_right_eq_some] at h
      obtain ⟨-, h⟩ := h
      cases h
      rw [hexpiry]
      simp only [ne_eq, reduceCtorEq, not_false_eq_true, implies_true, TableCall.evicts, and_self,
        and_true]
      by_cases hexpired : key = k ∧ ∃ e ≤ now, s.table.expiry k = some e
      · obtain ⟨rfl, e, hle, he⟩ := hexpired
        rw [if_pos ⟨rfl, e, hle, he⟩, he]
        constructor
        · intro hnone
          cases hnone
        · intro heq
          cases heq
          exact absurd hlive (Nat.not_lt.mpr hle)
      · rw [if_neg hexpired]
  | take k now =>
      rw [TableState.expiry_take h key]
      by_cases hk : key = k
      · subst hk
        simp
      · simp [hk, TableCall.evicts, Ne.symm hk]

/-! ## What a run does to an entry -/

variable {capacity : ℕ} {calls : List (TableCall V)}

/-- Some insertion of the run evicts the entry of `key`. -/
def EvictedIn : TableState V → List (TableCall V) → String → Prop
  | _, [], _ => False
  | s, call :: calls, key =>
      call.evicts s.table key ∨ ∃ s', s.step call = some s' ∧ EvictedIn s' calls key

theorem clock_run (h : (tableMachine V capacity).run s calls = some s') : s.clock ≤ s'.clock := by
  induction calls generalizing s with
  | nil =>
      cases h
      exact le_rfl
  | cons call calls ih =>
      rw [run_cons, Option.bind_eq_some_iff] at h
      obtain ⟨s₁, hstep, hrest⟩ := h
      exact le_trans (TableState.clock_step hstep) (ih hrest)

theorem used_of_step (h : s.step call = some s') (hused : key ∈ s.used) : key ∈ s'.used := by
  rcases TableState.used_step h with hsame | ⟨k, -, -, -, -, -, hused'⟩
  · rwa [hsame]
  · rw [hused']
    exact List.mem_cons_of_mem k hused

/-- An inserted entry with time left after the run is there after it just when it was
before, and was neither taken nor evicted. -/
theorem expiry_run (h : (tableMachine V capacity).run s calls = some s') (hused : key ∈ s.used)
    (hlive : s'.clock < exp) :
    s'.table.expiry key = some exp ↔
      s.table.expiry key = some exp ∧ (∀ now, .take key now ∉ calls) ∧
        ¬ EvictedIn s calls key := by
  induction calls generalizing s with
  | nil =>
      cases h
      simp [EvictedIn]
  | cons call calls ih =>
      rw [run_cons, Option.bind_eq_some_iff] at h
      obtain ⟨s₁, hstep, hrest⟩ := h
      have hstep' : s.step call = some s₁ := hstep
      have hfirst := TableState.expiry_step hstep' hused
        (Nat.lt_of_le_of_lt (clock_run hrest) hlive)
      have hevicted : EvictedIn s (call :: calls) key ↔
          call.evicts s.table key ∨ EvictedIn s₁ calls key := by
        simp [EvictedIn, hstep']
      rw [ih hrest (used_of_step hstep' hused), hfirst, hevicted]
      simp only [List.mem_cons, not_or]
      constructor
      · rintro ⟨⟨hexp, htake, hkept⟩, htakes, hkepts⟩
        exact ⟨hexp, fun now => ⟨fun heq => htake now heq.symm, htakes now⟩, hkept, hkepts⟩
      · rintro ⟨hexp, htakes, hkept, hkepts⟩
        exact ⟨⟨hexp, fun now heq => (htakes now).1 heq.symm, hkept⟩,
          fun now => (htakes now).2, hkepts⟩

/-- A used key was inserted by some call of the run. -/
theorem inserted_of_used (h : (tableMachine V capacity).run s calls = some s')
    (hnew : key ∉ s.used) (hused : key ∈ s'.used) :
    ∃ before ttlSecs value now after s₁ s₂,
      calls = before ++ .insert key ttlSecs value now :: after ∧
        (tableMachine V capacity).run s before = some s₁ ∧
          s₁.step (.insert key ttlSecs value now) = some s₂ ∧
            (tableMachine V capacity).run s₂ after = some s' := by
  induction calls generalizing s with
  | nil =>
      cases h
      exact absurd hused hnew
  | cons call calls ih =>
      rw [run_cons, Option.bind_eq_some_iff] at h
      obtain ⟨s₁, hstep, hrest⟩ := h
      have hstep' : s.step call = some s₁ := hstep
      by_cases hfirst : key ∈ s₁.used
      · rcases TableState.used_step hstep' with hsame | ⟨k, ttlSecs, value, now, rfl, -, hused₁⟩
        · rw [hsame] at hfirst
          exact absurd hfirst hnew
        · rw [hused₁] at hfirst
          have hk : key = k := (List.mem_cons.mp hfirst).resolve_right hnew
          subst hk
          exact ⟨[], ttlSecs, value, now, calls, s, s₁, rfl, rfl, hstep', hrest⟩
      · obtain ⟨before, ttlSecs, value, now, after, s₂, s₃, rfl, hbefore, hinsert, hafter⟩ :=
          ih hrest hfirst
        refine ⟨call :: before, ttlSecs, value, now, after, s₂, s₃, rfl, ?_, hinsert, hafter⟩
        rw [run_cons, hstep, Option.bind_some, hbefore]

/-- The run inserted `key` with a lifetime that lasts past `now`, and neither took nor
evicted it since. -/
def Held (capacity : ℕ) (calls : List (TableCall V)) (key : String) (now : ℕ) : Prop :=
  ∃ before ttlSecs value insertedAt after s,
    calls = before ++ .insert key ttlSecs value insertedAt :: after ∧
      now < insertedAt + ttlSecs ∧ (∀ takenAt, .take key takenAt ∉ after) ∧
        (tableMachine V capacity).run (tableMachine V capacity).init before = some s ∧
          ¬ EvictedIn s (.insert key ttlSecs value insertedAt :: after) key

/-- The keys used so far are all different, and the queue is the end of them, oldest
first. -/
structure Aligned (capacity : ℕ) (s : TableState V) : Prop where
  capacity_eq : s.table.capacity = capacity
  nodup : s.used.Nodup
  suffix : s.table.order <:+ s.used.reverse

namespace Aligned

theorem order_nodup (h : Aligned capacity s) : s.table.order.Nodup :=
  (List.nodup_reverse.mpr h.nodup).sublist h.suffix.sublist

theorem used_of_mem (h : Aligned capacity s) (hmem : key ∈ s.table.entries) : key ∈ s.used :=
  List.mem_reverse.mp (h.suffix.subset (s.table.queued key hmem))

theorem step (h : Aligned capacity s) (hs : s.step call = some s') : Aligned capacity s' := by
  cases call with
  | insert k ttlSecs value now =>
      obtain ⟨⟨-, hfresh⟩, rfl⟩ := TableState.insert_eq_some.mp hs
      have hnone : k ∉ s.table.entries := fun hmem => hfresh (h.used_of_mem hmem)
      refine ⟨h.capacity_eq, List.nodup_cons.mpr ⟨hfresh, h.nodup⟩, ?_⟩
      show (s.table.insert k ttlSecs value now).order <:+ (k :: s.used).reverse
      rw [ExpiringTable.order_insert hnone, List.reverse_cons]
      refine ExpiringTable.evict_suffix.trans ?_
      obtain ⟨older, holder⟩ := h.suffix
      exact ⟨older, by rw [← List.append_assoc, holder]⟩
  | getMut k write now =>
      simp only [TableState.step, Option.ite_none_right_eq_some] at hs
      obtain ⟨-, hs⟩ := hs
      cases hs
      unfold ExpiringTable.getMut
      cases s.table.entries.lookup k with
      | none => exact ⟨h.capacity_eq, h.nodup, h.suffix⟩
      | some entry =>
          dsimp only
          split
          · exact ⟨h.capacity_eq, h.nodup, h.suffix⟩
          · exact ⟨h.capacity_eq, h.nodup, h.suffix⟩
  | take k now =>
      simp only [TableState.step, Option.ite_none_right_eq_some] at hs
      obtain ⟨-, hs⟩ := hs
      cases hs
      unfold ExpiringTable.take
      cases s.table.entries.lookup k with
      | none => exact ⟨h.capacity_eq, h.nodup, h.suffix⟩
      | some entry => exact ⟨h.capacity_eq, h.nodup, h.suffix⟩

theorem run (h : Aligned capacity s) (hs : (tableMachine V capacity).run s calls = some s') :
    Aligned capacity s' := by
  induction calls generalizing s with
  | nil =>
      cases hs
      exact h
  | cons call calls ih =>
      rw [run_cons, Option.bind_eq_some_iff] at hs
      obtain ⟨s₁, hstep, hrest⟩ := hs
      exact ih (h.step hstep) hrest

theorem init : Aligned capacity (tableMachine V capacity).init :=
  ⟨rfl, List.nodup_nil, List.suffix_rfl⟩

end Aligned

/-- **Lookups.** After a run an entry is there with time left exactly when the run holds
it. -/
theorem held_iff {now : ℕ}
    (h : (tableMachine V capacity).run (tableMachine V capacity).init calls = some s)
    (hnow : s.clock ≤ now) :
    (∃ exp, s.table.expiry key = some exp ∧ now < exp) ↔ Held capacity calls key now := by
  constructor
  · rintro ⟨exp, hexp, hlive⟩
    have hused := (Aligned.init.run h).used_of_mem (ExpiringTable.mem_of_expiry hexp)
    obtain ⟨before, ttlSecs, value, insertedAt, after, s₁, s₂, rfl, hbefore, hinsert, hafter⟩ :=
      inserted_of_used h List.not_mem_nil hused
    have hinsert' := hinsert
    obtain ⟨-, rfl⟩ := TableState.insert_eq_some.mp hinsert'
    have hused₂ : key ∈ key :: s₁.used := List.mem_cons_self
    obtain ⟨hexp₂, htakes, hkept⟩ :=
      (expiry_run hafter hused₂ (Nat.lt_of_le_of_lt hnow hlive)).mp hexp
    have hmem₂ := ExpiringTable.mem_of_expiry hexp₂
    rw [TableState.expiry_insert hinsert, if_pos hmem₂, if_pos rfl] at hexp₂
    cases hexp₂
    refine ⟨before, ttlSecs, value, insertedAt, after, s₁, rfl, hlive, htakes, hbefore, ?_⟩
    rintro (hevicted | ⟨s₃, hs₃, hevicted⟩)
    · exact hevicted.2 hmem₂
    · rw [hinsert] at hs₃
      cases hs₃
      exact hkept hevicted
  · rintro ⟨before, ttlSecs, value, insertedAt, after, s₁, rfl, hlive, htakes, hbefore, hkept⟩
    refine ⟨insertedAt + ttlSecs, ?_, hlive⟩
    rw [run_append, hbefore, Option.bind_some, run_cons, Option.bind_eq_some_iff] at h
    obtain ⟨s₂, hinsert, hafter⟩ := h
    have hinsert' : s₁.step (.insert key ttlSecs value insertedAt) = some s₂ := hinsert
    have hkept₁ : ¬ (TableCall.insert key ttlSecs value insertedAt).evicts s₁.table key :=
      fun hevicted => hkept (Or.inl hevicted)
    have hkept₂ : ¬ EvictedIn s₂ after key :=
      fun hevicted => hkept (Or.inr ⟨s₂, hinsert', hevicted⟩)
    have hexp₂ := TableState.expiry_insert hinsert' key
    obtain ⟨-, rfl⟩ := TableState.insert_eq_some.mp hinsert'
    have hmem₂ : key ∈ (s₁.table.insert key ttlSecs value insertedAt).entries := by
      by_contra hnotMem
      exact hkept₁ ⟨Or.inl rfl, hnotMem⟩
    have hused₂ : key ∈ key :: s₁.used := List.mem_cons_self
    rw [if_pos hmem₂, if_pos rfl] at hexp₂
    exact (expiry_run hafter hused₂ (Nat.lt_of_le_of_lt hnow hlive)).mpr ⟨hexp₂, htakes, hkept₂⟩

/-! ## Which entries an insertion evicts -/

/-- The keys with an entry, in the order they were inserted in. -/
def TableState.present (s : TableState V) : List String :=
  ExpiringTable.present s.table.entries s.used.reverse

/-- The number of entries that are one too many after an insertion. -/
def TableState.surplus (capacity : ℕ) (s : TableState V) : ℕ :=
  KeyedTable.size s.table.entries + 1 - capacity

namespace Aligned

/-- The keys the queue has lost have no entry. -/
theorem present_eq (h : Aligned capacity s) :
    s.present = ExpiringTable.present s.table.entries s.table.order := by
  obtain ⟨older, holder⟩ := h.suffix
  have hnodup := List.nodup_reverse.mpr h.nodup
  rw [← holder] at hnodup
  have hlost : older.filter (fun key => key ∈ s.table.entries) = [] := by
    rw [List.filter_eq_nil_iff]
    intro key hkey hmem
    exact List.disjoint_of_nodup_append hnodup hkey
      (s.table.queued key (of_decide_eq_true hmem))
  rw [TableState.present, ExpiringTable.present, ← holder, List.filter_append, hlost,
    List.nil_append, ExpiringTable.present]

theorem mem_present (h : Aligned capacity s) : key ∈ s.present ↔ key ∈ s.table.entries := by
  rw [h.present_eq]
  exact ExpiringTable.mem_present s.table.queued

theorem length_present (h : Aligned capacity s) :
    s.present.length = KeyedTable.size s.table.entries := by
  rw [h.present_eq]
  exact ExpiringTable.length_present s.table.queued h.order_nodup

theorem size_le (h : Aligned capacity s) : KeyedTable.size s.table.entries ≤ capacity := by
  rw [← h.capacity_eq]
  exact s.table.bounded

/-- **Evictions.** An insertion drops the surplus from the front of the entries in
the order they came in, its own at the end. -/
theorem evicts_iff (h : Aligned capacity s) (hfresh : key ∉ s.used) {ttlSecs : ℕ} {value : V}
    {now : ℕ} {k : String} :
    (TableCall.insert key ttlSecs value now).evicts s.table k ↔
      k ∈ (s.present ++ [key]).take (s.surplus capacity) := by
  have hnone : key ∉ s.table.entries := fun hmem => hfresh (h.used_of_mem hmem)
  have hnotQueued : key ∉ s.table.order :=
    fun hmem => hfresh (List.mem_reverse.mp (h.suffix.subset hmem))
  have hqueued := s.table.insert_queued key (now + ttlSecs, value)
  rw [if_neg hnone] at hqueued
  have hnodup := ExpiringTable.nodup_push h.order_nodup hnotQueued
  -- the new key stands last
  have hpresent : ExpiringTable.present (s.table.entries.insert key (now + ttlSecs, value))
      (s.table.order ++ [key]) = s.present ++ [key] := by
    rw [h.present_eq, ExpiringTable.present, List.filter_append, List.filter_cons_of_pos,
      List.filter_nil, ExpiringTable.present]
    · congr 1
      apply List.filter_congr
      intro k' hk'
      have hne : k' ≠ key := ne_of_mem_of_not_mem hk' hnotQueued
      simp only [AList.mem_insert, hne, false_or]
    · exact decide_eq_true ((AList.mem_insert _).mpr (Or.inl rfl))
  have hnodup' : (s.present ++ [key]).Nodup := by
    rw [← hpresent]
    exact hnodup.filter _
  have hmem : k ∈ s.present ++ [key] ↔ k = key ∨ k ∈ s.table.entries := by
    rw [List.mem_append, h.mem_present, List.mem_singleton, or_comm]
  have hlength : (s.present ++ [key]).length = KeyedTable.size s.table.entries + 1 := by
    rw [List.length_append, h.length_present, List.length_singleton]
  show (k = key ∨ k ∈ s.table.entries) ∧ k ∉ (s.table.insert key ttlSecs value now).entries ↔ _
  rw [ExpiringTable.entries_insert hnone, ExpiringTable.mem_evict hqueued hnodup, hpresent,
    mem_rtake_of_nodup hnodup', hlength, h.capacity_eq, hmem, TableState.surplus]
  constructor
  · rintro ⟨hold, hgone⟩
    by_contra hkept
    exact hgone ⟨hold, hkept⟩
  · intro htake
    exact ⟨hmem.mp (List.mem_of_mem_take htake), fun hkept => hkept.2 htake⟩

/-- With room for an entry, the new one stays. -/
theorem evicts_iff_of_room (h : Aligned capacity s) (hroom : 1 ≤ capacity) (hfresh : key ∉ s.used)
    {ttlSecs : ℕ} {value : V} {now : ℕ} {k : String} :
    (TableCall.insert key ttlSecs value now).evicts s.table k ↔
      k ∈ s.present.take (s.surplus capacity) := by
  have hsurplus : s.surplus capacity ≤ s.present.length := by
    have hlength := h.length_present
    rw [TableState.surplus]
    omega
  rw [h.evicts_iff hfresh, List.take_append_of_le_length hsurplus]

/-- The only entry an insertion evicts is the oldest. -/
theorem oldest_of_evicts (h : Aligned capacity s) (hroom : 1 ≤ capacity) (hfresh : key ∉ s.used)
    {ttlSecs : ℕ} {value : V} {now : ℕ} {k : String}
    (hevicts : (TableCall.insert key ttlSecs value now).evicts s.table k) :
    ∃ rest, s.present = k :: rest := by
  have hk := (h.evicts_iff_of_room hroom hfresh).mp hevicts
  have hsurplus : s.surplus capacity ≤ 1 := by
    have hsize := h.size_le
    rw [TableState.surplus]
    omega
  have hfirst : k ∈ s.present.take 1 := List.take_subset_take_left s.present hsurplus hk
  cases hpresent : s.present with
  | nil =>
      rw [hpresent] at hfirst
      exact absurd hfirst List.not_mem_nil
  | cons oldest rest =>
      rw [hpresent, List.take_succ_cons, List.take_zero, List.mem_singleton] at hfirst
      exact ⟨rest, by rw [hfirst]⟩

end Aligned

/-! ## Entries that live equally long -/

/-- Under one lifetime the entries expire in the order they were inserted in. -/
structure ExpireInOrder (ttlSecs : ℕ) (s : TableState V) : Prop where
  latest : ∀ key exp, s.table.expiry key = some exp → exp ≤ s.clock + ttlSecs
  sorted : s.present.Pairwise (fun k k' => ∀ exp exp', s.table.expiry k = some exp →
    s.table.expiry k' = some exp' → exp ≤ exp')

namespace ExpireInOrder

variable {ttlSecs : ℕ}

/-- A call that inserts nothing keeps the order. -/
theorem shrink (h : ExpireInOrder ttlSecs s) (hclock : s.clock ≤ s'.clock)
    (hused : s'.used = s.used)
    (hkept : ∀ k exp, s'.table.expiry k = some exp → s.table.expiry k = some exp) :
    ExpireInOrder ttlSecs s' where
  latest k exp hexp := le_trans (h.latest k exp (hkept k exp hexp)) (Nat.add_le_add_right hclock _)
  sorted := by
    have hsublist : List.Sublist s'.present s.present := by
      rw [TableState.present, TableState.present, hused]
      apply List.monotone_filter_right
      intro k hk
      obtain ⟨exp, hexp⟩ := ExpiringTable.exists_expiry (of_decide_eq_true hk)
      exact decide_eq_true (ExpiringTable.mem_of_expiry (hkept k exp hexp))
    refine (h.sorted.sublist hsublist).imp fun {k k'} hle exp exp' hexp hexp' => ?_
    exact hle exp exp' (hkept k exp hexp) (hkept k' exp' hexp')

theorem insert (h : ExpireInOrder ttlSecs s) (ha : Aligned capacity s) {value : V} {now : ℕ}
    (hs : s.step (.insert key ttlSecs value now) = some s') : ExpireInOrder ttlSecs s' := by
  have hexpiry := TableState.expiry_insert hs
  obtain ⟨⟨hnow, hfresh⟩, rfl⟩ := TableState.insert_eq_some.mp hs
  have hnew : ∀ exp, (s.table.insert key ttlSecs value now).expiry key = some exp →
      exp = now + ttlSecs := by
    intro exp hexp
    have hmem := ExpiringTable.mem_of_expiry hexp
    rw [hexpiry key, if_pos hmem, if_pos rfl] at hexp
    cases hexp
    rfl
  have hold : ∀ k exp, k ≠ key → (s.table.insert key ttlSecs value now).expiry k = some exp →
      s.table.expiry k = some exp := by
    intro k exp hk hexp
    have hmem := ExpiringTable.mem_of_expiry hexp
    rwa [hexpiry k, if_pos hmem, if_neg hk] at hexp
  constructor
  · intro k exp hexp
    by_cases hk : k = key
    · subst hk
      exact Nat.le_of_eq (hnew exp hexp)
    · exact le_trans (h.latest k exp (hold k exp hk hexp)) (Nat.add_le_add_right hnow _)
  · have hsublist : List.Sublist (TableState.present
        { table := s.table.insert key ttlSecs value now, clock := now, used := key :: s.used })
        (s.present ++ [key]) := by
      rw [TableState.present, ExpiringTable.present, List.reverse_cons, List.filter_append]
      refine List.Sublist.append ?_ List.filter_sublist
      rw [TableState.present, ExpiringTable.present]
      -- a key used before has its entry from before
      have hsame : ∀ k ∈ s.used.reverse, k ∈ (s.table.insert key ttlSecs value now).entries →
          k ∈ s.table.entries := by
        intro k hk hmem
        obtain ⟨exp, hexp⟩ := ExpiringTable.exists_expiry hmem
        have hne : k ≠ key := ne_of_mem_of_not_mem (List.mem_reverse.mp hk) hfresh
        exact ExpiringTable.mem_of_expiry (hold k exp hne hexp)
      have hfilter : s.used.reverse.filter
          (fun k => k ∈ (s.table.insert key ttlSecs value now).entries) =
          (s.used.reverse.filter (fun k => k ∈ s.table.entries)).filter
            (fun k => k ∈ (s.table.insert key ttlSecs value now).entries) := by
        rw [List.filter_filter]
        apply List.filter_congr
        intro k hk
        by_cases hmem : k ∈ (s.table.insert key ttlSecs value now).entries
        · simp [hmem, hsame k hk hmem]
        · simp [hmem]
      rw [hfilter]
      exact List.filter_sublist
    refine List.Pairwise.sublist hsublist (List.pairwise_append.mpr ⟨?_, ?_, ?_⟩)
    · refine h.sorted.imp_of_mem fun {k k'} hk hk' hle exp exp' hexp hexp' => ?_
      have hne : ∀ k ∈ s.present, k ≠ key := fun k hk =>
        ne_of_mem_of_not_mem (ha.used_of_mem (ha.mem_present.mp hk)) hfresh
      exact hle exp exp' (hold k exp (hne k hk) hexp) (hold k' exp' (hne k' hk') hexp')
    · exact List.pairwise_singleton _ _
    · intro k hk k' hk' exp exp' hexp hexp'
      rw [List.mem_singleton] at hk'
      subst hk'
      have hne : k ≠ k' := ne_of_mem_of_not_mem (ha.used_of_mem (ha.mem_present.mp hk)) hfresh
      rw [hnew exp' hexp']
      exact le_trans (h.latest k exp (hold k exp hne hexp)) (Nat.add_le_add_right hnow _)

theorem step (h : ExpireInOrder ttlSecs s) (ha : Aligned capacity s)
    (httl : ∀ k ttl value now, call = .insert k ttl value now → ttl = ttlSecs)
    (hs : s.step call = some s') : ExpireInOrder ttlSecs s' := by
  have hclock := TableState.clock_step hs
  cases call with
  | insert k ttl value now =>
      have heq := httl k ttl value now rfl
      subst heq
      exact h.insert ha hs
  | getMut k write now =>
      refine h.shrink hclock ?_ fun k' exp hexp => ?_
      · rcases TableState.used_step hs with hsame | ⟨_, _, _, _, hcall, -⟩
        · exact hsame
        · cases hcall
      · rw [TableState.expiry_getMut hs] at hexp
        split at hexp
        · cases hexp
        · exact hexp
  | take k now =>
      refine h.shrink hclock ?_ fun k' exp hexp => ?_
      · rcases TableState.used_step hs with hsame | ⟨_, _, _, _, hcall, -⟩
        · exact hsame
        · cases hcall
      · rw [TableState.expiry_take hs] at hexp
        split at hexp
        · cases hexp
        · exact hexp

theorem run (h : ExpireInOrder ttlSecs s) (ha : Aligned capacity s)
    (httl : ∀ k ttl value now, .insert k ttl value now ∈ calls → ttl = ttlSecs)
    (hs : (tableMachine V capacity).run s calls = some s') : ExpireInOrder ttlSecs s' := by
  induction calls generalizing s with
  | nil =>
      cases hs
      exact h
  | cons call calls ih =>
      rw [run_cons, Option.bind_eq_some_iff] at hs
      obtain ⟨s₁, hstep, hrest⟩ := hs
      refine ih (h.step ha ?_ hstep) (ha.step hstep) ?_ hrest
      · rintro k ttl value now rfl
        exact httl k ttl value now List.mem_cons_self
      · exact fun k ttl value now hmem => httl k ttl value now (List.mem_cons_of_mem _ hmem)

theorem init : ExpireInOrder ttlSecs (tableMachine V capacity).init where
  latest _ _ h := by cases h
  sorted := List.Pairwise.nil

/-- When an insertion evicts an entry with time left, every entry has time left. -/
theorem live_of_evicts (h : ExpireInOrder ttlSecs s) (ha : Aligned capacity s)
    (hroom : 1 ≤ capacity) {value : V} {now : ℕ} {k k' : String} {exp exp' : ℕ}
    (hs : s.step (.insert key ttlSecs value now) = some s')
    (hevicts : (TableCall.insert key ttlSecs value now).evicts s.table k)
    (hexp : s.table.expiry k = some exp) (hlive : now < exp)
    (hexp' : s.table.expiry k' = some exp' ∨ s'.table.expiry k' = some exp') : now < exp' := by
  have hexpiry := TableState.expiry_insert hs k'
  obtain ⟨⟨hnow, hfresh⟩, rfl⟩ := TableState.insert_eq_some.mp hs
  obtain ⟨rest, hpresent⟩ := ha.oldest_of_evicts hroom hfresh hevicts
  have hlatest := h.latest k exp hexp
  have hold : s.table.expiry k' = some exp' → now < exp' := by
    intro hk'
    have hmem : k' ∈ s.present := ha.mem_present.mpr (ExpiringTable.mem_of_expiry hk')
    rw [hpresent] at hmem
    rcases List.mem_cons.mp hmem with rfl | hrest
    · rw [hexp] at hk'
      cases hk'
      exact hlive
    · have hsorted := h.sorted
      rw [hpresent] at hsorted
      exact Nat.lt_of_lt_of_le hlive ((List.pairwise_cons.mp hsorted).1 k' hrest exp exp' hexp hk')
  rcases hexp' with hexp' | hexp'
  · exact hold hexp'
  · have hmem := ExpiringTable.mem_of_expiry hexp'
    rw [hexp', if_pos hmem] at hexpiry
    split at hexpiry
    · cases hexpiry
      omega
    · exact hold hexpiry.symm

end ExpireInOrder

/-- **The expiring table.** After any run with fresh keys: what a lookup or a `take`
answers; the size; which entries an insertion evicts; and, where all entries live
equally long, that none with time left goes before one without. -/
theorem expiringTable_lookups (capacity : ℕ) (hroom : 1 ≤ capacity) (calls : List (TableCall V))
    (s : TableState V)
    (hrun : (tableMachine V capacity).run (tableMachine V capacity).init calls = some s) :
    (∀ key now, s.clock ≤ now →
      ((s.table.getMut key now).1.isSome ↔ Held capacity calls key now) ∧
        ((s.table.take key now).1.isSome ↔ Held capacity calls key now)) ∧
    KeyedTable.size s.table.entries ≤ capacity ∧
    (∀ key ttlSecs value now s', s.step (.insert key ttlSecs value now) = some s' →
      (∀ k, (TableCall.insert key ttlSecs value now).evicts s.table k ↔
        k ∈ s.present.take (s.surplus capacity)) ∧
      key ∈ s'.table.entries ∧ KeyedTable.size s'.table.entries ≤ capacity) ∧
    ∀ ttlSecs, (∀ k ttl value now, .insert k ttl value now ∈ calls → ttl = ttlSecs) →
      ∀ key value now s', s.step (.insert key ttlSecs value now) = some s' →
        ∀ k exp k' exp', (TableCall.insert key ttlSecs value now).evicts s.table k →
          s.table.expiry k = some exp → now < exp →
            s.table.expiry k' = some exp' ∨ s'.table.expiry k' = some exp' → now < exp' := by
  have ha := Aligned.init.run hrun
  refine ⟨fun key now hnow => ⟨?_, ?_⟩, ha.size_le, ?_, ?_⟩
  · exact ExpiringTable.getMut_isSome.trans (held_iff hrun hnow)
  · exact ExpiringTable.take_isSome.trans (held_iff hrun hnow)
  · intro key ttlSecs value now s' hs
    have hsize := (ha.step hs).size_le
    obtain ⟨⟨-, hfresh⟩, rfl⟩ := TableState.insert_eq_some.mp hs
    have hevicts : ∀ k, (TableCall.insert key ttlSecs value now).evicts s.table k ↔
        k ∈ s.present.take (s.surplus capacity) := fun k => ha.evicts_iff_of_room hroom hfresh
    refine ⟨hevicts, ?_, hsize⟩
    by_contra hgone
    have hmem := List.mem_of_mem_take ((hevicts key).mp ⟨Or.inl rfl, hgone⟩)
    exact hfresh (ha.used_of_mem (ha.mem_present.mp hmem))
  · intro ttlSecs httl key value now s' hs k exp k' exp' hevicts hexp hlive hexp'
    exact (ExpireInOrder.init.run Aligned.init httl hrun).live_of_evicts ha hroom hs hevicts hexp
      hlive hexp'

/-- Two places, three insertions with one lifetime: the first goes. -/
theorem expiringTable_lookups_full :
    ∃ s : TableState ℕ, (tableMachine ℕ 2).run (tableMachine ℕ 2).init
        [.insert "a" 60 1 0, .insert "b" 60 2 1, .take "b" 2, .insert "c" 60 3 3] = some s ∧
      ((s.table.getMut "a" 4).1.isSome ↔ Held 2
        [.insert "a" 60 1 0, .insert "b" 60 2 1, .take "b" 2, .insert "c" 60 3 3] "a" 4) ∧
      ∀ s', s.step (.insert "d" 60 4 5) = some s' →
        ∀ k, (TableCall.insert "d" 60 4 5).evicts s.table k ↔ k ∈ s.present.take (s.surplus 2) := by
  obtain ⟨s, hs⟩ : ∃ s, (tableMachine ℕ 2).run (tableMachine ℕ 2).init
      [.insert "a" 60 1 0, .insert "b" 60 2 1, .take "b" 2, .insert "c" 60 3 3] = some s :=
    ⟨_, rfl⟩
  have hclock : s.clock ≤ 4 := by
    cases hs
    decide
  have h := expiringTable_lookups 2 (by decide) _ s hs
  exact ⟨s, hs, (h.1 "a" 4 hclock).1, fun s' hs' => (h.2.2.1 "d" 60 4 5 s' hs').1⟩

end IdentityHub
