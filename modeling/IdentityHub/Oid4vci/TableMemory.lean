import IdentityHub.Lib.StepSystem
import IdentityHub.Oid4vci.ExpiringTable

/-!
# What the expiring table keeps in memory

The entries never outgrow the capacity. The queue does: a key stays in it when its
entry is taken or found expired, and leaves it only when an insertion finds the table
full. Under fresh keys the queue is as long as the table is large, plus the keys left
behind (`stale`); so a way of using the table bounds the memory exactly when it bounds
the keys an entry may be removed beside.
-/

namespace IdentityHub

open StepSystem

variable {V : Type*}

namespace ExpiringTable

/-- The queued keys without an entry. -/
def staleIn (entries : KeyedTable String (ℕ × V)) (order : List String) : ℕ :=
  order.countP (fun key => key ∉ entries)

def stale (t : ExpiringTable V) : ℕ := staleIn t.entries t.order

theorem staleIn_cons (entries : KeyedTable String (ℕ × V)) (key : String) (rest : List String) :
    staleIn entries (key :: rest) = staleIn entries rest + if key ∈ entries then 0 else 1 := by
  rw [staleIn, List.countP_cons, staleIn]
  by_cases h : key ∈ entries <;> simp [h]

theorem staleIn_congr {entries entries' : KeyedTable String (ℕ × V)} {order : List String}
    (h : ∀ key ∈ order, key ∈ entries ↔ key ∈ entries') :
    staleIn entries order = staleIn entries' order := by
  unfold staleIn
  apply List.countP_congr
  intro key hkey
  simp only [decide_eq_true_eq]
  exact not_congr (h key hkey)

/-- The eviction loop takes keys away from the front. -/
theorem evict_suffix {capacity : ℕ} {order : List String}
    {entries : KeyedTable String (ℕ × V)} : (evict capacity entries order).2 <:+ order := by
  induction order generalizing entries with
  | nil => exact List.suffix_refl _
  | cons oldest rest ih =>
      rw [evict]
      split
      · exact ih.trans (List.suffix_cons oldest rest)
      · exact List.suffix_refl _

theorem evict_of_fits {capacity : ℕ} {entries : KeyedTable String (ℕ × V)}
    (h : KeyedTable.size entries ≤ capacity) (order : List String) :
    evict capacity entries order = (entries, order) := by
  cases order with
  | nil => rfl
  | cons oldest rest => rw [evict, if_neg (Nat.not_lt.mpr h)]

theorem stale_evict {capacity : ℕ} {order : List String}
    {entries : KeyedTable String (ℕ × V)} (hnodup : order.Nodup) :
    staleIn (evict capacity entries order).1 (evict capacity entries order).2 ≤
      staleIn entries order := by
  induction order generalizing entries with
  | nil => exact le_rfl
  | cons oldest rest ih =>
      obtain ⟨hnew, hrest⟩ := List.nodup_cons.mp hnodup
      rw [evict]
      split
      · -- an evicted key is in the rest of the queue no more
        have hsame : staleIn (entries.erase oldest) rest = staleIn entries rest := by
          apply staleIn_congr
          intro key hkey
          rw [AList.mem_erase]
          exact and_iff_right (ne_of_mem_of_not_mem hkey hnew)
        have hsub : staleIn entries rest ≤ staleIn entries (oldest :: rest) :=
          (List.sublist_cons_self oldest rest).countP_le
        rw [← hsame] at hsub
        exact le_trans (ih hrest) hsub
      · exact le_rfl

variable {t : ExpiringTable V} {key : String}

theorem notMem_of_notQueued (h : key ∉ t.order) : key ∉ t.entries :=
  fun hmem => h (t.queued key hmem)

theorem nodup_push (hnodup : t.order.Nodup) (hfresh : key ∉ t.order) :
    (t.order ++ [key]).Nodup := by
  rw [← List.concat_eq_append]
  exact hnodup.concat hfresh

theorem entries_insert (hnone : key ∉ t.entries) (ttlSecs : ℕ) (value : V) (now : ℕ) :
    (t.insert key ttlSecs value now).entries =
      (evict t.capacity (t.entries.insert key (now + ttlSecs, value)) (t.order ++ [key])).1 := by
  show (evict t.capacity _ (if key ∈ t.entries then _ else _)).1 = _
  rw [if_neg hnone]

theorem order_insert (hnone : key ∉ t.entries) (ttlSecs : ℕ) (value : V) (now : ℕ) :
    (t.insert key ttlSecs value now).order =
      (evict t.capacity (t.entries.insert key (now + ttlSecs, value)) (t.order ++ [key])).2 := by
  show (evict t.capacity _ (if key ∈ t.entries then _ else _)).2 = _
  rw [if_neg hnone]

section

variable (hfresh : key ∉ t.order) (ttlSecs : ℕ) (value : V) (now : ℕ)
include hfresh

theorem nodup_insert (hnodup : t.order.Nodup) : (t.insert key ttlSecs value now).order.Nodup := by
  rw [order_insert (notMem_of_notQueued hfresh)]
  exact (nodup_push hnodup hfresh).sublist evict_suffix.sublist

theorem mem_order_insert {k : String} (h : k ∈ (t.insert key ttlSecs value now).order) :
    k ∈ t.order ∨ k = key := by
  rw [order_insert (notMem_of_notQueued hfresh)] at h
  rcases List.mem_append.mp (evict_suffix.subset h) with hold | hnew
  · exact Or.inl hold
  · exact Or.inr (List.mem_singleton.mp hnew)

/-- **An insertion** leaves no key behind. -/
theorem stale_insert (hnodup : t.order.Nodup) :
    (t.insert key ttlSecs value now).stale ≤ t.stale := by
  have hold : staleIn (t.entries.insert key (now + ttlSecs, value)) t.order = t.stale := by
    apply staleIn_congr
    intro k hk
    rw [AList.mem_insert]
    exact or_iff_right (ne_of_mem_of_not_mem hk hfresh)
  have hnew : staleIn (t.entries.insert key (now + ttlSecs, value)) [key] = 0 := by
    simp [staleIn, AList.mem_insert]
  have hsum : staleIn (t.entries.insert key (now + ttlSecs, value)) (t.order ++ [key]) =
      t.stale := by
    rw [staleIn, List.countP_append, ← staleIn, ← staleIn, hold, hnew, Nat.add_zero]
  have hnone := notMem_of_notQueued hfresh
  rw [stale, entries_insert hnone, order_insert hnone, ← hsum]
  exact stale_evict (nodup_push hnodup hfresh)

end

/-- **A removal** leaves one key behind. -/
theorem stale_remove (hnodup : t.order.Nodup) (key : String) :
    (t.remove key).stale ≤ t.stale + 1 := by
  have hsplit : ∀ order : List String, staleIn (t.entries.erase key) order ≤
      staleIn t.entries order + order.count key := by
    intro order
    induction order with
    | nil => exact Nat.zero_le _
    | cons k rest ih =>
        rw [staleIn_cons, staleIn_cons, List.count_cons]
        by_cases hk : k = key
        · rw [if_pos (beq_iff_eq.mpr hk)]
          split <;> split <;> omega
        · rw [if_neg (fun h => hk (beq_iff_eq.mp h))]
          simp only [AList.mem_erase, ne_eq, hk, not_false_eq_true, true_and]
          omega
  have hcount : t.order.count key ≤ 1 := List.nodup_iff_count_le_one.mp hnodup key
  have hremove : (t.remove key).stale ≤ t.stale + t.order.count key := hsplit t.order
  exact le_trans hremove (Nat.add_le_add_left hcount _)

/-- The queue is the table and what was left behind. -/
theorem length_order_le (hnodup : t.order.Nodup) :
    t.order.length ≤ KeyedTable.size t.entries + t.stale := by
  have hlive : (t.order.filter (fun key => key ∈ t.entries)).length ≤
      KeyedTable.size t.entries := by
    rw [KeyedTable.size_eq_length_keys]
    refine ((hnodup.filter _).subperm fun key hkey => ?_).length_le
    have hmem := (List.mem_filter.mp hkey).2
    exact AList.mem_keys.mp (decide_eq_true_eq.mp hmem)
  have hsplit := t.order.length_eq_countP_add_countP (fun key => key ∈ t.entries)
  rw [List.countP_eq_length_filter] at hsplit
  have hstale : t.order.countP (fun key => ¬ decide (key ∈ t.entries) = true) = t.stale := by
    apply List.countP_congr
    simp
  omega

theorem stale_le_length : t.stale ≤ t.order.length := List.countP_le_length

end ExpiringTable

/-! ## Runs -/

/-- A table, the latest reading of the clock, and the keys inserted so far. -/
structure TableState (V : Type*) where
  table : ExpiringTable V
  clock : ℕ
  used : List String

/-- The calls of the table; `write` is what the caller does with the reference that
`get_mut` gives. -/
inductive TableCall (V : Type*) where
  | insert (key : String) (ttlSecs : ℕ) (value : V) (now : ℕ)
  | getMut (key : String) (write : V → V) (now : ℕ)
  | take (key : String) (now : ℕ)

namespace TableState

/-- The clock does not go back, and an inserted key is new. -/
def step (s : TableState V) : TableCall V → Option (TableState V)
  | .insert key ttlSecs value now =>
      if s.clock ≤ now ∧ key ∉ s.used then
        some { table := s.table.insert key ttlSecs value now, clock := now, used := key :: s.used }
      else none
  | .getMut key write now =>
      if s.clock ≤ now then
        let (found, table) := s.table.getMut key now
        some { s with
          table := if found.isSome then table.update key write else table
          clock := now }
      else none
  | .take key now =>
      if s.clock ≤ now then some { s with table := (s.table.take key now).2, clock := now }
      else none

end TableState

/-- The calls that drop an entry. -/
def TableCall.removes (t : ExpiringTable V) : TableCall V → Prop
  | .insert .. => False
  | .getMut key _ now => ∃ entry, t.entries.lookup key = some entry ∧ entry.1 ≤ now
  | .take key _ => key ∈ t.entries

def tableMachine (V : Type*) (capacity : ℕ) : Machine (TableState V) (TableCall V) where
  init := { table := .new capacity, clock := 0, used := [] }
  step := TableState.step

/-- No key is queued twice, and none that was not inserted. -/
structure TableInvariant (capacity limit : ℕ) (s : TableState V) : Prop where
  capacity_eq : s.table.capacity = capacity
  nodup : s.table.order.Nodup
  used : ∀ key ∈ s.table.order, key ∈ s.used
  stale : s.table.stale ≤ limit

theorem TableInvariant.remove {capacity limit : ℕ} {s : TableState V} {now : ℕ}
    (h : TableInvariant capacity limit s) (hspare : s.table.stale < limit) (key : String) :
    TableInvariant capacity limit { s with table := s.table.remove key, clock := now } where
  capacity_eq := h.capacity_eq
  nodup := h.nodup
  used := h.used
  stale := le_trans (ExpiringTable.stale_remove h.nodup key) hspare

theorem TableInvariant.update {capacity limit : ℕ} {s : TableState V} {now : ℕ}
    (h : TableInvariant capacity limit s) (key : String) (write : V → V) :
    TableInvariant capacity limit { s with table := s.table.update key write, clock := now } where
  capacity_eq := h.capacity_eq
  nodup := h.nodup
  used := h.used
  stale := by
    have hsame : (s.table.update key write).stale = s.table.stale := by
      apply ExpiringTable.staleIn_congr
      intro k _
      exact KeyedTable.mem_map
    exact le_trans (Nat.le_of_eq hsame) h.stale

theorem TableInvariant.tick {capacity limit : ℕ} {s : TableState V} {now : ℕ}
    (h : TableInvariant capacity limit s) :
    TableInvariant capacity limit { s with clock := now } :=
  ⟨h.capacity_eq, h.nodup, h.used, h.stale⟩

/-- One call keeps the invariant, if an entry it drops is dropped beside fewer than
`limit` stale keys. -/
theorem TableInvariant.step {capacity limit : ℕ} {s s' : TableState V} {call : TableCall V}
    (h : TableInvariant capacity limit s)
    (hspare : call.removes s.table → s.table.stale < limit) (hs : s.step call = some s') :
    TableInvariant capacity limit s' := by
  cases call with
  | insert key ttlSecs value now =>
      simp only [TableState.step, Option.ite_none_right_eq_some] at hs
      obtain ⟨⟨-, hfresh⟩, hs⟩ := hs
      cases hs
      have hnew : key ∉ s.table.order := fun hmem => hfresh (h.used key hmem)
      refine ⟨h.capacity_eq, ExpiringTable.nodup_insert hnew _ _ _ h.nodup, ?_, ?_⟩
      · intro k hk
        rcases ExpiringTable.mem_order_insert hnew _ _ _ hk with hold | rfl
        · exact List.mem_cons_of_mem key (h.used k hold)
        · exact List.mem_cons_self
      · exact le_trans (ExpiringTable.stale_insert hnew _ _ _ h.nodup) h.stale
  | getMut key write now =>
      simp only [TableState.step, Option.ite_none_right_eq_some] at hs
      obtain ⟨-, hs⟩ := hs
      cases hs
      unfold ExpiringTable.getMut
      cases hlookup : s.table.entries.lookup key with
      | none => exact h.tick
      | some entry =>
          dsimp only
          split
          · rename_i hexpired
            exact h.remove (hspare ⟨entry, hlookup, hexpired⟩) key
          · exact h.update key write
  | take key now =>
      simp only [TableState.step, Option.ite_none_right_eq_some] at hs
      obtain ⟨-, hs⟩ := hs
      cases hs
      unfold ExpiringTable.take
      cases hlookup : s.table.entries.lookup key with
      | none => exact h.tick
      | some entry => exact h.remove (hspare (KeyedTable.mem_of_lookup hlookup)) key

variable {capacity : ℕ} {discipline : Guard (TableState V) (TableCall V)}

theorem tableInvariant {limit : ℕ}
    (hspare : ∀ s call, ReachableBy (tableMachine V capacity) discipline s → discipline s call →
      call.removes s.table → s.table.stale < limit)
    {s : TableState V} (h : ReachableBy (tableMachine V capacity) discipline s) :
    TableInvariant capacity limit s := by
  induction h with
  | refl => exact ⟨rfl, List.nodup_nil, fun key hkey => absurd hkey List.not_mem_nil, Nat.zero_le _⟩
  | tail call hr hcall hs ih => exact ih.step (hspare _ call hr hcall) hs

/-- Then the queue is no longer than the capacity and the limit together. -/
theorem length_order_le_of_spare {limit : ℕ}
    (hspare : ∀ s call, ReachableBy (tableMachine V capacity) discipline s → discipline s call →
      call.removes s.table → s.table.stale < limit)
    {s : TableState V} (h : ReachableBy (tableMachine V capacity) discipline s) :
    KeyedTable.size s.table.entries ≤ capacity ∧ s.table.order.length ≤ capacity + limit := by
  have hinv := tableInvariant hspare h
  have hsize : KeyedTable.size s.table.entries ≤ capacity := by
    rw [← hinv.capacity_eq]
    exact s.table.bounded
  have hlength := ExpiringTable.length_order_le hinv.nodup
  have hstale := hinv.stale
  exact ⟨hsize, by omega⟩

/-- **The memory of a table.** A way of using it keeps the entries and the queue within
a bound exactly when there is a limit to the stale keys beside which it drops an
entry. -/
theorem memory_bounded_iff (capacity : ℕ) (discipline : Guard (TableState V) (TableCall V)) :
    (∃ bound, ∀ s, ReachableBy (tableMachine V capacity) discipline s →
      KeyedTable.size s.table.entries ≤ capacity ∧ s.table.order.length ≤ bound) ↔
    ∃ limit, ∀ s call, ReachableBy (tableMachine V capacity) discipline s → discipline s call →
      call.removes s.table → s.table.stale < limit := by
  constructor
  · rintro ⟨bound, hbound⟩
    refine ⟨bound + 1, fun s call hr _ _ => ?_⟩
    have hstale : s.table.stale ≤ s.table.order.length := ExpiringTable.stale_le_length
    exact Nat.lt_succ_of_le (le_trans hstale (hbound s hr).2)
  · rintro ⟨limit, hspare⟩
    exact ⟨capacity + limit, fun s hr => length_order_le_of_spare hspare hr⟩

/-! ## A key inserted and taken, over and over -/

def repeatedKey (n : ℕ) : String := String.ofList (List.replicate n 'n')

/-- An empty table with room for an entry, and `n` keys queued. -/
structure Hollow (n : ℕ) (s : TableState Unit) : Prop where
  empty : KeyedTable.size s.table.entries = 0
  room : 1 ≤ s.table.capacity
  length : s.table.order.length = n
  clock : s.clock = 0
  used : ∀ key ∈ s.used, key.length < n

theorem Hollow.insert_take {n capacity : ℕ} {s : TableState Unit} (h : Hollow n s) :
    ∃ s₁ s₂, (tableMachine Unit capacity).step s (.insert (repeatedKey n) 1 () 0) = some s₁ ∧
      (tableMachine Unit capacity).step s₁ (.take (repeatedKey n) 0) = some s₂ ∧
        Hollow (n + 1) s₂ := by
  have hlength : (repeatedKey n).length = n := by simp [repeatedKey]
  have hfresh : repeatedKey n ∉ s.used := by
    intro hmem
    have hshort := h.used _ hmem
    omega
  have hnone : repeatedKey n ∉ s.table.entries := by
    intro hmem
    have hsize := h.empty
    rw [KeyedTable.size_eq_length_keys, List.length_eq_zero_iff] at hsize
    have hkey := AList.mem_keys.mp hmem
    rw [hsize] at hkey
    exact List.not_mem_nil hkey
  -- the new entry fits, so nothing is evicted
  have hsize : KeyedTable.size (s.table.entries.insert (repeatedKey n) (0 + 1, ())) = 1 := by
    rw [KeyedTable.size_insert _ hnone, h.empty]
  have hfits := ExpiringTable.evict_of_fits (le_of_eq_of_le hsize h.room)
    (s.table.order ++ [repeatedKey n])
  have hentries := ExpiringTable.entries_insert hnone 1 () 0
  have horder := ExpiringTable.order_insert hnone 1 () 0
  rw [hfits] at hentries horder
  have hlookup : (s.table.insert (repeatedKey n) 1 () 0).entries.lookup (repeatedKey n) =
      some (0 + 1, ()) := by
    rw [hentries, KeyedTable.lookup_insert, if_pos rfl]
  have htaken : ((s.table.insert (repeatedKey n) 1 () 0).take (repeatedKey n) 0).2 =
      (s.table.insert (repeatedKey n) 1 () 0).remove (repeatedKey n) := by
    unfold ExpiringTable.take
    rw [hlookup]
  refine ⟨_, _, if_pos ⟨Nat.le_of_eq h.clock, hfresh⟩, rfl, ?_⟩
  rw [htaken]
  refine ⟨?_, h.room, ?_, rfl, ?_⟩
  · have hdropped := KeyedTable.size_erase (KeyedTable.mem_of_lookup hlookup)
    show KeyedTable.size ((s.table.insert (repeatedKey n) 1 () 0).entries.erase _) = 0
    rw [hentries, hsize] at hdropped
    rw [hentries]
    omega
  · show (s.table.insert (repeatedKey n) 1 () 0).order.length = n + 1
    rw [horder, List.length_append, h.length, List.length_singleton]
  · intro key hkey
    rcases List.mem_cons.mp hkey with rfl | hold
    · exact Nat.lt_succ_of_le (Nat.le_of_eq hlength)
    · exact Nat.lt_succ_of_lt (h.used key hold)

theorem hollow_reachable {capacity : ℕ} (hroom : 1 ≤ capacity) (n : ℕ) :
    ∃ s, Reachable (tableMachine Unit capacity) s ∧ Hollow n s := by
  induction n with
  | zero => exact ⟨_, .refl, rfl, hroom, rfl, rfl, nofun⟩
  | succ n ih =>
      obtain ⟨s, hr, hhollow⟩ := ih
      obtain ⟨s₁, s₂, hinsert, htake, hnext⟩ := @Hollow.insert_take n capacity s hhollow
      have hinserted : Reachable (tableMachine Unit capacity) s₁ := hr.step hinsert
      exact ⟨s₂, hinserted.step htake, hnext⟩

/-- No bound that is made from the capacity alone holds of the queue. -/
theorem memory_unbounded : ¬ ∃ bound : ℕ → ℕ, ∀ capacity s, 1 ≤ capacity →
    Reachable (tableMachine Unit capacity) s →
      KeyedTable.size s.table.entries ≤ capacity ∧ s.table.order.length ≤ bound capacity := by
  rintro ⟨bound, hbound⟩
  obtain ⟨s, hr, hhollow⟩ := hollow_reachable (le_refl 1) (bound 1 + 1)
  have hlength := (hbound 1 s le_rfl hr).2
  rw [hhollow.length] at hlength
  exact absurd hlength (Nat.not_succ_le_self _)

end IdentityHub
