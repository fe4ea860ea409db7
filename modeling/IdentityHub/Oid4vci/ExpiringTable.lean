import IdentityHub.Lib.KeyedTable

/-!
# The bounded, expiring table

A fixed-capacity map from strings with an expiry per entry. An insertion evicts
the oldest keys until the table fits again; a lookup never answers with an entry
whose time has come. A removal leaves the key in the queue, where the eviction
loop later skips over it.

An operation other than `insert` never adds an entry (`Within`), and `insert`
adds the one it is given: that is all later files use.
-/

namespace IdentityHub

/-- Every key of the table is queued, and the table fits. -/
structure ExpiringTable (V : Type*) where
  entries : KeyedTable String (ℕ × V)
  order : List String
  capacity : ℕ
  queued : ∀ key ∈ entries, key ∈ order
  bounded : KeyedTable.size entries ≤ capacity

namespace ExpiringTable

variable {V : Type*}

def new (capacity : ℕ) : ExpiringTable V where
  entries := ∅
  order := []
  capacity := capacity
  queued _ h := absurd h (AList.notMem_empty _)
  bounded := Nat.zero_le capacity

/-- The loop at the end of `insert`. -/
def evict (capacity : ℕ) (entries : KeyedTable String (ℕ × V)) :
    List String → KeyedTable String (ℕ × V) × List String
  | [] => (entries, [])
  | oldest :: rest =>
      if capacity < KeyedTable.size entries then evict capacity (entries.erase oldest) rest
      else (entries, oldest :: rest)

theorem lookup_of_evict {capacity : ℕ} {key : String} {entry : ℕ × V} :
    ∀ {order : List String} {entries : KeyedTable String (ℕ × V)},
      (evict capacity entries order).1.lookup key = some entry →
        entries.lookup key = some entry
  | [], _, h => h
  | oldest :: rest, entries, h => by
      rw [evict] at h
      split at h
      · have hkept := lookup_of_evict h
        rw [KeyedTable.lookup_erase] at hkept
        split at hkept
        · cases hkept
        · exact hkept
      · exact h

theorem evict_queued {capacity : ℕ} :
    ∀ {order : List String} {entries : KeyedTable String (ℕ × V)},
      (∀ key ∈ entries, key ∈ order) →
        ∀ key ∈ (evict capacity entries order).1, key ∈ (evict capacity entries order).2
  | [], _, h => h
  | oldest :: rest, entries, h => by
      rw [evict]
      split
      · apply evict_queued
        intro key hkey
        obtain ⟨hne, hmem⟩ := AList.mem_erase.mp hkey
        exact (List.mem_cons.mp (h key hmem)).resolve_left hne
      · exact h

/-- The loop ends because the table fits, or because nothing is left. -/
theorem evict_bounded {capacity : ℕ} :
    ∀ {order : List String} {entries : KeyedTable String (ℕ × V)},
      (∀ key ∈ entries, key ∈ order) →
        KeyedTable.size (evict capacity entries order).1 ≤ capacity
  | [], entries, h => by
      have hkeys : entries.keys = [] := by
        apply List.eq_nil_iff_forall_not_mem.mpr
        intro key hkey
        exact List.not_mem_nil (h key (AList.mem_keys.mpr hkey))
      rw [evict, KeyedTable.size_eq_length_keys, hkeys]
      exact Nat.zero_le capacity
  | oldest :: rest, entries, h => by
      rw [evict]
      split
      · apply evict_bounded
        intro key hkey
        obtain ⟨hne, hmem⟩ := AList.mem_erase.mp hkey
        exact (List.mem_cons.mp (h key hmem)).resolve_left hne
      · rename_i hfits
        exact Nat.le_of_not_lt hfits

theorem insert_queued (t : ExpiringTable V) (key : String) (entry : ℕ × V) :
    ∀ k ∈ t.entries.insert key entry,
      k ∈ (if key ∈ t.entries then t.order else t.order ++ [key]) := by
  intro k hk
  rcases (AList.mem_insert t.entries).mp hk with rfl | hmem
  · split
    · rename_i hold
      exact t.queued k hold
    · exact List.mem_append_right _ (List.mem_singleton_self k)
  · have hq := t.queued k hmem
    split
    · exact hq
    · exact List.mem_append_left _ hq

/-- `insert`: a key already there keeps its place in the queue. -/
def insert (t : ExpiringTable V) (key : String) (ttlSecs : ℕ) (value : V) (now : ℕ) :
    ExpiringTable V where
  entries := (evict t.capacity (t.entries.insert key (now + ttlSecs, value))
    (if key ∈ t.entries then t.order else t.order ++ [key])).1
  order := (evict t.capacity (t.entries.insert key (now + ttlSecs, value))
    (if key ∈ t.entries then t.order else t.order ++ [key])).2
  capacity := t.capacity
  queued := evict_queued (t.insert_queued key (now + ttlSecs, value))
  bounded := evict_bounded (t.insert_queued key (now + ttlSecs, value))

/-- Drop one entry, leaving its key queued. -/
def remove (t : ExpiringTable V) (key : String) : ExpiringTable V where
  entries := t.entries.erase key
  order := t.order
  capacity := t.capacity
  queued k hk := t.queued k (AList.mem_erase.mp hk).2
  bounded := by
    by_cases h : key ∈ t.entries
    · have hsize := KeyedTable.size_erase h
      have hfits := t.bounded
      omega
    · have hsame : t.entries.erase key = t.entries := by
        apply AList.ext
        exact List.kerase_of_notMem_keys (AList.mem_keys.not.mp h)
      rw [hsame]
      exact t.bounded

/-- `get_mut`: the live entry, dropping it first if it expired. -/
def getMut (t : ExpiringTable V) (key : String) (now : ℕ) : Option V × ExpiringTable V :=
  match t.entries.lookup key with
  | none => (none, t)
  | some (exp, value) => if exp ≤ now then (none, t.remove key) else (some value, t)

/-- Write through the reference `get_mut` gave. -/
def update (t : ExpiringTable V) (key : String) (f : V → V) : ExpiringTable V where
  entries := KeyedTable.modify key (fun entry => (entry.1, f entry.2)) t.entries
  order := t.order
  capacity := t.capacity
  queued k hk := t.queued k (KeyedTable.mem_map.mp hk)
  bounded := by
    rw [KeyedTable.modify, KeyedTable.size_map]
    exact t.bounded

/-- `take`: removes the entry, and answers with it if it is live. -/
def take (t : ExpiringTable V) (key : String) (now : ℕ) : Option V × ExpiringTable V :=
  match t.entries.lookup key with
  | none => (none, t)
  | some (exp, value) => (if now < exp then some value else none, t.remove key)

/-! ## What each operation leaves in the table -/

/-- `t'` holds entries of `t` only. -/
def Within (t' t : ExpiringTable V) : Prop :=
  ∀ key entry, t'.entries.lookup key = some entry → t.entries.lookup key = some entry

variable {t : ExpiringTable V} {key : String} {now : ℕ}

theorem Within.refl (t : ExpiringTable V) : t.Within t := fun _ _ h => h

theorem lookup_insert {ttlSecs : ℕ} {value : V} {k : String} {entry : ℕ × V}
    (h : (t.insert key ttlSecs value now).entries.lookup k = some entry) :
    (k = key ∧ entry = (now + ttlSecs, value)) ∨ t.entries.lookup k = some entry := by
  have hinsert := lookup_of_evict h
  rw [KeyedTable.lookup_insert] at hinsert
  split at hinsert
  · rename_i hk
    cases hinsert
    exact Or.inl ⟨hk, rfl⟩
  · exact Or.inr hinsert

theorem lookup_remove (t : ExpiringTable V) (key k : String) :
    (t.remove key).entries.lookup k = if k = key then none else t.entries.lookup k :=
  KeyedTable.lookup_erase ..

theorem remove_within (t : ExpiringTable V) (key : String) : (t.remove key).Within t := by
  intro k entry h
  rw [lookup_remove] at h
  split at h
  · cases h
  · exact h

theorem lookup_update (f : V → V) (k : String) :
    (t.update key f).entries.lookup k =
      if k = key then (t.entries.lookup k).map (fun entry => (entry.1, f entry.2))
      else t.entries.lookup k :=
  KeyedTable.lookup_modify ..

theorem getMut_within : (t.getMut key now).2.Within t := by
  unfold getMut
  split
  · exact .refl t
  · split
    · exact t.remove_within key
    · exact .refl t

/-- What `get_mut` answers with is a live entry, and it leaves the table as it
is. -/
theorem getMut_eq_some {value : V} (h : (t.getMut key now).1 = some value) :
    (t.getMut key now).2 = t ∧ ∃ exp, t.entries.lookup key = some (exp, value) ∧ now < exp := by
  unfold getMut at h ⊢
  split at h
  · cases h
  · rename_i exp v hlookup
    split at h
    · cases h
    · rename_i hlive
      cases h
      rw [hlookup]
      show (if exp ≤ now then _ else _ : Option V × ExpiringTable V).2 = t ∧ _
      rw [if_neg hlive]
      exact ⟨rfl, exp, rfl, Nat.lt_of_not_le hlive⟩

/-- A key `get_mut` does not find is not in the table afterwards. -/
theorem lookup_getMut_none (h : (t.getMut key now).1 = none) :
    (t.getMut key now).2.entries.lookup key = none := by
  unfold getMut at h ⊢
  split
  · assumption
  · rename_i exp value hlookup
    rw [hlookup] at h
    replace h : (if exp ≤ now then _ else _ : Option V × ExpiringTable V).1 = none := h
    split
    · rw [lookup_remove, if_pos rfl]
    · rename_i hlive
      rw [if_neg hlive] at h
      cases h

theorem take_within : (t.take key now).2.Within t := by
  unfold take
  split
  · exact .refl t
  · exact t.remove_within key

theorem lookup_take (t : ExpiringTable V) (key : String) (now : ℕ) :
    (t.take key now).2.entries.lookup key = none := by
  unfold take
  split
  · assumption
  · rw [lookup_remove, if_pos rfl]

theorem take_eq_some {value : V} (h : (t.take key now).1 = some value) :
    ∃ exp, t.entries.lookup key = some (exp, value) ∧ now < exp := by
  unfold take at h
  split at h
  · cases h
  · rename_i exp v hlookup
    split at h
    · rename_i hlive
      cases h
      exact ⟨exp, hlookup, hlive⟩
    · cases h

end ExpiringTable

end IdentityHub
