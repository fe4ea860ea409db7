import Mathlib.Data.List.AList
import Mathlib.Data.List.Perm.Subperm

/-!
# Keyed tables and their insertion queue

A hash map is an association list with distinct keys (`AList`). This file adds
what a bounded table needs on top of Mathlib's `lookup`, `insert` and `erase`:
in-place updates (`map`, `modify`), the number of entries, the list of values,
and `Queued`, the agreement between a table and the queue that records the
order its keys arrived in.
-/

/-- A finite map from `κ` to `ν`. -/
abbrev KeyedTable (κ : Type*) (ν : Type*) := AList (fun _ : κ => ν)

namespace KeyedTable

variable {κ ν : Type*}

/-- Update the value of one entry in place. -/
def mapEntry (f : κ → ν → ν) : (Σ _ : κ, ν) → Σ _ : κ, ν := Sigma.map id f

theorem keys_mapEntry (f : κ → ν → ν) (l : List (Σ _ : κ, ν)) :
    (l.map (mapEntry f)).keys = l.keys := by
  simp only [List.keys, List.map_map]
  rfl

/-- Update every value in place. -/
def map (f : κ → ν → ν) (t : KeyedTable κ ν) : KeyedTable κ ν where
  entries := t.entries.map (mapEntry f)
  nodupKeys := by
    unfold List.NodupKeys
    rw [keys_mapEntry]
    exact t.nodupKeys

/-- The number of entries. -/
def size (t : KeyedTable κ ν) : ℕ := t.entries.length

/-- The values, in no order anything may rely on. -/
def values (t : KeyedTable κ ν) : List ν := t.entries.map Sigma.snd

theorem keys_map (f : κ → ν → ν) (t : KeyedTable κ ν) : (map f t).keys = t.keys :=
  keys_mapEntry f t.entries

@[simp] theorem mem_map {f : κ → ν → ν} {t : KeyedTable κ ν} {k : κ} :
    k ∈ map f t ↔ k ∈ t := by
  rw [AList.mem_keys, keys_map, AList.mem_keys]

@[simp] theorem size_map (f : κ → ν → ν) (t : KeyedTable κ ν) :
    size (map f t) = size t := List.length_map ..

theorem size_eq_length_keys (t : KeyedTable κ ν) : size t = t.keys.length :=
  (List.length_map ..).symm

/-- The queue lists exactly the keys of the table, each once. -/
structure Queued (order : List κ) (t : KeyedTable κ ν) : Prop where
  nodup : order.Nodup
  mem : ∀ k, k ∈ order ↔ k ∈ t

theorem Queued.empty : Queued ([] : List κ) (∅ : KeyedTable κ ν) where
  nodup := List.nodup_nil
  mem k := by simp [AList.notMem_empty]

theorem Queued.map {order : List κ} {t : KeyedTable κ ν} (h : Queued order t)
    (f : κ → ν → ν) : Queued order (map f t) where
  nodup := h.nodup
  mem k := by rw [h.mem, mem_map]

variable [DecidableEq κ]

/-- Update the value under one key, if there is one. -/
def modify (k : κ) (f : ν → ν) (t : KeyedTable κ ν) : KeyedTable κ ν :=
  map (fun k' v => if k' = k then f v else v) t

@[simp] theorem lookup_map (f : κ → ν → ν) (t : KeyedTable κ ν) (k : κ) :
    (map f t).lookup k = (t.lookup k).map (f k) :=
  List.dlookup_map₂ (f := f) k

theorem lookup_modify (k k' : κ) (f : ν → ν) (t : KeyedTable κ ν) :
    (modify k f t).lookup k' = if k' = k then (t.lookup k').map f else t.lookup k' := by
  rw [modify, lookup_map]
  split
  · rfl
  · exact Option.map_id'

theorem lookup_insert (k k' : κ) (v : ν) (t : KeyedTable κ ν) :
    (t.insert k v).lookup k' = if k' = k then some v else t.lookup k' := by
  by_cases h : k' = k
  · subst h
    rw [AList.lookup_insert, if_pos rfl]
  · rw [AList.lookup_insert_ne h, if_neg h]

theorem lookup_erase (k k' : κ) (t : KeyedTable κ ν) :
    (t.erase k).lookup k' = if k' = k then none else t.lookup k' := by
  by_cases h : k' = k
  · subst h
    rw [AList.lookup_erase, if_pos rfl]
  · rw [AList.lookup_erase_ne h, if_neg h]

theorem mem_of_lookup {t : KeyedTable κ ν} {k : κ} {v : ν} (h : t.lookup k = some v) :
    k ∈ t :=
  AList.lookup_isSome.mp (by rw [h]; rfl)

theorem exists_lookup {t : KeyedTable κ ν} {k : κ} (h : k ∈ t) :
    ∃ v, t.lookup k = some v :=
  Option.isSome_iff_exists.mp (AList.lookup_isSome.mpr h)

theorem mem_values {t : KeyedTable κ ν} {v : ν} :
    v ∈ values t ↔ ∃ k, t.lookup k = some v := by
  rw [values, List.mem_map]
  constructor
  · rintro ⟨⟨k, v'⟩, hm, rfl⟩
    exact ⟨k, AList.mem_lookup_iff.mpr hm⟩
  · rintro ⟨k, hk⟩
    exact ⟨⟨k, v⟩, AList.mem_lookup_iff.mp hk, rfl⟩

theorem values_insert {t : KeyedTable κ ν} {k : κ} (v : ν) (h : k ∉ t) :
    values (t.insert k v) = v :: values t := by
  rw [values, AList.entries_insert_of_notMem h]
  rfl

theorem keys_insert {t : KeyedTable κ ν} {k : κ} (v : ν) (h : k ∉ t) :
    (t.insert k v).keys = k :: t.keys := by
  rw [AList.keys_insert, List.erase_of_not_mem (AList.mem_keys.not.mp h)]

theorem keys_modify (k : κ) (f : ν → ν) (t : KeyedTable κ ν) :
    (modify k f t).keys = t.keys := keys_map ..

/-- An update in place does not show through a function it respects. -/
theorem map_values_modify {β : Type*} {g : ν → β} {f : ν → ν} (hg : ∀ v, g (f v) = g v)
    (k : κ) (t : KeyedTable κ ν) : (values (modify k f t)).map g = (values t).map g := by
  unfold values modify map
  rw [List.map_map, List.map_map, List.map_map]
  refine List.map_congr_left (fun e _ => ?_)
  show g (if e.1 = k then f e.2 else e.2) = g e.2
  split
  · exact hg e.2
  · rfl

theorem size_insert {t : KeyedTable κ ν} {k : κ} (v : ν) (h : k ∉ t) :
    size (t.insert k v) = size t + 1 := by
  rw [size, AList.entries_insert_of_notMem h]
  rfl

theorem size_erase {t : KeyedTable κ ν} {k : κ} (h : k ∈ t) :
    size (t.erase k) + 1 = size t := by
  rw [size_eq_length_keys, size_eq_length_keys, AList.keys_erase,
    List.length_erase_of_mem (AList.mem_keys.mp h)]
  have := List.length_pos_of_mem (AList.mem_keys.mp h)
  omega

/-! ## Counting values -/

theorem countP_values_insert (c : ν → Bool) {t : KeyedTable κ ν} {k : κ} (v : ν) (h : k ∉ t) :
    (values (t.insert k v)).countP c = (values t).countP c + if c v then 1 else 0 := by
  rw [values_insert v h, List.countP_cons]

theorem countP_values_erase_le (c : ν → Bool) (t : KeyedTable κ ν) (k : κ) :
    (values (t.erase k)).countP c ≤ (values t).countP c := by
  apply List.Sublist.countP_le
  exact (List.kerase_sublist k t.entries).map Sigma.snd

/-- An update in place that turns no value into a counted one. -/
theorem countP_values_map_le (c : ν → Bool) {f : κ → ν → ν} {t : KeyedTable κ ν}
    (h : ∀ k v, t.lookup k = some v → c (f k v) = true → c v = true) :
    (values (map f t)).countP c ≤ (values t).countP c := by
  unfold values map
  rw [List.map_map, List.countP_map, List.countP_map]
  apply List.countP_mono_left
  rintro ⟨k, v⟩ hm hc
  exact h k v (AList.mem_lookup_iff.mpr hm) hc

/-! ## The insertion queue -/

namespace Queued

variable {order : List κ} {t : KeyedTable κ ν}

theorem push {k : κ} (h : Queued order t) (hk : k ∉ t) (v : ν) :
    Queued (order ++ [k]) (t.insert k v) where
  nodup := by
    rw [List.nodup_append]
    refine ⟨h.nodup, List.nodup_singleton k, ?_⟩
    intro a ha b hb hab
    rw [List.mem_singleton] at hb
    subst hb hab
    exact hk ((h.mem a).mp ha)
  mem k' := by
    rw [List.mem_append, List.mem_singleton, AList.mem_insert, h.mem k']
    exact or_comm

/-- Removing one key from both. -/
theorem remove (h : Queued order t) (k : κ) : Queued (order.erase k) (t.erase k) where
  nodup := h.nodup.erase k
  mem k' := by rw [h.nodup.mem_erase_iff, AList.mem_erase, h.mem k']

theorem modify (h : Queued order t) (k : κ) (f : ν → ν) :
    Queued order (modify k f t) := h.map _

end Queued

end KeyedTable
