import Mathlib.Algebra.Order.Group.Multiset
import Mathlib.Data.List.Nodup
import Mathlib.Data.List.Basic

/-!
# Lists whose entries have distinct keys

A pool of workers is a list in which a worker keeps its position and its key.
Updating one position in place replaces the entry with that key and no other.
-/

namespace KeyedList

variable {α κ : Type*} {key : α → κ} {l : List α} {i : ℕ} {a b : α}

theorem map_set (h : l[i]? = some a) (hkey : key b = key a) :
    (l.set i b).map key = l.map key := by
  rw [List.map_set, hkey]
  apply List.ext_getElem?
  intro j
  rw [List.getElem?_set]
  split
  · rename_i hij
    subst hij
    split
    · rw [List.getElem?_map, h]
      rfl
    · rename_i hlen
      rw [List.getElem?_eq_none (Nat.not_lt.mp hlen)]
  · rfl

theorem eq_of_key (hkeys : (l.map key).Nodup) {x y : α} (hx : x ∈ l) (hy : y ∈ l)
    (h : key x = key y) : x = y :=
  List.inj_on_of_nodup_map hkeys hx hy h

/-- **Updating a position replaces one entry**, the one with its key. -/
theorem mem_set (hkeys : (l.map key).Nodup) (h : l[i]? = some a) (hkey : key b = key a) {x : α} :
    x ∈ l.set i b ↔ x = b ∨ x ∈ l ∧ key x ≠ key a := by
  have hlt : i < l.length := (List.getElem?_eq_some_iff.mp h).1
  constructor
  · intro hx
    obtain ⟨j, hj⟩ := List.getElem?_of_mem hx
    by_cases hij : i = j
    · subst hij
      rw [List.getElem?_set_self hlt] at hj
      exact Or.inl (Option.some_inj.mp hj).symm
    · rw [List.getElem?_set_ne hij] at hj
      refine Or.inr ⟨List.mem_of_getElem? hj, fun hne => hij ?_⟩
      have hsame : (l.map key)[i]? = (l.map key)[j]? := by
        rw [List.getElem?_map, List.getElem?_map, h, hj, Option.map_some, Option.map_some, hne]
      exact (List.getElem?_inj (by simpa using hlt) hkeys).mp hsame
  · rintro (rfl | ⟨hx, hne⟩)
    · exact List.mem_set hlt _
    · obtain ⟨j, hj⟩ := List.getElem?_of_mem hx
      have hij : i ≠ j := by
        rintro rfl
        rw [h] at hj
        cases hj
        exact hne rfl
      exact List.mem_of_getElem? (by rw [List.getElem?_set_ne hij]; exact hj)

/-! ## What the entries own together -/

/-- Updating a position replaces what its entry owns and leaves the rest. -/
theorem coe_flatMap_set {β : Type*} (f : α → List β) (h : l[i]? = some a) :
    ∃ rest : Multiset β, (↑(l.flatMap f) : Multiset β) = ↑(f a) + rest ∧
      ∀ b, (↑((l.set i b).flatMap f) : Multiset β) = ↑(f b) + rest := by
  obtain ⟨hlt, rfl⟩ := List.getElem?_eq_some_iff.mp h
  refine ⟨↑((l.take i).flatMap f) + ↑((l.drop (i + 1)).flatMap f), ?_, fun b => ?_⟩
  · calc (↑(l.flatMap f) : Multiset β)
        = ↑((l.take i ++ l[i] :: l.drop (i + 1)).flatMap f) := by
          rw [← List.drop_eq_getElem_cons hlt, List.take_append_drop]
      _ = ↑(f l[i]) + (↑((l.take i).flatMap f) + ↑((l.drop (i + 1)).flatMap f)) := by
          rw [List.flatMap_append, List.flatMap_cons, ← Multiset.coe_add, ← Multiset.coe_add]
          ac_rfl
  · rw [List.set_eq_take_append_cons_drop, if_pos hlt, List.flatMap_append, List.flatMap_cons,
      ← Multiset.coe_add, ← Multiset.coe_add]
    ac_rfl

/-- Nothing changes hands when the new entry owns what the old one did. -/
theorem coe_flatMap_set_of_eq {β : Type*} {f : α → List β} (h : l[i]? = some a)
    (hf : f b = f a) : (↑((l.set i b).flatMap f) : Multiset β) = ↑(l.flatMap f) := by
  obtain ⟨rest, hold, hnew⟩ := coe_flatMap_set f h
  rw [hnew, hold, hf]

/-- One thing is added when an entry that owned nothing comes to own it. -/
theorem coe_flatMap_set_of_nil {β : Type*} {f : α → List β} {x : β} (h : l[i]? = some a)
    (ha : f a = []) (hb : f b = [x]) :
    (↑((l.set i b).flatMap f) : Multiset β) = {x} + ↑(l.flatMap f) := by
  obtain ⟨rest, hold, hnew⟩ := coe_flatMap_set f h
  rw [hnew, hold, ha, hb, Multiset.coe_singleton, Multiset.coe_nil, zero_add]

theorem coe_flatMap_append_of_nil {β : Type*} {f : α → List β} (ha : f a = []) :
    (↑((l ++ [a]).flatMap f) : Multiset β) = ↑(l.flatMap f) := by
  rw [List.flatMap_append, List.flatMap_singleton, ha, List.append_nil]

/-- When nothing is owned twice, an owned thing has one position. -/
theorem owner_unique {β : Type*} {f : α → List β} (h : (l.flatMap f).Nodup) {j : ℕ}
    (ha : l[i]? = some a) (hb : l[j]? = some b) {x : β} (hxa : x ∈ f a) (hxb : x ∈ f b) :
    i = j := by
  have hdisj := List.pairwise_iff_getElem.mp (List.nodup_flatMap.mp h).2
  obtain ⟨hi, rfl⟩ := List.getElem?_eq_some_iff.mp ha
  obtain ⟨hj, rfl⟩ := List.getElem?_eq_some_iff.mp hb
  rcases lt_trichotomy i j with hlt | heq | hgt
  · exact absurd hxb (hdisj i j hi hj hlt hxa)
  · exact heq
  · exact absurd hxa (hdisj j i hj hi hgt hxb)

/-! ## Finding and replacing by key -/

section

variable [DecidableEq κ] {k : κ}

/-- Put `b` where the first entry with its key is. -/
theorem map_key_replaceF (hb : key b = k) :
    ∀ l : List α, (l.replaceF (fun x => if key x == k then some b else none)).map key = l.map key
  | [] => rfl
  | x :: l => by
      rw [List.replaceF_cons]
      by_cases hx : key x = k
      · simp only [hx, beq_self_eq_true, if_true, List.map_cons, hb]
      · simp only [beq_false_of_ne hx, Bool.false_eq_true, if_false, List.map_cons,
          map_key_replaceF hb l]

theorem find?_key_replaceF (hb : key b = k) (k' : κ) :
    ∀ l : List α, (l.replaceF (fun x => if key x == k then some b else none)).find?
        (fun x => key x == k') =
      if k' = k then (l.find? (fun x => key x == k')).map (fun _ => b)
      else l.find? (fun x => key x == k')
  | [] => by
      rw [List.replaceF_nil, List.find?_nil]
      split <;> rfl
  | x :: l => by
      rw [List.replaceF_cons]
      by_cases hx : key x = k
      · simp only [hx, beq_self_eq_true, if_true, List.find?_cons, hb]
        by_cases hk : k' = k
        · rw [if_pos hk, hk, beq_self_eq_true]
          rfl
        · rw [if_neg hk, beq_false_of_ne (Ne.symm hk)]
      · simp only [beq_false_of_ne hx, Bool.false_eq_true, if_false, List.find?_cons,
          find?_key_replaceF hb k' l]
        by_cases hk : k' = k
        · rw [hk, if_pos rfl, if_pos rfl, beq_false_of_ne hx]
        · rw [if_neg hk, if_neg hk]

theorem find?_key_append_new (hnew : l.find? (fun x => key x == key b) = none) (k' : κ) :
    (l ++ [b]).find? (fun x => key x == k') =
      if k' = key b then some b else l.find? (fun x => key x == k') := by
  rw [List.find?_append, List.find?_singleton]
  by_cases hk : k' = key b
  · rw [hk, hnew, if_pos rfl, beq_self_eq_true]
    rfl
  · rw [if_neg hk, beq_false_of_ne (Ne.symm hk)]
    cases l.find? (fun x => key x == k') <;> rfl

theorem find?_key_filter_ne (k' : κ) :
    (l.filter (fun x => key x != k)).find? (fun x => key x == k') =
      if k' = k then none else l.find? (fun x => key x == k') := by
  rw [List.find?_filter]
  split
  · rename_i hk
    rw [List.find?_eq_none]
    intro x _ h
    rw [hk] at h
    simp at h
  · rename_i hk
    congr 1
    funext x
    by_cases hx : key x = k'
    · simp [hx, hk]
    · simp [hx]

theorem notMem_keys_of_find? (h : l.find? (fun x => key x == k) = none) : k ∉ l.map key := by
  intro hmem
  obtain ⟨x, hx, rfl⟩ := List.mem_map.mp hmem
  have := List.find?_eq_none.mp h x hx
  exact this (beq_self_eq_true _)

end

/-! ## Counting by key -/

theorem countP_key_le_one [DecidableEq κ] (hkeys : (l.map key).Nodup) (k : κ) (c : α → Bool) :
    l.countP (fun x => decide (key x = k) && c x) ≤ 1 := by
  have hkey : l.countP (fun x => decide (key x = k)) = (l.map key).count k := by
    rw [List.count_eq_countP, List.countP_map]
    rfl
  calc l.countP (fun x => decide (key x = k) && c x)
      ≤ l.countP (fun x => decide (key x = k)) :=
        List.countP_mono_left (fun x _ h => (Bool.and_eq_true_iff.mp h).1)
    _ = (l.map key).count k := hkey
    _ ≤ 1 := List.nodup_iff_count_le_one.mp hkeys k

theorem countP_key_eq_one [DecidableEq κ] (hkeys : (l.map key).Nodup) {k : κ} {c : α → Bool}
    (ha : a ∈ l) (hk : key a = k) (hc : c a = true) :
    l.countP (fun x => decide (key x = k) && c x) = 1 := by
  refine Nat.le_antisymm (countP_key_le_one hkeys k c) (List.countP_pos_iff.mpr ⟨a, ha, ?_⟩)
  rw [decide_eq_true hk, hc]
  rfl

end KeyedList
