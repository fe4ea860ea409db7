import Mathlib.Data.Multiset.Range
import Mathlib.Algebra.Order.Group.Multiset

/-!
# Ownership of numbered slots

Slots are handed out in order, `0` first, up to a capacity. Each slot handed out
has one owner at a time: the free list, a holder working with it, or the record
it ended in. Holders take slots, give them back or settle them into records, any
number of holders at once; the ledger only sees who owns what.

`Balanced` is the partition, as multisets: what is free, held and recorded is
together exactly `0 .. next`, so nothing is owned twice and nothing is lost.
Every step keeps it.
-/

/-- Who owns the slots handed out so far. -/
structure Ledger where
  next : ℕ
  free : Multiset ℕ
  held : Multiset ℕ
  recorded : Multiset ℕ

namespace Ledger

/-- What can happen to the slots, with `capacity` of them. -/
inductive Step (capacity : ℕ) : Ledger → Ledger → Prop
  | idle (L : Ledger) : Step capacity L L
  | reuse (L : Ledger) (i : ℕ) (rest : Multiset ℕ) :
      L.free = {i} + rest → Step capacity L { L with free := rest, held := {i} + L.held }
  | fresh (L : Ledger) :
      L.next < capacity →
        Step capacity L { L with next := L.next + 1, held := {L.next} + L.held }
  | giveBack (L : Ledger) (slots rest : Multiset ℕ) :
      L.held = slots + rest →
        Step capacity L { L with free := slots + L.free, held := rest }
  | settle (L : Ledger) (slots rest : Multiset ℕ) :
      L.held = slots + rest →
        Step capacity L { L with held := rest, recorded := slots + L.recorded }

/-- The slots handed out are partitioned among the owners. -/
structure Balanced (capacity : ℕ) (L : Ledger) : Prop where
  partition : L.free + L.held + L.recorded = Multiset.range L.next
  bounded : L.next ≤ capacity

variable {capacity : ℕ} {L L' : Ledger}

theorem balanced_init : Balanced capacity ⟨0, 0, 0, 0⟩ where
  partition := rfl
  bounded := Nat.zero_le _

/-- **Every step keeps the partition.** -/
theorem Balanced.step (h : L.Balanced capacity) (hs : Step capacity L L') :
    L'.Balanced capacity := by
  obtain ⟨hp, hb⟩ := h
  cases hs with
  | idle => exact ⟨hp, hb⟩
  | reuse i rest hfree =>
      refine ⟨?_, hb⟩
      rw [← hp, hfree]
      show rest + ({i} + L.held) + L.recorded = _
      ac_rfl
  | fresh hlt =>
      refine ⟨?_, hlt⟩
      show L.free + ({L.next} + L.held) + L.recorded = Multiset.range (L.next + 1)
      rw [Multiset.range_succ, ← Multiset.singleton_add, ← hp]
      ac_rfl
  | giveBack slots rest hheld =>
      refine ⟨?_, hb⟩
      rw [← hp, hheld]
      show slots + L.free + rest + L.recorded = _
      ac_rfl
  | settle slots rest hheld =>
      refine ⟨?_, hb⟩
      rw [← hp, hheld]
      show L.free + rest + (slots + L.recorded) = _
      ac_rfl

theorem Step.next_le (hs : Step capacity L L') : L.next ≤ L'.next := by
  cases hs with
  | fresh => exact Nat.le_succ _
  | _ => exact le_rfl

/-! ## What the partition says about one slot -/

namespace Balanced

variable (h : L.Balanced capacity)

include h

theorem nodup : (L.free + L.held + L.recorded).Nodup := by
  rw [h.partition]
  exact Multiset.nodup_range _

theorem lt_next_iff {i : ℕ} : i < L.next ↔ i ∈ L.free ∨ i ∈ L.held ∨ i ∈ L.recorded := by
  rw [← Multiset.mem_range, ← h.partition, Multiset.mem_add, Multiset.mem_add, or_assoc]

theorem held_nodup : L.held.Nodup :=
  (Multiset.nodup_add.mp (Multiset.nodup_add.mp h.nodup).1).2.1

theorem recorded_nodup : L.recorded.Nodup := (Multiset.nodup_add.mp h.nodup).2.1

theorem held_of_free {i : ℕ} (hi : i ∈ L.free) : i ∉ L.held := fun hh =>
  Multiset.disjoint_left.mp (Multiset.nodup_add.mp (Multiset.nodup_add.mp h.nodup).1).2.2 hi hh

theorem recorded_of_free {i : ℕ} (hi : i ∈ L.free) : i ∉ L.recorded := fun hr =>
  Multiset.disjoint_left.mp (Multiset.nodup_add.mp h.nodup).2.2
    (Multiset.mem_add.mpr (Or.inl hi)) hr

theorem recorded_of_held {i : ℕ} (hi : i ∈ L.held) : i ∉ L.recorded := fun hr =>
  Multiset.disjoint_left.mp (Multiset.nodup_add.mp h.nodup).2.2
    (Multiset.mem_add.mpr (Or.inr hi)) hr

/-- When nothing is free and nothing is left, every slot is held or recorded. -/
theorem exhausted (hfree : L.free = 0) (hfull : capacity ≤ L.next) {i : ℕ} (hi : i < capacity) :
    i ∈ L.held ∨ i ∈ L.recorded := by
  have hcases := h.lt_next_iff.mp (hi.trans_le hfull)
  rw [hfree] at hcases
  simpa using hcases

end Balanced

end Ledger
