import Mathlib.Data.List.Basic

/-!
# Listings

Elements are sorted by a comparison and handed out in pages.

A comparison answers less, equal or greater. A sort may rely on it only where it is
a total order of the elements, up to those that compare equal; where it is, a stable
sort keeps such elements in the order they came in.
-/

namespace Listing

variable {α : Type*} {cmp : α → α → Ordering} {l : List α}

/-- What a sort asks of the comparison of its elements. -/
structure TotalOn (cmp : α → α → Ordering) (l : List α) : Prop where
  swap : ∀ a ∈ l, ∀ b ∈ l, cmp b a = (cmp a b).swap
  trans : ∀ a ∈ l, ∀ b ∈ l, ∀ c ∈ l,
    (cmp a b).isLE = true → (cmp b c).isLE = true → (cmp a c).isLE = true

theorem totalOn_iff :
    TotalOn cmp l ↔
      (∀ a ∈ l, ∀ b ∈ l, cmp b a = (cmp a b).swap) ∧
        ∀ a ∈ l, ∀ b ∈ l, ∀ c ∈ l,
          (cmp a b).isLE = true → (cmp b c).isLE = true → (cmp a c).isLE = true :=
  ⟨fun h => ⟨h.swap, h.trans⟩, fun h => ⟨h.1, h.2⟩⟩

instance : Decidable (TotalOn cmp l) := decidable_of_iff' _ totalOn_iff

/-- A stable sort. Nothing is said of its result where the comparison is not a total
order of the elements. -/
def sortBy (cmp : α → α → Ordering) (l : List α) : Option (List α) :=
  if TotalOn cmp l then some (l.mergeSort (fun a b => (cmp a b).isLE)) else none

theorem sortBy_eq_some {sorted : List α} :
    sortBy cmp l = some sorted ↔
      TotalOn cmp l ∧ l.mergeSort (fun a b => (cmp a b).isLE) = sorted := by
  unfold sortBy
  split
  · next h => simp [h]
  · next h => simp [h]

namespace TotalOn

theorem mono {part : List α} (h : TotalOn cmp l) (hpart : part ⊆ l) : TotalOn cmp part where
  swap a ha b hb := h.swap a (hpart ha) b (hpart hb)
  trans a ha b hb c hc := h.trans a (hpart ha) b (hpart hb) c (hpart hc)

/-- The reverse of a total order is one. -/
theorem reverse (h : TotalOn cmp l) : TotalOn (fun a b => (cmp a b).swap) l where
  swap a ha b hb := congrArg Ordering.swap (h.swap a ha b hb)
  trans a ha b hb c hc hab hbc := by
    rw [← h.swap a ha b hb] at hab
    rw [← h.swap b hb c hc] at hbc
    rw [← h.swap a ha c hc]
    exact h.trans c hc b hb a ha hbc hab

/-- The sort of the elements, each with the proof that it is one of them: on these the
comparison is a total order without more. -/
theorem map_mergeSort_attach :
    (l.attach.mergeSort (fun a b => (cmp a b).isLE)).map Subtype.val =
      l.mergeSort (fun a b => (cmp a b).isLE) := by
  have hmap := List.map_mergeSort (r := fun a b : {x // x ∈ l} => (cmp a b).isLE)
    (s := fun a b => (cmp a b).isLE) (f := Subtype.val) (l := l.attach) (fun _ _ _ _ => rfl)
  rwa [List.attach_map_subtype_val] at hmap

theorem attach_trans (h : TotalOn cmp l) (a b c : {x // x ∈ l}) :
    (cmp a b).isLE = true → (cmp b c).isLE = true → (cmp a c).isLE = true :=
  h.trans a a.2 b b.2 c c.2

theorem attach_total (h : TotalOn cmp l) (a b : {x // x ∈ l}) :
    ((cmp a b).isLE || (cmp b a).isLE) = true := by
  rw [h.swap a a.2 b b.2]
  cases cmp a b <;> rfl

/-- **The result is sorted.** -/
theorem sorted (h : TotalOn cmp l) :
    (l.mergeSort (fun a b => (cmp a b).isLE)).Pairwise (fun a b => (cmp a b).isLE = true) := by
  rw [← map_mergeSort_attach, List.pairwise_map]
  exact List.pairwise_mergeSort h.attach_trans h.attach_total _

/-- **The sort is stable**: elements no two of which are out of order stay as they came. -/
theorem stable (h : TotalOn cmp l) {p : α → Bool}
    (hp : ∀ a ∈ l, ∀ b ∈ l, p a = true → p b = true → (cmp a b).isLE = true) :
    (l.mergeSort (fun a b => (cmp a b).isLE)).filter p = l.filter p := by
  let q : {x // x ∈ l} → Bool := fun a => p a
  have hpairs : (l.attach.filter q).Pairwise
      (fun a b : {x // x ∈ l} => (cmp a b).isLE = true) := by
    refine List.pairwise_of_forall_mem_list (fun a ha b hb => ?_)
    exact hp a a.2 b b.2 (List.mem_filter.mp ha).2 (List.mem_filter.mp hb).2
  have hkept : (l.attach.filter q).map Subtype.val = l.filter p := by
    rw [show q = p ∘ Subtype.val from rfl, ← List.filter_map, List.attach_map_subtype_val]
  have hsub : (l.filter p).Sublist (l.mergeSort (fun a b => (cmp a b).isLE)) := by
    rw [← hkept, ← map_mergeSort_attach]
    exact (List.sublist_mergeSort h.attach_trans h.attach_total hpairs
      List.filter_sublist).map _
  refine (List.Sublist.eq_of_length ?_ ?_).symm
  · have hagain := hsub.filter p
    simpa only [List.filter_filter, Bool.and_self] using hagain
  · exact ((List.mergeSort_perm l _).filter p).length_eq.symm

end TotalOn

/-! ## Pages -/

/-- **Pages lose and repeat nothing.** -/
theorem flatMap_pages (l : List α) (size count : ℕ) :
    (List.range count).flatMap (fun k => (l.drop (k * size)).take size) =
      l.take (count * size) := by
  induction count with
  | zero => simp
  | succ count ih =>
      rw [List.range_succ, List.flatMap_append, ih, List.flatMap_singleton, Nat.succ_mul,
        List.take_add]

end Listing
