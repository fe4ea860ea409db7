import Mathlib.Data.List.Sort

/-!
# Sets kept as strictly increasing lists

The model of an ordered set (a B-tree set): its elements in increasing order,
each once, with that order as part of the value. `popFirst` takes the least
element.
-/

/-- A finite set of `α`, listed in increasing order. -/
structure SortedSet (α : Type*) [LinearOrder α] where
  toList : List α
  sorted : toList.Pairwise (· < ·)

namespace SortedSet

variable {α : Type*} [LinearOrder α]

@[ext] theorem ext {s t : SortedSet α} (h : s.toList = t.toList) : s = t := by
  cases s
  cases t
  congr

def empty : SortedSet α := ⟨[], List.Pairwise.nil⟩

instance : Membership α (SortedSet α) := ⟨fun s a => a ∈ s.toList⟩

theorem mem_def {s : SortedSet α} {a : α} : a ∈ s ↔ a ∈ s.toList := Iff.rfl

instance (a : α) (s : SortedSet α) : Decidable (a ∈ s) :=
  inferInstanceAs (Decidable (a ∈ s.toList))

theorem nodup (s : SortedSet α) : s.toList.Nodup :=
  s.sorted.imp (fun h => ne_of_lt h)

/-- Placing a new element before the first larger one keeps the list strictly
increasing. -/
theorem orderedInsert_sorted {a : α} : ∀ {l : List α}, l.Pairwise (· < ·) → a ∉ l →
    (l.orderedInsert (· < ·) a).Pairwise (· < ·)
  | [], _, _ => List.pairwise_singleton _ _
  | x :: xs, hs, ha => by
      rcases List.pairwise_cons.mp hs with ⟨hx, hxs⟩
      by_cases h : a < x
      · rw [List.orderedInsert_cons_of_le (· < ·) xs h]
        refine List.pairwise_cons.mpr ⟨?_, hs⟩
        intro y hy
        rcases List.mem_cons.mp hy with rfl | hy
        · exact h
        · exact h.trans (hx y hy)
      · rw [List.orderedInsert_of_not_le (· < ·) xs h]
        have hxa : x < a :=
          lt_of_le_of_ne (not_lt.mp h) (fun e => ha (e ▸ List.mem_cons_self))
        refine List.pairwise_cons.mpr ⟨?_, ?_⟩
        · intro y hy
          rcases (List.mem_orderedInsert (· < ·)).mp hy with rfl | hy
          · exact hxa
          · exact hx y hy
        · exact orderedInsert_sorted hxs (fun hm => ha (List.mem_cons_of_mem _ hm))

def insert (a : α) (s : SortedSet α) : SortedSet α :=
  if h : a ∈ s.toList then s
  else ⟨s.toList.orderedInsert (· < ·) a, orderedInsert_sorted s.sorted h⟩

/-- The least element, and the set without it. -/
def popFirst (s : SortedSet α) : Option (α × SortedSet α) :=
  match s with
  | ⟨[], _⟩ => none
  | ⟨a :: rest, h⟩ => some (a, ⟨rest, (List.pairwise_cons.mp h).2⟩)

theorem popFirst_eq_none {s : SortedSet α} : s.popFirst = none ↔ s.toList = [] := by
  obtain ⟨l, h⟩ := s
  cases l <;> simp [popFirst]

theorem popFirst_eq_some {s t : SortedSet α} {a : α} :
    s.popFirst = some (a, t) ↔ s.toList = a :: t.toList := by
  obtain ⟨l, h⟩ := s
  cases l with
  | nil => simp [popFirst]
  | cons b rest =>
      simp only [popFirst, Option.some.injEq, Prod.mk.injEq, List.cons.injEq]
      constructor
      · rintro ⟨rfl, rfl⟩
        exact ⟨rfl, rfl⟩
      · rintro ⟨rfl, h'⟩
        exact ⟨rfl, SortedSet.ext h'⟩

theorem mem_insert {a b : α} {s : SortedSet α} : b ∈ s.insert a ↔ b = a ∨ b ∈ s := by
  unfold insert
  by_cases h : a ∈ s.toList
  · rw [dif_pos h]
    constructor
    · exact Or.inr
    · rintro (rfl | hb)
      · exact h
      · exact hb
  · rw [dif_neg h, mem_def, List.mem_orderedInsert]
    exact Iff.rfl

theorem perm_insert {a : α} {s : SortedSet α} (h : a ∉ s) :
    (s.insert a).toList.Perm (a :: s.toList) := by
  unfold insert
  rw [dif_neg (mem_def.not.mp h)]
  exact List.perm_orderedInsert (· < ·) a s.toList

end SortedSet
