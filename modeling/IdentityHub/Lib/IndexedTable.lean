import IdentityHub.Lib.KeyedTable

/-!
# Tables with an index

A table of records under their own keys, an index from a tag of the record to
its key, and the queue of the keys. `Indexed` says that the three describe the
same records; an insertion of a record with a new key and a new tag keeps it,
and so does a change in place of everything but key and tag.
-/

namespace KeyedTable

variable {κ ι ρ : Type*} [DecidableEq κ] [DecidableEq ι]

/-- The table, the index and the queue describe the same records. -/
structure Indexed (key : ρ → κ) (tag : ρ → ι) (records : KeyedTable κ ρ)
    (index : KeyedTable ι κ) (order : List κ) : Prop where
  keyed : ∀ k r, records.lookup k = some r → key r = k
  indexed : ∀ t k, index.lookup t = some k ↔ ∃ r, records.lookup k = some r ∧ tag r = t
  queued : Queued order records

namespace Indexed

variable {key : ρ → κ} {tag : ρ → ι} {records : KeyedTable κ ρ} {index : KeyedTable ι κ}
  {order : List κ}

theorem empty (key : ρ → κ) (tag : ρ → ι) : Indexed key tag ∅ ∅ [] where
  keyed k r h := by
    rw [AList.lookup_empty] at h
    cases h
  indexed t k := by
    rw [AList.lookup_empty]
    constructor
    · intro h
      cases h
    · rintro ⟨r, hr, -⟩
      rw [AList.lookup_empty] at hr
      cases hr
  queued := .empty

/-- One record a tag. -/
theorem eq_of_tag (h : Indexed key tag records index order) {k k' : κ} {r r' : ρ}
    (hr : records.lookup k = some r) (hr' : records.lookup k' = some r')
    (htag : tag r = tag r') : k = k' := by
  have hk := (h.indexed (tag r) k).mpr ⟨r, hr, rfl⟩
  have hk' := (h.indexed (tag r) k').mpr ⟨r', hr', htag.symm⟩
  rw [hk] at hk'
  exact Option.some.inj hk'

/-- **Looking up by tag** finds the record that has it. -/
theorem find (h : Indexed key tag records index order) {k : κ} {r : ρ}
    (hr : records.lookup k = some r) :
    (index.lookup (tag r)).bind records.lookup = some r := by
  rw [(h.indexed (tag r) k).mpr ⟨r, hr, rfl⟩, Option.bind_some, hr]

theorem lookup_eq_none (h : Indexed key tag records index order) {t : ι}
    (hnone : (index.lookup t).bind records.lookup = none) : index.lookup t = none := by
  cases hk : index.lookup t with
  | none => rfl
  | some k =>
      obtain ⟨r, hr, -⟩ := (h.indexed t k).mp hk
      rw [hk, Option.bind_some, hr] at hnone
      cases hnone

theorem insert (h : Indexed key tag records index order) {r : ρ} (hkey : key r ∉ records)
    (htag : index.lookup (tag r) = none) :
    Indexed key tag (records.insert (key r) r) (index.insert (tag r) (key r))
      (order ++ [key r]) where
  keyed k r' hr' := by
    rw [lookup_insert] at hr'
    split at hr'
    · rename_i hk
      cases hr'
      exact hk.symm
    · exact h.keyed k r' hr'
  indexed t k := by
    rw [lookup_insert, lookup_insert]
    constructor
    · intro hk
      split at hk
      · rename_i ht
        cases hk
        rw [if_pos rfl]
        exact ⟨r, rfl, ht.symm⟩
      · obtain ⟨r', hr', ht⟩ := (h.indexed t k).mp hk
        rw [if_neg]
        · exact ⟨r', hr', ht⟩
        · rintro rfl
          exact hkey (mem_of_lookup hr')
    · rintro ⟨r', hr', ht⟩
      split at hr'
      · rename_i hk
        cases hr'
        rw [if_pos ht.symm, hk]
      · have hk := (h.indexed t k).mpr ⟨r', hr', ht⟩
        rw [if_neg]
        · exact hk
        · rintro rfl
          rw [htag] at hk
          cases hk
  queued := h.queued.push hkey r

/-- A change in place of everything but key and tag. -/
theorem modify (h : Indexed key tag records index order) (k : κ) {f : ρ → ρ}
    (hkey : ∀ r, key (f r) = key r) (htag : ∀ r, tag (f r) = tag r) :
    Indexed key tag (KeyedTable.modify k f records) index order where
  keyed k' r' hr' := by
    rw [lookup_modify] at hr'
    split at hr'
    · obtain ⟨r, hr, rfl⟩ := Option.map_eq_some_iff.mp hr'
      exact (hkey r).trans (h.keyed k' r hr)
    · exact h.keyed k' r' hr'
  indexed t k' := by
    rw [h.indexed, lookup_modify]
    split
    · constructor
      · rintro ⟨r, hr, ht⟩
        exact ⟨f r, by rw [hr, Option.map_some], (htag r).trans ht⟩
      · rintro ⟨r', hr', ht⟩
        obtain ⟨r, hr, rfl⟩ := Option.map_eq_some_iff.mp hr'
        exact ⟨r, hr, (htag r).symm.trans ht⟩
    · exact Iff.rfl
  queued := h.queued.modify k f

end Indexed

end KeyedTable
