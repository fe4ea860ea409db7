import IdentityHub.Issuer.QueryOrder

/-!
# The pages of a query

A client reads a listing page by page: the same query again and again, each time from
where the last page ended. Where the field it sorts by holds values of one kind, the
pages together are the items that match, each once and in the order the query names.
-/

namespace IdentityHub

open Json (Value Number)
open Listing (TotalOn)

variable {numberText : Number → String} {spec : QuerySpec} {items : List Value} {size : ℕ}

/-! ## The listing that is meant -/

/-- The order of a field, said without the comparison. -/
inductive FieldLe : Option Value → Option Value → Prop
  | lowest {a b : Option Value} : fieldKind a = .missing → FieldLe a b
  | string {s t : String} : s ≤ t → FieldLe (some (.string s)) (some (.string t))
  | bool {x y : Bool} : x ≤ y → FieldLe (some (.bool x)) (some (.bool y))
  | number {m n : Number} :
      m.toRat ≤ n.toRat → FieldLe (some (.number m)) (some (.number n))

/-- An integer that a floating-point number is exact for. -/
def Number.IsExact (n : Number) : Prop := ∃ i : ℤ, n.toRat = i ∧ i.natAbs ≤ 2 ^ 53

/-- Strings, booleans or integers, apart from what is missing or null. -/
def OneKind (field : String) (items : List Value) : Prop :=
  (∀ item ∈ items, fieldKind (item.get field) = .missing ∨
      ∃ s, item.get field = some (.string s)) ∨
    (∀ item ∈ items, fieldKind (item.get field) = .missing ∨
      ∃ b, item.get field = some (.bool b)) ∨
    ∀ item ∈ items, fieldKind (item.get field) = .missing ∨
      ∃ n, item.get field = some (.number n) ∧ Number.IsExact n

namespace QuerySpec

/-- An item satisfies all criteria. -/
def Matches (numberText : Number → String) (spec : QuerySpec) (item : Value) : Bool :=
  (spec.filterExpression.getD []).all (fun c =>
    operandMatches numberText (item.get c.operandLeft) c.operandRight)

def IsDescending (spec : QuerySpec) : Prop := spec.sortOrder.map Text.asciiUpper = some "DESC"

/-- The query for the page `k`. -/
def page (spec : QuerySpec) (size k : ℕ) : QuerySpec :=
  { spec with offset := some ((k * size : ℕ) : ℤ), limit := some (size : ℤ) }

/-- `all` is what the query lists of the items. -/
structure Lists (numberText : Number → String) (spec : QuerySpec) (items all : List Value) :
    Prop where
  once : all.Perm (items.filter (spec.Matches numberText))
  ascending : ¬ spec.IsDescending → ∀ field, spec.sortField = some field →
    all.Pairwise (fun a b => FieldLe (a.get field) (b.get field))
  descending : spec.IsDescending → ∀ field, spec.sortField = some field →
    all.Pairwise (fun a b => FieldLe (b.get field) (a.get field))
  stable : ∀ field, spec.sortField = some field → ∀ p : Value → Bool,
    (∀ a ∈ items, ∀ b ∈ items, p a = true → p b = true → FieldLe (a.get field) (b.get field)) →
      all.filter p = (items.filter (spec.Matches numberText)).filter p
  unsorted : ¬ spec.IsDescending → spec.sortField = none →
    all = items.filter (spec.Matches numberText)
  reversed : spec.IsDescending → spec.sortField = none →
    all = (items.filter (spec.Matches numberText)).reverse

end QuerySpec

/-! ## Values of one kind -/

theorem f64OfNat_exact {n : ℕ} (h : n ≤ 2 ^ 53) : f64OfNat n = n := by
  rcases h.lt_or_eq with hlt | rfl
  · exact if_pos hlt
  · decide

theorem f64OfInt_exact {i : ℤ} (h : i.natAbs ≤ 2 ^ 53) : f64OfInt i = i := by
  cases i with
  | ofNat n =>
      have hn : f64OfNat n = n := f64OfNat_exact h
      rw [f64OfInt, hn]
      rfl
  | negSucc n =>
      have hn : f64OfNat (n + 1) = n + 1 := f64OfNat_exact h
      rw [f64OfInt, hn]
      rfl

theorem asF64_exact {n : Number} (h : Number.IsExact n) : asF64 n = n.toRat := by
  obtain ⟨i, hi, hbound⟩ := h
  cases n with
  | posInt n =>
      have hn : (n.toNat : ℤ) = i := by
        have hcast : ((n.toNat : ℤ) : ℚ) = i := hi
        exact_mod_cast hcast
      have hle : n.toNat ≤ 2 ^ 53 := by omega
      rw [asF64, f64OfNat_exact hle, Number.toRat]
  | negInt z =>
      have hz : z = i := by
        have hcast : (z : ℚ) = i := hi
        exact_mod_cast hcast
      rw [asF64, f64OfInt_exact (hz ▸ hbound), Number.toRat]
  | float q => rfl

/-- The comparison of a linear order. -/
theorem isLE_compare {α : Type} [LinearOrder α] {x y : α} :
    (compare x y).isLE = true ↔ x ≤ y :=
  Ordering.ne_gt_iff_isLE.symm.trans compare_le_iff_le

theorem FieldLe.kind {a b : Option Value} (h : FieldLe a b) :
    fieldKind a = .missing ∨ fieldKind a = fieldKind b := by
  cases h with
  | lowest h => exact Or.inl h
  | string h => exact Or.inr rfl
  | bool h => exact Or.inr rfl
  | number h => exact Or.inr rfl

/-- **Among values of one kind the comparison is the order of the field.** -/
theorem isLE_compareValues_iff {field : String} (h : OneKind field items) {a b : Value}
    (ha : a ∈ items) (hb : b ∈ items) :
    (compareValues (a.get field) (b.get field)).isLE = true ↔
      FieldLe (a.get field) (b.get field) := by
  by_cases hmissing : fieldKind (a.get field) = .missing
  · refine iff_of_true ?_ (.lowest hmissing)
    rw [compareValues_missing hmissing]
    split <;> rfl
  by_cases hmissing' : fieldKind (b.get field) = .missing
  · refine iff_of_false ?_ ?_
    · rw [compareValues_swap (b.get field), compareValues_missing hmissing', if_neg hmissing]
      decide
    · intro hle
      rcases hle.kind with hkind | hkind
      · exact hmissing hkind
      · exact hmissing (hkind.trans hmissing')
  · rcases h with h | h | h
    · obtain ⟨s, hs⟩ := (h a ha).resolve_left hmissing
      obtain ⟨t, ht⟩ := (h b hb).resolve_left hmissing'
      rw [hs, ht]
      refine isLE_compare.trans ⟨.string, fun hle => ?_⟩
      cases hle with
      | lowest h => cases h
      | string hst => exact hst
    · obtain ⟨x, hx⟩ := (h a ha).resolve_left hmissing
      obtain ⟨y, hy⟩ := (h b hb).resolve_left hmissing'
      rw [hx, hy]
      refine isLE_compare.trans ⟨.bool, fun hle => ?_⟩
      cases hle with
      | lowest h => cases h
      | bool hxy => exact hxy
    · obtain ⟨m, hm, hexact⟩ := (h a ha).resolve_left hmissing
      obtain ⟨n, hn, hexact'⟩ := (h b hb).resolve_left hmissing'
      rw [hm, hn]
      refine isLE_compare.trans ?_
      rw [asF64_exact hexact, asF64_exact hexact']
      refine ⟨.number, fun hle => ?_⟩
      cases hle with
      | lowest h => cases h
      | number hmn => exact hmn

/-- Values of one kind do not bridge. -/
theorem not_bridged_of_oneKind {field : String} (h : OneKind field items) :
    ¬ Bridged field items := by
  have hkind : ∃ kind, ∀ item ∈ items,
      fieldKind (item.get field) = .missing ∨ fieldKind (item.get field) = kind := by
    rcases h with h | h | h
    · refine ⟨.string, fun item hitem => (h item hitem).imp_right ?_⟩
      rintro ⟨s, hs⟩
      rw [hs]
      rfl
    · refine ⟨.bool, fun item hitem => (h item hitem).imp_right ?_⟩
      rintro ⟨b, hb⟩
      rw [hb]
      rfl
    · refine ⟨.number, fun item hitem => (h item hitem).imp_right ?_⟩
      rintro ⟨n, hn, -⟩
      rw [hn]
      rfl
  obtain ⟨kind, hkind⟩ := hkind
  rintro ⟨a, ha, b, hb, c, hc, hpresent, hac, hba, hne⟩
  have hb' := (hkind b hb).resolve_left hpresent
  rcases hkind a ha with ha' | ha'
  · rw [compareValues_missing ha', if_pos (hac.symm.trans ha')] at hne
    exact hne rfl
  · exact hba (hb'.trans ha'.symm)

/-! ## The pages -/

/-- What a page asks for, where one page of the query is accepted. -/
theorem check_page {k : ℕ} {q : QuerySpec.Checked} (h : (spec.page size 0).check = .ok q) :
    (spec.page size k).check =
      .ok { offset := k * size, limit := min size maxQueryLimit, descending := q.descending
            criteria := q.criteria } := by
  obtain ⟨-, -, hdescending, hcriteria⟩ := QuerySpec.check_eq_ok.mp h
  rw [QuerySpec.check_eq_ok]
  refine ⟨?_, ?_, hdescending, hcriteria⟩
  · have hpos : (0 : ℤ) ≤ ((k * size : ℕ) : ℤ) := Int.natCast_nonneg _
    simp only [QuerySpec.checkedOffset, QuerySpec.page, if_pos hpos, Int.toNat_natCast]
  · have hpos : (0 : ℤ) ≤ (size : ℤ) := Int.natCast_nonneg _
    simp only [QuerySpec.checkedLimit, QuerySpec.page, if_pos hpos, Int.toNat_natCast]

theorem descending_eq_ok {d : Bool} (h : spec.descending = .ok d) :
    d = true ↔ spec.IsDescending := by
  unfold QuerySpec.descending at h
  unfold QuerySpec.IsDescending
  cases horder : spec.sortOrder.map Text.asciiUpper with
  | none =>
      rw [horder] at h
      cases h
      simp
  | some o =>
      simp only [horder] at h
      split at h
      · next hasc =>
          cases h
          simp [hasc]
      · split at h
        · next hdesc =>
            cases h
            simp [hdesc]
        · cases h

theorem criteria_eq_ok {criteria : List Criterion} (h : spec.criteria = .ok criteria) :
    criteria = spec.filterExpression.getD [] := by
  unfold QuerySpec.criteria at h
  dsimp only at h
  split at h
  · cases h
  · split at h
    · cases h
    · cases h
      rfl

variable (numberText) in
/-- The listing the pages are cut from. -/
theorem arranged_lists {q : QuerySpec.Checked} (hcheck : (spec.page size 0).check = .ok q)
    (hkind : ∀ field, spec.sortField = some field → OneKind field items) :
    ∃ all, arranged spec.sortField q.descending (matched numberText q.criteria items) = some all ∧
      spec.Lists numberText items all := by
  obtain ⟨-, -, hdescending, hcriteria⟩ := QuerySpec.check_eq_ok.mp hcheck
  have hdesc : q.descending = true ↔ spec.IsDescending := descending_eq_ok hdescending
  have hmatched : matched numberText q.criteria items =
      items.filter (spec.Matches numberText) := by
    rw [criteria_eq_ok hcriteria]
    rfl
  rw [hmatched]
  cases hfield : spec.sortField with
  | none =>
      refine ⟨_, rfl, ?_, ?_, ?_, ?_, ?_, ?_⟩
      · split
        · exact List.reverse_perm _
        · exact .refl _
      · intro _ field h
        cases hfield.symm.trans h
      · intro _ field h
        cases hfield.symm.trans h
      · intro field h
        cases hfield.symm.trans h
      · intro hasc _
        exact if_neg (fun h => hasc (hdesc.mp h))
      · intro h _
        exact if_pos (hdesc.mpr h)
  | some field =>
      have hone := hkind field hfield
      have htotal : TotalOn (compareItems field q.descending)
          (items.filter (spec.Matches numberText)) :=
        (totalOn_compareItems_iff.mpr (not_bridged_of_oneKind hone)).mono
          (List.filter_subset_self _)
      have hmem : ∀ {a}, a ∈ (items.filter (spec.Matches numberText)).mergeSort
          (fun a b => (compareItems field q.descending a b).isLE) → a ∈ items := by
        intro a ha
        exact List.mem_of_mem_filter (List.mem_mergeSort.mp ha)
      refine ⟨_, Listing.sortBy_eq_some.mpr ⟨htotal, rfl⟩, ?_, ?_, ?_, ?_, ?_, ?_⟩
      · exact List.mergeSort_perm _ _
      · intro hasc field' h
        cases hfield.symm.trans h
        have hd : q.descending = false := by simpa using fun h => hasc (hdesc.mp h)
        refine htotal.sorted.imp_of_mem (fun ha hb hle => ?_)
        rw [hd] at hle
        exact (isLE_compareValues_iff hone (hmem ha) (hmem hb)).mp hle
      · intro h' field' h
        cases hfield.symm.trans h
        refine htotal.sorted.imp_of_mem (fun {a b} ha hb hle => ?_)
        rw [hdesc.mpr h', show compareItems field true a b =
          (compareValues (a.get field) (b.get field)).swap from rfl, ← compareValues_swap] at hle
        exact (isLE_compareValues_iff hone (hmem hb) (hmem ha)).mp hle
      · intro field' h p hp
        cases hfield.symm.trans h
        refine htotal.stable (fun a ha b hb hpa hpb => ?_)
        have ha' := List.mem_of_mem_filter ha
        have hb' := List.mem_of_mem_filter hb
        unfold compareItems
        split
        · rw [← compareValues_swap]
          exact (isLE_compareValues_iff hone hb' ha').mpr (hp b hb' a ha' hpb hpa)
        · exact (isLE_compareValues_iff hone ha' hb').mpr (hp a ha' b hb' hpa hpb)
      · intro _ h
        cases hfield.symm.trans h
      · intro _ h
        cases hfield.symm.trans h

/-- **Paging loses and repeats nothing.** -/
theorem pages_list (hmax : size ≤ maxQueryLimit)
    (haccepted : ∀ message, (spec.page size 0).apply numberText items ≠ some (.error message))
    (hkind : ∀ field, spec.sortField = some field → OneKind field items) :
    ∃ pages : ℕ → List Value,
      (∀ k, (spec.page size k).apply numberText items = some (.ok (pages k))) ∧
        ∀ count, (items.filter (spec.Matches numberText)).length ≤ count * size →
          spec.Lists numberText items ((List.range count).flatMap pages) := by
  obtain ⟨q, hcheck⟩ : ∃ q, (spec.page size 0).check = .ok q := by
    cases hcheck : (spec.page size 0).check with
    | error message =>
        refine absurd ?_ (haccepted message)
        rw [QuerySpec.apply, hcheck]
    | ok q => exact ⟨q, rfl⟩
  obtain ⟨all, harranged, hlists⟩ := arranged_lists numberText hcheck hkind
  refine ⟨fun k => (all.drop (k * size)).take size, fun k => ?_, fun count hcount => ?_⟩
  · rw [QuerySpec.apply_of_check numberText (check_page hcheck)]
    dsimp only
    rw [show (spec.page size k).sortField = spec.sortField from rfl, harranged, Option.map_some,
      min_eq_left hmax]
  · rw [Listing.flatMap_pages, List.take_of_length_le]
    · exact hlists
    · rw [hlists.once.length_eq]
      exact hcount

/-! ### Three holders, two at a time -/

def listedHolders : List Value :=
  [.object [("name", .string "n2"), ("id", .number (.posInt 0))],
   .object [("name", .string "n1"), ("id", .number (.posInt 1))],
   .object [("id", .number (.posInt 2))]]

def descendingByName : QuerySpec where
  offset := none
  limit := none
  filterExpression := none
  sortField := some "name"
  sortOrder := some "desc"

theorem descendingByName_lists :
    ∃ pages : ℕ → List Value,
      (∀ k, (descendingByName.page 2 k).apply (fun _ => "") listedHolders = some (.ok (pages k))) ∧
        ∀ count, (listedHolders.filter (descendingByName.Matches (fun _ => ""))).length ≤
          count * 2 → descendingByName.Lists (fun _ => "") listedHolders
            ((List.range count).flatMap pages) := by
  have hcheck : (descendingByName.page 2 0).check =
      .ok { offset := 0, limit := 2, descending := true, criteria := [] } := rfl
  refine pages_list (by decide) (fun message h => ?_) (fun field hfield => ?_)
  · rw [QuerySpec.apply_of_check _ hcheck] at h
    obtain ⟨sorted, -, hpage⟩ := Option.map_eq_some_iff.mp h
    cases hpage
  · cases hfield
    refine Or.inl (fun item hitem => ?_)
    simp only [listedHolders, List.mem_cons, List.not_mem_nil, or_false] at hitem
    rcases hitem with rfl | rfl | rfl
    · exact Or.inr ⟨_, rfl⟩
    · exact Or.inr ⟨_, rfl⟩
    · exact Or.inl rfl

end IdentityHub
