import IdentityHub.Issuer.Query

/-!
# The order of a query

A listing is sorted by what the items store in one field, and a sort relies on its
comparison being a total order. Within numbers, within strings and within booleans
`compareValues` is one, and a missing value or a null comes before every other. Any two
values of different kinds compare equal, and so do any two arrays or objects: such a
value bridges two others that do not compare equal to each other.
-/

namespace IdentityHub

open Json (Value Number)
open Listing (TotalOn)

variable {a b c : Option Value}

/-- The kinds `compareValues` tells apart. -/
inductive FieldKind where
  | missing
  | number
  | string
  | bool
  | nested
deriving DecidableEq

def fieldKind : Option Value → FieldKind
  | none => .missing
  | some .null => .missing
  | some (.number _) => .number
  | some (.string _) => .string
  | some (.bool _) => .bool
  | some (.array _) => .nested
  | some (.object _) => .nested

/-- Transitive at three values, `≤` and equivalence alike. -/
def TransitiveAt (a b c : Option Value) : Prop :=
  ((compareValues a b).isLE = true → (compareValues b c).isLE = true →
      (compareValues a c).isLE = true) ∧
    (compareValues a b = .eq → compareValues b c = .eq → compareValues a c = .eq)

/-- `b` is of another kind than `a` and `c`, which do not compare equal. -/
def Bridges (b a c : Option Value) : Prop :=
  fieldKind b ≠ .missing ∧ fieldKind a = fieldKind c ∧ fieldKind b ≠ fieldKind a ∧
    compareValues a c ≠ .eq

/-! ## The comparison, kind by kind -/

/-- **The comparison is antisymmetric.** -/
theorem compareValues_swap (a b : Option Value) :
    compareValues b a = (compareValues a b).swap := by
  have hnumber : ∀ x y : ℚ, compare y x = (compare x y).swap := fun x y =>
    Std.OrientedCmp.eq_swap
  have hstring : ∀ x y : String, compare y x = (compare x y).swap := fun x y =>
    Std.OrientedCmp.eq_swap
  have hbool : ∀ x y : Bool, compare y x = (compare x y).swap := fun x y =>
    Std.OrientedCmp.eq_swap
  rcases a with _ | ⟨_ | _ | _ | _ | _ | _⟩ <;> rcases b with _ | ⟨_ | _ | _ | _ | _ | _⟩ <;>
    first
      | rfl
      | exact hnumber _ _
      | exact hstring _ _
      | exact hbool _ _

theorem compareValues_missing (ha : fieldKind a = .missing) :
    compareValues a b = if fieldKind b = .missing then .eq else .lt := by
  rcases a with _ | ⟨_ | _ | _ | _ | _ | _⟩ <;> rcases b with _ | ⟨_ | _ | _ | _ | _ | _⟩ <;>
    first
      | rfl
      | cases ha

theorem compareValues_other_kind (ha : fieldKind a ≠ .missing) (hb : fieldKind b ≠ .missing)
    (hab : fieldKind a ≠ fieldKind b) : compareValues a b = .eq := by
  rcases a with _ | ⟨_ | _ | _ | _ | _ | _⟩ <;> rcases b with _ | ⟨_ | _ | _ | _ | _ | _⟩ <;>
    first
      | rfl
      | exact absurd rfl ha
      | exact absurd rfl hb
      | exact absurd rfl hab

theorem compareValues_eq_iff :
    compareValues a b = .eq ↔
      (compareValues a b).isLE = true ∧ (compareValues b a).isLE = true := by
  rw [compareValues_swap a b]
  cases compareValues a b <;> decide

/-- Among values of one kind the comparison is transitive. -/
theorem compareValues_trans (hab : fieldKind a = fieldKind b) (hbc : fieldKind b = fieldKind c) :
    (compareValues a b).isLE = true → (compareValues b c).isLE = true →
      (compareValues a c).isLE = true := by
  have hnumber : ∀ x y z : ℚ, (compare x y).isLE = true → (compare y z).isLE = true →
      (compare x z).isLE = true := fun _ _ _ => Std.TransCmp.isLE_trans
  have hstring : ∀ x y z : String, (compare x y).isLE = true → (compare y z).isLE = true →
      (compare x z).isLE = true := fun _ _ _ => Std.TransCmp.isLE_trans
  have hbool : ∀ x y z : Bool, (compare x y).isLE = true → (compare y z).isLE = true →
      (compare x z).isLE = true := fun _ _ _ => Std.TransCmp.isLE_trans
  rcases a with _ | ⟨_ | _ | _ | _ | _ | _⟩ <;> rcases b with _ | ⟨_ | _ | _ | _ | _ | _⟩ <;>
    first
      | (cases hab; done)
      | (rcases c with _ | ⟨_ | _ | _ | _ | _ | _⟩ <;>
          first
            | (cases hbc; done)
            | exact fun _ _ => rfl
            | exact hnumber _ _ _
            | exact hstring _ _ _
            | exact hbool _ _ _)

theorem Bridges.symm (h : Bridges b a c) : Bridges b c a := by
  obtain ⟨hb, hac, hba, hne⟩ := h
  refine ⟨hb, hac.symm, hac ▸ hba, fun heq => hne ?_⟩
  rw [compareValues_swap c a, heq]
  rfl

/-- Across kinds the comparison is transitive unless the value in the middle bridges. -/
theorem compareValues_trans_of_not_bridges (hnot : ¬ Bridges b a c)
    (hab : (compareValues a b).isLE = true) (hbc : (compareValues b c).isLE = true) :
    (compareValues a c).isLE = true := by
  by_cases ha : fieldKind a = .missing
  · rw [compareValues_missing ha]
    split <;> rfl
  · have hb : fieldKind b ≠ .missing := by
      intro hb
      rw [compareValues_swap b a, compareValues_missing hb, if_neg ha] at hab
      cases hab
    have hc : fieldKind c ≠ .missing := by
      intro hc
      rw [compareValues_swap c b, compareValues_missing hc, if_neg hb] at hbc
      cases hbc
    by_cases hac : fieldKind a = fieldKind c
    · by_cases hba : fieldKind b = fieldKind a
      · exact compareValues_trans hba.symm (hba.trans hac) hab hbc
      · have heq : compareValues a c = .eq := by
          by_contra hne
          exact hnot ⟨hb, hac, hba, hne⟩
        rw [heq]
        rfl
    · rw [compareValues_other_kind ha hc hac]
      rfl

/-- **Where the comparison is transitive.** -/
theorem transitiveAt_iff : TransitiveAt a b c ↔ ¬ Bridges b a c := by
  constructor
  · rintro ⟨-, hequiv⟩ ⟨hb, hac, hba, hne⟩
    have ha : fieldKind a ≠ .missing := by
      intro ha
      rw [compareValues_missing ha, if_pos (hac.symm.trans ha)] at hne
      exact hne rfl
    refine hne (hequiv ?_ ?_)
    · exact compareValues_other_kind ha hb hba.symm
    · exact compareValues_other_kind hb (hac ▸ ha) (hac ▸ hba)
  · intro hnot
    refine ⟨compareValues_trans_of_not_bridges hnot, fun hab hbc => ?_⟩
    rw [compareValues_eq_iff] at hab hbc ⊢
    exact ⟨compareValues_trans_of_not_bridges hnot hab.1 hbc.1,
      compareValues_trans_of_not_bridges (fun h => hnot h.symm) hbc.2 hab.2⟩

/-! ## What the sort is given -/

variable {numberText : Number → String} {spec : QuerySpec} {field : String} {items : List Value}
  {descending : Bool}

/-- Three of the items of which one bridges the other two. -/
def Bridged (field : String) (items : List Value) : Prop :=
  ∃ a ∈ items, ∃ b ∈ items, ∃ c ∈ items, Bridges (b.get field) (a.get field) (c.get field)

theorem totalOn_ascending_iff :
    TotalOn (compareItems field false) items ↔ ¬ Bridged field items := by
  constructor
  · rintro htotal ⟨a, ha, b, hb, c, hc, hbridges⟩
    have htrans := htotal.trans
    refine transitiveAt_iff.mp ⟨htrans a ha b hb c hc, fun hab hbc => ?_⟩ hbridges
    rw [compareValues_eq_iff] at hab hbc ⊢
    exact ⟨htrans a ha b hb c hc hab.1 hbc.1, htrans c hc b hb a ha hbc.2 hab.2⟩
  · intro hnot
    refine ⟨fun a _ b _ => compareValues_swap _ _, fun a ha b hb c hc hab hbc => ?_⟩
    refine compareValues_trans_of_not_bridges (fun hbridges => hnot ?_) hab hbc
    exact ⟨a, ha, b, hb, c, hc, hbridges⟩

/-- **What a sort asks is met where nothing bridges**, in both directions. -/
theorem totalOn_compareItems_iff :
    TotalOn (compareItems field descending) items ↔ ¬ Bridged field items := by
  rw [← totalOn_ascending_iff]
  cases descending with
  | false => rfl
  | true =>
      have hswap : ∀ a b, compareItems field true a b = (compareItems field false a b).swap :=
        fun _ _ => rfl
      constructor
      · intro h
        have hback := h.reverse
        simpa only [hswap, Ordering.swap_swap] using hback
      · intro h
        exact h.reverse

/-! ## The page -/

/-- The query is answered, and a page sorted by the field it names. -/
def SortsPage (numberText : Number → String) (spec : QuerySpec) (items : List Value) : Prop :=
  ∃ outcome, spec.apply numberText items = some outcome ∧
    ∀ page field q, outcome = .ok page → spec.sortField = some field → spec.check = .ok q →
      page.Pairwise (fun a b => (compareItems field q.descending a b).isLE = true)

/-- A sort that the query asks for, and three values of its field of which one bridges
the other two. -/
def BridgesQuery (numberText : Number → String) (spec : QuerySpec) (items : List Value) :
    Prop :=
  ∃ field q, spec.sortField = some field ∧ spec.check = .ok q ∧
    Bridged field (matched numberText q.criteria items)

theorem sortsPage_iff :
    SortsPage numberText spec items ↔ ¬ BridgesQuery numberText spec items := by
  constructor
  · rintro ⟨outcome, happly, -⟩ ⟨field, q, hfield, hcheck, hbridged⟩
    rw [QuerySpec.apply_of_check numberText hcheck, hfield] at happly
    obtain ⟨sorted, hsorted, -⟩ := Option.map_eq_some_iff.mp happly
    exact totalOn_compareItems_iff.mp (Listing.sortBy_eq_some.mp hsorted).1 hbridged
  · intro hnot
    cases hcheck : spec.check with
    | error message =>
        refine ⟨.error message, ?_, by simp⟩
        rw [QuerySpec.apply, hcheck]
    | ok q =>
        unfold SortsPage
        rw [QuerySpec.apply_of_check numberText hcheck]
        cases hfield : spec.sortField with
        | none => exact ⟨_, rfl, by simp⟩
        | some field =>
            have htotal : TotalOn (compareItems field q.descending)
                (matched numberText q.criteria items) :=
              totalOn_compareItems_iff.mpr (fun h => hnot ⟨field, q, hfield, hcheck, h⟩)
            have hsort := Listing.sortBy_eq_some.mpr ⟨htotal, rfl⟩
            rw [show arranged (some field) q.descending _ = _ from hsort]
            refine ⟨_, rfl, fun page field' q' hpage hfield' hq => ?_⟩
            cases hpage
            cases hfield'
            cases hcheck.symm.trans hq
            exact (htotal.sorted.sublist (List.drop_sublist _ _)).sublist (List.take_sublist _ _)

/-- **When a query sorts by a lawful order.** -/
theorem queryOrder_iff (numberText : Number → String) :
    (∀ a b : Option Value, compareValues b a = (compareValues a b).swap) ∧
      (∀ a b c : Option Value, TransitiveAt a b c ↔ ¬ Bridges b a c) ∧
      ∀ (spec : QuerySpec) (items : List Value),
        SortsPage numberText spec items ↔ ¬ BridgesQuery numberText spec items :=
  ⟨compareValues_swap, fun _ _ _ => transitiveAt_iff, fun _ _ => sortsPage_iff⟩

/-- A number between two strings: none of the three comparisons is wrong by itself. -/
theorem number_bridges_strings :
    ¬ ∀ a b c : Option Value,
      compareValues b a = (compareValues a b).swap ∧ TransitiveAt a b c := by
  intro h
  have hle := (h (some (.string "b")) (some (.number (.posInt 1))) (some (.string "a"))).2.1
  exact absurd (hle rfl rfl) (by decide)

end IdentityHub
