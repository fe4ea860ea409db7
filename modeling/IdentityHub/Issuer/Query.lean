import IdentityHub.Lib.Json
import IdentityHub.Lib.Listing
import IdentityHub.Lib.Text
import Mathlib.Algebra.Order.Ring.Unbundled.Rat
import Mathlib.Data.String.Basic

/-!
# Queries of the administration API

A listing is filtered by `=` on fields of the listed objects, sorted by one field and
cut into pages. The fields are what JSON the administrator has stored.
-/

namespace IdentityHub

open Json (Value Number)

/-! ## Numbers as a query compares them -/

/-- A natural number as the nearest 64-bit floating-point number, ties to even. -/
def f64OfNat (n : ℕ) : ℕ :=
  if n < 2 ^ 53 then n
  else
    let unit := 2 ^ (n.log2 - 52)
    let rest := n % unit
    if 2 * rest < unit ∨ 2 * rest = unit ∧ n / unit % 2 = 0 then n - rest
    else n - rest + unit

def f64OfInt : ℤ → ℤ
  | .ofNat n => f64OfNat n
  | .negSucc n => -f64OfNat (n + 1)

/-- `Number::as_f64`. -/
def asF64 : Number → ℚ
  | .posInt n => f64OfNat n.toNat
  | .negInt n => f64OfInt n
  | .float q => q

/-- `compare_values`. -/
def compareValues : Option Value → Option Value → Ordering
  | some (.number x), some (.number y) => compare (asF64 x) (asF64 y)
  | some (.string x), some (.string y) => compare x y
  | some (.bool x), some (.bool y) => compare x y
  | none, none => .eq
  | none, some .null => .eq
  | some .null, none => .eq
  | some .null, some .null => .eq
  | none, _ => .lt
  | some .null, _ => .lt
  | _, none => .gt
  | _, some .null => .gt
  | _, _ => .eq

/-! ## The query -/

structure Criterion where
  operandLeft : String
  operator : String
  operandRight : Value

/-- `offset` and `limit` are `i64`. -/
structure QuerySpec where
  offset : Option ℤ
  limit : Option ℤ
  filterExpression : Option (List Criterion)
  sortField : Option String
  sortOrder : Option String

def maxQueryLimit : ℕ := 500

def defaultQueryLimit : ℕ := 50

def maxFilterCriteria : ℕ := 16

-- how serde_json prints a number
variable (numberText : Number → String)

/-- `operand_matches`. -/
def operandMatches (field : Option Value) (operand : Value) : Bool :=
  let field := field.getD .null
  if field = operand then true
  else
    match field, operand with
    | .number n, .string s => numberText n = s
    | .bool b, .string s => (if b then "true" else "false") = s
    | _, _ => false

namespace QuerySpec

/-- What a query asks for, once it has been checked. -/
structure Checked where
  offset : ℕ
  limit : ℕ
  descending : Bool
  criteria : List Criterion

variable (spec : QuerySpec)

def checkedOffset : Except String ℕ :=
  match spec.offset with
  | none => .ok 0
  | some o => if 0 ≤ o then .ok o.toNat else .error "offset must be >= 0"

def checkedLimit : Except String ℕ :=
  match spec.limit with
  | none => .ok defaultQueryLimit
  | some l => if 0 ≤ l then .ok (min l.toNat maxQueryLimit) else .error "limit must be >= 0"

def descending : Except String Bool :=
  match spec.sortOrder.map Text.asciiUpper with
  | none => .ok false
  | some o =>
      if o = "ASC" then .ok false
      else if o = "DESC" then .ok true
      else .error ("sortOrder must be ASC or DESC, not '" ++ o ++ "'")

def criteria : Except String (List Criterion) :=
  let criteria := spec.filterExpression.getD []
  if maxFilterCriteria < criteria.length then .error "at most 16 filterExpression criteria"
  else
    match criteria.find? (fun c => c.operator ≠ "=") with
    | some c => .error ("operator '" ++ c.operator ++ "' is not supported; only '='")
    | none => .ok criteria

def check : Except String Checked := do
  let offset ← spec.checkedOffset
  let limit ← spec.checkedLimit
  let descending ← spec.descending
  let criteria ← spec.criteria
  return { offset := offset, limit := limit, descending := descending, criteria := criteria }

end QuerySpec

/-- The items all criteria match. -/
def matched (criteria : List Criterion) (items : List Value) : List Value :=
  items.filter (fun item =>
    criteria.all (fun c => operandMatches numberText (item.get c.operandLeft) c.operandRight))

/-- The comparison of two items by a field. -/
def compareItems (field : String) (descending : Bool) (a b : Value) : Ordering :=
  if descending then (compareValues (a.get field) (b.get field)).swap
  else compareValues (a.get field) (b.get field)

/-- The order of the listing. -/
def arranged (sortField : Option String) (descending : Bool) (items : List Value) :
    Option (List Value) :=
  match sortField with
  | some field => Listing.sortBy (compareItems field descending) items
  | none => some (if descending then items.reverse else items)

/-- `QuerySpec::apply`. It is none where the sort is given a comparison that is not a
total order of the items: what the sort does then is not specified, and it may panic. -/
def QuerySpec.apply (spec : QuerySpec) (items : List Value) :
    Option (Except String (List Value)) :=
  match spec.check with
  | .error message => some (.error message)
  | .ok q =>
      (arranged spec.sortField q.descending (matched numberText q.criteria items)).map
        (fun sorted => .ok ((sorted.drop q.offset).take q.limit))

/-! ## What has been checked -/

theorem QuerySpec.check_eq_ok {spec : QuerySpec} {q : QuerySpec.Checked} :
    spec.check = .ok q ↔
      spec.checkedOffset = .ok q.offset ∧ spec.checkedLimit = .ok q.limit ∧
        spec.descending = .ok q.descending ∧ spec.criteria = .ok q.criteria := by
  unfold QuerySpec.check
  cases spec.checkedOffset with
  | error e => simp [bind, Except.bind]
  | ok offset =>
      cases spec.checkedLimit with
      | error e => simp [bind, Except.bind]
      | ok limit =>
          cases spec.descending with
          | error e => simp [bind, Except.bind]
          | ok descending =>
              cases spec.criteria with
              | error e => simp [bind, Except.bind]
              | ok criteria =>
                  obtain ⟨offset', limit', descending', criteria'⟩ := q
                  simp [bind, Except.bind, pure, Except.pure]

theorem QuerySpec.apply_of_check {spec : QuerySpec} {q : QuerySpec.Checked}
    {items : List Value} (h : spec.check = .ok q) :
    spec.apply numberText items =
      (arranged spec.sortField q.descending (matched numberText q.criteria items)).map
        (fun sorted => .ok ((sorted.drop q.offset).take q.limit)) := by
  rw [QuerySpec.apply, h]

end IdentityHub
