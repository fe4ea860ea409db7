import Mathlib.Algebra.GroupWithZero.Nat
import Mathlib.Data.List.Basic
import Mathlib.Data.Rat.Defs

/-!
# JSON values

Values as a JSON library holds them after parsing: a number keeps whether it
was read as an unsigned integer, a negative integer or a floating-point number,
because the accessor `asU64` answers only for the first. A finite floating-point
number is the rational it denotes.

Accessors are partial and never fail in any other way than by answering `none`:
`get` on anything but an object, `asStr` on anything but a string, and so on.
-/

namespace Json

inductive Number where
  | posInt (n : UInt64)
  | negInt (n : ℤ)
  | float (q : ℚ)
deriving DecidableEq

/-- The number that is meant. -/
def Number.toRat : Number → ℚ
  | .posInt n => n.toNat
  | .negInt n => n
  | .float q => q

inductive Value where
  | null
  | bool (b : Bool)
  | number (n : Number)
  | string (s : String)
  | array (items : List Value)
  | object (fields : List (String × Value))

/-! ## Equality is decidable -/

mutual

def Value.beq : Value → Value → Bool
  | .null, .null => true
  | .bool a, .bool b => a == b
  | .number a, .number b => decide (a = b)
  | .string a, .string b => a == b
  | .array as, .array bs => beqItems as bs
  | .object as, .object bs => beqFields as bs
  | _, _ => false

def beqItems : List Value → List Value → Bool
  | [], [] => true
  | a :: as, b :: bs => a.beq b && beqItems as bs
  | _, _ => false

def beqFields : List (String × Value) → List (String × Value) → Bool
  | [], [] => true
  | (k, a) :: as, (l, b) :: bs => k == l && a.beq b && beqFields as bs
  | _, _ => false

end

mutual

theorem Value.beq_iff : ∀ a b : Value, a.beq b = true ↔ a = b
  | .null, b => by cases b <;> simp [Value.beq]
  | .bool _, b => by cases b <;> simp [Value.beq]
  | .number _, b => by cases b <;> simp [Value.beq]
  | .string _, b => by cases b <;> simp [Value.beq]
  | .array as, b => by
      cases b with
      | array bs => simp [Value.beq, beqItems_iff as bs]
      | _ => simp [Value.beq]
  | .object as, b => by
      cases b with
      | object bs => simp [Value.beq, beqFields_iff as bs]
      | _ => simp [Value.beq]

theorem beqItems_iff : ∀ as bs : List Value, beqItems as bs = true ↔ as = bs
  | [], bs => by cases bs <;> simp [beqItems]
  | a :: as, bs => by
      cases bs with
      | nil => simp [beqItems]
      | cons b bs => simp [beqItems, Value.beq_iff a b, beqItems_iff as bs]

theorem beqFields_iff : ∀ as bs : List (String × Value), beqFields as bs = true ↔ as = bs
  | [], bs => by cases bs <;> simp [beqFields]
  | (k, a) :: as, bs => by
      cases bs with
      | nil => simp [beqFields]
      | cons b bs =>
          obtain ⟨l, b⟩ := b
          simp [beqFields, Value.beq_iff a b, beqFields_iff as bs, and_assoc]

end

instance : DecidableEq Value := fun a b => decidable_of_iff _ (Value.beq_iff a b)

/-! ## Accessors -/

namespace Value

def asStr : Value → Option String
  | .string s => some s
  | _ => none

/-- The value of a number read as an unsigned 64-bit integer. A negative or
floating-point number, and anything that is not a number, has none. -/
def asU64 : Value → Option ℕ
  | .number (.posInt n) => some n.toNat
  | _ => none

/-- The number a value is, in whatever form it was written. -/
def asNumber : Value → Option ℚ
  | .number n => some n.toRat
  | _ => none

def asArray : Value → Option (List Value)
  | .array items => some items
  | _ => none

/-- The member `key` of an object. -/
def get (v : Value) (key : String) : Option Value :=
  match v with
  | .object fields => fields.lookup key
  | _ => none

/-- Follow a path of member names (a JSON pointer none of whose tokens is an
array index). -/
def pointer (v : Value) : List String → Option Value
  | [] => some v
  | key :: path => (v.get key).bind (fun w => w.pointer path)

/-- Set the member `key` of an object, replacing an existing one. -/
def set (v : Value) (key : String) (w : Value) : Value :=
  match v with
  | .object fields => .object ((key, w) :: fields.filter (fun f => f.1 ≠ key))
  | v => v

/-- A natural number as the JSON integer it serialises to (below `2 ^ 64`). -/
def ofNat (n : ℕ) : Value := .number (.posInt (UInt64.ofNat n))

/-- The string member `key`, if there is one. -/
def getStr (v : Value) (key : String) : Option String := (v.get key).bind asStr

/-- The unsigned integer member `key`, if there is one. -/
def getU64 (v : Value) (key : String) : Option ℕ := (v.get key).bind asU64

@[simp] theorem asStr_string (s : String) : (Value.string s).asStr = some s := rfl

theorem asStr_eq_some {v : Value} {s : String} : v.asStr = some s ↔ v = .string s := by
  cases v <;> simp [asStr]

/-- What reads as an unsigned integer is that number. -/
theorem asNumber_of_asU64 {v : Value} {n : ℕ} (h : v.asU64 = some n) : v.asNumber = some (n : ℚ) := by
  unfold asU64 at h
  split at h
  · cases h
    rfl
  · cases h

theorem asU64_ofNat {n : ℕ} (h : n < 2 ^ 64) : (ofNat n).asU64 = some n := by
  show some (UInt64.ofNat n).toNat = some n
  rw [UInt64.toNat_ofNat_of_lt' h]

@[simp] theorem pointer_nil (v : Value) : v.pointer [] = some v := rfl

theorem pointer_cons (v : Value) (key : String) (path : List String) :
    v.pointer (key :: path) = (v.get key).bind (fun w => w.pointer path) := rfl

theorem get_object (fields : List (String × Value)) (key : String) :
    (Value.object fields).get key = fields.lookup key := rfl

@[simp] theorem get_object_cons (k : String) (v : Value) (fields : List (String × Value))
    (key : String) : (Value.object ((k, v) :: fields)).get key =
      if key = k then some v else (Value.object fields).get key := by
  rw [get_object, List.lookup_cons, get_object]
  by_cases h : key = k
  · simp [h]
  · rw [if_neg h, beq_false_of_ne h]

end Value

end Json
