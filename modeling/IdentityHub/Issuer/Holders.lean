import IdentityHub.Issuer.Catalog
import IdentityHub.Issuer.HolderKey
import IdentityHub.Lib.KeyedTable

/-!
# The holder registry

Holder records keyed by id, an index from `holderKey` of the DID to the id, and
the insertion order. A record is a governance decision, so nothing is ever
removed: a full registry refuses.
-/

namespace IdentityHub

inductive HolderStatus where
  | pending
  | approved
  | rejected
deriving DecidableEq

structure Holder where
  holderId : String
  did : String
  name : Option String
  properties : List (String × Json.Value)
  status : HolderStatus
  createdAt : ℕ
deriving DecidableEq

/-- Body of a registration by the operator. -/
structure HolderRegistration where
  holderId : Option String
  did : String
  name : Option String
  properties : Option (List (String × Json.Value))

/-- Body of an update: only the name and the properties can change. -/
structure HolderUpdate where
  holderId : String
  name : Option String
  properties : Option (List (String × Json.Value))

/-- Capacity of the registry. -/
def maxHolders : ℕ := 4096

structure HolderRegistry where
  holders : KeyedTable String Holder
  didIndex : KeyedTable String String
  order : List String

namespace HolderRegistry

def empty : HolderRegistry where
  holders := ∅
  didIndex := ∅
  order := []

def get (registry : HolderRegistry) (holderId : String) : Option Holder :=
  registry.holders.lookup holderId

/-- The holder whose DID is `did` in any spelling `holderKey` folds. -/
def byDid (registry : HolderRegistry) (did : String) : Option Holder :=
  (registry.didIndex.lookup (holderKey did)).bind registry.holders.lookup

/-- Insert a new holder: a conflict on a duplicate id or DID, a refusal when
the registry is full. -/
def insert (registry : HolderRegistry) (holder : Holder) :
    Except IssuerError (Holder × HolderRegistry) :=
  if holder.holderId ∈ registry.holders then
    .error (.conflict ("holder '" ++ holder.holderId ++ "' already exists"))
  else
    match registry.byDid holder.did with
    | some existing =>
        .error (.conflict ("a holder with did '" ++ existing.did ++ "' already exists"))
    | none =>
      if maxHolders ≤ KeyedTable.size registry.holders then
        .error (.full "holder registry is full (4096)")
      else .ok (holder,
        { holders := registry.holders.insert holder.holderId holder
          didIndex := registry.didIndex.insert (holderKey holder.did) holder.holderId
          order := registry.order ++ [holder.holderId] })

/-- What `get_mut` is used for: change one record in place. -/
def modify (registry : HolderRegistry) (holderId : String) (f : Holder → Holder) :
    HolderRegistry :=
  { registry with holders := KeyedTable.modify holderId f registry.holders }

/-! ## What each operation does to a lookup -/

variable {registry : HolderRegistry}

@[simp] theorem get_empty (holderId : String) : empty.get holderId = none :=
  AList.lookup_empty ..

/-- A successful insertion stores exactly the new record, under a new id. -/
theorem insert_eq_ok {holder : Holder} {r : Holder × HolderRegistry}
    (h : registry.insert holder = .ok r) :
    r.1 = holder ∧ registry.get holder.holderId = none ∧
      registry.byDid holder.did = none ∧
      KeyedTable.size registry.holders < maxHolders ∧
      r.2 = { holders := registry.holders.insert holder.holderId holder
              didIndex := registry.didIndex.insert (holderKey holder.did) holder.holderId
              order := registry.order ++ [holder.holderId] } := by
  unfold insert at h
  split at h
  · cases h
  · rename_i hid
    split at h
    · cases h
    · rename_i hdid
      split at h
      · cases h
      · rename_i hfull
        cases h
        exact ⟨rfl, AList.lookup_eq_none.mpr hid, hdid, not_le.mp hfull, rfl⟩

theorem get_insert {holder : Holder} {r : Holder × HolderRegistry}
    (h : registry.insert holder = .ok r) (holderId : String) :
    r.2.get holderId =
      if holderId = holder.holderId then some holder else registry.get holderId := by
  obtain ⟨-, -, -, -, hr⟩ := insert_eq_ok h
  rw [hr]
  exact KeyedTable.lookup_insert ..

theorem get_modify (holderId k : String) (f : Holder → Holder) :
    (registry.modify holderId f).get k =
      if k = holderId then (registry.get k).map f else registry.get k :=
  KeyedTable.lookup_modify ..

theorem get_of_byDid {did : String} {holder : Holder} (h : registry.byDid did = some holder) :
    ∃ holderId, registry.didIndex.lookup (holderKey did) = some holderId ∧
      registry.get holderId = some holder :=
  Option.bind_eq_some_iff.mp h

/-- A lookup by DID does not distinguish two spellings of one key. -/
theorem byDid_congr {a b : String} (h : holderKey a = holderKey b) :
    registry.byDid a = registry.byDid b := by
  unfold byDid
  rw [h]

end HolderRegistry

end IdentityHub
