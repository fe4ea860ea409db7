import IdentityHub.External
import IdentityHub.Lib.Base64Url
import IdentityHub.Lib.Bitstring
import IdentityHub.Lib.KeyedTable
import IdentityHub.Lib.SortedSet
import Mathlib.Algebra.Order.Group.Multiset

/-!
# The revocation status list and the issued-credential records

Indexes are handed out sequentially; an index whose credential was never
issued goes back to a free list and is handed out again first, lowest first.
A bit is set by revoking a record, and the signed list is cached until a bit
changes.
-/

namespace IdentityHub

/-- The number of bits of the list. -/
def statusListBits : ℕ := 131072

/-- The bitstring (its length is fixed for good), the allocation state and the
last signed list. -/
structure StatusList where
  bits : List UInt8
  length_bits : bits.length = statusListBits / 8
  nextIndex : ℕ
  free : SortedSet ℕ
  cachedJwt : Option String

namespace StatusList

def empty : StatusList where
  bits := List.replicate (statusListBits / 8) 0
  length_bits := List.length_replicate
  nextIndex := 0
  free := .empty
  cachedJwt := none

/-- The least free index, else the next unused one, else none. -/
def allocate (list : StatusList) : Option (ℕ × StatusList) :=
  match list.free.popFirst with
  | some (index, rest) => some (index, { list with free := rest })
  | none =>
      if list.nextIndex < statusListBits then
        some (list.nextIndex, { list with nextIndex := list.nextIndex + 1 })
      else none

def isSet (list : StatusList) (index : ℕ) : Bool := Bitstring.bit list.bits index

/-- Give back an index whose credential was never issued. -/
def release (list : StatusList) (index : ℕ) : StatusList :=
  if index < list.nextIndex ∧ !list.isSet index then
    { list with free := list.free.insert index }
  else list

/-- Set a bit; only a change drops the signed list. Every index the hub sets
lies inside the list, so the source's indexing does not panic. -/
def set (list : StatusList) (index : ℕ) : StatusList :=
  if list.isSet index then list
  else
    { list with
      bits := Bitstring.setBit list.bits index
      length_bits := (Bitstring.length_setBit ..).trans list.length_bits
      cachedJwt := none }

/-- `encodedList`: GZIP of the bitstring, base64url without padding. -/
def encoded (X : External) (list : StatusList) : String :=
  String.ofList (Base64Url.encode (X.gzip list.bits))

end StatusList

inductive CredentialRecordStatus where
  | active
  | revoked
deriving DecidableEq

/-- One credential the hub signed and delivered. -/
structure IssuedCredential where
  id : String
  credentialType : String
  credentialDefinitionId : String
  holderId : String
  holderDid : String
  issuanceProcessId : String
  format : String
  issuedAt : ℕ
  expiresAt : ℕ
  status : CredentialRecordStatus
  statusListIndex : ℕ
deriving DecidableEq

structure IssuedCredentials where
  records : KeyedTable String IssuedCredential
  order : List String
  statusList : StatusList

namespace IssuedCredentials

def empty : IssuedCredentials where
  records := ∅
  order := []
  statusList := .empty

def insert (issued : IssuedCredentials) (record : IssuedCredential) : IssuedCredentials :=
  { issued with
    records := issued.records.insert record.id record
    order := issued.order ++ [record.id] }

def get (issued : IssuedCredentials) (id : String) : Option IssuedCredential :=
  issued.records.lookup id

def all (issued : IssuedCredentials) : List IssuedCredential :=
  issued.order.filterMap issued.get

/-- Mark a record revoked and set its bit. Idempotent. -/
def revoke (issued : IssuedCredentials) (id : String) :
    Option (IssuedCredential × IssuedCredentials) :=
  (issued.get id).map (fun record =>
    ({ record with status := .revoked },
      { issued with
        records := KeyedTable.modify id (fun r => { r with status := .revoked }) issued.records
        statusList := issued.statusList.set record.statusListIndex }))

/-- The list under its lock: the records stay as they are. -/
def withList (issued : IssuedCredentials) (list : StatusList) : IssuedCredentials :=
  { issued with statusList := list }

end IssuedCredentials

/-! ## What each operation does to the list -/

namespace StatusList

variable {list : StatusList}

@[simp] theorem isSet_empty (i : ℕ) : empty.isSet i = false :=
  Bitstring.bit_replicate_zero ..

/-- **Spec of an allocation**: the head of the free list, or the next unused
index when the free list is empty. -/
theorem allocate_eq_some {index : ℕ} {list' : StatusList}
    (h : list.allocate = some (index, list')) :
    list'.bits = list.bits ∧ list'.cachedJwt = list.cachedJwt ∧
      ((list.free.toList = index :: list'.free.toList ∧ list'.nextIndex = list.nextIndex) ∨
        (list.free.toList = [] ∧ list'.free = list.free ∧ index = list.nextIndex ∧
          list.nextIndex < statusListBits ∧ list'.nextIndex = list.nextIndex + 1)) := by
  unfold allocate at h
  cases hpop : list.free.popFirst with
  | some p =>
      obtain ⟨i, rest⟩ := p
      rw [hpop] at h
      cases h
      exact ⟨rfl, rfl, Or.inl ⟨SortedSet.popFirst_eq_some.mp hpop, rfl⟩⟩
  | none =>
      rw [hpop] at h
      dsimp only at h
      split at h
      · rename_i hlt
        cases h
        exact ⟨rfl, rfl, Or.inr ⟨SortedSet.popFirst_eq_none.mp hpop, rfl, rfl, hlt, rfl⟩⟩
      · cases h

theorem allocate_eq_none :
    list.allocate = none ↔ list.free.toList = [] ∧ statusListBits ≤ list.nextIndex := by
  unfold allocate
  cases hpop : list.free.popFirst with
  | some p =>
      obtain ⟨i, rest⟩ := p
      simp [SortedSet.popFirst_eq_some.mp hpop]
  | none => simp [SortedSet.popFirst_eq_none.mp hpop]

theorem release_of_unset {index : ℕ} (hlt : index < list.nextIndex)
    (hunset : list.isSet index = false) :
    list.release index = { list with free := list.free.insert index } := by
  unfold release
  rw [if_pos ⟨hlt, by rw [hunset]; rfl⟩]

@[simp] theorem bits_release (index : ℕ) : (list.release index).bits = list.bits := by
  unfold release
  split <;> rfl

@[simp] theorem nextIndex_set (index : ℕ) : (list.set index).nextIndex = list.nextIndex := by
  unfold set
  split <;> rfl

@[simp] theorem free_set (index : ℕ) : (list.set index).free = list.free := by
  unfold set
  split <;> rfl

/-- **Setting a bit sets that bit and no other.** -/
theorem isSet_set {index : ℕ} (h : index < statusListBits) (i : ℕ) :
    (list.set index).isSet i = (decide (i = index) || list.isSet i) := by
  by_cases hs : list.isSet index = true
  · rw [set, if_pos hs]
    by_cases hi : i = index
    · rw [hi, hs, Bool.or_true]
    · rw [decide_eq_false hi, Bool.false_or]
  · rw [set, if_neg hs]
    apply Bitstring.bit_setBit
    rw [list.length_bits]
    unfold statusListBits at h ⊢
    omega

/-- The signed list survives a `set` only when no bit changed. -/
theorem cachedJwt_set {index : ℕ} {jwt : String} (h : (list.set index).cachedJwt = some jwt) :
    list.set index = list := by
  unfold set at h ⊢
  split at h
  · rename_i hs
    rw [if_pos hs]
  · cases h

/-- **Giving back several indexes**: with none of them free, set or twice in the
list, exactly they join the free list. -/
theorem foldl_release {indexes : List ℕ} {list : StatusList}
    (h : ∀ i ∈ indexes, i < list.nextIndex ∧ list.isSet i = false ∧ i ∉ list.free)
    (hnodup : indexes.Nodup) :
    ∃ free, indexes.foldl release list = { list with free := free } ∧
      (↑free.toList : Multiset ℕ) = ↑indexes + ↑list.free.toList := by
  induction indexes generalizing list with
  | nil => exact ⟨list.free, rfl, (zero_add _).symm⟩
  | cons i indexes ih =>
      obtain ⟨hi, hnodup⟩ := List.nodup_cons.mp hnodup
      obtain ⟨hlt, hunset, hfree⟩ := h i List.mem_cons_self
      rw [List.foldl_cons, release_of_unset hlt hunset]
      have hrest : ∀ j ∈ indexes, j < list.nextIndex ∧ list.isSet j = false ∧
          j ∉ list.free.insert i := by
        intro j hj
        obtain ⟨hjlt, hjunset, hjfree⟩ := h j (List.mem_cons_of_mem _ hj)
        refine ⟨hjlt, hjunset, fun hmem => ?_⟩
        rcases SortedSet.mem_insert.mp hmem with rfl | hmem
        · exact hi hj
        · exact hjfree hmem
      obtain ⟨free, hfold, hsum⟩ := @ih { list with free := list.free.insert i } hrest hnodup
      refine ⟨free, hfold, ?_⟩
      rw [hsum, Multiset.coe_eq_coe.mpr (SortedSet.perm_insert hfree), ← Multiset.cons_coe,
        ← Multiset.cons_coe, Multiset.cons_add, Multiset.add_cons]

end StatusList

namespace IssuedCredentials

variable {issued : IssuedCredentials}

theorem get_insert (record : IssuedCredential) (k : String) :
    (issued.insert record).get k = if k = record.id then some record else issued.get k :=
  KeyedTable.lookup_insert ..

theorem statusList_foldl_insert {records : List IssuedCredential} :
    (records.foldl insert issued).statusList = issued.statusList := by
  induction records generalizing issued with
  | nil => rfl
  | cons record records ih => exact ih

@[simp] theorem get_withList (list : StatusList) (k : String) :
    (issued.withList list).get k = issued.get k := rfl

/-- The records, in no order anything may rely on. -/
def recordList (issued : IssuedCredentials) : List IssuedCredential :=
  KeyedTable.values issued.records

theorem mem_recordList {record : IssuedCredential} :
    record ∈ issued.recordList ↔ ∃ id, issued.get id = some record :=
  KeyedTable.mem_values

/-- **Recording several credentials** under new ids: exactly they join the
records. -/
theorem foldl_insert : ∀ {records : List IssuedCredential} {issued : IssuedCredentials},
    ((↑(records.map (·.id)) : Multiset String) + ↑issued.records.keys).Nodup →
      (records.foldl insert issued).statusList = issued.statusList ∧
        (↑(records.foldl insert issued).recordList : Multiset IssuedCredential) =
          ↑records + ↑issued.recordList ∧
        (↑(records.foldl insert issued).records.keys : Multiset String) =
          ↑(records.map (·.id)) + ↑issued.records.keys ∧
        ∀ k record, (records.foldl insert issued).get k = some record →
          issued.get k = some record ∨ record.id = k
  | [], _, _ => ⟨rfl, (zero_add _).symm, (zero_add _).symm, fun _ _ h => Or.inl h⟩
  | record :: records, issued, h => by
      have hcons : (↑((record :: records).map (·.id)) : Multiset String) =
          {record.id} + ↑(records.map (·.id)) := rfl
      have hnew : record.id ∉ issued.records := by
        intro hmem
        rw [hcons, add_assoc, Multiset.singleton_add, Multiset.nodup_cons, Multiset.mem_add,
          not_or] at h
        exact h.1.2 (AList.mem_keys.mp hmem)
      have hkeys : (↑(issued.insert record).records.keys : Multiset String) =
          {record.id} + ↑issued.records.keys :=
        congrArg _ (KeyedTable.keys_insert record hnew)
      have hlist : (↑(issued.insert record).recordList : Multiset IssuedCredential) =
          {record} + ↑issued.recordList :=
        congrArg _ (KeyedTable.values_insert record hnew)
      have hnodup : ((↑(records.map (·.id)) : Multiset String) +
          ↑(issued.insert record).records.keys).Nodup := by
        rw [hkeys, add_left_comm, ← add_assoc, ← hcons]
        exact h
      obtain ⟨hstatus, hrec, hks, hget⟩ := foldl_insert hnodup
      rw [List.foldl_cons]
      refine ⟨hstatus, ?_, ?_, fun k r hr => ?_⟩
      · rw [hrec, hlist, ← Multiset.cons_coe, ← Multiset.singleton_add]
        ac_rfl
      · rw [hks, hkeys, hcons]
        ac_rfl
      · rcases hget k r hr with hold | hid
        · rw [get_insert] at hold
          split at hold
          · rename_i hk
            cases hold
            exact Or.inr hk.symm
          · exact Or.inl hold
        · exact Or.inr hid

/-- **Spec of a revocation.** -/
theorem revoke_eq_some {id : String} {record : IssuedCredential} {issued' : IssuedCredentials}
    (h : issued.revoke id = some (record, issued')) :
    ∃ old, issued.get id = some old ∧ record = { old with status := .revoked } ∧
      issued'.order = issued.order ∧
      issued'.statusList = issued.statusList.set old.statusListIndex ∧
      ∀ k, issued'.get k = if k = id then some record else issued.get k := by
  obtain ⟨old, hold, heq⟩ := Option.map_eq_some_iff.mp h
  cases heq
  refine ⟨old, hold, rfl, rfl, rfl, fun k => ?_⟩
  refine (KeyedTable.lookup_modify ..).trans ?_
  by_cases hk : k = id
  · subst hk
    have hold' : issued.records.lookup k = some old := hold
    rw [if_pos rfl, if_pos rfl, hold']
    rfl
  · rw [if_neg hk, if_neg hk]
    rfl

/-- A revocation keeps every record's id and index. -/
theorem recordList_revoke {id : String} {record : IssuedCredential}
    {issued' : IssuedCredentials} (h : issued.revoke id = some (record, issued')) :
    issued'.recordList.map (·.statusListIndex) = issued.recordList.map (·.statusListIndex) ∧
      issued'.records.keys = issued.records.keys := by
  obtain ⟨old, -, heq⟩ := Option.map_eq_some_iff.mp h
  cases heq
  refine ⟨?_, KeyedTable.keys_modify id _ issued.records⟩
  exact KeyedTable.map_values_modify (g := (·.statusListIndex))
    (f := fun r => { r with status := .revoked }) (fun _ => rfl) id issued.records

end IssuedCredentials

end IdentityHub
