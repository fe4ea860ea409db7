import IdentityHub.Lib.KeyedTable

/-!
# Issuance processes and the request table

One process per accepted Credential Request. The table is bounded: when it is
full an insertion evicts the oldest processes that have ended, never one that
waits for the operator or for its delivery, and refuses when there is none.

`RequestTable.insert_eq_ok` is the spec of an insertion: the new record is
there, and every other id either reads as before or belonged to an ended
process and is gone.
-/

namespace IdentityHub

inductive ProcessState where
  | submitted
  | approved
  | delivered
  | errored
  | rejected
deriving DecidableEq

namespace ProcessState

/-- The DCP Credential Request Status API's view of the state. -/
def dcpStatus : ProcessState → String
  | .submitted | .approved => "RECEIVED"
  | .delivered => "ISSUED"
  | .errored | .rejected => "REJECTED"

def isActive : ProcessState → Bool
  | .submitted | .approved => true
  | _ => false

def isTerminal (state : ProcessState) : Bool := !state.isActive

end ProcessState

structure IssuanceProcess where
  id : String
  state : ProcessState
  holderId : String
  holderDid : String
  holderPid : String
  credentialDefinitions : List String
  errorDetail : Option String
  createdAt : ℕ
  stateTimestamp : ℕ
  deliveryBearer : Option String
  /-- Set when the delivery task claims the process. -/
  deliveryStarted : Bool
deriving DecidableEq

def IssuanceProcess.transition (process : IssuanceProcess) (state : ProcessState) (now : ℕ) :
    IssuanceProcess :=
  { process with state := state, stateTimestamp := now }

/-- The table is full of processes that must not be evicted. -/
inductive TableFull where
  | tableFull
deriving DecidableEq

def maxTrackedRequests : ℕ := 2048

structure RequestTable where
  records : KeyedTable String IssuanceProcess
  order : List String
  capacity : ℕ

namespace RequestTable

def new (capacity : ℕ) : RequestTable where
  records := ∅
  order := []
  capacity := capacity

def get (table : RequestTable) (id : String) : Option IssuanceProcess :=
  table.records.lookup id

/-- An id the eviction loop may take: its process has ended, or it has none. -/
def isEvictable (table : RequestTable) (id : String) : Bool :=
  (table.get id).all (fun record => record.state.isTerminal)

/-- Drop the first occurrence of an id from the queue, and its record. Whether
an id is evictable depends on the id alone, so the first evictable position is
the first occurrence of the id found there. -/
def evict (table : RequestTable) (id : String) : RequestTable :=
  { table with records := table.records.erase id, order := table.order.erase id }

/-- The loop at the head of `insert`. Every round shortens the queue, so
`rounds = order.length + 1` lets it finish. -/
def evictLoop : ℕ → RequestTable → Option RequestTable
  | 0, _ => none
  | rounds + 1, table =>
      if KeyedTable.size table.records < table.capacity then some table
      else
        match table.order.find? table.isEvictable with
        | some oldest => evictLoop rounds (table.evict oldest)
        | none => none

def makeRoom (table : RequestTable) : Option RequestTable :=
  evictLoop (table.order.length + 1) table

def insert (table : RequestTable) (id : String) (record : IssuanceProcess) :
    Except TableFull RequestTable :=
  match table.makeRoom with
  | none => .error .tableFull
  | some table =>
      .ok { table with
        records := table.records.insert id record
        order := table.order ++ [id] }

/-- SUBMITTED processes of one holder, and in total. -/
def pendingCounts (table : RequestTable) (holderId : String) : ℕ × ℕ :=
  let submitted := (KeyedTable.values table.records).filter (fun p => p.state = .submitted)
  ((submitted.filter (fun p => p.holderId = holderId)).length, submitted.length)

/-- Every tracked process, oldest first. -/
def iter (table : RequestTable) : List IssuanceProcess := table.order.filterMap table.get

/-- `get_mut` and `iter_mut`: change records in place. -/
def mapRecords (table : RequestTable) (f : IssuanceProcess → IssuanceProcess) : RequestTable :=
  { table with records := KeyedTable.map (fun _ => f) table.records }

def modify (table : RequestTable) (id : String) (f : IssuanceProcess → IssuanceProcess) :
    RequestTable :=
  { table with records := KeyedTable.modify id f table.records }

/-! ## The eviction loop -/

variable {table : RequestTable}

theorem isEvictable_iff {id : String} :
    table.isEvictable id ↔ ∀ record, table.get id = some record → record.state.isTerminal := by
  unfold isEvictable
  cases table.get id <;> simp

theorem get_evict (id k : String) :
    (table.evict id).get k = if k = id then none else table.get k :=
  KeyedTable.lookup_erase ..

/-- The rounds given to the loop are enough: it stops because there is room or
because nothing is evictable, never because it ran out. -/
theorem makeRoom_eq (table : RequestTable) :
    table.makeRoom =
      if KeyedTable.size table.records < table.capacity then some table
      else (table.order.find? table.isEvictable).bind (fun id => (table.evict id).makeRoom) := by
  rw [makeRoom, evictLoop]
  split
  · rfl
  · cases h : table.order.find? table.isEvictable with
    | none => rfl
    | some oldest =>
        have hmem : oldest ∈ table.order := List.mem_of_find?_eq_some h
        have hlen : (table.evict oldest).order.length + 1 = table.order.length := by
          have hpos := List.length_pos_of_mem hmem
          show (table.order.erase oldest).length + 1 = _
          rw [List.length_erase_of_mem hmem]
          omega
        show evictLoop table.order.length (table.evict oldest) = (table.evict oldest).makeRoom
        rw [makeRoom, hlen]

/-- `t'` is `t` without some of the processes that have ended. -/
structure Evicts (t t' : RequestTable) : Prop where
  capacity : t'.capacity = t.capacity
  get : ∀ k, t'.get k = t.get k ∨
    t'.get k = none ∧ ∀ record, t.get k = some record → record.state.isTerminal

theorem Evicts.refl (t : RequestTable) : Evicts t t := ⟨rfl, fun _ => Or.inl rfl⟩

theorem Evicts.trans {t₁ t₂ t₃ : RequestTable} (h : Evicts t₁ t₂) (h' : Evicts t₂ t₃) :
    Evicts t₁ t₃ where
  capacity := h'.capacity.trans h.capacity
  get k := by
    rcases h.get k with h₁ | ⟨h₁, hend⟩
    · rcases h'.get k with h₂ | ⟨h₂, hend⟩
      · exact Or.inl (h₂.trans h₁)
      · exact Or.inr ⟨h₂, fun record hr => hend record (h₁.trans hr)⟩
    · rcases h'.get k with h₂ | ⟨h₂, -⟩
      · exact Or.inr ⟨h₂.trans h₁, hend⟩
      · exact Or.inr ⟨h₂, hend⟩

theorem evicts_evict {id : String} (h : table.isEvictable id) : Evicts table (table.evict id) where
  capacity := rfl
  get k := by
    rw [get_evict]
    by_cases hk : k = id
    · subst hk
      rw [if_pos rfl]
      exact Or.inr ⟨rfl, isEvictable_iff.mp h⟩
    · rw [if_neg hk]
      exact Or.inl rfl

theorem evictLoop_evicts {rounds : ℕ} {table t' : RequestTable}
    (h : evictLoop rounds table = some t') :
    Evicts table t' ∧ KeyedTable.size t'.records < t'.capacity := by
  induction rounds generalizing table with
  | zero => cases h
  | succ rounds ih =>
      rw [evictLoop] at h
      split at h
      · rename_i hroom
        cases h
        exact ⟨.refl _, hroom⟩
      · split at h
        · rename_i oldest hfind
          obtain ⟨hev, hroom⟩ := ih h
          exact ⟨(evicts_evict (List.find?_some hfind)).trans hev, hroom⟩
        · cases h

/-! ## What each operation does to a lookup -/

@[simp] theorem get_new (capacity : ℕ) (k : String) : (new capacity).get k = none :=
  AList.lookup_empty ..

/-- **Spec of an insertion.** The new record is stored; any other id reads as
before, unless its process had ended and it was evicted. -/
theorem insert_eq_ok {id : String} {record : IssuanceProcess} {t' : RequestTable}
    (h : table.insert id record = .ok t') :
    t'.get id = some record ∧
      ∀ k, k ≠ id → t'.get k = table.get k ∨
        t'.get k = none ∧ ∀ r, table.get k = some r → r.state.isTerminal := by
  unfold insert at h
  split at h
  · cases h
  · rename_i t hroom
    have hev := (evictLoop_evicts hroom).1
    have hget : ∀ k, t'.get k = if k = id then some record else t.get k := by
      intro k
      rw [← Except.ok.inj h]
      exact KeyedTable.lookup_insert ..
    refine ⟨by rw [hget, if_pos rfl], fun k hk => ?_⟩
    rw [hget, if_neg hk]
    exact hev.get k

theorem get_modify (id k : String) (f : IssuanceProcess → IssuanceProcess) :
    (table.modify id f).get k = if k = id then (table.get k).map f else table.get k :=
  KeyedTable.lookup_modify ..

theorem get_mapRecords (k : String) (f : IssuanceProcess → IssuanceProcess) :
    (table.mapRecords f).get k = (table.get k).map f :=
  KeyedTable.lookup_map ..

theorem mem_values {p : IssuanceProcess} :
    p ∈ KeyedTable.values table.records ↔ ∃ k, table.get k = some p :=
  KeyedTable.mem_values

end RequestTable

end IdentityHub
