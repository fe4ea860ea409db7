import IdentityHub.Issuer.Moves
import IdentityHub.Lib.KeyedList
import IdentityHub.Lib.Ledger

/-!
# Who owns a status-list index

The status list hands out indexes, deliveries and redemptions hold them while
they work, and an issued-credential record keeps one for good. `ledger` reads
these owners off a state; every step of the service is a step of the ledger
(`ledger_step`), so the indexes handed out stay partitioned among the owners.

`WorkerMove` says what one step of a delivery or of a redemption does to the
issued-credential store, to the indexes it holds and to the records it has
signed but not stored; `StoreMove` lifts it to a step of the service.
-/

namespace IdentityHub

open StepSystem (Machine Reachable Steps anyStep)

variable {X : External} {service : IssuerService X} {start : ℕ}

/-- The records a task has signed and not stored. -/
def Phase.unrecorded : Phase → List IssuedCredential
  | .minting _ _ _ minted => minted.map (·.record)
  | .waiting minted => minted.map (·.record)
  | .answered records => records
  | _ => []

namespace IssuerSys

/-- The indexes held by deliveries and redemptions. -/
def held (s : IssuerSys) : Multiset ℕ :=
  ↑(s.deliveries.flatMap (·.phase.held)) + ↑(s.redemptions.flatMap (·.held))

/-- The records signed and not stored. -/
def unrecorded (s : IssuerSys) : Multiset IssuedCredential :=
  ↑(s.deliveries.flatMap (·.phase.unrecorded))

/-- The indexes of the stored records. -/
def recorded (s : IssuerSys) : Multiset ℕ :=
  ↑(s.app.issued.recordList.map (·.statusListIndex))

def ledger (s : IssuerSys) : Ledger where
  next := s.app.issued.statusList.nextIndex
  free := ↑s.app.issued.statusList.free.toList
  held := s.held
  recorded := s.recorded

end IssuerSys

/-- The id of a credential minted under a drawn identifier. -/
def credentialId (uuid : String) : String := "urn:uuid:" ++ uuid

theorem credentialId_injective : Function.Injective credentialId := by
  intro u v h
  apply String.toList_inj.mp
  have := congrArg String.toList h
  rw [credentialId, credentialId, String.toList_append, String.toList_append] at this
  exact List.append_cancel_left this

/-! ## One worker -/

/-- What one step of a delivery or a redemption does: to the store, to the
indexes it holds and to the records it has signed. `fresh` are the ids it may
give to a new record. -/
inductive WorkerMove (fresh : List String) (issued issued' : IssuedCredentials)
    (held held' : List ℕ) (unrecorded unrecorded' : List IssuedCredential) : Prop
  | keep :
      issued' = issued → held' = held → unrecorded'.Sublist unrecorded →
        WorkerMove fresh issued issued' held held' unrecorded unrecorded'
  | take (index : ℕ) (list : StatusList) (new : List IssuedCredential) :
      issued.statusList.allocate = some (index, list) → issued' = issued.withList list →
        held' = held ++ [index] → unrecorded' = unrecorded ++ new →
          (∀ r ∈ new, r.status = .active) → (new.map (·.id)).Sublist fresh →
            WorkerMove fresh issued issued' held held' unrecorded unrecorded'
  | giveBack :
      issued' = issued.withList (held.foldl StatusList.release issued.statusList) →
        held' = [] → unrecorded' = [] →
          WorkerMove fresh issued issued' held held' unrecorded unrecorded'
  | store (records : List IssuedCredential) :
      issued' = records.foldl IssuedCredentials.insert issued →
        held = records.map (·.statusListIndex) → held' = [] → unrecorded' = [] →
          (records = unrecorded ∨
            (∀ r ∈ records, r.status = .active) ∧ unrecorded = [] ∧
              (records.map (·.id)).Sublist fresh) →
            WorkerMove fresh issued issued' held held' unrecorded unrecorded'

theorem deliveryStep_worker {permitFree : Bool} {app app' : AppState} {t t' : Delivery}
    {event : DeliveryEvent X}
    (h : deliveryStep service permitFree app t event = some (app', t')) :
    WorkerMove (event.draws.map credentialId) app.issued app'.issued t.phase.held t'.phase.held
      t.phase.unrecorded t'.phase.unrecorded := by
  cases event with
  | mint now uuid =>
      simp only [deliveryStep] at h
      split at h
      · rename_i job endpoint definition todo minted hphase
        split at h
        · cases h
          rw [hphase]
          exact .keep rfl rfl (List.nil_sublist _)
        · rename_i index list hallocate
          cases h
          rw [hphase]
          refine .take index list [(mintForJob service job definition index now uuid).record]
            hallocate rfl ?_ ?_ ?_ ?_
          · exact List.map_append
          · exact List.map_append
          · intro r hr
            rw [List.mem_singleton.mp hr]
            rfl
          · exact List.Sublist.refl _
      · cases h
  | release =>
      simp only [deliveryStep] at h
      split at h
      · rename_i allocated error hphase
        cases h
        rw [hphase]
        exact .giveBack rfl rfl rfl
      · cases h
  | record =>
      simp only [deliveryStep] at h
      split at h
      · rename_i records hphase
        cases h
        rw [hphase]
        exact .store records rfl rfl rfl rfl (Or.inl rfl)
      · cases h
  | receive =>
      simp only [deliveryStep] at h
      split at h
      · rename_i minted status call earlier hphase hposts
        split at h
        · cases h
          rw [hphase]
          exact .keep rfl (List.map_map ..) (List.Sublist.refl _)
        · cases h
          rw [hphase]
          exact .keep rfl rfl (List.nil_sublist _)
      · cases h
  | lose error =>
      simp only [deliveryStep] at h
      split at h
      · rename_i minted hphase
        cases h
        rw [hphase]
        exact .keep rfl rfl (List.nil_sublist _)
      · cases h
  | _ =>
      -- the other steps neither touch the store nor hold anything new
      simp only [deliveryStep] at h
      repeat' split at h
      all_goals cases h
      all_goals refine .keep rfl ?_ ?_
      all_goals simp_all [Phase.held, Phase.unrecorded, mintedIndexes]

theorem redemptionStep_worker {app app' : AppState} {r r' : RedemptionPhase}
    {event : RedemptionEvent} (h : redemptionStep service app r event = some (app', r')) :
    WorkerMove (event.draws.map credentialId) app.issued app'.issued r.held r'.held [] [] := by
  cases event with
  | allocate =>
      simp only [redemptionStep] at h
      split at h
      · split at h
        · cases h
          exact .keep rfl rfl (List.Sublist.refl _)
        · rename_i index list hallocate
          cases h
          exact .take index list [] hallocate rfl rfl rfl (fun r hr => absurd hr List.not_mem_nil)
            (List.nil_sublist _)
      · cases h
  | release =>
      simp only [redemptionStep] at h
      split at h
      · cases h
        exact .giveBack rfl rfl rfl
      · cases h
  | record now uuid =>
      simp only [redemptionStep] at h
      split at h
      · rename_i job holderId index processId
        cases h
        refine .store [redemptionRecord job holderId processId index
          (mintCredential service job.definition job.holderDid (some index) now uuid)]
          rfl rfl rfl rfl (Or.inr ⟨?_, rfl, List.Sublist.refl _⟩)
        intro r hr
        rw [List.mem_singleton.mp hr]
        rfl
      · cases h
  | _ =>
      simp only [redemptionStep] at h
      repeat' split at h
      all_goals cases h
      all_goals exact .keep rfl rfl (List.Sublist.refl _)

/-! ## One step of the service -/

/-- What one step does to the issued-credential store and to its owners. -/
inductive StoreMove (service : IssuerService X) (s : IssuerSys) (a : IssuerAction X)
    (s' : IssuerSys) : Prop
  | same :
      s'.app.issued = s.app.issued → s'.held = s.held → s'.unrecorded = s.unrecorded →
        StoreMove service s a s'
  | signed (now : ℕ) :
      s'.app.issued = s.app.issued.withList
          { s.app.issued.statusList with
            cachedJwt := some (service.identity.sign
              (statusListPayload service s.app.issued.statusList now)) } →
        s'.held = s.held → s'.unrecorded = s.unrecorded → StoreMove service s a s'
  | revoked (id : String) (record : IssuedCredential) :
      s.app.issued.revoke id = some (record, s'.app.issued) →
        s'.held = s.held → s'.unrecorded = s.unrecorded → StoreMove service s a s'
  | worker (held held' : List ℕ) (unrecorded unrecorded' : List IssuedCredential)
      (rest : Multiset ℕ) (restRecords : Multiset IssuedCredential) :
      WorkerMove (a.draws.map credentialId) s.app.issued s'.app.issued held held' unrecorded
          unrecorded' →
        s.held = ↑held + rest → s'.held = ↑held' + rest →
          s.unrecorded = ↑unrecorded + restRecords →
            s'.unrecorded = ↑unrecorded' + restRecords → StoreMove service s a s'

theorem issued_credentialRequest {app : AppState} {claims : Json.Value}
    {message : CredentialRequestMessage} {now : ℕ} {processId holderUuid : String} :
    (credentialRequest service app claims message now processId holderUuid).app.issued =
      app.issued := by
  unfold credentialRequest
  repeat' split
  all_goals try rfl
  unfold admitRequest
  repeat' split
  all_goals rfl

/-- A task that is about to be spawned owns nothing. -/
theorem StoreMove.spawned {s s' : IssuerSys} {a : IssuerAction X} {new : List Delivery}
    (hi : s'.app.issued = s.app.issued) (hd : s'.deliveries = s.deliveries ++ new)
    (hr : s'.redemptions = s.redemptions) (hnew : ∀ t ∈ new, t.phase = .toSpawn) :
    StoreMove service s a s' := by
  have hheld : new.flatMap (·.phase.held) = [] := by
    rw [List.flatMap_eq_nil_iff]
    intro t ht
    rw [hnew t ht]
    rfl
  have hrec : new.flatMap (·.phase.unrecorded) = [] := by
    rw [List.flatMap_eq_nil_iff]
    intro t ht
    rw [hnew t ht]
    rfl
  refine .same hi ?_ ?_
  · unfold IssuerSys.held
    rw [hd, hr, List.flatMap_append, hheld, List.append_nil]
  · unfold IssuerSys.unrecorded
    rw [hd, List.flatMap_append, hrec, List.append_nil]

theorem settle_store {s : IssuerSys} {a : IssuerAction X} {r : Except IssuerError AppState}
    {drawn : List String} (h : ∀ app, r = .ok app → app.issued = s.app.issued) :
    StoreMove service s a { s.settle r with drawn := drawn } := by
  cases r with
  | error e => exact .same rfl rfl rfl
  | ok app => exact .same (h app rfl) rfl rfl

theorem operatorDecision_store {s : IssuerSys} {a : IssuerAction X} {holderId : String}
    {status : HolderStatus} {next : ProcessState} {now : ℕ} {drawn : List String} :
    StoreMove service s a { operatorDecision s holderId status next now with drawn := drawn } := by
  unfold operatorDecision decideHolder
  cases s.app.holders.get holderId with
  | none => exact .same rfl rfl rfl
  | some holder =>
      refine .spawned rfl rfl rfl (fun t ht => ?_)
      split at ht
      · obtain ⟨k, -, rfl⟩ := List.mem_map.mp ht
        rfl
      · cases ht

/-- **Inversion, from the store's side.** -/
theorem issuer_step_store {s s' : IssuerSys} {a : IssuerAction X}
    (h : (issuer service start).step s a = some s') : StoreMove service s a s' := by
  obtain ⟨-, -, s₁, hp, rfl⟩ := issuer_step_eq_some h
  cases a with
  | credentialRequest claims message now processId holderUuid =>
      cases hp
      refine .spawned issued_credentialRequest rfl rfl (fun t ht => ?_)
      split at ht
      · rw [List.mem_singleton.mp ht]
        rfl
      · cases ht
  | createDefinition input now =>
      cases hp
      refine settle_store (fun app happ => ?_)
      obtain ⟨_, rfl, -⟩ := createDefinition_eq_ok happ
      rfl
  | updateDefinition input now =>
      cases hp
      refine settle_store (fun app happ => ?_)
      obtain ⟨_, rfl, -⟩ := updateDefinition_eq_ok happ
      rfl
  | deleteDefinition id =>
      cases hp
      refine settle_store (fun app happ => ?_)
      obtain ⟨_, rfl, -⟩ := deleteDefinition_eq_ok happ
      rfl
  | registerHolder registration now uuid =>
      simp only [issuerPerform] at hp
      split at hp
      · cases hp
        exact .same rfl rfl rfl
      · rename_i holder app happ
        cases hp
        obtain ⟨-, holders, -, rfl⟩ := registerHolder_eq_ok happ
        exact .same rfl rfl rfl
  | updateHolder update =>
      cases hp
      refine settle_store (fun app happ => ?_)
      obtain ⟨_, -, rfl⟩ := updateHolder_eq_ok happ
      rfl
  | approveHolder holderId now =>
      cases hp
      exact operatorDecision_store
  | rejectHolder holderId now =>
      cases hp
      exact operatorDecision_store
  | revokeCredential id =>
      cases hp
      cases hr : revokeCredential s.app id with
      | error e => exact .same rfl rfl rfl
      | ok r =>
          obtain ⟨issued, hrevoke, happ⟩ := revokeCredential_eq_ok hr
          refine .revoked id r.1 ?_ rfl rfl
          show s.app.issued.revoke id = some (r.1, r.2.issued)
          rw [hrevoke, happ]
  | fetchStatusList now =>
      cases hp
      cases hc : s.app.issued.statusList.cachedJwt with
      | some jwt =>
          refine .same ?_ rfl rfl
          show (statusList service s.app now).2.issued = s.app.issued
          simp only [statusList, hc]
      | none =>
          refine .signed now ?_ rfl rfl
          show (statusList service s.app now).2.issued = _
          simp only [statusList, hc]
  | redeem configId holderDid =>
      obtain ⟨definition, -, rfl⟩ := Option.map_eq_some_iff.mp hp
      refine .same rfl ?_ rfl
      unfold IssuerSys.held
      rw [List.flatMap_append]
      exact congrArg _ (congrArg _ (List.append_nil _))
  | redemption i event =>
      obtain ⟨r, hr, hp⟩ := Option.bind_eq_some_iff.mp hp
      obtain ⟨⟨app, r'⟩, hout, rfl⟩ := Option.map_eq_some_iff.mp hp
      obtain ⟨rest, hbefore, hafter⟩ := KeyedList.coe_flatMap_set (·.held) hr
      refine .worker r.held r'.held [] [] (↑(s.deliveries.flatMap (·.phase.held)) + rest)
        s.unrecorded (redemptionStep_worker hout) ?_ ?_ ?_ ?_
      · unfold IssuerSys.held
        rw [hbefore, add_left_comm]
      · unfold IssuerSys.held
        rw [hafter, add_left_comm]
      · exact (zero_add _).symm
      · exact (zero_add _).symm
  | delivery i event =>
      obtain ⟨t, ht, hp⟩ := Option.bind_eq_some_iff.mp hp
      obtain ⟨⟨app, t'⟩, hout, rfl⟩ := Option.map_eq_some_iff.mp hp
      obtain ⟨rest, hbefore, hafter⟩ := KeyedList.coe_flatMap_set (·.phase.held) ht
      obtain ⟨restRecords, hrec, hrec'⟩ := KeyedList.coe_flatMap_set (·.phase.unrecorded) ht
      refine .worker t.phase.held t'.phase.held t.phase.unrecorded t'.phase.unrecorded
        (rest + ↑(s.redemptions.flatMap (·.held))) restRecords (deliveryStep_worker hout) ?_ ?_
        hrec (hrec' t')
      · unfold IssuerSys.held
        rw [hbefore, add_assoc]
      · unfold IssuerSys.held
        rw [hafter, add_assoc]
  | storageAnswers i status =>
      obtain ⟨t, ht, hp⟩ := Option.bind_eq_some_iff.mp hp
      obtain ⟨t', hanswer, rfl⟩ := Option.map_eq_some_iff.mp hp
      obtain ⟨call, earlier, -, -, rfl⟩ := Delivery.answer_eq_some hanswer
      obtain ⟨rest, hbefore, hafter⟩ := KeyedList.coe_flatMap_set (·.phase.held) ht
      obtain ⟨restRecords, hrec, hrec'⟩ := KeyedList.coe_flatMap_set (·.phase.unrecorded) ht
      refine .same rfl ?_ ?_
      · unfold IssuerSys.held
        rw [hbefore, hafter]
      · unfold IssuerSys.unrecorded
        rw [hrec, hrec']

/-! ## The accounts -/

/-- The ids of the records, stored or not. -/
def IssuerSys.recordIds (s : IssuerSys) : Multiset String :=
  s.unrecorded.map (·.id) + ↑s.app.issued.records.keys

/-- What ties the store, the list and their owners together. -/
structure Accounts (s : IssuerSys) : Prop where
  balanced : s.ledger.Balanced statusListBits
  keyed : ∀ k r, s.app.issued.get k = some r → r.id = k
  ids : s.recordIds.Nodup
  drawn : ∀ u ∈ s.recordIds, ∃ d ∈ s.drawn, u = credentialId d
  active : ∀ r ∈ s.unrecorded, r.status = .active
  bits : ∀ i, s.app.issued.statusList.isSet i = true ↔
    ∃ r ∈ s.app.issued.recordList, r.status = .revoked ∧ r.statusListIndex = i

theorem accounts_start : Accounts (IssuerSys.start start) where
  balanced := Ledger.balanced_init
  keyed k r h := by
    rw [show (IssuerSys.start start).app.issued = .empty from rfl] at h
    cases (AList.lookup_empty (β := fun _ => IssuedCredential) k).symm.trans h
  ids := Multiset.nodup_zero
  drawn u hu := absurd hu (Multiset.notMem_zero u)
  active r hr := absurd hr (Multiset.notMem_zero r)
  bits i := by
    constructor
    · intro h
      rw [show (IssuerSys.start start).app.issued.statusList = .empty from rfl,
        StatusList.isSet_empty] at h
      cases h
    · rintro ⟨r, hr, -⟩
      cases hr

section Preserved

variable {s s' : IssuerSys} {a : IssuerAction X}

/-- An index that is not recorded has its bit clear. -/
theorem Accounts.unset (hs : Accounts s) {i : ℕ} (h : i ∉ s.recorded) :
    s.app.issued.statusList.isSet i = false := by
  by_contra hset
  obtain ⟨r, hr, -, hi⟩ := (hs.bits i).mp (Bool.not_eq_false _ ▸ hset)
  exact h (Multiset.mem_coe.mpr (List.mem_map.mpr ⟨r, hr, hi⟩))

/-- A record's index lies inside the list. -/
theorem Accounts.index_lt (hs : Accounts s) {id : String} {r : IssuedCredential}
    (h : s.app.issued.get id = some r) : r.statusListIndex < statusListBits := by
  refine lt_of_lt_of_le ?_ hs.balanced.bounded
  refine hs.balanced.lt_next_iff.mpr (Or.inr (Or.inr ?_))
  exact List.mem_map_of_mem (IssuedCredentials.mem_recordList.mpr ⟨id, h⟩)

/-- What a worker gives back is handed out, clear and not free. -/
theorem Accounts.giveBack (hs : Accounts s) {held : List ℕ} {rest : Multiset ℕ}
    (hheld : s.held = ↑held + rest) :
    ∃ free, held.foldl StatusList.release s.app.issued.statusList =
        { s.app.issued.statusList with free := free } ∧
      (↑free.toList : Multiset ℕ) = ↑held + ↑s.app.issued.statusList.free.toList := by
  have hmem : ∀ i ∈ held, i ∈ s.ledger.held := by
    intro i hi
    show i ∈ s.held
    rw [hheld]
    exact Multiset.mem_add.mpr (Or.inl hi)
  refine StatusList.foldl_release (fun i hi => ⟨?_, ?_, fun hfree => ?_⟩) ?_
  · exact hs.balanced.lt_next_iff.mpr (Or.inr (Or.inl (hmem i hi)))
  · exact hs.unset (hs.balanced.recorded_of_held (hmem i hi))
  · exact hs.balanced.held_of_free hfree (hmem i hi)
  · have hnodup : (↑held + rest).Nodup := hheld ▸ hs.balanced.held_nodup
    exact (Multiset.nodup_add.mp hnodup).1

/-- The ids an action may give are new. -/
theorem Accounts.fresh_ids (hs : Accounts s) (hnodup : a.draws.Nodup)
    (hfresh : ∀ u ∈ a.draws, u ∉ s.drawn) {ids : List String}
    (h : ids.Sublist (a.draws.map credentialId)) : (s.recordIds + ↑ids).Nodup := by
  rw [Multiset.nodup_add]
  refine ⟨hs.ids, h.nodup (hnodup.map credentialId_injective), ?_⟩
  rw [Multiset.disjoint_left]
  intro u hu hnew
  obtain ⟨d, hd, rfl⟩ := hs.drawn u hu
  obtain ⟨d', hd', heq⟩ := List.mem_map.mp (h.subset hnew)
  rw [credentialId_injective heq] at hd'
  exact hfresh d hd' hd

/-- What a worker stores has new ids, whether it signed them before or now. -/
theorem Accounts.store_nodup (hs : Accounts s) (hnodup : a.draws.Nodup)
    (hfresh : ∀ u ∈ a.draws, u ∉ s.drawn) {records unrecorded : List IssuedCredential}
    {rest : Multiset IssuedCredential} (hrec : s.unrecorded = ↑unrecorded + rest)
    (h : records = unrecorded ∨ (∀ r ∈ records, r.status = .active) ∧ unrecorded = [] ∧
      (records.map (·.id)).Sublist (a.draws.map credentialId)) :
    ((↑(records.map (·.id)) : Multiset String) + ↑s.app.issued.records.keys).Nodup := by
  rcases h with rfl | ⟨-, -, hids⟩
  · refine Multiset.nodup_of_le ?_ hs.ids
    unfold IssuerSys.recordIds
    rw [hrec, Multiset.map_add, Multiset.map_coe]
    exact add_le_add_left (Multiset.le_add_right _ _) _
  · refine Multiset.nodup_of_le ?_ (hs.fresh_ids hnodup hfresh hids)
    unfold IssuerSys.recordIds
    rw [add_comm]
    exact add_le_add_left (Multiset.le_add_left _ _) _

/-- **Every step of the service is a step of the ledger.** -/
theorem Accounts.ledger_step (hs : Accounts s) (hm : StoreMove service s a s')
    (hnodup : a.draws.Nodup) (hfresh : ∀ u ∈ a.draws, u ∉ s.drawn) :
    Ledger.Step statusListBits s.ledger s'.ledger := by
  have idle : ∀ {L : Ledger}, L = s.ledger → Ledger.Step statusListBits s.ledger L := by
    rintro L rfl
    exact .idle _
  cases hm with
  | same hi hheld _ =>
      refine idle ?_
      unfold IssuerSys.ledger IssuerSys.recorded
      rw [hi, hheld]
  | signed now hi hheld _ =>
      refine idle ?_
      unfold IssuerSys.ledger IssuerSys.recorded
      rw [hi, hheld]
      rfl
  | revoked id record hrevoke hheld _ =>
      obtain ⟨old, -, -, -, hlist, -⟩ := IssuedCredentials.revoke_eq_some hrevoke
      refine idle ?_
      unfold IssuerSys.ledger IssuerSys.recorded
      rw [hheld, hlist, StatusList.nextIndex_set, StatusList.free_set,
        (IssuedCredentials.recordList_revoke hrevoke).1]
  | worker held held' unrecorded unrecorded' rest restRecords hw hheld hheld' hrec hrec' =>
      cases hw with
      | keep hi hsame _ =>
          refine idle ?_
          unfold IssuerSys.ledger IssuerSys.recorded
          rw [hi, hheld', hsame, ← hheld]
      | take index list new hallocate hi hnew _ _ _ =>
          have hheld'' : s'.held = {index} + s.held := by
            rw [hheld', hnew, hheld, ← Multiset.coe_add, Multiset.coe_singleton]
            ac_rfl
          have hledger : s'.ledger =
              ⟨list.nextIndex, ↑list.free.toList, {index} + s.held, s.recorded⟩ := by
            unfold IssuerSys.ledger IssuerSys.recorded
            rw [hheld'', hi]
            rfl
          rw [hledger]
          obtain ⟨-, -, ⟨hfree, hnext⟩ | ⟨-, hfree, rfl, hlt, hnext⟩⟩ :=
            StatusList.allocate_eq_some hallocate
          · have hsum : s.ledger.free = {index} + ↑list.free.toList := by
              show (↑s.app.issued.statusList.free.toList : Multiset ℕ) = _
              rw [hfree]
              rfl
            rw [hnext]
            exact .reuse s.ledger index _ hsum
          · rw [hnext, hfree]
            exact .fresh s.ledger hlt
      | giveBack hi hnone _ =>
          obtain ⟨free, hfold, hsum⟩ := hs.giveBack hheld
          have hledger : s'.ledger = { s.ledger with free := ↑held + s.ledger.free, held := rest } := by
            unfold IssuerSys.ledger IssuerSys.recorded
            rw [hheld', hnone, hi, hfold]
            show (⟨_, ↑free.toList, _, _⟩ : Ledger) = _
            rw [hsum, Multiset.coe_nil, zero_add]
            rfl
          rw [hledger]
          exact .giveBack s.ledger ↑held rest hheld
      | store records hi hindexes hnone _ hrecords =>
          obtain ⟨hlist, hrl, -, -⟩ := IssuedCredentials.foldl_insert
            (hs.store_nodup hnodup hfresh hrec hrecords)
          have hrecorded : s'.recorded = ↑held + s.recorded := by
            unfold IssuerSys.recorded
            rw [← Multiset.map_coe, hi, hrl, Multiset.map_add, Multiset.map_coe, Multiset.map_coe,
              hindexes]
          have hledger : s'.ledger =
              { s.ledger with held := rest, recorded := ↑held + s.ledger.recorded } := by
            unfold IssuerSys.ledger
            rw [hheld', hnone, hrecorded, hi, hlist, Multiset.coe_nil, zero_add]
          rw [hledger]
          exact .settle s.ledger ↑held rest hheld

/-- The record ids grow by ids the step draws, at most. -/
theorem Accounts.recordIds_le (hs : Accounts s) (hm : StoreMove service s a s')
    (hnodup : a.draws.Nodup) (hfresh : ∀ u ∈ a.draws, u ∉ s.drawn) :
    ∃ ids : List String, ids.Sublist (a.draws.map credentialId) ∧
      s'.recordIds ≤ s.recordIds + ↑ids := by
  have none_new : s'.recordIds ≤ s.recordIds →
      ∃ ids : List String, ids.Sublist (a.draws.map credentialId) ∧
        s'.recordIds ≤ s.recordIds + ↑ids :=
    fun h => ⟨[], List.nil_sublist _, h.trans (Multiset.le_add_right _ _)⟩
  unfold IssuerSys.recordIds at none_new ⊢
  cases hm with
  | same hi _ hrec =>
      refine none_new ?_
      rw [hi, hrec]
  | signed now hi _ hrec =>
      refine none_new ?_
      rw [hi, hrec]
      exact le_rfl
  | revoked id record hrevoke _ hrec =>
      refine none_new ?_
      rw [hrec, (IssuedCredentials.recordList_revoke hrevoke).2]
  | worker held held' unrecorded unrecorded' rest restRecords hw _ _ hrec hrec' =>
      rw [hrec, hrec']
      cases hw with
      | keep hi _ hsub =>
          rw [hrec, hrec'] at none_new
          refine none_new ?_
          rw [hi, Multiset.map_add, Multiset.map_add, Multiset.map_coe, Multiset.map_coe]
          exact add_le_add_left (add_le_add_left (hsub.map _).subperm _) _
      | take index list new _ hi _ hnew _ hids =>
          refine ⟨new.map (·.id), hids, le_of_eq ?_⟩
          rw [hi, hnew, ← Multiset.coe_add, Multiset.map_add, Multiset.map_add, Multiset.map_add,
            Multiset.map_coe (·.id) new]
          show _ + (↑s.app.issued.records.keys : Multiset String) = _
          ac_rfl
      | giveBack hi _ hnone =>
          rw [hrec, hrec'] at none_new
          refine none_new ?_
          rw [hi, hnone, Multiset.coe_nil, zero_add, Multiset.map_add]
          exact add_le_add_left (Multiset.le_add_left _ _) _
      | store records hi _ _ hnone hrecords =>
          obtain ⟨-, -, hkeys, -⟩ := IssuedCredentials.foldl_insert
            (hs.store_nodup hnodup hfresh hrec hrecords)
          rw [hi, hkeys, hnone, Multiset.coe_nil, zero_add, Multiset.map_add, Multiset.map_coe]
          rcases hrecords with rfl | ⟨-, rfl, hids⟩
          · refine ⟨[], List.nil_sublist _, le_of_eq ?_⟩
            rw [Multiset.coe_nil, add_zero]
            ac_rfl
          · refine ⟨records.map (·.id), hids, le_of_eq ?_⟩
            rw [List.map_nil, Multiset.coe_nil, zero_add]
            ac_rfl

/-- The bits after a step. -/
theorem Accounts.bits_step (hs : Accounts s) (hm : StoreMove service s a s')
    (hnodup : a.draws.Nodup) (hfresh : ∀ u ∈ a.draws, u ∉ s.drawn) (i : ℕ) :
    s'.app.issued.statusList.isSet i = true ↔
      ∃ r ∈ s'.app.issued.recordList, r.status = .revoked ∧ r.statusListIndex = i := by
  cases hm with
  | same hi _ _ =>
      rw [hi]
      exact hs.bits i
  | signed now hi _ _ =>
      rw [hi]
      exact hs.bits i
  | revoked id record hrevoke _ _ =>
      obtain ⟨old, hold, rfl, -, hlist, hget⟩ := IssuedCredentials.revoke_eq_some hrevoke
      rw [hlist, StatusList.isSet_set (hs.index_lt hold), Bool.or_eq_true, decide_eq_true_eq, hs.bits i]
      simp only [IssuedCredentials.mem_recordList, hget]
      constructor
      · rintro (rfl | ⟨r, ⟨k, hk⟩, hrev, hidx⟩)
        · exact ⟨{ old with status := .revoked }, ⟨id, if_pos rfl⟩, rfl, rfl⟩
        · by_cases hkid : k = id
          · rw [hkid, hold] at hk
            cases hk
            exact ⟨{ old with status := .revoked }, ⟨id, if_pos rfl⟩, rfl, hidx⟩
          · exact ⟨r, ⟨k, (if_neg hkid).trans hk⟩, hrev, hidx⟩
      · rintro ⟨r, ⟨k, hk⟩, hrev, rfl⟩
        split at hk
        · cases hk
          exact Or.inl rfl
        · exact Or.inr ⟨r, ⟨k, hk⟩, hrev, rfl⟩
  | worker held held' unrecorded unrecorded' rest restRecords hw hheld _ hrec _ =>
      cases hw with
      | keep hi _ _ =>
          rw [hi]
          exact hs.bits i
      | take index list new hallocate hi _ _ _ _ =>
          have hbits : list.isSet i = s.app.issued.statusList.isSet i := by
            unfold StatusList.isSet
            rw [(StatusList.allocate_eq_some hallocate).1]
          rw [hi]
          show list.isSet i = true ↔ _
          rw [hbits]
          exact hs.bits i
      | giveBack hi _ _ =>
          obtain ⟨free, hfold, -⟩ := hs.giveBack hheld
          rw [hi, hfold]
          exact hs.bits i
      | store records hi _ _ _ hrecords =>
          obtain ⟨hlist, hrl, -, -⟩ := IssuedCredentials.foldl_insert
            (hs.store_nodup hnodup hfresh hrec hrecords)
          have hactive : ∀ r ∈ records, r.status = .active := by
            rcases hrecords with rfl | ⟨h, -, -⟩
            · intro r hr
              refine hs.active r ?_
              rw [hrec]
              exact Multiset.mem_add.mpr (Or.inl hr)
            · exact h
          have hmem : ∀ r, r ∈ s'.app.issued.recordList ↔
              r ∈ records ∨ r ∈ s.app.issued.recordList := by
            intro r
            rw [hi, ← Multiset.mem_coe, hrl, Multiset.mem_add, Multiset.mem_coe, Multiset.mem_coe]
          rw [hi, hlist, hs.bits i, ← hi]
          constructor
          · rintro ⟨r, hr, hrest⟩
            exact ⟨r, (hmem r).mpr (Or.inr hr), hrest⟩
          · rintro ⟨r, hr, hrev, hidx⟩
            rcases (hmem r).mp hr with hr | hr
            · rw [hactive r hr] at hrev
              cases hrev
            · exact ⟨r, hr, hrev, hidx⟩

theorem Accounts.keyed_step (hs : Accounts s) (hm : StoreMove service s a s')
    (hnodup : a.draws.Nodup) (hfresh : ∀ u ∈ a.draws, u ∉ s.drawn) {k : String}
    {r : IssuedCredential} (h : s'.app.issued.get k = some r) : r.id = k := by
  cases hm with
  | same hi _ _ => exact hs.keyed k r (hi ▸ h)
  | signed now hi _ _ =>
      rw [hi, IssuedCredentials.get_withList] at h
      exact hs.keyed k r h
  | revoked id record hrevoke _ _ =>
      obtain ⟨old, hold, rfl, -, -, hget⟩ := IssuedCredentials.revoke_eq_some hrevoke
      rw [hget] at h
      split at h
      · rename_i hk
        cases h
        rw [hk]
        exact hs.keyed id old hold
      · exact hs.keyed k r h
  | worker held held' unrecorded unrecorded' rest restRecords hw _ _ hrec _ =>
      cases hw with
      | keep hi _ _ => exact hs.keyed k r (hi ▸ h)
      | take index list new _ hi _ _ _ _ =>
          rw [hi, IssuedCredentials.get_withList] at h
          exact hs.keyed k r h
      | giveBack hi _ _ =>
          rw [hi, IssuedCredentials.get_withList] at h
          exact hs.keyed k r h
      | store records hi _ _ _ hrecords =>
          obtain ⟨-, -, -, hget⟩ := IssuedCredentials.foldl_insert
            (hs.store_nodup hnodup hfresh hrec hrecords)
          rw [hi] at h
          rcases hget k r h with hold | hid
          · exact hs.keyed k r hold
          · exact hid

theorem Accounts.active_step (hs : Accounts s) (hm : StoreMove service s a s')
    {r : IssuedCredential} (h : r ∈ s'.unrecorded) : r.status = .active := by
  cases hm with
  | same _ _ hrec => exact hs.active r (hrec ▸ h)
  | signed _ _ _ hrec => exact hs.active r (hrec ▸ h)
  | revoked _ _ _ _ hrec => exact hs.active r (hrec ▸ h)
  | worker held held' unrecorded unrecorded' rest restRecords hw _ _ hrec hrec' =>
      have old : r ∈ unrecorded ∨ r ∈ restRecords → r.status = .active := fun h =>
        hs.active r (hrec ▸ Multiset.mem_add.mpr h)
      rw [hrec', Multiset.mem_add, Multiset.mem_coe] at h
      rcases h with h | h
      · cases hw with
        | keep _ _ hsub => exact old (Or.inl (hsub.subset h))
        | take index list new _ _ _ hnew hactive _ =>
            rw [hnew, List.mem_append] at h
            rcases h with h | h
            · exact old (Or.inl h)
            · exact hactive r h
        | giveBack _ _ hnone =>
            rw [hnone] at h
            cases h
        | store records _ _ _ hnone _ =>
            rw [hnone] at h
            cases h
      · exact old (Or.inr h)

/-- **Every step keeps the accounts.** -/
theorem Accounts.move (hs : Accounts s) (hm : StoreMove service s a s')
    (hnodup : a.draws.Nodup) (hfresh : ∀ u ∈ a.draws, u ∉ s.drawn)
    (hdrawn : s'.drawn = a.draws ++ s.drawn) : Accounts s' := by
  obtain ⟨ids, hids, hle⟩ := hs.recordIds_le hm hnodup hfresh
  refine
    { balanced := hs.balanced.step (hs.ledger_step hm hnodup hfresh)
      keyed := fun k r h => hs.keyed_step hm hnodup hfresh h
      ids := Multiset.nodup_of_le hle (hs.fresh_ids hnodup hfresh hids)
      drawn := fun u hu => ?_
      active := fun r h => hs.active_step hm h
      bits := hs.bits_step hm hnodup hfresh }
  rw [hdrawn]
  rcases Multiset.mem_add.mp (Multiset.mem_of_le hle hu) with hu | hu
  · obtain ⟨d, hd, rfl⟩ := hs.drawn u hu
    exact ⟨d, List.mem_append_right _ hd, rfl⟩
  · obtain ⟨d, hd, rfl⟩ := List.mem_map.mp (hids.subset hu)
    exact ⟨d, List.mem_append_left _ hd, rfl⟩

end Preserved

/-- **The accounts hold in every reachable state.** -/
theorem accounts_of_reachable {s : IssuerSys} (h : Reachable (issuer service start) s) :
    Accounts s := by
  refine h.invariant accounts_start (fun s₁ a s₂ hs hstep => ?_)
  obtain ⟨hnodup, hfresh, s₃, -, heq⟩ := issuer_step_eq_some hstep
  exact hs.move (issuer_step_store hstep) hnodup hfresh (by rw [heq])

/-! ## Giving an index up -/

/-- A delivery keeps what it holds until it releases it as a failed one or
records it as an answered one. -/
theorem deliveryStep_held {permitFree : Bool} {app app' : AppState} {t t' : Delivery}
    {event : DeliveryEvent X} {i : ℕ}
    (h : deliveryStep service permitFree app t event = some (app', t')) (hi : i ∈ t.phase.held) :
    i ∈ t'.phase.held ∨
      (t'.phase.held = [] ∧ app'.issued.records = app.issued.records ∧
        ∃ allocated error, t.phase = .failed allocated error) ∨
      (t'.phase.held = [] ∧ app'.issued.statusList = app.issued.statusList ∧
        ∃ records, t.phase = .answered records) := by
  have hw := deliveryStep_worker h
  cases event with
  | release =>
      simp only [deliveryStep] at h
      split at h
      · rename_i allocated error hphase
        cases h
        exact Or.inr (Or.inl ⟨rfl, rfl, allocated, error, hphase⟩)
      · cases h
  | record =>
      simp only [deliveryStep] at h
      split at h
      · rename_i records hphase
        cases h
        refine Or.inr (Or.inr ⟨rfl, ?_, records, hphase⟩)
        exact IssuedCredentials.statusList_foldl_insert
      · cases h
  | mint now uuid =>
      simp only [deliveryStep] at h
      split at h
      · rename_i hphase
        split at h
        · cases h
          rw [hphase] at hi
          exact Or.inl hi
        · cases h
          rw [hphase] at hi
          refine Or.inl ?_
          show i ∈ mintedIndexes (_ ++ [_])
          rw [mintedIndexes, List.map_append]
          exact List.mem_append_left _ hi
      · cases h
  | _ =>
      left
      simp only [deliveryStep] at h
      repeat' split at h
      all_goals cases h
      all_goals simp_all [Phase.held, mintedIndexes]

theorem redemptionStep_held {app app' : AppState} {r r' : RedemptionPhase}
    {event : RedemptionEvent} {i : ℕ}
    (h : redemptionStep service app r event = some (app', r')) (hi : i ∈ r.held) :
    i ∈ r'.held ∨
      (r'.held = [] ∧ app'.issued.records = app.issued.records ∧ r = .refusing i) ∨
      (r'.held = [] ∧ app'.issued.statusList = app.issued.statusList ∧
        ∃ job holderId processId, r = .recording job holderId i processId) := by
  cases event with
  | release =>
      simp only [redemptionStep] at h
      split at h
      · cases h
        obtain rfl := List.mem_singleton.mp hi
        exact Or.inr (Or.inl ⟨rfl, rfl, rfl⟩)
      · cases h
  | record now uuid =>
      simp only [redemptionStep] at h
      split at h
      · rename_i job holderId index processId
        cases h
        obtain rfl := List.mem_singleton.mp hi
        exact Or.inr (Or.inr ⟨rfl, rfl, job, holderId, processId, rfl⟩)
      · cases h
  | _ =>
      left
      simp only [redemptionStep] at h
      repeat' split at h
      all_goals cases h
      all_goals simp_all [RedemptionPhase.held]

section

variable {s s' : IssuerSys} {a : IssuerAction X}

/-- What one worker stops holding is free or recorded from then on. -/
theorem given_up (h : Reachable (issuer service start) s)
    (hstep : (issuer service start).step s a = some s') {held : List ℕ} {rest : Multiset ℕ}
    (hbefore : s.held = ↑held + rest) (hafter : s'.held = rest) {i : ℕ} (hi : i ∈ held) :
    i ∈ s'.ledger.free ∨ i ∈ s'.ledger.recorded := by
  have hs := accounts_of_reachable h
  have hs' := accounts_of_reachable (h.step hstep)
  obtain ⟨hnodup, hfresh, -⟩ := issuer_step_eq_some hstep
  have hheld : i ∈ s.ledger.held := by
    show i ∈ s.held
    rw [hbefore]
    exact Multiset.mem_add.mpr (Or.inl hi)
  have hlt : i < s'.ledger.next :=
    lt_of_lt_of_le (hs.balanced.lt_next_iff.mpr (Or.inr (Or.inl hheld)))
      (hs.ledger_step (issuer_step_store hstep) hnodup hfresh).next_le
  have hrest : i ∉ s'.ledger.held := by
    show i ∉ s'.held
    rw [hafter]
    have hn : (↑held + rest).Nodup := hbefore ▸ hs.balanced.held_nodup
    exact Multiset.disjoint_left.mp (Multiset.nodup_add.mp hn).2.2 hi
  rcases hs'.balanced.lt_next_iff.mp hlt with hf | hh | hr
  · exact Or.inl hf
  · exact absurd hh hrest
  · exact Or.inr hr

/-- A worker that stops holding an index gives it back or records it, by which
part of the store its step leaves alone. -/
theorem gives_back (h : Reachable (issuer service start) s)
    (hstep : (issuer service start).step s a = some s') {held held' : List ℕ} {rest : Multiset ℕ}
    (hbefore : s.held = ↑held + rest) (hafter : s'.held = ↑held' + rest) {i : ℕ} (hi : i ∈ held)
    {failed stored : Prop}
    (hcases : i ∈ held' ∨
      (held' = [] ∧ s'.app.issued.records = s.app.issued.records ∧ failed) ∨
      (held' = [] ∧ s'.app.issued.statusList = s.app.issued.statusList ∧ stored)) :
    i ∈ held' ∨ (failed ∧ i ∈ s'.app.issued.statusList.free) ∨ (stored ∧ i ∈ s'.recorded) := by
  have hs := accounts_of_reachable h
  have hheld : i ∈ s.ledger.held := by
    show i ∈ s.held
    rw [hbefore]
    exact Multiset.mem_add.mpr (Or.inl hi)
  rcases hcases with hkeep | ⟨rfl, hsame, hfailed⟩ | ⟨rfl, hsame, hstored⟩
  · exact Or.inl hkeep
  · rw [Multiset.coe_nil, zero_add] at hafter
    rcases given_up h hstep hbefore hafter hi with hf | hr
    · exact Or.inr (Or.inl ⟨hfailed, hf⟩)
    · refine absurd ?_ (hs.balanced.recorded_of_held hheld)
      show i ∈ s.recorded
      unfold IssuerSys.recorded IssuedCredentials.recordList
      rw [← hsame]
      exact hr
  · rw [Multiset.coe_nil, zero_add] at hafter
    rcases given_up h hstep hbefore hafter hi with hf | hr
    · refine absurd hheld (hs.balanced.held_of_free ?_)
      show i ∈ (↑s.app.issued.statusList.free.toList : Multiset ℕ)
      rw [← hsame]
      exact hf
    · exact Or.inr (Or.inr ⟨hstored, hr⟩)

theorem delivery_gives_back (h : Reachable (issuer service start) s)
    (hstep : (issuer service start).step s a = some s') {j i : ℕ} {t t' : Delivery}
    (ht : s.deliveries[j]? = some t) (ht' : s'.deliveries[j]? = some t') (hi : i ∈ t.phase.held) :
    i ∈ t'.phase.held ∨
      ((∃ allocated error, t.phase = .failed allocated error) ∧
        i ∈ s'.app.issued.statusList.free) ∨
      ((∃ records, t.phase = .answered records) ∧ i ∈ s'.recorded) := by
  have hlt := (List.getElem?_eq_some_iff.mp ht).1
  rcases delivery_at hstep ht with hkept | ⟨event, x, -, hd, hr, hout⟩ | ⟨status, x, -, hd, hanswer⟩
  · rw [hkept] at ht'
    cases ht'
    exact Or.inl hi
  · rw [hd, List.getElem?_set_self hlt] at ht'
    cases ht'
    obtain ⟨rest, hbefore, hafter⟩ := KeyedList.coe_flatMap_set (·.phase.held) ht
    have hb : s.held = ↑t.phase.held + (rest + ↑(s.redemptions.flatMap (·.held))) := by
      unfold IssuerSys.held
      rw [hbefore, add_assoc]
    have ha : s'.held = ↑t'.phase.held + (rest + ↑(s.redemptions.flatMap (·.held))) := by
      unfold IssuerSys.held
      rw [hd, hr, hafter, add_assoc]
    exact gives_back h hstep hb ha hi (deliveryStep_held hout hi)
  · rw [hd, List.getElem?_set_self hlt] at ht'
    cases ht'
    obtain ⟨call, earlier, -, -, rfl⟩ := Delivery.answer_eq_some hanswer
    exact Or.inl hi

theorem redemption_gives_back (h : Reachable (issuer service start) s)
    (hstep : (issuer service start).step s a = some s') {j i : ℕ} {r r' : RedemptionPhase}
    (hr : s.redemptions[j]? = some r) (hr' : s'.redemptions[j]? = some r') (hi : i ∈ r.held) :
    i ∈ r'.held ∨
      (r = .refusing i ∧ i ∈ s'.app.issued.statusList.free) ∨
      ((∃ job holderId processId, r = .recording job holderId i processId) ∧
        i ∈ s'.recorded) := by
  have hlt := (List.getElem?_eq_some_iff.mp hr).1
  rcases redemption_at hstep hr with hkept | ⟨event, x, -, hx, hd, hout⟩
  · rw [hkept] at hr'
    cases hr'
    exact Or.inl hi
  · rw [hx, List.getElem?_set_self hlt] at hr'
    cases hr'
    obtain ⟨rest, hbefore, hafter⟩ := KeyedList.coe_flatMap_set (·.held) hr
    have hb : s.held = ↑r.held + (↑(s.deliveries.flatMap (·.phase.held)) + rest) := by
      unfold IssuerSys.held
      rw [hbefore, add_left_comm]
    have ha : s'.held = ↑r'.held + (↑(s.deliveries.flatMap (·.phase.held)) + rest) := by
      unfold IssuerSys.held
      rw [hd, hx, hafter, add_left_comm]
    exact gives_back h hstep hb ha hi (redemptionStep_held hout hi)

/-- No two records share an index. -/
theorem Accounts.index_inj (hs : Accounts s) {k k' : String} {r r' : IssuedCredential}
    (hr : s.app.issued.get k = some r) (hr' : s.app.issued.get k' = some r')
    (h : r.statusListIndex = r'.statusListIndex) : k = k' := by
  have hnodup : (s.app.issued.recordList.map (·.statusListIndex)).Nodup :=
    Multiset.coe_nodup.mp hs.balanced.recorded_nodup
  have hsame : r = r' := List.inj_on_of_nodup_map hnodup
    (IssuedCredentials.mem_recordList.mpr ⟨k, hr⟩)
    (IssuedCredentials.mem_recordList.mpr ⟨k', hr'⟩) h
  rw [← hs.keyed k r hr, ← hs.keyed k' r' hr', hsame]

end

/-- **Every index has one owner.** In every reachable state the indexes handed
out are partitioned into the free ones, the ones a delivery or a redemption
holds and the ones of issued-credential records; no two records share one; a
free or held one has its bit clear; what a failed delivery or a refused
redemption took goes to the free list; and an allocation fails only when all the
indexes of the list are held or recorded. -/
theorem index_ownership {s : IssuerSys} (h : Reachable (issuer service start) s) :
    (↑s.app.issued.statusList.free.toList + s.held + s.recorded =
      Multiset.range s.app.issued.statusList.nextIndex) ∧
    (∀ k k' r r', s.app.issued.get k = some r → s.app.issued.get k' = some r' →
      r.statusListIndex = r'.statusListIndex → k = k') ∧
    (∀ i, i ∈ s.app.issued.statusList.free ∨ i ∈ s.held →
      s.app.issued.statusList.isSet i = false) ∧
    (∀ (a : IssuerAction X) (s' : IssuerSys) (j i : ℕ) (t t' : Delivery),
      (issuer service start).step s a = some s' → s.deliveries[j]? = some t →
        s'.deliveries[j]? = some t' → i ∈ t.phase.held →
          i ∈ t'.phase.held ∨
            ((∃ allocated error, t.phase = .failed allocated error) ∧
              i ∈ s'.app.issued.statusList.free) ∨
            ((∃ records, t.phase = .answered records) ∧ i ∈ s'.recorded)) ∧
    (∀ (a : IssuerAction X) (s' : IssuerSys) (j i : ℕ) (r r' : RedemptionPhase),
      (issuer service start).step s a = some s' → s.redemptions[j]? = some r →
        s'.redemptions[j]? = some r' → i ∈ r.held →
          i ∈ r'.held ∨
            (r = .refusing i ∧ i ∈ s'.app.issued.statusList.free) ∨
            ((∃ job holderId processId, r = .recording job holderId i processId) ∧
              i ∈ s'.recorded)) ∧
    (s.app.issued.statusList.allocate = none →
      ∀ i < statusListBits, i ∈ s.held ∨ i ∈ s.recorded) := by
  have hs := accounts_of_reachable h
  refine ⟨hs.balanced.partition, fun k k' r r' hr hr' => hs.index_inj hr hr', ?_, ?_, ?_, ?_⟩
  · rintro i (hi | hi)
    · exact hs.unset (hs.balanced.recorded_of_free hi)
    · exact hs.unset (hs.balanced.recorded_of_held hi)
  · exact fun a s' j i t t' hstep => delivery_gives_back h hstep
  · exact fun a s' j i r r' hstep => redemption_gives_back h hstep
  · intro hnone i hi
    obtain ⟨hfree, hfull⟩ := StatusList.allocate_eq_none.mp hnone
    exact hs.balanced.exhausted (congrArg _ hfree) hfull hi

/-- Two deliveries post; the first one's answer is lost and its index given back,
the second one is recorded, and a redemption takes the index that came back. -/
def loseOneTakeAgain : List (IssuerAction reference) :=
  [sampleRequest "p1" "acme" 10, sampleRequest "p2" "unused" 11] ++
    (samplePosting 0 "c1" "j1" 12 ++ samplePosting 1 "c2" "j2" 13) ++
      [.delivery 0 (.lose "connection closed"), .delivery 0 .release,
        .storageAnswers 1 200, .delivery 1 .receive, .delivery 1 .record,
        .redeem "membership-credential" "did:web:acme.example",
        .redemption 0 (.govern 14 "unused-2"), .redemption 0 .allocate]

set_option maxRecDepth 4000 in
/-- The owners at the end of that schedule. -/
theorem index_ownership_sample :
    ∃ s, Reachable (issuer (sampleIssuer .auto) 0) s ∧
      s.redemptions.map (·.held) = [[0]] ∧
        s.app.issued.recordList.map (·.statusListIndex) = [1] ∧
          s.app.issued.statusList.free.toList = [] ∧
            (↑s.app.issued.statusList.free.toList + s.held + s.recorded = Multiset.range 2) := by
  obtain ⟨s, hr, hp⟩ := StepSystem.exists_reachable_of_run
    (M := issuer (sampleIssuer .auto) 0) loseOneTakeAgain
    (p := fun s => s.redemptions.map (·.held) = [[0]] ∧
      s.app.issued.recordList.map (·.statusListIndex) = [1] ∧
        s.app.issued.statusList.free.toList = [] ∧ s.app.issued.statusList.nextIndex = 2)
    (by decide +kernel)
  obtain ⟨hheld, hrec, hfree, hnext⟩ := of_decide_eq_true hp
  refine ⟨s, hr, hheld, hrec, hfree, ?_⟩
  rw [← hnext]
  exact (index_ownership hr).1

end IdentityHub
