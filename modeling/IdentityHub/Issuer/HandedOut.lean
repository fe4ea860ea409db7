import IdentityHub.Issuer.Copies
import IdentityHub.Issuer.LostAnswers

/-!
# Records and the credentials that were handed out

A record is made next to the signature, from the same local variables, by two
separately written pieces of code, and is stored later. `AgreesWith` says what a
record and a signed credential have in common. Every stored record agrees with a
credential that was handed out: in a post that was answered 2xx, or as the
result of a redemption; and the list of records has each of them once.
-/

namespace IdentityHub

open Json (Value)
open StepSystem (Reachable)

variable {X : External} {service : IssuerService X} {start : ℕ}

/-! ## A record and a payload -/

/-- The payload says what the record says. -/
structure IssuedCredential.Describes (record : IssuedCredential) (payload : Value) : Prop where
  jti : payload.get "jti" = some (.string record.id)
  vcId : payload.pointer ["vc", "id"] = some (.string record.id)
  statusListIndex : payload.pointer ["vc", "credentialStatus", "statusListIndex"] =
    some (.string (toString record.statusListIndex))
  iat : payload.get "iat" = some (.ofNat record.issuedAt)
  nbf : payload.get "nbf" = some (.ofNat record.issuedAt)
  exp : payload.get "exp" = some (.ofNat record.expiresAt)
  sub : payload.get "sub" = some (.string record.holderDid)
  vcType : payload.pointer ["vc", "type"] =
    some (.array [.string "VerifiableCredential", .string record.credentialType])

/-- The token is signed by this issuer over a payload that says what the record
says. -/
def IssuedCredential.AgreesWith (service : IssuerService X) (record : IssuedCredential)
    (jws : String) : Prop :=
  ∃ payload, jws = service.identity.sign payload ∧ record.Describes payload

theorem describes_credentialPayload {definition : CredentialDefinition} {record : IssuedCredential}
    (htype : record.credentialType = definition.credentialType) :
    record.Describes (credentialPayload service definition record.holderDid
      (some record.statusListIndex) record.id record.issuedAt record.expiresAt) := by
  constructor
  all_goals
    simp [credentialPayload, vcObject, statusEntry, Value.pointer_cons, Value.set, htype]

/-- Revoking a record changes nothing that the token repeats. -/
theorem IssuedCredential.AgreesWith.congr {record record' : IssuedCredential} {jws : String}
    (h : record.AgreesWith service jws) (hstatus : record' = { record with status := .revoked }) :
    record'.AgreesWith service jws := by
  obtain ⟨payload, rfl, hjti, hvc, hindex, hiat, hnbf, hexp, hsub, htype⟩ := h
  subst hstatus
  exact ⟨payload, rfl, hjti, hvc, hindex, hiat, hnbf, hexp, hsub, htype⟩

/-- One container of a post carries the credential of the record. -/
def IssuedCredential.PostedIn (service : IssuerService X) (record : IssuedCredential)
    (call : StorageCall) : Prop :=
  ∃ container ∈ call.message.credentials, ∃ jws, container.payload = .string jws ∧
    container.credentialType = record.credentialType ∧ record.AgreesWith service jws

/-- The credential of a record and its container. -/
def Minted.Agrees (service : IssuerService X) (m : Minted) : Prop :=
  ∃ jws, m.container.payload = .string jws ∧
    m.container.credentialType = m.record.credentialType ∧ m.record.AgreesWith service jws

theorem agrees_mintForJob (job : DeliveryJob) (definition : CredentialDefinition)
    (index now : ℕ) (uuid : String) :
    (mintForJob service job definition index now uuid).Agrees service :=
  ⟨_, rfl, rfl, _, rfl, describes_credentialPayload rfl⟩

theorem agrees_redemptionRecord (job : RedemptionJob) (holderId processId : String)
    (index now : ℕ) (uuid : String) :
    let minted := mintCredential service job.definition job.holderDid (some index) now uuid
    (redemptionRecord job holderId processId index minted).AgreesWith service minted.jws :=
  ⟨_, rfl, describes_credentialPayload rfl⟩

/-! ## What a delivery has signed and posted -/

/-- What a task signed agrees with its records, and what it is about to record
was posted and answered 2xx. -/
structure Delivery.Faithful (service : IssuerService X) (t : Delivery) : Prop where
  minting : ∀ job endpoint todo minted, t.phase = .minting job endpoint todo minted →
    ∀ m ∈ minted, m.Agrees service
  waiting : ∀ minted, t.phase = .waiting minted → (∀ m ∈ minted, m.Agrees service) ∧
    ∃ call ∈ t.posts.head?, call.message.credentials = minted.map (·.container)
  answered : ∀ records, t.phase = .answered records → ∃ call ∈ t.posts, call.isAccepted ∧
    ∀ r ∈ records, r.PostedIn service call
  delivered : ∀ errorDetail, t.phase = .finishing .delivered errorDetail →
    errorDetail = none ∧ ∃ call ∈ t.posts, call.isAccepted

theorem Delivery.faithful_new (processId : String) : (Delivery.new processId).Faithful service where
  minting _ _ _ _ h := nomatch h
  waiting _ h := nomatch h
  answered _ h := nomatch h
  delivered _ h := nomatch h

theorem deliveryStep_faithful {permitFree : Bool} {app app' : AppState} {t t' : Delivery}
    {event : DeliveryEvent X} (hf : t.Faithful service)
    (h : deliveryStep service permitFree app t event = some (app', t')) : t'.Faithful service := by
  cases event with
  | resolve answer =>
      simp only [deliveryStep] at h
      split at h
      · split at h
        · cases h
          constructor <;> simp
        · cases h
          refine ⟨?_, by simp, by simp, by simp⟩
          rintro _ _ _ _ ⟨⟩ m hm
          cases hm
      · cases h
  | mint now uuid =>
      simp only [deliveryStep] at h
      split at h
      · rename_i job endpoint definition todo minted hphase
        split at h
        · cases h
          constructor <;> simp
        · cases h
          refine ⟨?_, by simp, by simp, by simp⟩
          rintro _ _ _ _ ⟨⟩ m hm
          rcases List.mem_append.mp hm with hold | hnew
          · exact hf.minting _ _ _ _ hphase m hold
          · rw [List.mem_singleton.mp hnew]
            exact agrees_mintForJob ..
      · cases h
  | post now jti =>
      simp only [deliveryStep] at h
      split at h
      · rename_i job endpoint minted hphase
        cases h
        refine ⟨by simp, ?_, by simp, by simp⟩
        rintro _ ⟨⟩
        exact ⟨hf.minting _ _ _ _ hphase, _, rfl, rfl⟩
      · cases h
  | receive =>
      simp only [deliveryStep] at h
      split at h
      · rename_i minted url bearer message indexes status earlier hphase hposts
        split at h
        · rename_i hsuccess
          cases h
          obtain ⟨hagrees, posted, hhead, hcontainers⟩ := hf.waiting minted hphase
          rw [hposts] at hhead
          cases hhead
          refine ⟨by simp, by simp, ?_, by simp⟩
          rintro _ ⟨⟩
          refine ⟨⟨url, bearer, message, indexes, some status⟩, ?_, hsuccess, fun r hr => ?_⟩
          · rw [hposts]
            exact List.mem_cons_self
          · obtain ⟨m, hm, rfl⟩ := List.mem_map.mp hr
            obtain ⟨jws, hpayload, htype, hjws⟩ := hagrees m hm
            refine ⟨m.container, ?_, jws, hpayload, htype, hjws⟩
            rw [hcontainers]
            exact List.mem_map_of_mem hm
        · cases h
          constructor <;> simp
      · cases h
  | record =>
      simp only [deliveryStep] at h
      split at h
      · rename_i records hphase
        cases h
        obtain ⟨call, hcall, haccepted, -⟩ := hf.answered records hphase
        refine ⟨by simp, by simp, by simp, ?_⟩
        rintro _ ⟨⟩
        exact ⟨rfl, call, hcall, haccepted⟩
      · cases h
  | _ =>
      simp only [deliveryStep] at h
      repeat' split at h
      all_goals cases h
      all_goals constructor <;> simp

/-- A call that has been answered 2xx stays on the task's list. -/
theorem Delivery.answer_accepted {t t' : Delivery} {status : ℕ} (h : t.answer status = some t')
    {call : StorageCall} (hcall : call ∈ t.posts) (haccepted : call.isAccepted) :
    call ∈ t'.posts := by
  obtain ⟨newest, earlier, hposts, hnone, rfl⟩ := Delivery.answer_eq_some h
  rw [hposts] at hcall
  rcases List.mem_cons.mp hcall with rfl | hold
  · rw [StorageCall.isAccepted, hnone] at haccepted
    cases haccepted
  · exact List.mem_cons_of_mem _ hold

theorem Delivery.Faithful.answer {t t' : Delivery} {status : ℕ} (hf : t.Faithful service)
    (h : t.answer status = some t') : t'.Faithful service := by
  have hkeep : ∀ call ∈ t.posts, call.isAccepted → call ∈ t'.posts :=
    fun call hcall haccepted => Delivery.answer_accepted h hcall haccepted
  obtain ⟨newest, earlier, hposts, hnone, rfl⟩ := Delivery.answer_eq_some h
  exact
    { minting := hf.minting
      waiting := fun minted hphase => by
        obtain ⟨hagrees, posted, hhead, hcontainers⟩ := hf.waiting minted hphase
        rw [hposts] at hhead
        cases hhead
        exact ⟨hagrees, _, rfl, hcontainers⟩
      answered := fun records hphase => by
        obtain ⟨call, hcall, haccepted, hposted⟩ := hf.answered records hphase
        exact ⟨call, hkeep call hcall haccepted, haccepted, hposted⟩
      delivered := fun errorDetail hphase => by
        obtain ⟨hnoError, call, hcall, haccepted⟩ := hf.delivered errorDetail hphase
        exact ⟨hnoError, call, hkeep call hcall haccepted, haccepted⟩ }

theorem faithful_of_reachable {s : IssuerSys} (h : Reachable (issuer service start) s) :
    ∀ t ∈ s.deliveries, t.Faithful service := by
  refine h.invariant_of (J := fun s => Reachable (issuer service start) s)
    (I := fun s : IssuerSys => ∀ t ∈ s.deliveries, t.Faithful service)
    (fun _ hs => hs) (fun t ht => absurd ht List.not_mem_nil) ?_
  intro s₁ a s₂ hr hf hstep t' ht'
  rcases task_origin hr hstep ht' with hold | ⟨k, rfl, -⟩ | ⟨i, event, t, -, ht, hout⟩ |
    ⟨status, t, ht, hanswer⟩
  · exact hf t' hold
  · exact Delivery.faithful_new k
  · exact deliveryStep_faithful (hf t (List.mem_of_getElem? ht)) hout
  · exact (hf t ht).answer hanswer

/-! ## The list of records -/

namespace IssuedCredentials

variable {issued issued' : IssuedCredentials}

/-- The order of the store lists its records. -/
abbrev Listed (issued : IssuedCredentials) : Prop :=
  KeyedTable.Queued issued.order issued.records

theorem mem_all (hl : issued.Listed) {record : IssuedCredential} :
    record ∈ issued.all ↔ ∃ id, issued.get id = some record := by
  rw [all, List.mem_filterMap]
  constructor
  · rintro ⟨id, -, hget⟩
    exact ⟨id, hget⟩
  · rintro ⟨id, hget⟩
    exact ⟨id, (hl.mem id).mpr (KeyedTable.mem_of_lookup hget), hget⟩

theorem all_congr (hrecords : issued'.records = issued.records) (horder : issued'.order = issued.order) :
    issued'.all = issued.all := by
  unfold all get
  rw [hrecords, horder]

theorem all_insert (record : IssuedCredential) (hl : issued.Listed)
    (hnew : record.id ∉ issued.records) :
    (issued.insert record).Listed ∧ (issued.insert record).all = issued.all ++ [record] := by
  refine ⟨hl.push hnew record, ?_⟩
  show (issued.order ++ [record.id]).filterMap (issued.insert record).get = _
  have hself : (issued.insert record).get record.id = some record := by
    rw [get_insert, if_pos rfl]
  have hothers : issued.order.filterMap (issued.insert record).get = issued.all := by
    apply List.filterMap_congr
    intro k hk
    rw [get_insert, if_neg]
    rintro rfl
    exact hnew ((hl.mem _).mp hk)
  rw [List.filterMap_append, hothers, List.filterMap_cons_some hself, List.filterMap_nil]

/-- Recording several credentials under new ids appends them. -/
theorem all_foldl_insert : ∀ {records : List IssuedCredential} {issued : IssuedCredentials},
    issued.Listed →
      ((↑(records.map (·.id)) : Multiset String) + ↑issued.records.keys).Nodup →
        (records.foldl insert issued).Listed ∧
          (records.foldl insert issued).all = issued.all ++ records
  | [], issued, hl, _ => ⟨hl, (List.append_nil _).symm⟩
  | record :: records, issued, hl, h => by
      have hcons : (↑((record :: records).map (·.id)) : Multiset String) =
          {record.id} + ↑(records.map (·.id)) := rfl
      have hnew : record.id ∉ issued.records := by
        intro hmem
        rw [hcons, add_assoc, Multiset.singleton_add, Multiset.nodup_cons, Multiset.mem_add,
          not_or] at h
        exact h.1.2 (AList.mem_keys.mp hmem)
      have hkeys : (↑(issued.insert record).records.keys : Multiset String) =
          {record.id} + ↑issued.records.keys :=
        congrArg _ (KeyedTable.keys_insert record hnew)
      obtain ⟨hl', hall⟩ := all_insert record hl hnew
      obtain ⟨hl'', hall'⟩ := all_foldl_insert hl' (by
        rw [hkeys, add_left_comm, ← add_assoc, ← hcons]
        exact h)
      refine ⟨hl'', ?_⟩
      rw [List.foldl_cons, hall', hall, List.append_assoc]
      rfl

/-- The record with this id, marked. -/
def revokedIn (id : String) (record : IssuedCredential) : IssuedCredential :=
  if record.id = id then { record with status := .revoked } else record

theorem listed_revoke (hl : issued.Listed) {id : String} {record : IssuedCredential}
    (h : issued.revoke id = some (record, issued')) : issued'.Listed := by
  obtain ⟨_, -, heq⟩ := Option.map_eq_some_iff.mp h
  cases heq
  exact hl.modify id _

/-- A revocation marks one record where it stands. -/
theorem all_revoke (hkeyed : ∀ k r, issued.get k = some r → r.id = k)
    {id : String} {record : IssuedCredential} (h : issued.revoke id = some (record, issued')) :
    issued'.all = issued.all.map (revokedIn id) := by
  obtain ⟨old, hold, rfl, horder, -, hget⟩ := revoke_eq_some h
  have hsame : ∀ k, issued'.get k = (issued.get k).map (revokedIn id) := by
    intro k
    rw [hget]
    by_cases hk : k = id
    · rw [if_pos hk, hk, hold, Option.map_some, revokedIn, if_pos (hkeyed id old hold)]
    · rw [if_neg hk]
      cases hr : issued.get k with
      | none => rfl
      | some r =>
          rw [Option.map_some, revokedIn, if_neg]
          rw [hkeyed k r hr]
          exact hk
  unfold all
  rw [horder, List.map_filterMap]
  exact congrArg (fun f => issued.order.filterMap f) (funext hsame)

end IssuedCredentials

/-! ## What a step does to the records -/

/-- A step leaves the records alone, marks one as revoked, or appends those of an
answered delivery or of a redemption. -/
inductive RecordsMove (service : IssuerService X) (s : IssuerSys) (a : IssuerAction X)
    (s' : IssuerSys) : Prop
  | same :
      s'.app.issued.records = s.app.issued.records → s'.app.issued.order = s.app.issued.order →
        RecordsMove service s a s'
  | revoked (id : String) (record : IssuedCredential) :
      s.app.issued.revoke id = some (record, s'.app.issued) → RecordsMove service s a s'
  | delivered (i : ℕ) (t : Delivery) (records : List IssuedCredential) :
      a = .delivery i .record → s.deliveries[i]? = some t → t.phase = .answered records →
        s'.app.issued = records.foldl IssuedCredentials.insert s.app.issued →
          RecordsMove service s a s'
  | redeemed (i : ℕ) (job : RedemptionJob) (holderId processId : String) (index now : ℕ)
      (uuid : String) :
      a = .redemption i (.record now uuid) →
        s.redemptions[i]? = some (.recording job holderId index processId) →
          s'.redemptions = s.redemptions.set i (.issued
              (mintCredential service job.definition job.holderDid (some index) now uuid).jws) →
            s'.app.issued = s.app.issued.insert (redemptionRecord job holderId processId index
                (mintCredential service job.definition job.holderDid (some index) now uuid)) →
              RecordsMove service s a s'

theorem RecordsMove.unissued {s s' : IssuerSys} {a : IssuerAction X}
    (h : s'.app.issued = s.app.issued) : RecordsMove service s a s' := by
  refine .same ?_ ?_ <;> rw [h]

theorem settle_records {s : IssuerSys} {a : IssuerAction X} {r : Except IssuerError AppState}
    {drawn : List String} (h : ∀ app, r = .ok app → app.issued = s.app.issued) :
    RecordsMove service s a { s.settle r with drawn := drawn } := by
  cases r with
  | error e => exact .unissued rfl
  | ok app => exact .unissued (h app rfl)

/-- **Inversion, from the records' side.** -/
theorem records_move {s s' : IssuerSys} {a : IssuerAction X}
    (hstep : (issuer service start).step s a = some s') : RecordsMove service s a s' := by
  obtain ⟨-, -, s₁, hp, rfl⟩ := issuer_step_eq_some hstep
  cases a with
  | credentialRequest claims message now processId holderUuid =>
      cases hp
      exact .unissued issued_credentialRequest
  | createDefinition input now =>
      cases hp
      refine settle_records (fun app happ => ?_)
      obtain ⟨_, rfl, -⟩ := createDefinition_eq_ok happ
      rfl
  | updateDefinition input now =>
      cases hp
      refine settle_records (fun app happ => ?_)
      obtain ⟨_, rfl, -⟩ := updateDefinition_eq_ok happ
      rfl
  | deleteDefinition id =>
      cases hp
      refine settle_records (fun app happ => ?_)
      obtain ⟨_, rfl, -⟩ := deleteDefinition_eq_ok happ
      rfl
  | registerHolder registration now uuid =>
      simp only [issuerPerform] at hp
      split at hp
      · cases hp
        exact .unissued rfl
      · rename_i holder app happ
        cases hp
        obtain ⟨-, holders, -, rfl⟩ := registerHolder_eq_ok happ
        exact .unissued rfl
  | updateHolder update =>
      cases hp
      refine settle_records (fun app happ => ?_)
      obtain ⟨_, -, rfl⟩ := updateHolder_eq_ok happ
      rfl
  | approveHolder holderId now =>
      cases hp
      refine .unissued ?_
      show (operatorDecision s holderId .approved .approved now).app.issued = _
      unfold operatorDecision decideHolder
      cases s.app.holders.get holderId <;> rfl
  | rejectHolder holderId now =>
      cases hp
      refine .unissued ?_
      show (operatorDecision s holderId .rejected .rejected now).app.issued = _
      unfold operatorDecision decideHolder
      cases s.app.holders.get holderId <;> rfl
  | revokeCredential id =>
      cases hp
      cases hr : revokeCredential s.app id with
      | error e => exact .unissued rfl
      | ok r =>
          obtain ⟨issued, hrevoke, happ⟩ := revokeCredential_eq_ok hr
          refine .revoked id r.1 ?_
          show s.app.issued.revoke id = some (r.1, r.2.issued)
          rw [hrevoke, happ]
  | fetchStatusList now =>
      cases hp
      refine .same ?_ ?_
      all_goals
        simp only [statusList]
        split <;> rfl
  | redeem configId holderDid =>
      obtain ⟨definition, -, rfl⟩ := Option.map_eq_some_iff.mp hp
      exact .unissued rfl
  | redemption i event =>
      obtain ⟨r, hr, hp⟩ := Option.bind_eq_some_iff.mp hp
      obtain ⟨⟨app, r'⟩, hout, rfl⟩ := Option.map_eq_some_iff.mp hp
      cases event with
      | record now uuid =>
          simp only [redemptionStep] at hout
          split at hout
          · rename_i job holderId index processId
            cases hout
            exact .redeemed i job holderId processId index now uuid rfl hr rfl rfl
          · cases hout
      | _ =>
          refine .same ?_ ?_
          all_goals
            simp only [redemptionStep] at hout
            repeat' split at hout
            all_goals cases hout
            all_goals rfl
  | delivery i event =>
      obtain ⟨t, ht, hp⟩ := Option.bind_eq_some_iff.mp hp
      obtain ⟨⟨app, t'⟩, hout, rfl⟩ := Option.map_eq_some_iff.mp hp
      cases event with
      | record =>
          simp only [deliveryStep] at hout
          split at hout
          · rename_i records hphase
            cases hout
            exact .delivered i t records rfl ht hphase rfl
          · cases hout
      | _ =>
          refine .same ?_ ?_
          all_goals
            simp only [deliveryStep] at hout
            repeat' split at hout
            all_goals cases hout
            all_goals rfl
  | storageAnswers i status =>
      obtain ⟨t, -, hp⟩ := Option.bind_eq_some_iff.mp hp
      obtain ⟨t', -, rfl⟩ := Option.map_eq_some_iff.mp hp
      exact .unissued rfl

/-- What is about to be recorded has new ids. -/
theorem Accounts.answered_nodup {s : IssuerSys} (hs : Accounts s) {i : ℕ} {t : Delivery}
    {records : List IssuedCredential} (ht : s.deliveries[i]? = some t)
    (hphase : t.phase = .answered records) :
    ((↑(records.map (·.id)) : Multiset String) + ↑s.app.issued.records.keys).Nodup := by
  have hmem : records ∈ s.deliveries.map (·.phase.unrecorded) := by
    rw [List.mem_map]
    exact ⟨t, List.mem_of_getElem? ht, by rw [hphase]; rfl⟩
  have hle : (↑records : Multiset IssuedCredential) ≤ s.unrecorded := by
    show (↑records : Multiset IssuedCredential) ≤ ↑(s.deliveries.flatMap (·.phase.unrecorded))
    rw [List.flatMap_def]
    exact Multiset.coe_le.mpr (List.sublist_flatten_of_mem hmem).subperm
  refine Multiset.nodup_of_le ?_ hs.ids
  exact add_le_add_left (Multiset.map_le_map hle) _

theorem Accounts.redeemed_new {s : IssuerSys} (hs : Accounts s) {uuid : String}
    (hfresh : uuid ∉ s.drawn) : credentialId uuid ∉ s.app.issued.records := by
  intro hmem
  obtain ⟨d, hd, heq⟩ := hs.drawn (credentialId uuid)
    (Multiset.mem_add.mpr (Or.inr (AList.mem_keys.mp hmem)))
  rw [credentialId_injective heq] at hfresh
  exact hfresh hd

/-- The list of records before and after a step. -/
inductive ListMove (service : IssuerService X) (s : IssuerSys) (a : IssuerAction X)
    (s' : IssuerSys) : Prop
  | same : s'.app.issued.all = s.app.issued.all → ListMove service s a s'
  | revoked (id : String) :
      s'.app.issued.all = s.app.issued.all.map (IssuedCredentials.revokedIn id) →
        ListMove service s a s'
  | delivered (i : ℕ) (t : Delivery) (records : List IssuedCredential) :
      a = .delivery i .record → s.deliveries[i]? = some t → t.phase = .answered records →
        s'.app.issued.all = s.app.issued.all ++ records → ListMove service s a s'
  | redeemed (i : ℕ) (job : RedemptionJob) (holderId processId : String) (index now : ℕ)
      (uuid : String) :
      a = .redemption i (.record now uuid) →
        s.redemptions[i]? = some (.recording job holderId index processId) →
          s'.redemptions = s.redemptions.set i (.issued
              (mintCredential service job.definition job.holderDid (some index) now uuid).jws) →
            s'.app.issued.all = s.app.issued.all ++ [redemptionRecord job holderId processId index
                (mintCredential service job.definition job.holderDid (some index) now uuid)] →
              ListMove service s a s'

/-- **Step lemma.** The store stays listed, and its list moves. -/
theorem listed_step {s s' : IssuerSys} {a : IssuerAction X}
    (hr : Reachable (issuer service start) s) (hl : s.app.issued.Listed)
    (hstep : (issuer service start).step s a = some s') :
    s'.app.issued.Listed ∧ ListMove service s a s' := by
  have hs := accounts_of_reachable hr
  cases records_move hstep with
  | same hrecords horder =>
      refine ⟨?_, .same (IssuedCredentials.all_congr hrecords horder)⟩
      unfold IssuedCredentials.Listed
      rw [hrecords, horder]
      exact hl
  | revoked id record hrevoke =>
      exact ⟨IssuedCredentials.listed_revoke hl hrevoke,
        .revoked id (IssuedCredentials.all_revoke hs.keyed hrevoke)⟩
  | delivered i t records ha ht hphase hissued =>
      obtain ⟨hl', hall⟩ := IssuedCredentials.all_foldl_insert hl (hs.answered_nodup ht hphase)
      rw [← hissued] at hl' hall
      exact ⟨hl', .delivered i t records ha ht hphase hall⟩
  | redeemed i job holderId processId index now uuid ha hred hphases hissued =>
      obtain ⟨-, hfresh, -⟩ := issuer_step_eq_some hstep
      have hnew := hs.redeemed_new (hfresh uuid (by rw [ha]; exact List.mem_singleton.mpr rfl))
      obtain ⟨hl', hall⟩ := IssuedCredentials.all_insert (redemptionRecord job holderId processId
        index (mintCredential service job.definition job.holderDid (some index) now uuid)) hl hnew
      rw [← hissued] at hl' hall
      exact ⟨hl', .redeemed i job holderId processId index now uuid ha hred hphases hall⟩

theorem listed_of_reachable {s : IssuerSys} (h : Reachable (issuer service start) s) :
    s.app.issued.Listed := by
  refine h.invariant_of (J := fun s => Reachable (issuer service start) s)
    (I := fun s : IssuerSys => s.app.issued.Listed) (fun _ hs => hs) .empty ?_
  exact fun s₁ a s₂ hr hl hstep => (listed_step hr hl hstep).1

theorem list_move {s s' : IssuerSys} {a : IssuerAction X}
    (h : Reachable (issuer service start) s)
    (hstep : (issuer service start).step s a = some s') : ListMove service s a s' :=
  (listed_step h (listed_of_reachable h) hstep).2

/-! ## Every record was handed out -/

/-- The credential of the record was posted and accepted, or a redemption
returned it. -/
def IssuedCredential.HandedOut (service : IssuerService X) (s : IssuerSys)
    (record : IssuedCredential) : Prop :=
  (∃ t ∈ s.deliveries, ∃ call ∈ t.posts, call.isAccepted ∧ record.PostedIn service call) ∨
    ∃ jws, RedemptionPhase.issued jws ∈ s.redemptions ∧ record.AgreesWith service jws

theorem IssuedCredential.HandedOut.revokedIn {s : IssuerSys} {record : IssuedCredential}
    (h : record.HandedOut service s) (id : String) :
    (IssuedCredentials.revokedIn id record).HandedOut service s := by
  unfold IssuedCredentials.revokedIn
  split
  · rcases h with ⟨t, ht, call, hcall, haccepted, container, hc, jws, hpayload, htype, hjws⟩ |
      ⟨jws, hmem, hjws⟩
    · exact Or.inl ⟨t, ht, call, hcall, haccepted, container, hc, jws, hpayload, htype,
        hjws.congr rfl⟩
    · exact Or.inr ⟨jws, hmem, hjws.congr rfl⟩
  · exact h

/-- An accepted post and a returned credential stay what they are. -/
theorem IssuedCredential.HandedOut.step {s s' : IssuerSys} {a : IssuerAction X}
    {record : IssuedCredential} (hr : Reachable (issuer service start) s)
    (hstep : (issuer service start).step s a = some s') (h : record.HandedOut service s) :
    record.HandedOut service s' := by
  rcases h with ⟨t, ht, call, hcall, haccepted, hposted⟩ | ⟨jws, hmem, hjws⟩
  · obtain ⟨j, hj⟩ := List.getElem?_of_mem ht
    obtain ⟨t', ht', -, hcall'⟩ := accepted_post_kept hr
      (StepSystem.Steps.refl.tail (G := StepSystem.anyStep) a trivial hstep) hj hcall haccepted
    exact Or.inl ⟨t', List.mem_of_getElem? ht', call, hcall', haccepted, hposted⟩
  · obtain ⟨j, hj⟩ := List.getElem?_of_mem hmem
    rcases redemption_at hstep hj with hsame | ⟨event, r', -, -, -, hout⟩
    · exact Or.inr ⟨jws, List.mem_of_getElem? hsame, hjws⟩
    · cases event <;> cases hout

theorem handedOut_of_reachable {s : IssuerSys} (h : Reachable (issuer service start) s) :
    ∀ record ∈ s.app.issued.all, record.HandedOut service s := by
  refine h.invariant_of (J := fun s => Reachable (issuer service start) s)
    (I := fun s : IssuerSys => ∀ record ∈ s.app.issued.all, record.HandedOut service s)
    (fun _ hs => hs) (fun record hr => absurd hr List.not_mem_nil) ?_
  intro s₁ a s₂ hr hbefore hstep record hrecord
  cases list_move hr hstep with
  | same hall =>
      rw [hall] at hrecord
      exact (hbefore record hrecord).step hr hstep
  | revoked id hall =>
      rw [hall] at hrecord
      obtain ⟨old, hold, rfl⟩ := List.mem_map.mp hrecord
      exact ((hbefore old hold).revokedIn id).step hr hstep
  | delivered i t records ha ht hphase hall =>
      rw [hall] at hrecord
      rcases List.mem_append.mp hrecord with hold | hnew
      · exact (hbefore record hold).step hr hstep
      · have hmem := List.mem_of_getElem? ht
        obtain ⟨call, hcall, haccepted, hposted⟩ :=
          (faithful_of_reachable hr t hmem).answered records hphase
        have hout : record.HandedOut service s₁ :=
          Or.inl ⟨t, hmem, call, hcall, haccepted, hposted record hnew⟩
        exact hout.step hr hstep
  | redeemed i job holderId processId index now uuid ha hred hphases hall =>
      rw [hall] at hrecord
      rcases List.mem_append.mp hrecord with hold | hnew
      · exact (hbefore record hold).step hr hstep
      · rw [List.mem_singleton.mp hnew]
        refine Or.inr ⟨_, ?_, agrees_redemptionRecord job holderId processId index now uuid⟩
        rw [hphases]
        exact List.mem_set (List.getElem?_eq_some_iff.mp hred).1 _

end IdentityHub
