import IdentityHub.Issuer.Records
import IdentityHub.Issuer.Registry

/-!
# What a refusal leaves behind

A Credential Request and an OID4VCI redemption touch several tables one after another,
and either can be refused on the way. What is left of a refused one is at most the
record of a holder seen for the first time: that record is made before the caps and the
tables are looked at, and is kept. Everything else is as before.
-/

namespace IdentityHub

open Json (Value)
open StepSystem

/-! ## The ids of a request -/

/-- A scan that was not cut short keeps the first occurrence of each id. -/
theorem distinctIds_eq {acc ids : List String}
    (h : (distinctIds acc ids).length ≤ maxRequestCredentials) :
    distinctIds acc ids = acc ++ (ids.filter (fun id => id ∉ acc)).eraseDups := by
  induction ids generalizing acc with
  | nil => simp [distinctIds]
  | cons id rest ih =>
      rw [distinctIds] at h ⊢
      by_cases hmem : id ∈ acc
      · rw [if_pos hmem] at h ⊢
        rw [ih h, List.filter_cons_of_neg (by simpa using hmem)]
      · rw [if_neg hmem] at h ⊢
        split at h
        · rename_i hlong
          exact absurd h (Nat.not_le.mpr hlong)
        · rename_i hfits
          have hfilter : rest.filter (fun b => b ∉ acc ++ [id]) =
              (rest.filter (fun b => b ∉ acc)).filter (fun b => !b == id) := by
            rw [List.filter_filter]
            apply List.filter_congr
            intro b _
            by_cases hb : b = id <;> simp [hb]
          rw [if_neg hfits, ih h, List.filter_cons_of_pos (by simpa using hmem),
            List.eraseDups_cons, hfilter]
          simp

/-- The ids of a request that is not refused for them. -/
theorem ids_of_refuseIds {definitions : DefinitionCatalog} {credentials : List String}
    (h : refuseIds definitions (distinctIds [] credentials) = none) :
    distinctIds [] credentials = credentials.eraseDups ∧ credentials.eraseDups ≠ [] ∧
      credentials.eraseDups.length ≤ maxRequestCredentials := by
  have hbounds : distinctIds [] credentials ≠ [] ∧
      (distinctIds [] credentials).length ≤ maxRequestCredentials := by
    unfold refuseIds at h
    split at h
    · cases h
    · rename_i hne
      split at h
      · cases h
      · rename_i hfits
        exact ⟨hne, Nat.le_of_not_lt hfits⟩
  have heq : distinctIds [] credentials = credentials.eraseDups := by
    have hscan := distinctIds_eq hbounds.2
    simpa using hscan
  rw [heq] at hbounds
  exact ⟨heq, hbounds⟩

/-! ## One process more -/

/-- A process is added; one that has ended may have made room for it. -/
inductive RequestTable.Added (table : RequestTable) (id : String) (p : IssuanceProcess) :
    RequestTable → Prop
  | room : Added table id p
      { records := table.records.insert id p
        order := table.order ++ [id]
        capacity := table.capacity }
  | evicted (oldest : String) (ended : IssuanceProcess) :
      table.get oldest = some ended → ended.state.isTerminal →
        Added table id p
          { records := (table.records.erase oldest).insert id p
            order := table.order.erase oldest ++ [id]
            capacity := table.capacity }

theorem RequestTable.Kept.added {capacity : ℕ} {inserted : List String}
    {table table' : RequestTable} {id : String} {p : IssuanceProcess}
    (h : table.Kept capacity inserted) (hins : table.insert id p = .ok table') :
    table.Added id p table' := by
  rcases h.insert_cases with hroom | ⟨hfull, oldest, holdest⟩ | ⟨hfull, hnone⟩
  · rw [insert_of_room (h.sameCapacity.symm ▸ hroom)] at hins
    cases hins
    exact .room
  · have hended := List.find?_some holdest
    rw [hasEnded, Option.any_eq_true] at hended
    obtain ⟨ended, hget, hstate⟩ := hended
    rw [h.insert_of_full hfull holdest] at hins
    cases hins
    exact .evicted oldest ended hget hstate
  · rw [(h.insert_of_stuck id p hfull hnone).1] at hins
    cases hins

/-- A refused insertion leaves the table alone. -/
theorem RequestTable.Kept.refused {capacity : ℕ} {inserted : List String}
    {table : RequestTable} {id : String} {p : IssuanceProcess} {e : TableFull}
    (h : table.Kept capacity inserted) (hins : table.insert id p = .error e) :
    table.leftByRefusal = table := by
  rcases h.insert_cases with hroom | ⟨hfull, oldest, holdest⟩ | ⟨hfull, hnone⟩
  · rw [insert_of_room (h.sameCapacity.symm ▸ hroom)] at hins
    cases hins
  · rw [h.insert_of_full hfull holdest] at hins
    cases hins
  · exact (h.insert_of_stuck id p hfull hnone).2

/-! ## One holder more -/

variable {X : External} {service : IssuerService X} {start : ℕ}

/-- The record of a DID seen for the first time. -/
structure FirstContact (service : IssuerService X) (holders : HolderRegistry) (did : String)
    (holder : Holder) (holders' : HolderRegistry) : Prop where
  unknown : holders.byDid did = none
  did : holder.did = did
  status : holder.status = service.holderApproval.firstStatus
  inserted : holders.insert holder = .ok (holder, holders')

theorem findOrInsertHolder_cases {holders holders' : HolderRegistry} {did uuid : String} {now : ℕ}
    {holder : Holder} (h : findOrInsertHolder service holders did now uuid = .ok (holder, holders')) :
    (holders.byDid did = some holder ∧ holders' = holders) ∨
      FirstContact service holders did holder holders' := by
  unfold findOrInsertHolder at h
  split at h
  · rename_i found hfound
    cases h
    exact Or.inl ⟨hfound, rfl⟩
  · rename_i hnone
    have hsame := (HolderRegistry.insert_eq_ok h).1
    dsimp only at hsame
    subst hsame
    exact Or.inr ⟨hnone, rfl, rfl, h⟩

/-! ## A Credential Request -/

/-- What a request that is answered with 201 has done. -/
structure Admitted (service : IssuerService X) (app : AppState) (did : String)
    (message : CredentialRequestMessage) (processId : String) (holder : Holder)
    (p : IssuanceProcess) (app' : AppState) : Prop where
  definitions : app'.definitions = app.definitions
  issued : app'.issued = app.issued
  holders : app'.holders.byDid did = some holder ∧
    (app'.holders = app.holders ∨ FirstContact service app.holders did holder app'.holders)
  new : app.requests.get processId = none
  added : app.requests.Added processId p app'.requests
  ids : p.credentialDefinitions = message.credentials.eraseDups
  few : 1 ≤ message.credentials.eraseDups.length ∧
    message.credentials.eraseDups.length ≤ maxRequestCredentials
  known : ∀ id ∈ message.credentials.eraseDups, (app.definitions.get id).isSome
  identity : p.id = processId ∧ p.holderId = holder.holderId ∧ p.holderDid = did ∧
    p.holderPid = message.holderPid
  governed : holder.status.processState = some p.state

/-- There is no place for another process: the caps on SUBMITTED processes are reached,
or the table is full of processes that go on. -/
def Crowded (requests : RequestTable) (holder : Holder) (processId : String) : Prop :=
  (holder.status = .pending ∧ pendingCapReached requests holder.holderId = true) ∨
    ∃ p e, requests.insert processId p = .error e

/-- What a request that is refused leaves: everything as before, but for the record of
an unknown caller for whose process there is no place. -/
structure Refused (service : IssuerService X) (app : AppState) (claims : Value)
    (processId : String) (response : Response) (app' : AppState) : Prop where
  definitions : app'.definitions = app.definitions
  requests : app'.requests = app.requests
  evicted : ∀ p e, app.requests.insert processId p = .error e →
    app.requests.leftByRefusal = app.requests
  issued : app'.issued = app.issued
  holders : app'.holders = app.holders ∨
    response.status = 503 ∧ ∃ did holder, claims.getStr "sub" = some did ∧
      FirstContact service app.holders did holder app'.holders ∧
        Crowded app.requests holder processId

/-- The holder that a lookup or an insertion gave is the one the DID names from then
on. -/
theorem byDid_of_found {holders holders' : HolderRegistry} {did uuid : String} {now : ℕ}
    {holder : Holder} (hc : holders.Consistent)
    (h : findOrInsertHolder service holders did now uuid = .ok (holder, holders')) :
    holders'.byDid did = some holder := by
  rcases findOrInsertHolder_cases h with ⟨hfound, rfl⟩ | hcontact
  · exact hfound
  · have hget := HolderRegistry.get_insert hcontact.inserted holder.holderId
    rw [if_pos rfl] at hget
    exact (hc.insert hcontact.inserted).byDid hget (congrArg holderKey hcontact.did.symm)

theorem processState_submitted {holder : Holder} (h : holder.status.processState = some .submitted) :
    holder.status = .pending := by
  cases hstatus : holder.status <;> rw [hstatus] at h <;> first | rfl | cases h

/-- The last part of a request, for a holder found or made. -/
theorem admitRequest_cases {app : AppState} {holders' : HolderRegistry} {holder : Holder}
    {did uuid processId : String} {message : CredentialRequestMessage} {claims : Value} {now : ℕ}
    {inserted : List String} (hc : app.holders.Consistent)
    (hkept : app.requests.Kept maxTrackedRequests inserted) (hnew : processId ∉ inserted)
    (hsub : claims.getStr "sub" = some did)
    (hids : refuseIds app.definitions (distinctIds [] message.credentials) = none)
    (hfind : findOrInsertHolder service app.holders did now uuid = .ok (holder, holders'))
    {out : RequestOutcome} (hout : admitRequest { app with holders := holders' } holder did message
      (distinctIds [] message.credentials) (claims.getStr "token") now processId = out) :
    (out.response.status = 201 ∧ ∃ p,
      Admitted service app did message processId holder p out.app) ∨
    (out.response.status ∈ [400, 403, 503] ∧
      Refused service app claims processId out.response out.app) := by
  obtain ⟨heq, hne, hfew⟩ := ids_of_refuseIds hids
  have hcontact := findOrInsertHolder_cases hfind
  have hevicted : ∀ p e, app.requests.insert processId p = .error e →
      app.requests.leftByRefusal = app.requests := fun p e hins => hkept.refused hins
  have hrefused : ∀ response : Response, response.status = 503 →
      Crowded app.requests holder processId →
        Refused service app claims processId response { app with holders := holders' } := by
    intro response hstatus hcrowded
    refine ⟨rfl, rfl, hevicted, rfl, ?_⟩
    rcases hcontact with ⟨-, hsame⟩ | hcontact
    · exact Or.inl hsame
    · exact Or.inr ⟨hstatus, did, holder, hsub, hcontact, hcrowded⟩
  unfold admitRequest at hout
  split at hout
  · rename_i hstate
    subst hout
    refine Or.inr ⟨by simp, rfl, rfl, hevicted, rfl, Or.inl ?_⟩
    rcases hcontact with ⟨-, hsame⟩ | hcontact
    · exact hsame
    · -- a holder seen for the first time is not a rejected one
      rw [hcontact.status] at hstate
      cases happroval : service.holderApproval <;> rw [happroval] at hstate <;> cases hstate
  · rename_i state hstate
    split at hout
    · rename_i hcap
      subst hout
      obtain ⟨rfl, hreached⟩ := hcap
      exact Or.inr ⟨by simp,
        hrefused _ rfl (Or.inl ⟨processState_submitted hstate, hreached⟩)⟩
    · split at hout
      · rename_i e hins
        subst hout
        exact Or.inr ⟨by simp, hrefused _ rfl (Or.inr ⟨_, e, hins⟩)⟩
      · rename_i requests hins
        subst hout
        refine Or.inl ⟨rfl, requestedProcess processId state holder did message
          (distinctIds [] message.credentials) (claims.getStr "token") now,
          { definitions := rfl
            issued := rfl
            holders := ⟨byDid_of_found hc hfind, hcontact.imp And.right id⟩
            new := ?_
            added := hkept.added hins
            ids := heq
            few := ⟨List.length_pos_iff.mpr hne, hfew⟩
            known := heq ▸ refuseIds_eq_none hids
            identity := ⟨rfl, rfl, rfl, rfl⟩
            governed := hstate }⟩
        apply AList.lookup_eq_none.mpr
        intro hmem
        exact hnew (hkept.inOrder.subset ((hkept.queued.mem processId).mpr hmem))

/-- **A Credential Request is all or nothing, but for the holder's record.** It is
answered with 201 and has added one process, in place of at most one that had ended,
for the distinct ids it names, in the state the holder's status asks for, and at most
one holder; or it is refused and has changed nothing, except that an unknown caller for
whose process there is no place is on record from now on. -/
theorem credential_request_atomic {s : IssuerSys} (h : Reachable (issuer service start) s)
    {processId : String} (hfresh : processId ∉ s.drawn) (claims : Value)
    (message : CredentialRequestMessage) (now : ℕ) (holderUuid : String) :
    let out := credentialRequest service s.app claims message now processId holderUuid
    (out.response.status = 201 ∧ ∃ did holder p, claims.getStr "sub" = some did ∧
      Admitted service s.app did message processId holder p out.app) ∨
    (out.response.status ∈ [400, 403, 503] ∧
      Refused service s.app claims processId out.response out.app) := by
  obtain ⟨inserted, hrun, hdrawn⟩ := (capped_of_reachable h).run
  have hkept := hrun.kept
  have hevicted : ∀ p e, s.app.requests.insert processId p = .error e →
      s.app.requests.leftByRefusal = s.app.requests := fun p e hins => hkept.refused hins
  dsimp only
  unfold credentialRequest
  split
  · exact Or.inr ⟨by simp, rfl, rfl, hevicted, rfl, Or.inl rfl⟩
  · rename_i did hsub
    split
    · rename_i response hids
      refine Or.inr ⟨?_, rfl, rfl, hevicted, rfl, Or.inl rfl⟩
      rw [refuseIds_status hids]
      decide
    · rename_i hids
      split
      · exact Or.inr ⟨by simp, rfl, rfl, hevicted, rfl, Or.inl rfl⟩
      · rename_i holder holders hfind
        rcases admitRequest_cases (consistent_of_reachable h) hkept
            (fun hmem => hfresh (hdrawn _ hmem)) hsub hids hfind rfl with
          ⟨hstatus, p, hadmitted⟩ | hrefused
        · exact Or.inl ⟨hstatus, did, holder, p, hsub, hadmitted⟩
        · exact Or.inr hrefused

/-! ## Indexes -/

/-- The index was handed out and not given back. -/
def StatusList.IsAllocated (list : StatusList) (index : ℕ) : Prop :=
  index < list.nextIndex ∧ index ∉ list.free

theorem StatusList.isAllocated_allocate {list list' : StatusList} {index : ℕ}
    (hbelow : ∀ i ∈ list.free, i < list.nextIndex) (h : list.allocate = some (index, list')) :
    ¬ list.IsAllocated index ∧
      ∀ i, list'.IsAllocated i ↔ i = index ∨ list.IsAllocated i := by
  obtain ⟨-, -, ⟨hhead, hnext⟩ | ⟨hnone, hsame, rfl, -, hnext⟩⟩ := allocate_eq_some h
  · have hfree : ∀ i, i ∈ list.free ↔ i = index ∨ i ∈ list'.free := by
      intro i
      rw [SortedSet.mem_def, hhead, List.mem_cons, SortedSet.mem_def]
    have hnodup : index ∉ list'.free := by
      have hsorted := list.free.nodup
      rw [hhead] at hsorted
      exact (List.nodup_cons.mp hsorted).1
    have hlt := hbelow index ((hfree index).mpr (Or.inl rfl))
    refine ⟨fun hallocated => hallocated.2 ((hfree index).mpr (Or.inl rfl)), fun i => ?_⟩
    rw [IsAllocated, IsAllocated, hnext, hfree i]
    by_cases hi : i = index
    · subst hi
      simp [hlt, hnodup]
    · simp [hi]
  · have hempty : ∀ i, i ∉ list.free := by
      intro i hi
      rw [SortedSet.mem_def, hnone] at hi
      exact List.not_mem_nil hi
    refine ⟨fun hallocated => absurd hallocated.1 (Nat.lt_irrefl _), fun i => ?_⟩
    rw [IsAllocated, IsAllocated, hnext, hsame]
    simp only [hempty, not_false_eq_true, and_true]
    omega

/-- Giving back the index just handed out. -/
theorem StatusList.isAllocated_release {list list' : StatusList} {index : ℕ}
    (hbelow : ∀ i ∈ list.free, i < list.nextIndex) (hunset : list.isSet index = false)
    (h : list.allocate = some (index, list')) (i : ℕ) :
    (list'.release index).IsAllocated i ↔ list.IsAllocated i := by
  obtain ⟨hnot, hall⟩ := isAllocated_allocate hbelow h
  obtain ⟨hlt, -⟩ := (hall index).mpr (Or.inl rfl)
  have hbit : list'.isSet index = false := by
    rw [isSet, (allocate_eq_some h).1]
    exact hunset
  have hback := release_of_unset hlt hbit
  have hsplit : (list'.release index).IsAllocated i ↔ i ≠ index ∧ list'.IsAllocated i := by
    rw [hback]
    simp only [IsAllocated, SortedSet.mem_insert, not_or]
    tauto
  rw [hsplit, hall i]
  constructor
  · rintro ⟨hne, hi⟩
    exact hi.resolve_left hne
  · intro hi
    refine ⟨?_, Or.inr hi⟩
    rintro rfl
    exact hnot hi

/-- An index that is free, or was never handed out, has its bit clear. -/
theorem Accounts.unset_allocate {s : IssuerSys} (hs : Accounts s) {index : ℕ} {list : StatusList}
    (h : s.app.issued.statusList.allocate = some (index, list)) :
    s.app.issued.statusList.isSet index = false := by
  apply hs.unset
  obtain ⟨-, -, ⟨hhead, -⟩ | ⟨-, -, rfl, -, -⟩⟩ := StatusList.allocate_eq_some h
  · apply hs.balanced.recorded_of_free
    show index ∈ s.app.issued.statusList.free.toList
    rw [hhead]
    exact List.mem_cons_self
  · intro hmem
    exact Nat.lt_irrefl _ (hs.balanced.lt_next_iff.mpr (Or.inr (Or.inr hmem)))

/-! ## An OID4VCI redemption -/

/-- What one `record_and_mint` reads from the clock and draws. -/
structure RedemptionDraws where
  now : ℕ
  holderUuid : String
  processId : String
  mintedAt : ℕ
  credentialUuid : String

/-- The section that comes next. -/
def RedemptionPhase.next (draws : RedemptionDraws) : RedemptionPhase → Option RedemptionEvent
  | .governing _ _ => some (.govern draws.now draws.holderUuid)
  | .allocating _ _ => some .allocate
  | .inserting _ _ _ => some (.insert draws.processId)
  | .refusing _ => some .release
  | .recording _ _ _ _ => some (.record draws.mintedAt draws.credentialUuid)
  | .refused _ _ => none
  | .issued _ => none

/-- So many sections, with nobody in between. -/
def runAlone (service : IssuerService X) (draws : RedemptionDraws) :
    ℕ → AppState → RedemptionPhase → AppState × RedemptionPhase
  | 0, app, phase => (app, phase)
  | sections + 1, app, phase =>
      match (phase.next draws).bind (redemptionStep service app phase) with
      | some (app', phase') => runAlone service draws sections app' phase'
      | none => (app, phase)

/-- `record_and_mint`: four sections, or fewer. -/
def recordAndMint (service : IssuerService X) (app : AppState) (definition : CredentialDefinition)
    (holderDid : String) (draws : RedemptionDraws) : AppState × RedemptionPhase :=
  runAlone service draws 4 app (.governing definition holderDid)

/-- What a redemption that is answered with a credential has done. -/
structure Issued (service : IssuerService X) (app : AppState) (definition : CredentialDefinition)
    (holderDid : String) (processId : String) (jws : String) (holder : Holder)
    (p : IssuanceProcess) (record : IssuedCredential) (app' : AppState) : Prop where
  definitions : app'.definitions = app.definitions
  holders : app'.holders.byDid holderDid = some holder ∧ holder.status ≠ .rejected ∧
    (app'.holders = app.holders ∨ FirstContact service app.holders holderDid holder app'.holders)
  newProcess : app.requests.get processId = none
  added : app.requests.Added processId p app'.requests
  delivered : p.state = .delivered ∧ p.id = processId ∧ p.holderId = holder.holderId ∧
    p.holderDid = holderDid ∧ p.credentialDefinitions = [definition.id]
  newRecord : app.issued.get record.id = none
  recorded : app'.issued.records = app.issued.records.insert record.id record ∧
    app'.issued.order = app.issued.order ++ [record.id]
  active : record.status = .active ∧ record.issuanceProcessId = processId ∧
    record.credentialDefinitionId = definition.id ∧ record.AgreesWith service jws
  alone : ∀ r ∈ app.issued.all, r.issuanceProcessId ≠ processId
  index : ¬ app.issued.statusList.IsAllocated record.statusListIndex ∧
    (∀ i, app'.issued.statusList.IsAllocated i ↔
      i = record.statusListIndex ∨ app.issued.statusList.IsAllocated i) ∧
      app'.issued.statusList.bits = app.issued.statusList.bits

/-- What a redemption that is refused leaves: everything as before, but for the record
of an unknown holder for whose credential there is no index or no process. -/
structure Denied (service : IssuerService X) (app : AppState) (holderDid : String)
    (processId : String) (status : ℕ) (app' : AppState) : Prop where
  definitions : app'.definitions = app.definitions
  requests : app'.requests = app.requests
  evicted : ∀ p e, app.requests.insert processId p = .error e →
    app.requests.leftByRefusal = app.requests
  records : app'.issued.records = app.issued.records ∧ app'.issued.order = app.issued.order
  indexes : (∀ i, app'.issued.statusList.IsAllocated i ↔ app.issued.statusList.IsAllocated i) ∧
    app'.issued.statusList.bits = app.issued.statusList.bits
  holders : app'.holders = app.holders ∨
    status = 503 ∧ ∃ holder, FirstContact service app.holders holderDid holder app'.holders ∧
      (app.issued.statusList.allocate = none ∨ ∃ p e, app.requests.insert processId p = .error e)

theorem runAlone_refused (draws : RedemptionDraws) (sections : ℕ) (app : AppState) (status : ℕ)
    (description : String) :
    runAlone service draws sections app (.refused status description) =
      (app, .refused status description) := by
  cases sections <;> rfl

/-- The first section: refused, or the holder found or made. -/
theorem govern_cases (app : AppState) (definition : CredentialDefinition) (did : String) (now : ℕ)
    (uuid : String) :
    (∃ status description, redemptionStep service app (.governing definition did)
        (.govern now uuid) = some (app, .refused status description) ∧ status ∈ [400, 503]) ∨
    ∃ holder holders,
      findOrInsertHolder service app.holders did now uuid = .ok (holder, holders) ∧
        holder.status ≠ .rejected ∧
          redemptionStep service app (.governing definition did) (.govern now uuid) =
            some ({ app with holders := holders }, .allocating
              { definition := definition, holderDid := did, now := now } holder.holderId) := by
  cases hfound : app.holders.byDid did with
  | some holder =>
      by_cases hrejected : holder.status = .rejected
      · refine Or.inl ⟨400, "holder has been rejected by this issuer", ?_, by simp⟩
        simp only [redemptionStep, hfound, if_pos hrejected]
      · refine Or.inr ⟨holder, app.holders, ?_, hrejected, ?_⟩
        · unfold findOrInsertHolder
          rw [hfound]
        · simp only [redemptionStep, hfound, if_neg hrejected]
  | none =>
      cases hfind : findOrInsertHolder service app.holders did now uuid with
      | error e =>
          refine Or.inl ⟨503, "holder registry is full", ?_, by simp⟩
          simp only [redemptionStep, hfound, hfind]
      | ok found =>
          obtain ⟨holder, holders⟩ := found
          refine Or.inr ⟨holder, holders, rfl, ?_, ?_⟩
          · rcases findOrInsertHolder_cases hfind with ⟨hknown, -⟩ | hcontact
            · rw [hfound] at hknown
              cases hknown
            · rw [hcontact.status]
              cases service.holderApproval <;> simp [HolderApproval.firstStatus]
          · simp only [redemptionStep, hfound, hfind]

/-- **An OID4VCI issuance is all or nothing, but for the holder's record.** With nobody
in between, a redemption is answered with a credential and has added one DELIVERED
process, one active record of the credential and at most one holder, and has taken one
index; or it is refused and has changed nothing, except that an unknown holder for whose
credential there is no index or no process is on record from now on. -/
theorem record_and_mint_atomic {s : IssuerSys} (h : Reachable (issuer service start) s)
    {draws : RedemptionDraws} (hprocess : draws.processId ∉ s.drawn)
    (hcredential : draws.credentialUuid ∉ s.drawn) (definition : CredentialDefinition)
    (holderDid : String) :
    let out := recordAndMint service s.app definition holderDid draws
    (∃ jws holder p record, out.2 = .issued jws ∧
      Issued service s.app definition holderDid draws.processId jws holder p record out.1) ∨
    ∃ status description, out.2 = .refused status description ∧ status ∈ [400, 503] ∧
      Denied service s.app holderDid draws.processId status out.1 := by
  obtain ⟨inserted, hrun, hdrawn⟩ := (capped_of_reachable h).run
  have hkept := hrun.kept
  have hnew : draws.processId ∉ inserted := fun hmem => hprocess (hdrawn _ hmem)
  have hevicted : ∀ p e, s.app.requests.insert draws.processId p = .error e →
      s.app.requests.leftByRefusal = s.app.requests := fun p e hins => hkept.refused hins
  have haccounts := accounts_of_reachable h
  have hbelow : ∀ i ∈ s.app.issued.statusList.free, i < s.app.issued.statusList.nextIndex :=
    fun i hi => haccounts.balanced.lt_next_iff.mpr (Or.inl hi)
  dsimp only
  unfold recordAndMint
  rw [runAlone]
  dsimp only [RedemptionPhase.next, Option.bind_some]
  rcases @govern_cases X service s.app definition holderDid draws.now draws.holderUuid with
    ⟨status, description, hstep, hstatus⟩ | ⟨holder, holders, hfind, hnot, hstep⟩
  · rw [hstep]
    dsimp only
    rw [runAlone_refused]
    exact Or.inr ⟨status, description, rfl, hstatus, rfl, rfl, hevicted, ⟨rfl, rfl⟩,
      ⟨fun _ => Iff.rfl, rfl⟩, Or.inl rfl⟩
  · have hcontact := findOrInsertHolder_cases hfind
    have hleft : (s.app.issued.statusList.allocate = none ∨
        ∃ p e, s.app.requests.insert draws.processId p = .error e) →
          holders = s.app.holders ∨ (503 : ℕ) = 503 ∧ ∃ holder,
            FirstContact service s.app.holders holderDid holder holders ∧
              (s.app.issued.statusList.allocate = none ∨
                ∃ p e, s.app.requests.insert draws.processId p = .error e) := by
      intro hcrowded
      rcases hcontact with ⟨-, hsame⟩ | hcontact
      · exact Or.inl hsame
      · exact Or.inr ⟨rfl, holder, hcontact, hcrowded⟩
    rw [hstep]
    dsimp only
    rw [runAlone]
    dsimp only [RedemptionPhase.next, Option.bind_some, redemptionStep]
    cases hallocate : s.app.issued.statusList.allocate with
    | none =>
        dsimp only
        rw [runAlone_refused]
        exact Or.inr ⟨503, _, rfl, by simp, rfl, rfl, hevicted, ⟨rfl, rfl⟩,
          ⟨fun _ => Iff.rfl, rfl⟩, hallocate ▸ hleft (Or.inl hallocate)⟩
    | some taken =>
        obtain ⟨index, list⟩ := taken
        have hbits : list.bits = s.app.issued.statusList.bits :=
          (StatusList.allocate_eq_some hallocate).1
        dsimp only
        rw [runAlone]
        dsimp only [RedemptionPhase.next, Option.bind_some, redemptionStep]
        split
        · rename_i out hout
          split at hout
          · -- the table is full: the index goes back
            rename_i e hins
            cases hout
            rw [runAlone]
            dsimp only [RedemptionPhase.next, Option.bind_some, redemptionStep]
            rw [runAlone]
            have hback := StatusList.isAllocated_release hbelow
              (haccounts.unset_allocate hallocate) hallocate
            exact Or.inr ⟨503, _, rfl, by simp, rfl, rfl, hevicted, ⟨rfl, rfl⟩,
              ⟨hback, (StatusList.bits_release index).trans hbits⟩,
              hallocate ▸ hleft (Or.inr ⟨_, e, hins⟩)⟩
          · rename_i requests hins
            cases hout
            rw [runAlone]
            dsimp only [RedemptionPhase.next, Option.bind_some, redemptionStep]
            rw [runAlone]
            obtain ⟨hfree, htaken⟩ := StatusList.isAllocated_allocate hbelow hallocate
            refine Or.inl ⟨_, holder, redemptionProcess _ holder.holderId draws.processId,
              redemptionRecord _ holder.holderId draws.processId index
                (mintCredential service definition holderDid (some index) draws.mintedAt
                  draws.credentialUuid), rfl,
              { definitions := rfl
                holders := ⟨byDid_of_found (consistent_of_reachable h) hfind, hnot,
                  hcontact.imp And.right id⟩
                newProcess := ?_
                added := hkept.added hins
                delivered := ⟨rfl, rfl, rfl, rfl, rfl⟩
                newRecord := ?_
                recorded := ⟨rfl, rfl⟩
                active := ⟨rfl, rfl, rfl,
                  agrees_redemptionRecord
                    { definition := definition, holderDid := holderDid, now := draws.now }
                    holder.holderId draws.processId index draws.mintedAt draws.credentialUuid⟩
                alone := fun r hr hsame =>
                  hprocess (hsame ▸ (tallied_of_reachable h).known r hr)
                index := ⟨hfree, htaken, hbits⟩ }⟩
            · apply AList.lookup_eq_none.mpr
              intro hmem
              exact hnew (hkept.inOrder.subset ((hkept.queued.mem _).mpr hmem))
            · apply AList.lookup_eq_none.mpr
              intro hmem
              have hid : credentialId draws.credentialUuid ∈ s.recordIds :=
                Multiset.mem_add.mpr (Or.inr (AList.mem_keys.mp hmem))
              obtain ⟨d, hd, hsame⟩ := haccounts.drawn _ hid
              exact hcredential (credentialId_injective hsame ▸ hd)
        · rename_i hout
          split at hout <;> cases hout

/-! ## A full table and a caller never seen before -/

/-- A word of `n + 1` letters. -/
def floodId (letter : Char) (n : ℕ) : String := String.ofList (List.replicate (n + 1) letter)

theorem length_floodId (letter : Char) (n : ℕ) : (floodId letter n).length = n + 1 := by
  simp [floodId]

theorem floodId_ne (n : ℕ) : floodId 'p' n ≠ floodId 'h' n := by
  intro h
  have hlist := congrArg String.toList h
  simp [floodId, List.replicate_succ] at hlist

/-- Acme has asked `n` times, and nothing was delivered; all but the requests is as in
`s₁`. -/
structure Flooded (s₁ : IssuerSys) (n : ℕ) (s : IssuerSys) : Prop where
  reachable : Reachable (issuer (sampleIssuer .auto) 0) s
  definitions : s.app.definitions = s₁.app.definitions
  holders : s.app.holders = s₁.app.holders
  issued : s.app.issued = s₁.app.issued
  size : KeyedTable.size s.app.requests.records = n
  approved : ∀ k p, s.app.requests.get k = some p → p.state = .approved
  drawn : ∀ u ∈ s.drawn, u.length ≤ n

/-- The state after the first request. -/
structure FirstAsked (s₁ : IssuerSys) : Prop where
  reachable : Reachable (issuer (sampleIssuer .auto) 0) s₁
  acme : ∃ holder, s₁.app.holders.byDid "did:web:acme.example" = some holder ∧
    holder.status = .approved
  stranger : s₁.app.holders.byDid "did:web:stranger.example" = none
  unused : "stranger" ∉ s₁.app.holders.holders
  room : KeyedTable.size s₁.app.holders.holders < maxHolders
  known : refuseIds s₁.app.definitions ["membership-credential"] = none
  indexes : (s₁.app.issued.statusList.allocate).isSome

/-- Acme asks for the seeded credential. -/
def floodRequest (n : ℕ) : IssuerAction reference :=
  .credentialRequest acmeClaims (acmeRequest ["membership-credential"]) 0 (floodId 'p' n)
    (floodId 'h' n)

set_option maxRecDepth 4000 in
theorem first_asked : ∃ s₁, FirstAsked s₁ ∧ Flooded s₁ 1 s₁ := by
  obtain ⟨s₁, hr, hp⟩ := @StepSystem.exists_reachable_of_run _ _ (issuer (sampleIssuer .auto) 0)
    [floodRequest 0]
    (fun s =>
      ((s.app.holders.byDid "did:web:acme.example").map (·.status) = some .approved ∧
        s.app.holders.byDid "did:web:stranger.example" = none ∧
          "stranger" ∉ s.app.holders.holders ∧
            KeyedTable.size s.app.holders.holders < maxHolders ∧
              refuseIds s.app.definitions ["membership-credential"] = none ∧
                (s.app.issued.statusList.allocate).isSome) ∧
      KeyedTable.size s.app.requests.records = 1 ∧
        (∀ p ∈ KeyedTable.values s.app.requests.records, p.state = .approved) ∧
          ∀ u ∈ s.drawn, u.length ≤ 1)
    (by decide +kernel)
  obtain ⟨⟨hacme, hstranger, hunused, hroom, hknown, hindexes⟩, hsize, happroved, hdrawn⟩ :=
    of_decide_eq_true hp
  obtain ⟨holder, hholder, hstatus⟩ := Option.map_eq_some_iff.mp hacme
  exact ⟨s₁, ⟨hr, ⟨holder, hholder, hstatus⟩, hstranger, hunused, hroom, hknown,
    hindexes⟩, ⟨hr, rfl, rfl, rfl, hsize,
      fun k p hget => happroved p (RequestTable.mem_values.mpr ⟨k, hget⟩), hdrawn⟩⟩

theorem Flooded.ask {s₁ s : IssuerSys} {n : ℕ} (h₁ : FirstAsked s₁) (h : Flooded s₁ n s)
    (hroom : n < maxTrackedRequests) : ∃ s', Flooded s₁ (n + 1) s' := by
  obtain ⟨holder, hacme, happroved⟩ := h₁.acme
  obtain ⟨inserted, hrun, hdrawn⟩ := (capped_of_reachable h.reachable).run
  have hkept := hrun.kept
  have hfresh : ∀ letter, floodId letter n ∉ s.drawn := by
    intro letter hmem
    have hlong := h.drawn _ hmem
    rw [length_floodId] at hlong
    omega
  have hid : floodId 'p' n ∉ s.app.requests.records := by
    intro hmem
    exact hfresh 'p' (hdrawn _ (hkept.inOrder.subset ((hkept.queued.mem _).mpr hmem)))
  let p := requestedProcess (floodId 'p' n) .approved holder "did:web:acme.example"
    (acmeRequest ["membership-credential"]) ["membership-credential"] none 0
  let requests : RequestTable :=
    { records := s.app.requests.records.insert (floodId 'p' n) p
      order := s.app.requests.order ++ [floodId 'p' n]
      capacity := s.app.requests.capacity }
  have hins : s.app.requests.insert (floodId 'p' n) p = .ok requests := by
    apply RequestTable.insert_of_room
    rw [h.size, hkept.sameCapacity]
    exact hroom
  have hout : credentialRequest (sampleIssuer .auto) s.app acmeClaims
      (acmeRequest ["membership-credential"]) 0 (floodId 'p' n) (floodId 'h' n) =
        { response := { status := 201, location := some ("/requests/" ++ floodId 'p' n) }
          app := { s.app with requests := requests }
          deliverNow := true } := by
    have hids : refuseIds s.app.definitions
        (distinctIds [] (acmeRequest ["membership-credential"]).credentials) = none := by
      rw [h.definitions]
      exact h₁.known
    have hfind : findOrInsertHolder (sampleIssuer .auto) s.app.holders "did:web:acme.example" 0
        (floodId 'h' n) = .ok (holder, s.app.holders) := by
      rw [findOrInsertHolder, h.holders, hacme]
    unfold credentialRequest
    rw [show acmeClaims.getStr "sub" = some "did:web:acme.example" from rfl]
    dsimp only
    rw [hids]
    dsimp only
    rw [hfind]
    dsimp only
    rw [admitRequest, happroved]
    dsimp only [HolderStatus.processState]
    rw [if_neg (by simp)]
    have hins' : s.app.requests.insert (floodId 'p' n) (requestedProcess (floodId 'p' n) .approved
        holder "did:web:acme.example" (acmeRequest ["membership-credential"])
          (distinctIds [] (acmeRequest ["membership-credential"]).credentials)
            (acmeClaims.getStr "token") 0) = .ok requests := hins
    rw [hins']
    rfl
  have hstep : (issuer (sampleIssuer .auto) 0).step s (floodRequest n) =
      some
        { app := { s.app with requests := requests }
          deliveries := s.deliveries ++ [.new (floodId 'p' n)]
          redemptions := s.redemptions
          drawn := [floodId 'p' n, floodId 'h' n] ++ s.drawn
          vouched := s.vouched } := by
    show issuerStep _ s _ = _
    unfold issuerStep
    rw [if_pos]
    · show Option.map _ (some _) = _
      dsimp only [Option.map_some]
      rw [hout]
      rfl
    · constructor
      · show [floodId 'p' n, floodId 'h' n].Nodup
        simp [floodId_ne n]
      · intro u hu
        rcases List.mem_cons.mp hu with rfl | hu
        · exact hfresh 'p'
        · rw [List.mem_singleton.mp hu]
          exact hfresh 'h'
  refine ⟨_, h.reachable.step hstep, h.definitions, h.holders, h.issued, ?_, ?_, ?_⟩
  · show KeyedTable.size (s.app.requests.records.insert (floodId 'p' n) p) = n + 1
    rw [KeyedTable.size_insert p hid, h.size]
  · intro k q hget
    change (s.app.requests.records.insert (floodId 'p' n) p).lookup k = some q at hget
    rw [KeyedTable.lookup_insert] at hget
    split at hget
    · cases hget
      rfl
    · exact h.approved k q hget
  · intro u hu
    rcases List.mem_append.mp hu with hnew | hold
    · rcases List.mem_cons.mp hnew with rfl | hnew
      · exact (length_floodId 'p' n).le
      · rw [List.mem_singleton.mp hnew]
        exact (length_floodId 'h' n).le
    · exact Nat.le_succ_of_le (h.drawn u hold)

theorem flooded (n : ℕ) (hfits : n + 1 ≤ maxTrackedRequests) :
    ∃ s₁ s, FirstAsked s₁ ∧ Flooded s₁ (n + 1) s := by
  induction n with
  | zero =>
      obtain ⟨s₁, h₁, h⟩ := first_asked
      exact ⟨s₁, s₁, h₁, h⟩
  | succ n ih =>
      obtain ⟨s₁, s, h₁, h⟩ := ih (Nat.le_of_succ_le hfits)
      obtain ⟨s', h'⟩ := h.ask h₁ hfits
      exact ⟨s₁, s', h₁, h'⟩

/-- The record of the stranger. -/
def stranger (now : ℕ) : Holder where
  holderId := "stranger"
  did := "did:web:stranger.example"
  name := none
  properties := []
  status := .approved
  createdAt := now

/-- A full table of processes that go on, and a DID the registry has a place for. -/
theorem full_table :
    ∃ s : IssuerSys, Reachable (issuer (sampleIssuer .auto) 0) s ∧
      (∀ id p, s.app.requests.insert id p = .error .tableFull) ∧
        (∀ u ∈ s.drawn, u.length ≤ maxTrackedRequests) ∧
          (∀ now, ∃ holders, findOrInsertHolder (sampleIssuer .auto) s.app.holders
            "did:web:stranger.example" now "stranger" = .ok (stranger now, holders) ∧
              holders ≠ s.app.holders) ∧
            s.app.holders.byDid "did:web:stranger.example" = none ∧
              refuseIds s.app.definitions ["membership-credential"] = none ∧
                (s.app.issued.statusList.allocate).isSome := by
  obtain ⟨s₁, s, h₁, h⟩ := flooded 2047 (by decide)
  obtain ⟨inserted, hrun, -⟩ := (capped_of_reachable h.reachable).run
  have hkept := hrun.kept
  have hnone : s.app.requests.order.find? s.app.requests.hasEnded = none := by
    apply List.find?_eq_none.mpr
    intro k hk hended
    rw [RequestTable.hasEnded, Option.any_eq_true] at hended
    obtain ⟨p, hget, hstate⟩ := hended
    rw [h.approved k p hget] at hstate
    cases hstate
  refine ⟨s, h.reachable, fun id p => (hkept.insert_of_stuck id p h.size hnone).1, h.drawn, ?_,
    h.holders ▸ h₁.stranger, h.definitions ▸ h₁.known, h.issued ▸ h₁.indexes⟩
  intro now
  rw [h.holders]
  have hinsert : s₁.app.holders.insert (stranger now) = .ok (stranger now,
      { holders := s₁.app.holders.holders.insert "stranger" (stranger now)
        didIndex := s₁.app.holders.didIndex.insert (holderKey "did:web:stranger.example") "stranger"
        order := s₁.app.holders.order ++ ["stranger"] }) := by
    have hunused : (stranger now).holderId ∉ s₁.app.holders.holders := h₁.unused
    have hunknown : s₁.app.holders.byDid (stranger now).did = none := h₁.stranger
    rw [HolderRegistry.insert, if_neg hunused, hunknown]
    dsimp only
    rw [if_neg (Nat.not_le.mpr h₁.room)]
    rfl
  have hfind : findOrInsertHolder (sampleIssuer .auto) s₁.app.holders "did:web:stranger.example"
      now "stranger" = s₁.app.holders.insert (stranger now) := by
    rw [findOrInsertHolder, h₁.stranger]
    rfl
  refine ⟨_, hfind.trans hinsert, ?_⟩
  · intro hsame
    have hsize := congrArg (fun r : HolderRegistry => KeyedTable.size r.holders) hsame
    dsimp only at hsize
    rw [KeyedTable.size_insert (stranger now) h₁.unused] at hsize
    omega

/-- The stranger is told that too many requests are in flight, and is on record. -/
theorem refused_request_leaves_holder :
    ∃ s : IssuerSys, Reachable (issuer (sampleIssuer .auto) 0) s ∧
      ∃ processId, processId ∉ s.drawn ∧
        let out := credentialRequest (sampleIssuer .auto) s.app
          (.object [("sub", .string "did:web:stranger.example")])
          (acmeRequest ["membership-credential"]) 1 processId "stranger"
        out.response.status = 503 ∧ out.app.holders ≠ s.app.holders := by
  obtain ⟨s, hr, hfull, hdrawn, hcontact, -, hids, -⟩ := full_table
  obtain ⟨holders, hfind, hchanged⟩ := hcontact 1
  refine ⟨s, hr, floodId 'p' maxTrackedRequests, fun hmem => ?_, ?_⟩
  · have hlong := hdrawn _ hmem
    rw [length_floodId] at hlong
    omega
  · have hids' : refuseIds s.app.definitions
        (distinctIds [] (acmeRequest ["membership-credential"]).credentials) = none := hids
    dsimp only
    unfold credentialRequest
    rw [show Value.getStr (.object [("sub", .string "did:web:stranger.example")]) "sub" =
      some "did:web:stranger.example" from rfl]
    dsimp only
    rw [hids']
    dsimp only
    rw [hfind]
    dsimp only
    rw [admitRequest, show (stranger 1).status.processState = some .approved from rfl]
    dsimp only
    rw [if_neg (by simp), hfull]
    exact ⟨rfl, hchanged⟩

/-- The first request of all is admitted. -/
theorem credential_request_atomic_first :
    let app := (IssuerSys.start 0).app
    let out := credentialRequest (sampleIssuer .auto) app acmeClaims
      (acmeRequest ["membership-credential"]) 5 "process-1" "holder-1"
    ∃ did holder p, acmeClaims.getStr "sub" = some did ∧
      Admitted (sampleIssuer .auto) app did (acmeRequest ["membership-credential"]) "process-1"
        holder p out.app := by
  have hstatus : (credentialRequest (sampleIssuer .auto) (IssuerSys.start 0).app acmeClaims
      (acmeRequest ["membership-credential"]) 5 "process-1" "holder-1").response.status = 201 := by
    decide +kernel
  have hstart : Reachable (issuer (sampleIssuer .auto) 0) (IssuerSys.start 0) := .refl
  rcases credential_request_atomic hstart (List.not_mem_nil (a := "process-1")) acmeClaims
    (acmeRequest ["membership-credential"]) 5 "holder-1" with hadmitted | hrefused
  · exact hadmitted.2
  · rw [hstatus] at hrefused
    exact absurd hrefused.1 (by decide)

/-- The stranger's redemption finds no place for its process: the index goes back, the
record stays. -/
theorem refused_redemption_leaves_holder :
    ∃ s : IssuerSys, Reachable (issuer (sampleIssuer .auto) 0) s ∧
      ∃ draws, draws.processId ∉ s.drawn ∧ draws.credentialUuid ∉ s.drawn ∧ ∀ definition,
        let out := recordAndMint (sampleIssuer .auto) s.app definition "did:web:stranger.example"
          draws
        out.2 = .refused 503 "too many credential requests in flight" ∧
          out.1.holders ≠ s.app.holders := by
  obtain ⟨s, hr, hfull, hdrawn, hcontact, hunknown, -, hindexes⟩ := full_table
  obtain ⟨holders, hfind, hchanged⟩ := hcontact 1
  obtain ⟨⟨index, list⟩, hallocate⟩ := Option.isSome_iff_exists.mp hindexes
  have hlong : ∀ letter, floodId letter maxTrackedRequests ∉ s.drawn := by
    intro letter hmem
    have hshort := hdrawn _ hmem
    rw [length_floodId] at hshort
    omega
  refine ⟨s, hr,
    { now := 1
      holderUuid := "stranger"
      processId := floodId 'p' maxTrackedRequests
      mintedAt := 1
      credentialUuid := floodId 'c' maxTrackedRequests }, hlong 'p', hlong 'c', ?_⟩
  intro definition
  dsimp only [recordAndMint]
  rw [runAlone]
  simp only [RedemptionPhase.next, Option.bind_some, redemptionStep, hunknown, hfind]
  rw [runAlone]
  simp only [RedemptionPhase.next, Option.bind_some, redemptionStep, hallocate]
  rw [runAlone]
  simp only [RedemptionPhase.next, Option.bind_some, redemptionStep, hfull]
  rw [runAlone]
  simp only [RedemptionPhase.next, Option.bind_some, redemptionStep]
  exact ⟨rfl, hchanged⟩

/-- The seeded definition. -/
def membership : CredentialDefinition :=
  (DefinitionCatalog.seeded 0).definitions.head (by simp [DefinitionCatalog.seeded])

def firstDraws : RedemptionDraws where
  now := 5
  holderUuid := "holder-1"
  processId := "process-1"
  mintedAt := 5
  credentialUuid := "credential-1"

def RedemptionPhase.isIssued : RedemptionPhase → Bool
  | .issued _ => true
  | _ => false

/-- The first redemption of all is answered with a credential. -/
theorem record_and_mint_atomic_first :
    let app := (IssuerSys.start 0).app
    let out := recordAndMint (sampleIssuer .auto) app membership "did:web:acme.example" firstDraws
    ∃ jws holder p record, out.2 = .issued jws ∧
      Issued (sampleIssuer .auto) app membership "did:web:acme.example" "process-1" jws holder p
        record out.1 := by
  have hstart : Reachable (issuer (sampleIssuer .auto) 0) (IssuerSys.start 0) := .refl
  have hissued : (recordAndMint (sampleIssuer .auto) (IssuerSys.start 0).app membership
      "did:web:acme.example" firstDraws).2.isIssued = true := by
    decide +kernel
  rcases @record_and_mint_atomic _ _ _ _ hstart firstDraws List.not_mem_nil List.not_mem_nil
    membership "did:web:acme.example" with hdone | ⟨status, description, hrefused, -⟩
  · exact hdone
  · rw [hrefused] at hissued
    cases hissued

end IdentityHub
