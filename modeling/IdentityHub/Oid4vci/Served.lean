import IdentityHub.Issuer.Progress
import IdentityHub.Oid4vci.Recorded

/-!
# Credential Requests that get through

Every check of the Credential Endpoint is on the way of a request, so nothing that goes
wrong is answered with a credential. Here the other direction: a request that meets them
all (`Servable`) can be served by its own steps, at one reading of the clock. The steps are
those of the call and of the one redemption it starts.
-/

namespace IdentityHub

/-! ## Room for credentials -/

/-- How many numbers of the list are still to be given away. -/
def StatusList.left (list : StatusList) : ℕ :=
  list.free.toList.length + (statusListBits - list.nextIndex)

theorem StatusList.exists_allocate {list : StatusList} {n : ℕ} (h : n + 1 ≤ list.left) :
    ∃ index list', list.allocate = some (index, list') ∧ n ≤ list'.left := by
  unfold StatusList.left at h ⊢
  cases hallocate : list.allocate with
  | none =>
      obtain ⟨hfree, hused⟩ := StatusList.allocate_eq_none.mp hallocate
      rw [hfree, List.length_nil] at h
      omega
  | some taken =>
      obtain ⟨index, list'⟩ := taken
      refine ⟨index, list', rfl, ?_⟩
      obtain ⟨-, -, ⟨hfree, hnext⟩ | ⟨hfree, hsame, -, hlt, hnext⟩⟩ :=
        StatusList.allocate_eq_some hallocate
      · rw [hfree, List.length_cons] at h
        rw [hnext]
        omega
      · rw [hfree, List.length_nil] at h
        rw [hsame, hfree, List.length_nil, hnext]
        omega

/-- The table takes one more process: it is not full, or holds one that ended. -/
def RequestTable.Takes (table : RequestTable) : Prop :=
  KeyedTable.size table.records < table.capacity ∨ ∃ id, table.hasEnded id = true

theorem RequestTable.Kept.exists_insert {capacity : ℕ} {inserted : List String}
    {table : RequestTable} (h : table.Kept capacity inserted) (htakes : table.Takes) (id : String)
    (record : IssuanceProcess) : ∃ table', table.insert id record = .ok table' := by
  rcases htakes with hroom | ⟨ended, hended⟩
  · exact ⟨_, RequestTable.insert_of_room hroom⟩
  · rcases h.insert_cases with hroom | ⟨hfull, oldest, holdest⟩ | ⟨-, hnone⟩
    · exact ⟨_, RequestTable.insert_of_room (h.sameCapacity.symm ▸ hroom)⟩
    · exact ⟨_, h.insert_of_full hfull holdest⟩
    · cases hget : table.get ended with
      | none =>
          rw [RequestTable.hasEnded, hget] at hended
          cases hended
      | some p =>
          have hqueued : ended ∈ table.order :=
            (h.queued.mem ended).mpr (KeyedTable.mem_of_lookup hget)
          exact absurd hended (List.find?_eq_none.mp hnone ended hqueued)

/-- The issuer can record `n` more credentials for the holder of this DID. -/
structure AppState.Admits (app : AppState) (did : String) (n : ℕ) : Prop where
  welcome : ∀ holder, app.holders.byDid did = some holder → holder.status ≠ .rejected
  registered : app.holders.byDid did = none → KeyedTable.size app.holders.holders < maxHolders
  indexes : n ≤ app.issued.statusList.left
  place : app.requests.Takes

end IdentityHub

namespace IdentityHub.Oid4vci

open StepSystem (Machine Reachable Steps)

variable {X : External} {service : Service X} {start : ℕ} {s s' : Sys X}

/-- The step is one of call `i`, or of redemption `t`. -/
def Action.OfCall (i t : ℕ) : Action X → Prop
  | .credentialCall j _ => j = i
  | .redeem j => j = i
  | .answer j => j = i
  | .issuer (.redemption k _) => k = t
  | _ => False

/-- The steps of one call. -/
abbrev CallSteps (service : Service X) (start i t : ℕ) (s s' : Sys X) : Prop :=
  Steps (credentialIssuer service start) (fun _ a => a.OfCall i t) s s'

theorem CallSteps.next {s₁ : Sys X} {i t : ℕ} {a : Action X}
    (h : CallSteps service start i t s s₁)
    (hstep : (credentialIssuer service start).step s₁ a = some s') (ha : a.OfCall i t) :
    CallSteps service start i t s s' :=
  Steps.tail a h ha hstep

theorem step_of_perform {s₁ : Sys X} {a : Action X} {clock : ℕ}
    (hclock : advance s.clock a.readings = some clock) (hfresh : ∀ token ∈ a.draws, token ∉ s.drawn)
    (hperform : perform service s a = some s₁) :
    (credentialIssuer service start).step s a =
      some { s₁ with clock := clock, drawn := a.draws ++ s.drawn } := by
  show step service s a = _
  rw [step, hclock]
  dsimp only
  rw [if_pos hfresh, hperform]
  rfl

/-! ## What a request must find -/

/-- The request in the state it arrives in, and the moment it is served at: each check of
the endpoint lets it through, and the issuer can record it and `n` more credentials. -/
structure Servable (service : Service X) (s : Sys X) (c : CredentialCall X) (now : ℕ)
    (resolved : Except String X.DidDocument) (checked : Checked)
    (definition : CredentialDefinition) (n : ℕ) : Prop where
  clock : s.clock ≤ now
  token : bearerToken c.authorization = some checked.access.token
  readAt : checked.access.readAt = now
  live : ∃ exp, s.state.accessTokens.entries.lookup checked.access.token =
    some (exp, { credentialConfigurationIds := checked.access.ids }) ∧ now < exp
  passes : inspectRequest service s.issuer.app.definitions checked.access c.body now = .ok checked
  proof : verifyProofSignature service.toIssuerService checked.proof checked.key resolved = .ok ()
  nonce : ∃ cNonce exp, checked.nonce = some cNonce ∧
    s.state.nonces.entries.lookup cNonce = some (exp, ()) ∧ now < exp
  offered : s.issuer.app.definitions.get checked.configId = some definition
  admits : s.issuer.app.Admits checked.key.holderDid (n + 1)

/-! ## One step at a time -/

section

variable {i : ℕ} {c : CredentialCall X} {now t : ℕ}

/-- What a call's own section leaves as it was. -/
structure Sectioned (s s' : Sys X) (i : ℕ) (c : CredentialCall X) (phase : CredentialPhase X) :
    Prop where
  call : s'.credentialCalls[i]? = some { c with phase := phase }
  issuer : s'.issuer = s.issuer
  drawn : s'.drawn = s.drawn

theorem section_step (start : ℕ) {event : CredentialEvent X} {state' : IssuerState}
    {phase : CredentialPhase X} (hc : s.credentialCalls[i]? = some c) (hclock : s.clock ≤ now)
    (hreadings : event.readings = [] ∨ event.readings = [now])
    (h : credentialStep service s.issuer.app.definitions s.state c event = some (state', phase)) :
    ∃ s', (credentialIssuer service start).step s (.credentialCall i event) = some s' ∧
      Sectioned s s' i c phase ∧ s'.state = state' ∧ s'.clock ≤ now := by
  have hperform : perform service s (.credentialCall i event) =
      some { s with
        state := state'
        credentialCalls := s.credentialCalls.set i { c with phase := phase } } := by
    rw [perform, hc, Option.bind_some, h]
    rfl
  obtain ⟨clock, hadvance, hlate⟩ :
      ∃ clock, advance s.clock event.readings = some clock ∧ clock ≤ now := by
    rcases hreadings with hnone | hone
    · exact ⟨s.clock, by rw [hnone]; rfl, hclock⟩
    · exact ⟨now, by rw [hone]; exact if_pos hclock, le_rfl⟩
  have hfresh : ∀ token ∈ (Action.credentialCall i event).draws, token ∉ s.drawn :=
    fun token htoken => absurd htoken List.not_mem_nil
  refine ⟨_, step_of_perform hadvance hfresh hperform, ⟨?_, rfl, rfl⟩, rfl, hlate⟩
  exact List.getElem?_set_self (List.getElem?_eq_some_iff.mp hc).1

/-- **The sections of a request that meets the checks** end with its nonce consumed. -/
theorem consumed_of_servable {resolved : Except String X.DidDocument} {checked : Checked}
    {definition : CredentialDefinition} {n : ℕ}
    (h : Servable service s c now resolved checked definition n)
    (hc : s.credentialCalls[i]? = some c) (hphase : c.phase = .called) :
    ∃ s' x, CallSteps service start i t s s' ∧ Sectioned s s' i c (.consumed x) ∧
      x.checked = checked ∧ s'.state.accessTokens = s.state.accessTokens ∧ s'.clock ≤ now := by
  obtain ⟨exp, hlive, hexp⟩ := h.live
  obtain ⟨cNonce, nonceExp, hcNonce, hnonce, hnonceExp⟩ := h.nonce
  have hread := h.readAt
  -- the access token is live, so reading it leaves the table as it is
  have hget : s.state.accessTokens.getMut checked.access.token now =
      (some { credentialConfigurationIds := checked.access.ids }, s.state.accessTokens) := by
    rw [ExpiringTable.getMut, hlive]
    exact if_neg (Nat.not_le_of_lt hexp)
  have hauthorize : credentialStep service s.issuer.app.definitions s.state c (.authorize now) =
      some (s.state, .authorized checked.access) := by
    simp only [credentialStep, hphase, h.token, hget]
    rw [← hread]
  obtain ⟨s₁, hs₁, h₁, hstate₁, hclock₁⟩ :=
    section_step start hc h.clock (Or.inr rfl) hauthorize
  have hinspect : credentialStep service s₁.issuer.app.definitions s₁.state
      { c with phase := .authorized checked.access } (.inspect now) =
        some (s₁.state, .verifying checked) := by
    simp only [credentialStep, h₁.issuer, h.passes]
  obtain ⟨s₂, hs₂, h₂, hstate₂, hclock₂⟩ :=
    section_step start h₁.call hclock₁ (Or.inr rfl) hinspect
  have hverify : credentialStep service s₂.issuer.app.definitions s₂.state
      { c with phase := .verifying checked } (.verify resolved) =
        some (s₂.state, .verified checked resolved) := by
    simp only [credentialStep, h.proof]
  obtain ⟨s₃, hs₃, h₃, hstate₃, hclock₃⟩ :=
    section_step start h₂.call hclock₂ (Or.inl rfl) hverify
  have hstate : s₃.state = s.state := (hstate₃.trans hstate₂).trans hstate₁
  have htake : s₃.state.nonces.take cNonce now =
      (some (), s₃.state.nonces.remove cNonce) := by
    rw [hstate, ExpiringTable.take, hnonce]
    simp only [if_pos hnonceExp]
  have hconsume : credentialStep service s₃.issuer.app.definitions s₃.state
      { c with phase := .verified checked resolved } (.takeNonce now) =
        some ({ s₃.state with nonces := s₃.state.nonces.remove cNonce },
          .consumed
            { checked := checked, resolved := resolved, nonce := cNonce, takenAt := now }) := by
    simp only [credentialStep, hcNonce, htake]
  obtain ⟨s₄, hs₄, h₄, hstate₄, hclock₄⟩ :=
    section_step start h₃.call hclock₃ (Or.inr rfl) hconsume
  refine ⟨s₄, _, ?_, ⟨h₄.call, ?_, ?_⟩, rfl, ?_, hclock₄⟩
  · have hstart : CallSteps service start i t s s := .refl
    exact (((hstart.next hs₁ rfl).next hs₂ rfl).next hs₃ rfl).next hs₄ rfl
  · rw [h₄.issuer, h₃.issuer, h₂.issuer, h₁.issuer]
  · rw [h₄.drawn, h₃.drawn, h₂.drawn, h₁.drawn]
  · rw [hstate₄, hstate]

/-- What a redemption's own section leaves as it was. -/
structure Redeemed (s s' : Sys X) (t : ℕ) (app : AppState) (phase : RedemptionPhase) : Prop where
  redemption : s'.issuer.redemptions[t]? = some phase
  app : s'.issuer.app = app
  calls : s'.credentialCalls = s.credentialCalls
  state : s'.state = s.state
  clock : s'.clock = s.clock

theorem redemption_section (start : ℕ) (event : RedemptionEvent) {phase phase' : RedemptionPhase}
    {app' : AppState} (ht : s.issuer.redemptions[t]? = some phase)
    (hfresh : event.draws.Nodup ∧ ∀ u ∈ event.draws, u ∉ s.issuer.drawn)
    (h : redemptionStep service.toIssuerService s.issuer.app phase event = some (app', phase')) :
    ∃ s', (credentialIssuer service start).step s (.issuer (.redemption t event)) = some s' ∧
      Redeemed s s' t app' phase' ∧ s'.issuer.drawn = event.draws ++ s.issuer.drawn := by
  have hmoved : issuerPerform service.toIssuerService s.issuer (.redemption t event) =
      some { s.issuer with
        app := app'
        redemptions := s.issuer.redemptions.set t phase' } := by
    rw [issuerPerform, ht, Option.bind_some, h]
    rfl
  have hissuer : issuerStep service.toIssuerService s.issuer (.redemption t event) =
      some { s.issuer with
        app := app'
        redemptions := s.issuer.redemptions.set t phase'
        drawn := event.draws ++ s.issuer.drawn } := by
    have hdraws : (IssuerAction.redemption (X := X) t event).draws.Nodup ∧
        ∀ u ∈ (IssuerAction.redemption (X := X) t event).draws, u ∉ s.issuer.drawn := hfresh
    rw [issuerStep, if_pos hdraws, hmoved]
    rfl
  have hperform : perform service s (.issuer (.redemption t event)) =
      some { s with issuer :=
        { s.issuer with
          app := app'
          redemptions := s.issuer.redemptions.set t phase'
          drawn := event.draws ++ s.issuer.drawn } } := by
    simp only [perform, isRedeem, hissuer]
    rfl
  have hnone : ∀ token ∈ (Action.issuer (X := X) (.redemption t event)).draws, token ∉ s.drawn :=
    fun token htoken => absurd htoken List.not_mem_nil
  refine ⟨_, step_of_perform rfl hnone hperform, ⟨?_, rfl, rfl, rfl, rfl⟩, rfl⟩
  exact List.getElem?_set_self (List.getElem?_eq_some_iff.mp ht).1

/-- The holder of a DID that is not turned away is found, or put on record. -/
theorem governed_of_admits (service : IssuerService X) {app : AppState} {did : String}
    (definition : CredentialDefinition) (now : ℕ) {uuid : String} {n : ℕ}
    (hadmits : app.Admits did n) (hnew : uuid ∉ app.holders.holders) :
    ∃ holder holders,
      findOrInsertHolder service app.holders did now uuid = .ok (holder, holders) ∧
        holder.status ≠ .rejected ∧
          redemptionStep service app (.governing definition did) (.govern now uuid) =
            some ({ app with holders := holders }, .allocating
              { definition := definition, holderDid := did, now := now } holder.holderId) := by
  cases hfound : app.holders.byDid did with
  | some holder =>
      have hwelcome := hadmits.welcome holder hfound
      refine ⟨holder, app.holders, ?_, hwelcome, ?_⟩
      · rw [findOrInsertHolder, hfound]
      · simp only [redemptionStep, hfound, if_neg hwelcome]
  | none =>
      have hfits : ¬ maxHolders ≤ KeyedTable.size app.holders.holders :=
        Nat.not_le_of_lt (hadmits.registered hfound)
      obtain ⟨holder, holders, hinsert⟩ : ∃ holder holders,
          findOrInsertHolder service app.holders did now uuid = .ok (holder, holders) := by
        simp only [findOrInsertHolder, hfound, HolderRegistry.insert, if_neg hnew, if_neg hfits]
        exact ⟨_, _, rfl⟩
      refine ⟨holder, holders, hinsert, ?_, ?_⟩
      · rcases findOrInsertHolder_cases hinsert with ⟨hknown, -⟩ | hcontact
        · rw [hfound] at hknown
          cases hknown
        · rw [hcontact.status]
          cases service.holderApproval <;> simp [HolderApproval.firstStatus]
      · simp only [redemptionStep, hfound, hinsert]

theorem exists_fresh_or_held (drawn : List String) (holders : HolderRegistry) :
    ∃ u, u ∉ drawn ∧ u ∉ holders.holders := by
  obtain ⟨u, hu⟩ := exists_fresh (drawn ++ holders.holders.keys)
  rw [List.mem_append, not_or] at hu
  exact ⟨u, hu.1, fun hmem => hu.2 (AList.mem_keys.mp hmem)⟩

/-- **A redemption the issuer has room for** ends with a credential, and there is room for as
many more. -/
theorem issued_of_room (i : ℕ) {definition : CredentialDefinition} {did : String} {n : ℕ}
    (h : Reachable (credentialIssuer service start) s)
    (ht : s.issuer.redemptions[t]? = some (RedemptionPhase.governing definition did))
    (hadmits : s.issuer.app.Admits did (n + 1)) (now : ℕ) :
    ∃ s' index uuid, CallSteps service start i t s s' ∧
      s'.issuer.redemptions[t]? = some (RedemptionPhase.issued
        (mintCredential service.toIssuerService definition did (some index) now uuid).jws) ∧
          s'.credentialCalls = s.credentialCalls ∧ s'.state = s.state ∧ s'.clock = s.clock ∧
            s'.issuer.app.definitions = s.issuer.app.definitions ∧
              s'.issuer.app.Admits did n := by
  have hone : ∀ {u : String} {drawn : List String}, u ∉ drawn →
      [u].Nodup ∧ ∀ v ∈ [u], v ∉ drawn := by
    intro u drawn hu
    refine ⟨List.nodup_singleton u, ?_⟩
    intro v hv
    rw [List.mem_singleton.mp hv]
    exact hu
  have hissuer := issuer_reachable h
  obtain ⟨holderUuid, hdrawn, hheld⟩ := exists_fresh_or_held s.issuer.drawn s.issuer.app.holders
  obtain ⟨holder, holders, hfind, hstatus, hgovern⟩ :=
    governed_of_admits service.toIssuerService definition now hadmits hheld
  obtain ⟨s₁, hs₁, h₁, -⟩ :=
    redemption_section start (.govern now holderUuid) ht (hone hdrawn) hgovern
  obtain ⟨index, list, hallocate, hleft⟩ := StatusList.exists_allocate hadmits.indexes
  have htake : redemptionStep service.toIssuerService s₁.issuer.app
      (.allocating { definition := definition, holderDid := did, now := now } holder.holderId)
        .allocate = some ({ s₁.issuer.app with issued := s₁.issuer.app.issued.withList list },
          .inserting { definition := definition, holderDid := did, now := now } holder.holderId
            index) := by
    have hsame : s₁.issuer.app.issued.statusList.allocate = some (index, list) := by
      rw [h₁.app]
      exact hallocate
    simp only [redemptionStep, hsame]
  obtain ⟨s₂, hs₂, h₂, -⟩ := redemption_section start .allocate h₁.redemption
    ⟨List.nodup_nil, fun u hu => absurd hu List.not_mem_nil⟩ htake
  obtain ⟨processId, hprocess⟩ := exists_fresh s₂.issuer.drawn
  obtain ⟨inserted, hrun, -⟩ := (capped_of_reachable hissuer).run
  obtain ⟨requests, hrequests⟩ := hrun.kept.exists_insert hadmits.place processId
    (redemptionProcess { definition := definition, holderDid := did, now := now } holder.holderId
      processId)
  have hinsert : redemptionStep service.toIssuerService s₂.issuer.app
      (.inserting { definition := definition, holderDid := did, now := now } holder.holderId index)
      (.insert processId) = some ({ s₂.issuer.app with requests := requests },
        .recording { definition := definition, holderDid := did, now := now } holder.holderId index
          processId) := by
    have hsame : s₂.issuer.app.requests = s.issuer.app.requests := by
      rw [h₂.app, h₁.app]
    simp only [redemptionStep, hsame, hrequests]
  obtain ⟨s₃, hs₃, h₃, -⟩ :=
    redemption_section start (.insert processId) h₂.redemption (hone hprocess) hinsert
  obtain ⟨uuid, huuid⟩ := exists_fresh s₃.issuer.drawn
  obtain ⟨s₄, hs₄, h₄, -⟩ := redemption_section start (.record now uuid) h₃.redemption
    (hone huuid) rfl
  refine ⟨s₄, index, uuid, ?_, h₄.redemption, ?_, ?_, ?_, ?_, ?_⟩
  · have hstart : CallSteps service start i t s s := .refl
    exact (((hstart.next hs₁ rfl).next hs₂ rfl).next hs₃ rfl).next hs₄ rfl
  · rw [h₄.calls, h₃.calls, h₂.calls, h₁.calls]
  · rw [h₄.state, h₃.state, h₂.state, h₁.state]
  · rw [h₄.clock, h₃.clock, h₂.clock, h₁.clock]
  · rw [h₄.app, h₃.app, h₂.app, h₁.app]
  · have hknown : s₄.issuer.app.holders.byDid did = some holder := by
      rw [h₄.app, h₃.app, h₂.app, h₁.app]
      exact byDid_of_found (consistent_of_reachable hissuer) hfind
    constructor
    · intro other hother
      rw [hknown] at hother
      cases hother
      exact hstatus
    · intro hnone
      rw [hknown] at hnone
      cases hnone
    · rw [h₄.app, h₃.app, h₂.app, h₁.app]
      exact hleft
    · -- the process just recorded has ended already
      right
      refine ⟨processId, ?_⟩
      have hget : s₄.issuer.app.requests.get processId = some (redemptionProcess
          { definition := definition, holderDid := did, now := now } holder.holderId
            processId) := by
        rw [h₄.app, h₃.app]
        exact (RequestTable.insert_eq_ok hrequests).1
      rw [RequestTable.hasEnded, hget]
      rfl

/-- The definition is looked up once more, and a redemption starts. -/
theorem redeem_step (start : ℕ) {x : Consumed X} {definition : CredentialDefinition}
    (hc : s.credentialCalls[i]? = some c) (hphase : c.phase = .consumed x)
    (hoffered : s.issuer.app.definitions.get x.checked.configId = some definition) :
    ∃ s', (credentialIssuer service start).step s (.redeem i) = some s' ∧
      s'.credentialCalls[i]? = some { c with phase := .redeeming x s.issuer.redemptions.length } ∧
        s'.issuer.redemptions[s.issuer.redemptions.length]? =
          some (RedemptionPhase.governing definition x.checked.key.holderDid) ∧
          s'.issuer.app = s.issuer.app ∧ s'.state = s.state ∧ s'.clock = s.clock := by
  have hopen : issuerPerform service.toIssuerService s.issuer
      (.redeem x.checked.configId x.checked.key.holderDid) =
        some { s.issuer with redemptions := s.issuer.redemptions ++
          [.governing definition x.checked.key.holderDid] } := by
    rw [issuerPerform, hoffered]
    rfl
  have hperform : perform service s (.redeem i) =
      some { s with
        issuer := { s.issuer with redemptions := s.issuer.redemptions ++
          [.governing definition x.checked.key.holderDid] }
        credentialCalls := s.credentialCalls.set i
          { c with phase := .redeeming x s.issuer.redemptions.length } } := by
    rw [perform, hc, Option.bind_some, hphase]
    simp only [startRedemption, hopen]
  have hfresh : ∀ token ∈ (Action.redeem (X := X) i).draws, token ∉ s.drawn :=
    fun token htoken => absurd htoken List.not_mem_nil
  refine ⟨_, step_of_perform rfl hfresh hperform, ?_, List.getElem?_concat_length, rfl, rfl, rfl⟩
  exact List.getElem?_set_self (List.getElem?_eq_some_iff.mp hc).1

/-- The redemption has ended with a credential, and so does the call. -/
theorem answer_step (start : ℕ) {x : Consumed X} {jws : String}
    (hc : s.credentialCalls[i]? = some c) (hphase : c.phase = .redeeming x t)
    (ht : s.issuer.redemptions[t]? = some (RedemptionPhase.issued jws)) :
    ∃ s', (credentialIssuer service start).step s (.answer i) = some s' ∧
      s'.credentialCalls[i]? = some { c with phase := .issued x jws } ∧
        s'.issuer.app = s.issuer.app ∧ s'.state = s.state ∧ s'.clock = s.clock := by
  have hperform : perform service s (.answer i) =
      some { s with
        credentialCalls := s.credentialCalls.set i { c with phase := .issued x jws } } := by
    rw [perform, hc, Option.bind_some, hphase]
    simp only [ht, Option.bind_some, redemptionAnswer, Option.map_some]
  have hfresh : ∀ token ∈ (Action.answer (X := X) i).draws, token ∉ s.drawn :=
    fun token htoken => absurd htoken List.not_mem_nil
  refine ⟨_, step_of_perform rfl hfresh hperform, ?_, rfl, rfl, rfl⟩
  exact List.getElem?_set_self (List.getElem?_eq_some_iff.mp hc).1

/-- A request that meets the checks is served, and there is room for as many more. -/
theorem served_of_servable {resolved : Except String X.DidDocument} {checked : Checked}
    {definition : CredentialDefinition} {n : ℕ}
    (h : Reachable (credentialIssuer service start) s)
    (hservable : Servable service s c now resolved checked definition n)
    (hc : s.credentialCalls[i]? = some c) (hphase : c.phase = .called) :
    ∃ s' x index uuid, CallSteps service start i s.issuer.redemptions.length s s' ∧
      s'.credentialCalls[i]? = some { c with phase := .issued x (mintCredential
        service.toIssuerService definition checked.key.holderDid (some index) now uuid).jws } ∧
          x.checked = checked ∧ s'.clock ≤ now ∧
            s'.state.accessTokens = s.state.accessTokens ∧
              s'.issuer.app.definitions = s.issuer.app.definitions ∧
                s'.issuer.app.Admits checked.key.holderDid n := by
  obtain ⟨s₁, x, hsteps₁, h₁, hchecked, htokens, hclock⟩ :=
    consumed_of_servable hservable hc hphase
  subst hchecked
  have hoffered : s₁.issuer.app.definitions.get x.checked.configId = some definition := by
    rw [h₁.issuer]
    exact hservable.offered
  obtain ⟨s₂, hs₂, hc₂, ht₂, happ₂, hstate₂, hclock₂⟩ := redeem_step start h₁.call rfl hoffered
  rw [h₁.issuer] at hc₂ ht₂ happ₂
  have hsteps₂ := hsteps₁.next hs₂ rfl
  -- the redemption has a fresh list number and a fresh identifier to draw
  obtain ⟨s₃, index, uuid, hsteps₃, ht₃, hcalls₃, hstate₃, hclock₃, hdefs₃, hadmits₃⟩ :=
    issued_of_room i (h.trans hsteps₂.any) ht₂ (happ₂ ▸ hservable.admits) now
  obtain ⟨s₄, hs₄, hc₄, happ₄, hstate₄, hclock₄⟩ :=
    answer_step start (hcalls₃ ▸ hc₂) rfl ht₃
  refine ⟨s₄, x, index, uuid, ?_, hc₄, rfl, ?_, ?_, ?_, ?_⟩
  · exact CallSteps.next (hsteps₂.trans hsteps₃) hs₄ rfl
  · rw [hclock₄, hclock₃, hclock₂]
    exact hclock
  · rw [hstate₄, hstate₃, hstate₂, htokens]
  · rw [happ₄, hdefs₃, happ₂]
  · rw [happ₄]
    exact hadmits₃

/-- A Credential Request arrives. -/
theorem credential_arrives (start : ℕ) (hphase : c.phase = .called) :
    (credentialIssuer service start).step s (.credential c.authorization c.body) =
      some { s with credentialCalls := s.credentialCalls ++ [c] } := by
  have hperform : perform service s (.credential c.authorization c.body) =
      some { s with credentialCalls := s.credentialCalls ++ [c] } := by
    rw [perform, ← hphase]
  rw [step_of_perform (a := .credential c.authorization c.body) rfl
    (fun token htoken => absurd htoken List.not_mem_nil) hperform]
  rfl

theorem Servable.arrived {resolved : Except String X.DidDocument} {checked : Checked}
    {definition : CredentialDefinition} {n : ℕ}
    (h : Servable service s c now resolved checked definition n)
    (calls : List (CredentialCall X)) :
    Servable service { s with credentialCalls := calls } c now resolved checked definition n where
  clock := h.clock
  token := h.token
  readAt := h.readAt
  live := h.live
  passes := h.passes
  proof := h.proof
  nonce := h.nonce
  offered := h.offered
  admits := h.admits

/-- **A request that meets the checks gets its credential.** In every reachable state, a
request that each check would let through at some moment, and that the issuer can record,
can be made and is served by its own steps: it is answered with a credential that is on
record, for the configuration it names and the holder its proof names. -/
theorem request_served (hsign : X.SignRoundTrip) (h : Reachable (credentialIssuer service start) s)
    {resolved : Except String X.DidDocument} {checked : Checked}
    {definition : CredentialDefinition} {n : ℕ}
    (hservable : Servable service s c now resolved checked definition n)
    (hphase : c.phase = .called) :
    ∃ s₁ s' x jws,
      (credentialIssuer service start).step s (.credential c.authorization c.body) = some s₁ ∧
        CallSteps service start s.credentialCalls.length s.issuer.redemptions.length s₁ s' ∧
          s'.Answered s.credentialCalls.length x jws ∧ x.checked = checked ∧ s'.clock ≤ now ∧
            RecordedAs service.toIssuerService s'.issuer checked.configId checked.key.holderDid
              jws := by
  have harrives : (credentialIssuer service start).step s (.credential c.authorization c.body) =
      some { s with credentialCalls := s.credentialCalls ++ [c] } := credential_arrives start hphase
  have hat : ({ s with credentialCalls := s.credentialCalls ++ [c] } : Sys X).credentialCalls[
      s.credentialCalls.length]? = some c := List.getElem?_concat_length
  obtain ⟨s', x, index, uuid, hsteps, hissued, hchecked, hclock, -⟩ :=
    served_of_servable (h.step harrives) (hservable.arrived _) hat hphase
  subst hchecked
  refine ⟨_, s', x, _, harrives, hsteps, ⟨_, hissued, rfl⟩, rfl, hclock, ?_⟩
  exact answered_recorded hsign ((h.step harrives).trans hsteps.any) ⟨_, hissued, rfl⟩

end

/-! ## A request that is served -/

/-- What the sample's request asks of the state it arrives in, at 10. -/
def servesSample (s : Sys reference) (c : CredentialCall reference) (checked : Checked) : Bool :=
  bearerToken c.authorization = some checked.access.token && checked.access.readAt = 10 &&
    (s.state.accessTokens.entries.lookup checked.access.token).any (fun entry =>
      entry.2.credentialConfigurationIds = checked.access.ids && 10 < entry.1) &&
    verifyProofSignature sampleService.toIssuerService checked.proof checked.key
      (.ok sampleHolderDocument) matches .ok () &&
    checked.nonce.any (fun cNonce =>
      (s.state.nonces.entries.lookup cNonce).any (fun entry => 10 < entry.1)) &&
    (s.issuer.app.definitions.get checked.configId).isSome &&
    (s.issuer.app.holders.byDid checked.key.holderDid).isNone &&
    KeyedTable.size s.issuer.app.holders.holders < maxHolders &&
    2 ≤ s.issuer.app.issued.statusList.left &&
    KeyedTable.size s.issuer.app.requests.records < s.issuer.app.requests.capacity

def sampleCredentialRequest : CredentialCall reference where
  authorization := some "Bearer token-1"
  body := .object
    [("credential_configuration_id", .string "membership-credential"),
     ("proofs", .object [("jwt", .array [.string sampleProof])])]
  phase := .called

def sampleAccess : Access where
  token := "token-1"
  readAt := 10
  ids := ["membership-credential"]

theorem access_of_inspectRequest {definitions : DefinitionCatalog} {access : Access}
    {body : Json.Value} {now : ℕ} {checked : Checked}
    (h : inspectRequest service definitions access body now = .ok checked) :
    checked.access = access := by
  unfold inspectRequest at h
  repeat' split at h
  all_goals cases h
  rfl

theorem servable_of_sample {s : Sys reference} {c : CredentialCall reference} {checked : Checked}
    (hclock : s.clock ≤ 10)
    (hpasses : inspectRequest sampleService s.issuer.app.definitions sampleAccess c.body 10 =
      .ok checked)
    (h : servesSample s c checked = true) :
    ∃ definition,
      Servable sampleService s c 10 (.ok sampleHolderDocument) checked definition 1 := by
  simp only [servesSample, Bool.and_eq_true, decide_eq_true_eq, Option.any_eq_true] at h
  obtain ⟨⟨⟨⟨⟨⟨⟨⟨⟨htoken, hread⟩, ⟨exp, grant⟩, hlive, hids, hexp⟩, hproof⟩,
    cNonce, hcNonce, ⟨nonceExp, _⟩, hnonce, hnonceExp⟩, hoffered⟩, hunknown⟩, hroom⟩, hleft⟩,
    hplace⟩ := h
  have hids : grant.credentialConfigurationIds = checked.access.ids := hids
  obtain ⟨definition, hdefinition⟩ := Option.isSome_iff_exists.mp hoffered
  have haccess : checked.access = sampleAccess := access_of_inspectRequest hpasses
  refine ⟨definition, hclock, htoken, hread, ⟨exp, ?_, hexp⟩, haccess ▸ hpasses, ?_,
    ⟨cNonce, nonceExp, hcNonce, hnonce, hnonceExp⟩, hdefinition, ?_⟩
  · rw [hlive, ← hids]
  · split at hproof
    · assumption
    · cases hproof
  · have hnobody := Option.isNone_iff_eq_none.mp hunknown
    refine ⟨?_, fun _ => hroom, hleft, Or.inl hplace⟩
    intro holder hholder
    rw [hnobody] at hholder
    cases hholder

set_option maxRecDepth 4000 in
theorem request_served_sample :
    ∃ (s s₁ s' : Sys reference) (x : Consumed reference) (jws : String),
      Reachable (credentialIssuer sampleService 0) s ∧ s.credentialCalls = [] ∧
        (credentialIssuer sampleService 0).step s (.credential
          sampleCredentialRequest.authorization sampleCredentialRequest.body) = some s₁ ∧
          CallSteps sampleService 0 0 s.issuer.redemptions.length s₁ s' ∧ s'.Answered 0 x jws ∧
            RecordedAs sampleService.toIssuerService s'.issuer "membership-credential"
              "did:web:acme.example" jws := by
  obtain ⟨s, hr, hp⟩ := StepSystem.exists_reachable_of_run
    (M := credentialIssuer sampleService 0) (sampleRun.take 10)
    (p := fun s => s.credentialCalls.isEmpty && decide (s.clock ≤ 10) &&
      (inspectRequest sampleService s.issuer.app.definitions sampleAccess
        sampleCredentialRequest.body 10).toOption.any (fun checked =>
          checked.configId = "membership-credential" &&
            checked.key.holderDid = "did:web:acme.example" &&
              servesSample s sampleCredentialRequest checked))
    (by decide +kernel)
  simp only [Bool.and_eq_true, decide_eq_true_eq, Option.any_eq_true] at hp
  obtain ⟨⟨hnone, hclock⟩, checked, hchecked, ⟨hconfig, hholder⟩, hserves⟩ := hp
  have hcalls : s.credentialCalls = [] := List.isEmpty_iff.mp hnone
  have hpasses : inspectRequest sampleService s.issuer.app.definitions sampleAccess
      sampleCredentialRequest.body 10 = .ok checked := by
    cases hinspect : inspectRequest sampleService s.issuer.app.definitions sampleAccess
      sampleCredentialRequest.body 10
    all_goals
      rw [hinspect] at hchecked
      cases hchecked
    rfl
  obtain ⟨definition, hservable⟩ := servable_of_sample hclock hpasses hserves
  obtain ⟨s₁, s', x, jws, harrives, hsteps, hanswered, -, -, hrecorded⟩ :=
    request_served reference_signRoundTrip hr hservable rfl
  rw [hcalls, List.length_nil] at hsteps hanswered
  rw [hconfig, hholder] at hrecorded
  exact ⟨s, s₁, s', x, jws, hr, hcalls, harrives, hsteps, hanswered, hrecorded⟩

end IdentityHub.Oid4vci
