import IdentityHub.Issuer.Service

/-!
# OID4VCI redemptions

The governed part of the Credential Endpoint, `record_and_mint`: the holder's
record, a status-list index, an issuance process that is DELIVERED from the
start, and the issued-credential record, each under its own lock. A phase names
the section that comes next and carries the local variables.
-/

namespace IdentityHub

def oid4vciHolderPid : String := "oid4vci"

/-- What every section of one redemption works from. -/
structure RedemptionJob where
  definition : CredentialDefinition
  holderDid : String
  now : ℕ

inductive RedemptionPhase where
  | governing (definition : CredentialDefinition) (holderDid : String)
  | allocating (job : RedemptionJob) (holderId : String)
  | inserting (job : RedemptionJob) (holderId : String) (index : ℕ)
  | refusing (index : ℕ)
  | recording (job : RedemptionJob) (holderId : String) (index : ℕ) (processId : String)
  | refused (status : ℕ) (description : String)
  | issued (jws : String)

inductive RedemptionEvent where
  | govern (now : ℕ) (uuid : String)
  | allocate
  | insert (processId : String)
  | release
  | record (now : ℕ) (uuid : String)

/-- The index a redemption has taken and neither recorded nor given back. -/
def RedemptionPhase.held : RedemptionPhase → List ℕ
  | .inserting _ _ index => [index]
  | .refusing index => [index]
  | .recording _ _ index _ => [index]
  | _ => []

variable {X : External} (service : IssuerService X)

/-- The process a redemption records. -/
def redemptionProcess (job : RedemptionJob) (holderId processId : String) : IssuanceProcess where
  id := processId
  state := .delivered
  holderId := holderId
  holderDid := job.holderDid
  holderPid := oid4vciHolderPid
  credentialDefinitions := [job.definition.id]
  errorDetail := none
  createdAt := job.now
  stateTimestamp := job.now
  deliveryBearer := none
  deliveryStarted := true

/-- The record of a credential issued over OID4VCI. -/
def redemptionRecord (job : RedemptionJob) (holderId processId : String) (index : ℕ)
    (minted : MintedCredential) : IssuedCredential where
  id := minted.id
  credentialType := job.definition.credentialType
  credentialDefinitionId := job.definition.id
  holderId := holderId
  holderDid := job.holderDid
  issuanceProcessId := processId
  format := job.definition.format
  issuedAt := minted.issuedAt
  expiresAt := minted.expiresAt
  status := .active
  statusListIndex := index

/-- One section of `record_and_mint`. -/
def redemptionStep (app : AppState) (phase : RedemptionPhase) :
    RedemptionEvent → Option (AppState × RedemptionPhase)
  | .govern now uuid =>
    match phase with
    | .governing definition holderDid =>
      match app.holders.byDid holderDid with
      | some holder =>
        if holder.status = .rejected then
          some (app, .refused 400 "holder has been rejected by this issuer")
        else
          some (app, .allocating
            { definition := definition, holderDid := holderDid, now := now } holder.holderId)
      | none =>
        match findOrInsertHolder service app.holders holderDid now uuid with
        | .error _ => some (app, .refused 503 "holder registry is full")
        | .ok (holder, holders) =>
            some ({ app with holders := holders }, .allocating
              { definition := definition, holderDid := holderDid, now := now } holder.holderId)
    | _ => none
  | .allocate =>
    match phase with
    | .allocating job holderId =>
      match app.issued.statusList.allocate with
      | none => some (app, .refused 503 "the revocation status list is exhausted")
      | some (index, list) =>
          some ({ app with issued := app.issued.withList list }, .inserting job holderId index)
    | _ => none
  | .insert processId =>
    match phase with
    | .inserting job holderId index =>
      match app.requests.insert processId (redemptionProcess job holderId processId) with
      | .error _ => some (app, .refusing index)
      | .ok requests =>
          some ({ app with requests := requests }, .recording job holderId index processId)
    | _ => none
  | .release =>
    match phase with
    | .refusing index =>
        let list := app.issued.statusList.release index
        some ({ app with issued := app.issued.withList list },
          .refused 503 "too many credential requests in flight")
    | _ => none
  | .record now uuid =>
    match phase with
    | .recording job holderId index processId =>
        let minted := mintCredential service job.definition job.holderDid (some index) now uuid
        let record := redemptionRecord job holderId processId index minted
        some ({ app with issued := app.issued.insert record }, .issued minted.jws)
    | _ => none

end IdentityHub
