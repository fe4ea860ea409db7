import IdentityHub.Http.Response
import IdentityHub.Issuer.Holders
import IdentityHub.Issuer.Mint
import IdentityHub.Issuer.Processes

/-!
# The Issuer Service's tables and its handlers

The four tables behind their mutexes, and what each handler does to them inside
one critical section. A handler takes the clock reading and the identifiers it
draws as arguments; a Credential Request arrives here with the claims of its
verified token.

Sections that nest locks (`definitions -> holders -> requests`) are one
section: nobody else gets in between.
-/

namespace IdentityHub

open Json (Value)

def maxRequestCredentials : ℕ := 16

def maxPendingProcessesPerHolder : ℕ := 8

def maxPendingProcesses : ℕ := 1024

/-- The issuer's shared state. -/
structure AppState where
  definitions : DefinitionCatalog
  holders : HolderRegistry
  requests : RequestTable
  issued : IssuedCredentials

/-- `AppState::new`, as far as the issuer's tables go. -/
def AppState.new (now : ℕ) : AppState where
  definitions := .seeded now
  holders := .empty
  requests := .new maxTrackedRequests
  issued := .empty

def IssuerError.intoResponse : IssuerError → Response
  | .invalid m => { status := 400, body := m }
  | .notFound m => { status := 404, body := m }
  | .conflict m => { status := 409, body := m }
  | .full m => { status := 503, body := m }

variable {X : External} (service : IssuerService X)

/-! ## Credential requests -/

/-- The distinct ids in first-occurrence order; the scan stops at the first one
past the limit. -/
def distinctIds (acc : List String) : List String → List String
  | [] => acc
  | id :: rest =>
      if id ∈ acc then distinctIds acc rest
      else if maxRequestCredentials < (acc ++ [id]).length then acc ++ [id]
      else distinctIds (acc ++ [id]) rest

/-- The checks made on the requested ids, in order. -/
def refuseIds (definitions : DefinitionCatalog) (ids : List String) : Option Response :=
  if ids = [] then some { status := 400, body := "credentials must not be empty" }
  else if maxRequestCredentials < ids.length then
    some { status := 400, body := "at most 16 distinct credential ids per request" }
  else
    (ids.find? (fun id => (definitions.get id).isNone)).map (fun unknown =>
      { status := 400, body := "unknown credential id: '" ++ unknown ++ "'" })

/-- The status of a holder first seen in a request. -/
def HolderApproval.firstStatus : HolderApproval → HolderStatus
  | .auto => .approved
  | .manual => .pending

/-- The record of a caller's DID, made on first contact. -/
def findOrInsertHolder (holders : HolderRegistry) (did : String) (now : ℕ) (uuid : String) :
    Except IssuerError (Holder × HolderRegistry) :=
  match holders.byDid did with
  | some holder => .ok (holder, holders)
  | none =>
      holders.insert
        { holderId := uuid
          did := did
          name := none
          properties := []
          status := service.holderApproval.firstStatus
          createdAt := now }

/-- The state a new process starts in; none for a rejected holder. -/
def HolderStatus.processState : HolderStatus → Option ProcessState
  | .rejected => none
  | .pending => some .submitted
  | .approved => some .approved

/-- Too many SUBMITTED processes already, of this holder or in total. -/
def pendingCapReached (requests : RequestTable) (holderId : String) : Bool :=
  maxPendingProcessesPerHolder ≤ (requests.pendingCounts holderId).1 ||
    maxPendingProcesses ≤ (requests.pendingCounts holderId).2

/-- What a Credential Request did: its answer, the tables, and whether the
handler goes on to spawn the delivery. -/
structure RequestOutcome where
  response : Response
  app : AppState
  deliverNow : Bool

/-- The process an accepted Credential Request creates. -/
def requestedProcess (processId : String) (state : ProcessState) (holder : Holder)
    (holderDid : String) (message : CredentialRequestMessage) (ids : List String)
    (bearer : Option String) (now : ℕ) : IssuanceProcess where
  id := processId
  state := state
  holderId := holder.holderId
  holderDid := holderDid
  holderPid := message.holderPid
  credentialDefinitions := ids
  errorDetail := none
  createdAt := now
  stateTimestamp := now
  deliveryBearer := bearer
  deliveryStarted := false

/-- The last part of `credential_request`, for a known holder. -/
def admitRequest (app : AppState) (holder : Holder) (holderDid : String)
    (message : CredentialRequestMessage) (ids : List String) (bearer : Option String)
    (now : ℕ) (processId : String) : RequestOutcome :=
  match holder.status.processState with
  | none =>
      { response := { status := 403, body := "holder has been rejected by this issuer" }
        app := app
        deliverNow := false }
  | some state =>
    if state = .submitted ∧ pendingCapReached app.requests holder.holderId then
      { response := { status := 503, body := "too many credential requests awaiting approval" }
        app := app
        deliverNow := false }
    else
      match app.requests.insert processId
        (requestedProcess processId state holder holderDid message ids bearer now) with
      | .error _ =>
          { response := { status := 503, body := "too many credential requests in flight" }
            app := app
            deliverNow := false }
      | .ok requests =>
          { response := { status := 201, location := some ("/requests/" ++ processId) }
            app := { app with requests := requests }
            deliverNow := decide (state = .approved) }

/-- `POST /credentials` of the Issuer Service, after the token check. -/
def credentialRequest (app : AppState) (claims : Value) (message : CredentialRequestMessage)
    (now : ℕ) (processId holderUuid : String) : RequestOutcome :=
  match claims.getStr "sub" with
  | none =>
      { response := { status := 400, body := "token has no sub claim" }
        app := app
        deliverNow := false }
  | some holderDid =>
    match refuseIds app.definitions (distinctIds [] message.credentials) with
    | some response => { response := response, app := app, deliverNow := false }
    | none =>
      match findOrInsertHolder service app.holders holderDid now holderUuid with
      | .error _ =>
          { response := { status := 503, body := "holder registry is full" }
            app := app
            deliverNow := false }
      | .ok (holder, holders) =>
          admitRequest { app with holders := holders } holder holderDid message
            (distinctIds [] message.credentials) (claims.getStr "token") now processId

/-! ## The operator's handlers -/

/-- The processes a decision on a holder moves: the SUBMITTED ones and, for a
rejection, the APPROVED ones whose delivery has not claimed them. -/
def isDecided (holderId : String) (next : ProcessState) (p : IssuanceProcess) : Bool :=
  p.holderId = holderId &&
    (p.state = .submitted ||
      (next = .rejected && p.state = .approved && !p.deliveryStarted))

/-- Set a holder's status and move its waiting processes; the ids of those
moved come in the table's order. -/
def decideHolder (app : AppState) (holderId : String) (status : HolderStatus)
    (next : ProcessState) (now : ℕ) : Except IssuerError (Holder × List String × AppState) :=
  match app.holders.get holderId with
  | none => .error (.notFound ("no holder '" ++ holderId ++ "'"))
  | some holder =>
      .ok ({ holder with status := status },
        ((KeyedTable.values app.requests.records).filter (isDecided holderId next)).map (·.id),
        { app with
          holders := app.holders.modify holderId (fun h => { h with status := status })
          requests := app.requests.mapRecords
            (fun p => if isDecided holderId next p then p.transition next now else p) })

def createDefinition (app : AppState) (input : CredentialDefinitionInput) (now : ℕ) :
    Except IssuerError AppState := do
  let definition ← input.intoDefinition now
  let definitions ← app.definitions.create definition
  return { app with definitions := definitions }

def updateDefinition (app : AppState) (input : CredentialDefinitionInput) (now : ℕ) :
    Except IssuerError AppState := do
  let definition ← input.intoDefinition now
  let (_, definitions) ← app.definitions.update definition
  return { app with definitions := definitions }

/-- Refused while a SUBMITTED or APPROVED process still needs the definition. -/
def deleteDefinition (app : AppState) (id : String) : Except IssuerError AppState :=
  if (app.definitions.get id).isNone then
    .error (.notFound ("no credential definition '" ++ id ++ "'"))
  else if app.requests.iter.any (fun p => p.state.isActive && p.credentialDefinitions.contains id)
  then
    .error (.conflict ("credential definition '" ++ id ++
      "' is referenced by an active issuance process"))
  else .ok { app with definitions := app.definitions.remove id }

/-- A holder the operator registers is approved. -/
def registerHolder (app : AppState) (registration : HolderRegistration) (now : ℕ)
    (uuid : String) : Except IssuerError (Holder × AppState) :=
  if !"did:".toList.isPrefixOf registration.did.toList then
    .error (.invalid "did must be a DID (did:...)")
  else if registration.holderId.any Text.isBlank then
    .error (.invalid "holderId must not be empty")
  else do
    let (holder, holders) ← app.holders.insert
      { holderId := registration.holderId.getD uuid
        did := registration.did
        name := registration.name
        properties := registration.properties.getD []
        status := .approved
        createdAt := now }
    return (holder, { app with holders := holders })

def updateHolder (app : AppState) (update : HolderUpdate) : Except IssuerError AppState :=
  if (app.holders.get update.holderId).isNone then
    .error (.notFound ("no holder '" ++ update.holderId ++ "'"))
  else .ok { app with
    holders := app.holders.modify update.holderId (fun h =>
      { h with
        name := update.name.or h.name
        properties := update.properties.getD h.properties }) }

def revokeCredential (app : AppState) (id : String) :
    Except IssuerError (IssuedCredential × AppState) :=
  match app.issued.revoke id with
  | some (record, issued) => .ok (record, { app with issued := issued })
  | none => .error (.notFound ("no issued credential '" ++ id ++ "'"))

/-- `GET /statuslist/revocation`: the cached list, or a freshly signed one. -/
def statusList (app : AppState) (now : ℕ) : String × AppState :=
  match app.issued.statusList.cachedJwt with
  | some jwt => (jwt, app)
  | none =>
      let jwt := service.identity.sign (statusListPayload service app.issued.statusList now)
      (jwt, { app with issued :=
        app.issued.withList { app.issued.statusList with cachedJwt := some jwt } })

end IdentityHub
