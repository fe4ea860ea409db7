import IdentityHub.Issuer.Service

/-!
# Delivery tasks

The asynchronous half of the Credential Request API. A task is spawned for a
process, queues on the semaphore, claims the process, resolves the holder's DID,
mints one credential per definition, posts them to the holder's Storage API,
and closes the process by what came back.

A task is a small state machine: `Phase` says where it stands and carries what
its local variables hold there. Each step of `deliveryStep` is one critical
section of the source, or one exchange with the network whose outcome the event
carries. Steps of several tasks interleave in any order.

The holder's Storage API is the other party: a `StorageCall` is a POST on its
way, and its answer, once given, stays given whether or not the hub hears it.
-/

namespace IdentityHub

open Json (Value)

/-- How many tasks may be between acquiring the semaphore and their end. -/
def maxInFlightDeliveries : ℕ := 32

/-- What a delivery needs from its process record. -/
structure DeliveryJob where
  processId : String
  holderId : String
  holderPid : String
  holderDid : String
  deliveryBearer : Option String
  definitions : List CredentialDefinition

/-- One credential of a delivery: the container to post and the record to keep
if the post succeeds. -/
structure Minted where
  container : CredentialContainer
  record : IssuedCredential

/-- A POST to a holder's Storage API: the status-list indexes its credentials
carry, and the status the API answered with, if it has answered. -/
structure StorageCall where
  url : String
  bearer : String
  message : CredentialMessage
  indexes : List ℕ
  answer : Option ℕ

/-- A 2xx status. -/
def isSuccess (status : ℕ) : Bool := 200 ≤ status && status < 300

inductive Phase where
  | toSpawn
  | queued
  | permitted
  | claimed (process : IssuanceProcess)
  | resolving (job : DeliveryJob)
  | minting (job : DeliveryJob) (endpoint : String) (todo : List CredentialDefinition)
      (minted : List Minted)
  | waiting (minted : List Minted)
  | failed (allocated : List ℕ) (error : String)
  | answered (records : List IssuedCredential)
  | finishing (state : ProcessState) (errorDetail : Option String)
  | done

/-- A delivery task: its process, whether it ever claimed it, where it stands
and the posts it made, newest first. -/
structure Delivery where
  processId : String
  claimed : Bool
  phase : Phase
  posts : List StorageCall

def Delivery.new (processId : String) : Delivery where
  processId := processId
  claimed := false
  phase := .toSpawn
  posts := []

/-- What happens to a task next: its own next step with the clock reading and
identifiers it draws, or an outcome of the network. -/
inductive DeliveryEvent (X : External) where
  | spawn
  | acquire
  | claim
  | readDefinitions
  | resolve (answer : Except String X.DidDocument)
  | mint (now : ℕ) (uuid : String)
  | post (now : ℕ) (jti : String)
  | receive
  | lose (error : String)
  | release
  | record
  | finish (now : ℕ)

def Phase.isDone : Phase → Bool
  | .done => true
  | _ => false

/-- The task is between acquiring a permit and dropping it. -/
def Phase.holdsPermit : Phase → Bool
  | .toSpawn | .queued | .done => false
  | _ => true

/-- The indexes a list of minted credentials took. -/
def mintedIndexes (minted : List Minted) : List ℕ :=
  minted.map (fun m => m.record.statusListIndex)

/-- The indexes a task has taken and neither recorded nor given back. -/
def Phase.held : Phase → List ℕ
  | .minting _ _ _ minted => mintedIndexes minted
  | .waiting minted => mintedIndexes minted
  | .failed allocated _ => allocated
  | .answered records => records.map (·.statusListIndex)
  | _ => []

variable {X : External} (service : IssuerService X)

/-- The definitions a process names, or the first one that is gone. -/
def collectDefinitions (catalog : DefinitionCatalog) :
    List String → Except String (List CredentialDefinition)
  | [] => .ok []
  | id :: ids =>
      match catalog.get id with
      | none => .error ("credential definition '" ++ id ++ "' no longer exists")
      | some definition => (collectDefinitions catalog ids).map (definition :: ·)

def listExhausted : String :=
  "the revocation status list is exhausted; no further credentials can be issued"

/-- From the holder's DID to the endpoint the credentials are posted to. -/
def findEndpoint (holderDid : String) (answer : Except String X.DidDocument) :
    Except String String :=
  match service.outbound.checkDid X holderDid service.insecureHttp with
  | .error e => .error e.toString
  | .ok () =>
    match answer with
    | .error e => .error e
    | .ok doc =>
      match X.serviceEndpointUrl doc "CredentialService" with
      | .error e => .error e
      | .ok endpoint =>
        match service.outbound.checkUrl X endpoint with
        | .error e => .error e.toString
        | .ok () => .ok endpoint

/-- Sign one definition for the job's holder, with its container and record. -/
def mintForJob (job : DeliveryJob) (definition : CredentialDefinition) (index now : ℕ)
    (uuid : String) : Minted :=
  let minted := mintCredential service definition job.holderDid (some index) now uuid
  { container :=
      { credentialType := definition.credentialType
        payload := .string minted.jws
        format := "jwt" }
    record :=
      { id := minted.id
        credentialType := definition.credentialType
        credentialDefinitionId := definition.id
        holderId := job.holderId
        holderDid := job.holderDid
        issuanceProcessId := job.processId
        format := definition.format
        issuedAt := minted.issuedAt
        expiresAt := minted.expiresAt
        status := .active
        statusListIndex := index } }

/-- The issuer's own Self-Issued ID Token for the Storage API. -/
def deliveryToken (job : DeliveryJob) (now : ℕ) (jti : String) : String :=
  let payload : Value := .object
    [("iss", .string service.identity.ownDid),
     ("sub", .string service.identity.ownDid),
     ("aud", .string job.holderDid),
     ("iat", .ofNat now),
     ("nbf", .ofNat now),
     ("exp", .ofNat (now + 300)),
     ("jti", .string jti)]
  service.identity.sign
    (match job.deliveryBearer with
      | none => payload
      | some token => payload.set "token" (.string token))

def deliveryMessage (job : DeliveryJob) (minted : List Minted) : CredentialMessage where
  context := [dcpContext]
  messageType := "CredentialMessage"
  issuerPid := job.processId
  holderPid := job.holderPid
  status := "ISSUED"
  credentials := minted.map (·.container)
  rejectionReason := none

/-! The four critical sections that change a table, besides the allocation of one
index: the claim, the end of a failed and of a successful delivery, and the
final transition. -/

def startDelivery (app : AppState) (processId : String) : AppState :=
  { app with
    requests := app.requests.modify processId (fun p => { p with deliveryStarted := true }) }

def releaseAll (app : AppState) (indexes : List ℕ) : AppState :=
  { app with
    issued := app.issued.withList (indexes.foldl StatusList.release app.issued.statusList) }

def recordAll (app : AppState) (records : List IssuedCredential) : AppState :=
  { app with issued := records.foldl IssuedCredentials.insert app.issued }

def closeProcess (app : AppState) (processId : String) (state : ProcessState)
    (errorDetail : Option String) (now : ℕ) : AppState :=
  { app with
    requests := app.requests.modify processId
      (fun p => { p.transition state now with errorDetail := errorDetail }) }

/-- One step of one task. `permitFree` says whether the semaphore has a permit
left. -/
def deliveryStep (permitFree : Bool) (app : AppState) (task : Delivery) :
    DeliveryEvent X → Option (AppState × Delivery)
  | .spawn =>
    match task.phase with
    | .toSpawn => some (app, { task with phase := .queued })
    | _ => none
  | .acquire =>
    match task.phase with
    | .queued => if permitFree then some (app, { task with phase := .permitted }) else none
    | _ => none
  | .claim =>
    match task.phase with
    | .permitted =>
      match app.requests.get task.processId with
      | some process =>
        if process.state = .approved then
          some (startDelivery app task.processId,
            { task with
                claimed := true
                phase := .claimed { process with deliveryStarted := true } })
        else some (app, { task with phase := .done })
      | none => some (app, { task with phase := .done })
    | _ => none
  | .readDefinitions =>
    match task.phase with
    | .claimed process =>
      match collectDefinitions app.definitions process.credentialDefinitions with
      | .error e => some (app, { task with phase := .finishing .errored (some e) })
      | .ok definitions =>
          let job : DeliveryJob :=
            { processId := process.id
              holderId := process.holderId
              holderPid := process.holderPid
              holderDid := process.holderDid
              deliveryBearer := process.deliveryBearer
              definitions := definitions }
          some (app, { task with phase := .resolving job })
    | _ => none
  | .resolve answer =>
    match task.phase with
    | .resolving job =>
      match findEndpoint service job.holderDid answer with
      | .error e => some (app, { task with phase := .failed [] e })
      | .ok endpoint =>
          some (app, { task with phase := .minting job endpoint job.definitions [] })
    | _ => none
  | .mint now uuid =>
    match task.phase with
    | .minting job endpoint (definition :: todo) minted =>
      match app.issued.statusList.allocate with
      | none =>
          some (app, { task with phase := .failed (mintedIndexes minted) listExhausted })
      | some (index, list) =>
          let signed := mintForJob service job definition index now uuid
          some ({ app with issued := app.issued.withList list },
            { task with phase := .minting job endpoint todo (minted ++ [signed]) })
    | _ => none
  | .post now jti =>
    match task.phase with
    | .minting job endpoint [] minted =>
        let call : StorageCall :=
          { url := endpoint ++ "/credentials"
            bearer := deliveryToken service job now jti
            message := deliveryMessage job minted
            indexes := mintedIndexes minted
            answer := none }
        some (app, { task with phase := .waiting minted, posts := call :: task.posts })
    | _ => none
  | .receive =>
    match task.phase, task.posts with
    | .waiting minted, { answer := some status, .. } :: _ =>
        if isSuccess status then
          some (app, { task with phase := .answered (minted.map (·.record)) })
        else
          let error := "Storage API returned HTTP " ++ X.statusText status
          some (app, { task with phase := .failed (mintedIndexes minted) error })
    | _, _ => none
  | .lose error =>
    -- the request fails on the hub's side, whatever the Storage API did or does
    match task.phase with
    | .waiting minted =>
        some (app, { task with phase := .failed (mintedIndexes minted) error })
    | _ => none
  | .release =>
    match task.phase with
    | .failed allocated error =>
        some (releaseAll app allocated, { task with phase := .finishing .errored (some error) })
    | _ => none
  | .record =>
    match task.phase with
    | .answered records =>
        some (recordAll app records, { task with phase := .finishing .delivered none })
    | _ => none
  | .finish now =>
    match task.phase with
    | .finishing state errorDetail =>
        some (closeProcess app task.processId state errorDetail now,
          { task with phase := .done })
    | _ => none

/-- The Storage API answers the newest post, once. -/
def Delivery.answer (task : Delivery) (status : ℕ) : Option Delivery :=
  match task.posts with
  | call :: earlier =>
    match call.answer with
    | none => some { task with posts := { call with answer := some status } :: earlier }
    | some _ => none
  | [] => none

end IdentityHub
