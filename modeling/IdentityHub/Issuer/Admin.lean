import IdentityHub.Http.ParticipantContext
import IdentityHub.Hub.Sts
import IdentityHub.Issuer.Approval
import IdentityHub.Issuer.Indexes
import IdentityHub.Issuer.Referenced
import IdentityHub.Issuer.Views
import IdentityHub.Lib.Refines

/-!
# The admin API

The operator's requests, from the token they must carry to the tables they change. A
request has been routed by the time it gets here: `AdminTarget` is what its method and path
were matched to. The bearer token is checked before that, the participant context after
it, and only then does a handler run.

`issuerService` is the issuer with this API in front of everything the operator may do. It
refines `issuer`, so what is known of every reachable state of the issuer is known of it.
Without the token no request gets past the check, and then nothing the operator decides on
ever changes.
-/

namespace IdentityHub

open Json (Value Number)
open StepSystem (Machine Reachable ReachableBy Guard Refines)

/-! ## Requests and answers -/

structure AdminResponse where
  status : ℕ
  body : Option Value
deriving DecidableEq

/-- `error`. -/
def adminError (status : ℕ) (message : String) : AdminResponse where
  status := status
  body := some (.object [("error", .string message)])

def IssuerError.adminResponse : IssuerError → AdminResponse
  | .invalid m => adminError 400 m
  | .notFound m => adminError 404 m
  | .conflict m => adminError 409 m
  | .full m => adminError 503 m

/-- The handlers, with the ids their paths name. -/
inductive AdminCall where
  | participant
  | createDefinition
  | updateDefinition
  | queryDefinitions
  | getDefinition (id : String)
  | deleteDefinition (id : String)
  | registerHolder
  | updateHolder
  | queryHolders
  | getHolder (holderId : String)
  | approveHolder (holderId : String)
  | rejectHolder (holderId : String)
  | queryProcesses
  | getProcess (id : String)
  | queryCredentials
  | credentialStatus (id : String)
  | revokeCredential (id : String)

/-- What the router made of the method and the path. -/
inductive AdminTarget where
  | noSuchEndpoint
  | methodNotAllowed
  | undecodable (detail : String)
  | matched (pc : String) (call : AdminCall)

/-- The `Authorization` header is there as far as it is text. -/
structure AdminRequest where
  authorization : Option String
  target : AdminTarget
  body : List UInt8

/-- The issuer with its admin API; `parse` is serde_json's reading of a text, `shapeError`
what it says of a value that is not of the shape asked for, `numberText` how it prints a
number. -/
structure AdminApi (X : External) where
  service : IssuerService X
  adminToken : Option String
  participantContextId : String
  parse : List UInt8 → Except String Value
  shapeError : Value → String
  numberText : Number → String

variable {X : External} (api : AdminApi X)

/-! ## The checks before a handler -/

/-- The scheme's name is taken in any case. -/
def bearerToken (value : String) : Option String :=
  (Text.splitOnce ' ' value).bind (fun parts =>
    if Text.asciiLower parts.1 = "bearer" then
      some (String.ofList (parts.2.toList.dropWhile (· == ' ')))
    else none)

namespace AdminApi

/-- `require_admin_token`: the refusal, or none to go on. -/
def requireAdminToken (authorization : Option String) : Option AdminResponse :=
  match api.adminToken.filter (fun token => token ≠ "") with
  | none => some (adminError 401 "admin API is disabled")
  | some expected =>
    match authorization.bind bearerToken with
    | some token =>
        if constantTimeEq (utf8Bytes token) (utf8Bytes expected) then none
        else some (adminError 401 "invalid admin token")
    | none => some (adminError 401 "missing admin bearer token")

/-- The way to a handler: the token, the route, the participant context. -/
def route (request : AdminRequest) : Except AdminResponse AdminCall :=
  match api.requireAdminToken request.authorization with
  | some refusal => .error refusal
  | none =>
    match request.target with
    | .noSuchEndpoint => .error (adminError 404 "no such admin endpoint")
    | .methodNotAllowed => .error (adminError 405 "method not allowed on this admin endpoint")
    | .undecodable detail => .error (adminError 400 detail)
    | .matched pc call =>
        if (decodeParticipantContext pc).any (fun id => id = api.participantContextId) then
          .ok call
        else .error (adminError 404 "unknown participant context")

/-! ## The handlers -/

/-- `parse_body`. -/
def parseBody {α : Type} (read : Value → Option α) (body : List UInt8) :
    Except IssuerError α :=
  match api.parse body with
  | .error e => .error (.invalid ("invalid request body: " ++ e))
  | .ok value =>
    match read value with
    | none => .error (.invalid ("invalid request body: " ++ api.shapeError value))
    | some a => .ok a

def isAsciiWhitespace (byte : UInt8) : Bool := byte ∈ [32, 9, 10, 12, 13]

/-- An empty body asks for everything. -/
def querySpec (body : List UInt8) : Except IssuerError QuerySpec :=
  if body.all isAsciiWhitespace then
    .ok { offset := none, limit := none, filterExpression := none, sortField := none,
          sortOrder := none }
  else api.parseBody QuerySpec.fromJson body

/-- `run_query`. There is no answer where the sort is given no total order and panics. -/
def runQuery (body : List UInt8) (items : List Value) : Option (Except IssuerError AdminResponse) :=
  match api.querySpec body with
  | .error e => some (.error e)
  | .ok spec =>
      (spec.apply api.numberText items).map (fun page =>
        match page with
        | .ok page => .ok { status := 200, body := some (.array page) }
        | .error message => .error (.invalid message))

def participant : AdminResponse where
  status := 200
  body := some (.object
    [("participantContextId", .string api.participantContextId),
     ("did", .string api.service.identity.ownDid),
     ("state", .string "ACTIVATED")])

variable (s : IssuerSys) (body : List UInt8) (now : ℕ) (uuid : String)

def createDefinition : Except IssuerError (AdminResponse × IssuerSys) := do
  let input ← api.parseBody CredentialDefinitionInput.fromJson body
  let definition ← input.intoDefinition now
  let definitions ← s.app.definitions.create definition
  return ({ status := 201, body := some definition.toJson },
    { s with app := { s.app with definitions := definitions } })

def updateDefinition : Except IssuerError (AdminResponse × IssuerSys) := do
  let input ← api.parseBody CredentialDefinitionInput.fromJson body
  let definition ← input.intoDefinition now
  let (updated, definitions) ← s.app.definitions.update definition
  return ({ status := 200, body := some updated.toJson },
    { s with app := { s.app with definitions := definitions } })

def getDefinition (id : String) : Except IssuerError AdminResponse :=
  match s.app.definitions.get id with
  | some definition => .ok { status := 200, body := some definition.toJson }
  | none => .error (.notFound ("no credential definition '" ++ id ++ "'"))

def deleteDefinition (id : String) : Except IssuerError (AdminResponse × IssuerSys) := do
  let app ← IdentityHub.deleteDefinition s.app id
  return ({ status := 204, body := none }, { s with app := app })

/-- The operator is the approval, and is on record for it. -/
def registerHolder : Except IssuerError (AdminResponse × IssuerSys) := do
  let registration ← api.parseBody HolderRegistration.fromJson body
  let (holder, app) ← IdentityHub.registerHolder s.app registration now uuid
  return ({ status := 201, body := some holder.toJson },
    { s with app := app, vouched := holder.holderId :: s.vouched })

def updateHolder : Except IssuerError (AdminResponse × IssuerSys) := do
  let update ← api.parseBody HolderUpdate.fromJson body
  match s.app.holders.get update.holderId with
  | none => .error (.notFound ("no holder '" ++ update.holderId ++ "'"))
  | some holder =>
      let change (holder : Holder) : Holder :=
        { holder with
          name := update.name.or holder.name
          properties := update.properties.getD holder.properties }
      return ({ status := 200, body := some (change holder).toJson },
        { s with app :=
          { s.app with holders := s.app.holders.modify update.holderId change } })

def getHolder (holderId : String) : Except IssuerError AdminResponse :=
  match s.app.holders.get holderId with
  | some holder => .ok { status := 200, body := some holder.toJson }
  | none => .error (.notFound ("no holder '" ++ holderId ++ "'"))

/-- `approve_holder` and `reject_holder`; an approval spawns the deliveries. -/
def decideHolder (holderId : String) (status : HolderStatus) (next : ProcessState) :
    Except IssuerError (AdminResponse × IssuerSys) := do
  let (holder, _) ← IdentityHub.decideHolder s.app holderId status next now
  return ({ status := 200, body := some holder.toJson },
    operatorDecision s holderId status next now)

def getProcess (id : String) : Except IssuerError AdminResponse :=
  match s.app.requests.get id with
  | some process => .ok { status := 200, body := some process.toJson }
  | none => .error (.notFound ("no issuance process '" ++ id ++ "'"))

def credentialStatus (id : String) : Except IssuerError AdminResponse :=
  match s.app.issued.get id with
  | some record =>
      .ok { status := 200, body := some (.object [("status", .string record.status.text)]) }
  | none => .error (.notFound ("no issued credential '" ++ id ++ "'"))

def revokeCredential (id : String) : Except IssuerError (AdminResponse × IssuerSys) := do
  let (record, app) ← IdentityHub.revokeCredential s.app id
  return ({ status := 200, body := some record.toJson }, { s with app := app })

/-- `HolderRegistry::all`. -/
def allHolders (registry : HolderRegistry) : List Holder := registry.order.filterMap registry.get

/-- The answer of a handler, and the state it leaves; there is no answer where a query
panics. -/
def call : AdminCall → Option (Except IssuerError (AdminResponse × IssuerSys))
  | .participant => some (.ok (api.participant, s))
  | .createDefinition => some (api.createDefinition s body now)
  | .updateDefinition => some (api.updateDefinition s body now)
  | .queryDefinitions =>
      (api.runQuery body (s.app.definitions.definitions.map (·.toJson))).map
        (·.map (fun response => (response, s)))
  | .getDefinition id => some ((getDefinition s id).map (fun response => (response, s)))
  | .deleteDefinition id => some (deleteDefinition s id)
  | .registerHolder => some (api.registerHolder s body now uuid)
  | .updateHolder => some (api.updateHolder s body)
  | .queryHolders =>
      (api.runQuery body ((allHolders s.app.holders).map (·.toJson))).map
        (·.map (fun response => (response, s)))
  | .getHolder holderId => some ((getHolder s holderId).map (fun response => (response, s)))
  | .approveHolder holderId => some (decideHolder s now holderId .approved .approved)
  | .rejectHolder holderId => some (decideHolder s now holderId .rejected .rejected)
  | .queryProcesses =>
      (api.runQuery body (s.app.requests.iter.map (·.toJson))).map
        (·.map (fun response => (response, s)))
  | .getProcess id => some ((getProcess s id).map (fun response => (response, s)))
  | .queryCredentials =>
      (api.runQuery body (s.app.issued.all.map (·.toJson))).map
        (·.map (fun response => (response, s)))
  | .credentialStatus id =>
      some ((credentialStatus s id).map (fun response => (response, s)))
  | .revokeCredential id => some (revokeCredential s id)

/-- A request from its arrival to its answer. -/
def handle (request : AdminRequest) : Option AdminResponse × IssuerSys :=
  match api.route request with
  | .error refusal => (some refusal, s)
  | .ok call =>
    match api.call s request.body now uuid call with
    | none => (none, s)
    | some (.error e) => (some e.adminResponse, s)
    | some (.ok (response, s')) => (some response, s')

/-! ## What a handler asks of the tables -/

/-- The action a handler takes once it has read its body. -/
def callAction (call : AdminCall) : Option (IssuerAction X) :=
  match call with
  | .createDefinition =>
      (api.parseBody CredentialDefinitionInput.fromJson body).toOption.map (.createDefinition · now)
  | .updateDefinition =>
      (api.parseBody CredentialDefinitionInput.fromJson body).toOption.map (.updateDefinition · now)
  | .deleteDefinition id => some (.deleteDefinition id)
  | .registerHolder =>
      (api.parseBody HolderRegistration.fromJson body).toOption.map (.registerHolder · now uuid)
  | .updateHolder => (api.parseBody HolderUpdate.fromJson body).toOption.map .updateHolder
  | .approveHolder holderId => some (.approveHolder holderId now)
  | .rejectHolder holderId => some (.rejectHolder holderId now)
  | .revokeCredential id => some (.revokeCredential id)
  | _ => none

def action (request : AdminRequest) : Option (IssuerAction X) :=
  match api.route request with
  | .error _ => none
  | .ok call => api.callAction request.body now uuid call

/-- The state an outcome leaves. -/
def stateAfter : Except IssuerError (AdminResponse × IssuerSys) → IssuerSys
  | .ok (_, s') => s'
  | .error _ => s

end AdminApi

namespace AdminApi

variable {api} {s : IssuerSys} {body : List UInt8} {now : ℕ} {uuid : String}

theorem createDefinition_performs :
    ((api.parseBody CredentialDefinitionInput.fromJson body).toOption.elim (some s)
      (fun input => issuerPerform api.service s (.createDefinition input now))) =
        some (stateAfter s (api.createDefinition s body now)) := by
  unfold createDefinition
  cases api.parseBody CredentialDefinitionInput.fromJson body with
  | error e => rfl
  | ok input =>
      show some (s.settle (IdentityHub.createDefinition s.app input now)) = _
      unfold IdentityHub.createDefinition
      simp only [bind, Except.bind, pure, Except.pure]
      cases input.intoDefinition now with
      | error e => rfl
      | ok definition =>
          dsimp only
          cases s.app.definitions.create definition <;> rfl

theorem updateDefinition_performs :
    ((api.parseBody CredentialDefinitionInput.fromJson body).toOption.elim (some s)
      (fun input => issuerPerform api.service s (.updateDefinition input now))) =
        some (stateAfter s (api.updateDefinition s body now)) := by
  unfold updateDefinition
  cases api.parseBody CredentialDefinitionInput.fromJson body with
  | error e => rfl
  | ok input =>
      show some (s.settle (IdentityHub.updateDefinition s.app input now)) = _
      unfold IdentityHub.updateDefinition
      simp only [bind, Except.bind, pure, Except.pure]
      cases input.intoDefinition now with
      | error e => rfl
      | ok definition =>
          dsimp only
          cases s.app.definitions.update definition <;> rfl

theorem deleteDefinition_performs {id : String} :
    issuerPerform api.service s (.deleteDefinition id) =
      some (stateAfter s (deleteDefinition s id)) := by
  unfold deleteDefinition
  show some (s.settle (IdentityHub.deleteDefinition s.app id)) = _
  cases IdentityHub.deleteDefinition s.app id <;> rfl

theorem registerHolder_performs :
    ((api.parseBody HolderRegistration.fromJson body).toOption.elim (some s)
      (fun registration =>
        issuerPerform api.service s (.registerHolder registration now uuid))) =
        some (stateAfter s (api.registerHolder s body now uuid)) := by
  unfold registerHolder
  cases api.parseBody HolderRegistration.fromJson body with
  | error e => rfl
  | ok registration =>
      simp only [Except.toOption, Option.elim_some, issuerPerform, bind, Except.bind, pure,
        Except.pure]
      cases IdentityHub.registerHolder s.app registration now uuid <;> rfl

theorem updateHolder_performs :
    ((api.parseBody HolderUpdate.fromJson body).toOption.elim (some s)
      (fun update => issuerPerform api.service s (.updateHolder update))) =
        some (stateAfter s (api.updateHolder s body)) := by
  unfold updateHolder
  cases api.parseBody HolderUpdate.fromJson body with
  | error e => rfl
  | ok update =>
      show some (s.settle (IdentityHub.updateHolder s.app update)) = _
      unfold IdentityHub.updateHolder
      simp only [bind, Except.bind, pure, Except.pure]
      cases s.app.holders.get update.holderId <;> rfl

theorem decideHolder_performs {holderId : String} {status : HolderStatus} {next : ProcessState} :
    operatorDecision s holderId status next now =
      stateAfter s (decideHolder s now holderId status next) := by
  unfold decideHolder
  cases hdecide : IdentityHub.decideHolder s.app holderId status next now with
  | error e =>
      unfold operatorDecision
      rw [hdecide]
      rfl
  | ok decided => rfl

theorem revokeCredential_performs {id : String} :
    issuerPerform api.service s (.revokeCredential id) =
      some (stateAfter s (revokeCredential s id)) := by
  unfold revokeCredential
  show some (s.settle ((IdentityHub.revokeCredential s.app id).map (·.2))) = _
  cases IdentityHub.revokeCredential s.app id <;> rfl

theorem handle_of_route {request : AdminRequest} {target : AdminCall}
    (h : api.route request = .ok target) :
    (api.handle s now uuid request).2 =
      (api.call s request.body now uuid target).elim s (stateAfter s) := by
  unfold handle
  rw [h]
  dsimp only
  rcases api.call s request.body now uuid target with _ | _ | _ <;> rfl

/-- **What a request leaves** is what its action does, or the state as it was. -/
theorem handle_state (request : AdminRequest) :
    (api.action now uuid request).elim (some s) (issuerPerform api.service s) =
      some (api.handle s now uuid request).2 := by
  have read : ∀ r : Except IssuerError AdminResponse,
      stateAfter s (r.map (fun response => (response, s))) = s := by
    intro r
    cases r <;> rfl
  have query : ∀ r : Option (Except IssuerError AdminResponse),
      (r.map (·.map (fun response => (response, s)))).elim s (stateAfter s) = s := by
    intro r
    cases r with
    | none => rfl
    | some r => exact read r
  unfold action
  cases hroute : api.route request with
  | error refusal =>
      unfold handle
      rw [hroute]
      rfl
  | ok target =>
      rw [handle_of_route hroute]
      dsimp only
      cases target with
      | createDefinition =>
          rw [callAction, Option.elim_map]
          exact createDefinition_performs
      | updateDefinition =>
          rw [callAction, Option.elim_map]
          exact updateDefinition_performs
      | registerHolder =>
          rw [callAction, Option.elim_map]
          exact registerHolder_performs
      | updateHolder =>
          rw [callAction, Option.elim_map]
          exact updateHolder_performs
      | deleteDefinition id =>
          show issuerPerform api.service s (.deleteDefinition id) = _
          exact deleteDefinition_performs
      | approveHolder holderId => exact congrArg some decideHolder_performs
      | rejectHolder holderId => exact congrArg some decideHolder_performs
      | revokeCredential id =>
          show issuerPerform api.service s (.revokeCredential id) = _
          exact revokeCredential_performs
      | participant => rfl
      | getDefinition id => exact congrArg some (read _).symm
      | getHolder holderId => exact congrArg some (read _).symm
      | getProcess id => exact congrArg some (read _).symm
      | credentialStatus id => exact congrArg some (read _).symm
      | queryDefinitions => exact congrArg some (query _).symm
      | queryHolders => exact congrArg some (query _).symm
      | queryProcesses => exact congrArg some (query _).symm
      | queryCredentials => exact congrArg some (query _).symm

end AdminApi

end IdentityHub
