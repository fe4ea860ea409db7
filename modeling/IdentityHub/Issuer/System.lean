import IdentityHub.Issuer.Delivery
import IdentityHub.Issuer.Redemption
import IdentityHub.Lib.StepSystem
import IdentityHub.Reference

/-!
# The Issuer Service under every interleaving

The state of the whole service: the tables, the delivery tasks and the OID4VCI
redemptions that ever started, and what has been drawn. Every action is one
critical section or one exchange with the network, so a schedule is an
interleaving of handlers, tasks, operator calls and holders' answers.

Identifiers come from `Uuid::new_v4`, which does not repeat: an action that
draws an identifier is enabled only if nobody drew it before.
-/

namespace IdentityHub

open Json (Value)
open StepSystem (Machine)

structure IssuerSys where
  app : AppState
  deliveries : List Delivery
  redemptions : List RedemptionPhase
  /-- The identifiers drawn so far. -/
  drawn : List String
  /-- The holders the operator registered or approved, kept for the record. -/
  vouched : List String

inductive IssuerAction (X : External) where
  | credentialRequest (claims : Value) (message : CredentialRequestMessage) (now : ℕ)
      (processId holderUuid : String)
  | createDefinition (input : CredentialDefinitionInput) (now : ℕ)
  | updateDefinition (input : CredentialDefinitionInput) (now : ℕ)
  | deleteDefinition (id : String)
  | registerHolder (registration : HolderRegistration) (now : ℕ) (uuid : String)
  | updateHolder (update : HolderUpdate)
  | approveHolder (holderId : String) (now : ℕ)
  | rejectHolder (holderId : String) (now : ℕ)
  | revokeCredential (id : String)
  | fetchStatusList (now : ℕ)
  | redeem (configId holderDid : String)
  | redemption (task : ℕ) (event : RedemptionEvent)
  | delivery (task : ℕ) (event : DeliveryEvent X)
  | storageAnswers (task : ℕ) (status : ℕ)

variable {X : External} (service : IssuerService X)

def DeliveryEvent.draws : DeliveryEvent X → List String
  | .mint _ uuid => [uuid]
  | .post _ jti => [jti]
  | _ => []

def RedemptionEvent.draws : RedemptionEvent → List String
  | .govern _ uuid => [uuid]
  | .insert processId => [processId]
  | .record _ uuid => [uuid]
  | _ => []

/-- The identifiers an action draws. -/
def IssuerAction.draws : IssuerAction X → List String
  | .credentialRequest _ _ _ processId holderUuid => [processId, holderUuid]
  | .registerHolder _ _ uuid => [uuid]
  | .redemption _ event => event.draws
  | .delivery _ event => event.draws
  | _ => []

/-- The semaphore has a permit left. -/
def permitFree (s : IssuerSys) : Bool :=
  (s.deliveries.filter (fun t => t.phase.holdsPermit)).length < maxInFlightDeliveries

/-- The state after a handler that changes the tables or refuses. -/
def IssuerSys.settle (s : IssuerSys) : Except IssuerError AppState → IssuerSys
  | .ok app => { s with app := app }
  | .error _ => s

/-- `approve_holder` and `reject_holder`: the decision and, for an approval, the
tasks the handler is about to spawn. -/
def operatorDecision (s : IssuerSys) (holderId : String) (status : HolderStatus) (next : ProcessState)
    (now : ℕ) : IssuerSys :=
  match decideHolder s.app holderId status next now with
  | .error _ => s
  | .ok (_, moved, app) =>
      { s with
        app := app
        deliveries := s.deliveries ++ (if next = .approved then moved.map Delivery.new else [])
        vouched := if status = .approved then holderId :: s.vouched else s.vouched }

/-- What an action does, its draws apart. -/
def issuerPerform (s : IssuerSys) : IssuerAction X → Option IssuerSys
  | .credentialRequest claims message now processId holderUuid =>
      let out := credentialRequest service s.app claims message now processId holderUuid
      some { s with
        app := out.app
        deliveries := s.deliveries ++ (if out.deliverNow then [.new processId] else []) }
  | .createDefinition input now => some (s.settle (createDefinition s.app input now))
  | .updateDefinition input now => some (s.settle (updateDefinition s.app input now))
  | .deleteDefinition id => some (s.settle (deleteDefinition s.app id))
  | .registerHolder registration now uuid =>
    match registerHolder s.app registration now uuid with
    | .error _ => some s
    | .ok (holder, app) => some { s with app := app, vouched := holder.holderId :: s.vouched }
  | .updateHolder update => some (s.settle (updateHolder s.app update))
  | .approveHolder holderId now => some (operatorDecision s holderId .approved .approved now)
  | .rejectHolder holderId now => some (operatorDecision s holderId .rejected .rejected now)
  | .revokeCredential id => some (s.settle ((revokeCredential s.app id).map (·.2)))
  | .fetchStatusList now => some { s with app := (statusList service s.app now).2 }
  | .redeem configId holderDid =>
      -- the Credential Endpoint's own look-up of the definition
      (s.app.definitions.get configId).map (fun definition =>
        { s with redemptions := s.redemptions ++ [.governing definition holderDid] })
  | .redemption task event =>
      (s.redemptions[task]?).bind (fun phase =>
        (redemptionStep service s.app phase event).map (fun out =>
          { s with app := out.1, redemptions := s.redemptions.set task out.2 }))
  | .delivery task event =>
      (s.deliveries[task]?).bind (fun t =>
        (deliveryStep service (permitFree s) s.app t event).map (fun out =>
          { s with app := out.1, deliveries := s.deliveries.set task out.2 }))
  | .storageAnswers task status =>
      (s.deliveries[task]?).bind (fun t =>
        (t.answer status).map (fun t' => { s with deliveries := s.deliveries.set task t' }))

/-- One step: the identifiers the action draws are new. -/
def issuerStep (s : IssuerSys) (a : IssuerAction X) : Option IssuerSys :=
  if a.draws.Nodup ∧ ∀ u ∈ a.draws, u ∉ s.drawn then
    (issuerPerform service s a).map (fun s' => { s' with drawn := a.draws ++ s.drawn })
  else none

/-- The service as it starts. -/
def IssuerSys.start (now : ℕ) : IssuerSys where
  app := .new now
  deliveries := []
  redemptions := []
  drawn := []
  vouched := []

/-- The Issuer Service, started at `start`. -/
def issuer (start : ℕ) : Machine IssuerSys (IssuerAction X) where
  init := .start start
  step := issuerStep service

variable {service} {start : ℕ}

theorem issuer_step_eq_some {s s' : IssuerSys} {a : IssuerAction X} (h : (issuer service start).step s a = some s') :
    a.draws.Nodup ∧ (∀ u ∈ a.draws, u ∉ s.drawn) ∧
      ∃ s₁, issuerPerform service s a = some s₁ ∧ s' = { s₁ with drawn := a.draws ++ s.drawn } := by
  change issuerStep service s a = some s' at h
  unfold issuerStep at h
  split at h
  · rename_i hfresh
    obtain ⟨s₁, h₁, rfl⟩ := Option.map_eq_some_iff.mp h
    exact ⟨hfresh.1, hfresh.2, s₁, h₁, rfl⟩
  · cases h

/-! ## A service to replay schedules on -/

/-- An issuer with one allowed outbound host. -/
def sampleIssuer (approval : HolderApproval) : IssuerService reference where
  holderApproval := approval
  insecureHttp := false
  outbound := { allowedHosts := ["acme.example"] }
  identity :=
    { ownDid := "did:web:issuer.example:issuer"
      ownKeyId := "did:web:issuer.example:issuer#key-1"
      signingKey := "issuer key" }
  baseUrl := "https://issuer.example"

/-- Acme asks for the seeded credential. -/
def sampleRequest (processId holderUuid : String) (now : ℕ) : IssuerAction reference :=
  .credentialRequest (.object [("sub", .string "did:web:acme.example")])
    { context := [dcpContext]
      messageType := "CredentialRequestMessage"
      holderPid := "acme-1"
      credentials := ["membership-credential"] }
    now processId holderUuid

def sampleHolderDocument : ReferenceDocument where
  keys := [("did:web:acme.example#key-1", "acme key")]
  capabilityInvocation := ["did:web:acme.example#key-1"]
  services := [("CredentialService", "https://acme.example/credential-service")]

/-- A task's steps up to and including its post, for one definition. -/
def samplePosting (task : ℕ) (uuid jti : String) (now : ℕ) : List (IssuerAction reference) :=
  [.spawn, .acquire, .claim, .readDefinitions, .resolve (.ok sampleHolderDocument),
    .mint now uuid, .post now jti].map (.delivery task)

/-- A task that delivers its one credential. -/
def sampleDelivery (task : ℕ) (uuid jti : String) (now : ℕ) : List (IssuerAction reference) :=
  samplePosting task uuid jti now ++ .storageAnswers task 200 ::
    [.receive, .record, .finish now].map (.delivery task)

end IdentityHub
