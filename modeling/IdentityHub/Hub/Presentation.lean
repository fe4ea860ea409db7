import IdentityHub.Hub.Validation

/-!
# The Resolution API

A presentation query is answered with the stored credentials whose types both the
query and the caller's nested access token name, less the ones a verifier would
refuse anyway.
-/

namespace IdentityHub

open Json (Value)

/-! ## Scopes -/

/-- `Vec::dedup`: of adjacent equal elements one is kept. -/
def dedupAdjacent {α : Type} [DecidableEq α] : List α → List α
  | [] => []
  | [a] => [a]
  | a :: b :: rest => if a = b then dedupAdjacent (b :: rest) else a :: dedupAdjacent (b :: rest)

theorem mem_dedupAdjacent {α : Type} [DecidableEq α] {x : α} :
    ∀ {xs : List α}, x ∈ dedupAdjacent xs ↔ x ∈ xs
  | [] => Iff.rfl
  | [a] => Iff.rfl
  | a :: b :: rest => by
      rw [dedupAdjacent]
      by_cases h : a = b
      · subst h
        rw [if_pos rfl, mem_dedupAdjacent]
        simp
      · rw [if_neg h, List.mem_cons, mem_dedupAdjacent, List.mem_cons (b := a)]

variable {X : HubExternal} (hub : Hub X)

/-- `ScopeMatcher::credential_types`. -/
def credentialTypes (scopes : List String) : List String :=
  dedupAdjacent (scopes.filterMap hub.scopeType)

theorem mem_credentialTypes {scopes : List String} {credentialType : String} :
    credentialType ∈ credentialTypes hub scopes ↔
      ∃ scope ∈ scopes, hub.scopeType scope = some credentialType := by
  rw [credentialTypes, mem_dedupAdjacent, List.mem_filterMap]

/-! ## What is presented -/

/-- A container whose payload is a JWS is inside its validity window. -/
def presentsValid (X : HubExternal) (now : ℕ) (container : CredentialContainer) : Bool :=
  match container.payload.asStr.map X.decodeJwsUnverified with
  | some (.ok (_, payload)) => isWithinValidity payload now
  | _ => true

/-- Keep the first container of each payload, told apart by their JSON text. -/
def firstOfEachPayload (X : HubExternal) (seen : List String) :
    List CredentialContainer → List CredentialContainer
  | [] => []
  | container :: rest =>
      let text := X.jsonText container.payload
      if text ∈ seen then firstOfEachPayload X seen rest
      else container :: firstOfEachPayload X (text :: seen) rest

/-- `presentable` at the clock reading `now`. -/
def presentable (X : HubExternal) (credentials : List CredentialContainer) (now : ℕ) :
    List CredentialContainer :=
  (firstOfEachPayload X [] credentials).filter (presentsValid X now)

def presentationPayload (audience : String) (credentials : List CredentialContainer) (now : ℕ)
    (uuid : String) : Value :=
  .object
    [("iss", .string hub.identity.ownDid),
     ("sub", .string hub.identity.ownDid),
     ("aud", .string audience),
     ("vp", .object
       [("@context", .array [.string vcContext]),
        ("type", .array [.string "VerifiablePresentation"]),
        ("holder", .string hub.identity.ownDid),
        ("verifiableCredential", .array (credentials.map (fun c => c.payload)))]),
     ("iat", .ofNat now),
     ("exp", .ofNat (now + 300)),
     ("jti", .string uuid)]

/-- `build_presentation`. -/
def buildPresentation {ε : Type} (audience : String) (credentials : List CredentialContainer) :
    HubProgram X ε String := do
  let now ← nowSecs
  let uuid ← drawUuid
  return hub.identity.sign (presentationPayload hub audience credentials now uuid)

/-- `granted_credential_types`: what the nested access token grants; no token grants
nothing. -/
def grantedCredentialTypes (claims : Value) (outerSub : String) :
    HubProgram X AuthError (List String) :=
  match claims.getStr "token" with
  | none => pure []
  | some nestedToken => do
      let nestedPayload ← verifyNestedAccessToken nestedToken outerSub hub.stsParty
      return credentialTypes hub
        (Text.splitWhitespace ((nestedPayload.getStr "scope").getD ""))

/-- Whether the query names scopes, and nothing else. -/
def checkQuery (message : PresentationQueryMessage) : Except Response Unit :=
  let hasDefinition : Bool :=
    match message.presentationDefinition with
    | some (.object fields) => !fields.isEmpty
    | _ => false
  if message.presentationDefinition.isSome && !hasDefinition then
    .error { status := 400, body := "presentationDefinition must be a non-empty object" }
  else if message.scope ≠ [] ∧ hasDefinition = true then
    .error
      { status := 400
        body := "PresentationQueryMessage must not set both scope and presentationDefinition" }
  else if hasDefinition then .error { status := 501 }
  else if message.scope = [] then
    .error
      { status := 400
        body := "PresentationQueryMessage must set a non-empty scope or a presentationDefinition" }
  else .ok ()

/-- The part of `presentation_query` after the token: the answer to a query of the
caller with these claims. -/
def answerQuery (claims : Value) (message : PresentationQueryMessage) :
    HubProgram X Response (List String) := do
  let callerDid := (claims.getStr "iss").getD ""
  .ofExcept (checkQuery message)
  let requestedTypes := credentialTypes hub message.scope
  let allowedTypes ← (grantedCredentialTypes hub claims callerDid).mapError AuthError.response
  let effectiveTypes := requestedTypes.filter (· ∈ allowedTypes)
  let found ← credentialsOfTypes effectiveTypes
  let now ← nowSecs
  let presentation ← buildPresentation hub callerDid (presentable X found now)
  return [presentation]

/-- `presentation_query`: the `presentation` list of the answer. -/
def presentationQuery (authorizationHeader : Option String) (message : PresentationQueryMessage) :
    HubProgram X Response (List String) := do
  let claims ← (verifyBearerToken hub authorizationHeader).mapError AuthError.response
  answerQuery hub claims message

end IdentityHub
