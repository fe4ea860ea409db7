import IdentityHub.Issuer.Service
import IdentityHub.Lib.SortedSet
import IdentityHub.Oid4vci.ExpiringTable
import IdentityHub.Oid4vci.Proof
import Mathlib.Data.String.Basic

/-!
# The Credential Issuer's endpoints

The four expiring tables behind their mutexes and what the handlers of the
Pre-Authorized Code flow do to them, one critical section at a time. A handler
in flight is a phase that carries its local variables; the events are its
sections. What a section reads from the clock or draws is an argument.

A section that locks the codes and panics poisons that lock, and every later
section that needs it panics too.
-/

namespace IdentityHub.Oid4vci

open Json (Value)

def maxOid4vciEntries : ℕ := 2048

/-- How long an offer and its pre-authorized code stay redeemable. -/
def offerTtlSecs : ℕ := 600

def accessTokenTtlSecs : ℕ := 300

def nonceTtlSecs : ℕ := 300

/-- Wrong Transaction Codes tolerated before the code is burned. -/
def maxTxCodeAttempts : ℕ := 3

def txCodeLength : ℕ := 6

def preAuthorizedCodeGrant : String := "urn:ietf:params:oauth:grant-type:pre-authorized_code"

structure TxCodeDescription where
  inputMode : String
  length : ℕ
  description : String
deriving DecidableEq

structure PreAuthorizedCodeGrant where
  preAuthorizedCode : String
  txCode : Option TxCodeDescription
deriving DecidableEq

structure CredentialOffer where
  credentialIssuer : String
  credentialConfigurationIds : List String
  grant : PreAuthorizedCodeGrant
deriving DecidableEq

/-- A pre-authorized code handed out inside a Credential Offer. -/
structure PreAuthorizedGrant where
  credentialConfigurationIds : List String
  txCode : Option String
  failedAttempts : ℕ
deriving DecidableEq

/-- What an access token authorizes. -/
structure AccessGrant where
  credentialConfigurationIds : List String
deriving DecidableEq

structure IssuerState where
  offers : ExpiringTable CredentialOffer
  preAuthorizedCodes : ExpiringTable PreAuthorizedGrant
  codesPoisoned : Bool
  accessTokens : ExpiringTable AccessGrant
  nonces : ExpiringTable Unit

def IssuerState.default : IssuerState where
  offers := .new maxOid4vciEntries
  preAuthorizedCodes := .new maxOid4vciEntries
  codesPoisoned := false
  accessTokens := .new maxOid4vciEntries
  nonces := .new maxOid4vciEntries

/-- The Issuer Service with the operator's client credentials. -/
structure Service (X : External) extends IssuerService X where
  stsClientId : String
  stsClientSecret : String

structure OauthError where
  status : ℕ
  error : String
  description : String
deriving DecidableEq

variable {X : External} (service : Service X)

/-- `operator_rejection`: HTTP Basic with the client credentials. -/
def operatorRejection (authorization : Option String) : Option OauthError :=
  let decoded := authorization.bind (fun v =>
    (Text.stripPrefix "Basic ".toList v.toList).bind (fun b64 =>
      (X.base64Standard (String.ofList b64)).bind (fun bytes =>
        String.fromUTF8? ⟨bytes.toArray⟩)))
  match decoded.bind (Text.splitOnce ':') with
  | some (id, secret) =>
      if id = service.stsClientId ∧ secret = service.stsClientSecret then none
      else some ⟨401, "invalid_client", "operator endpoint requires HTTP Basic client credentials"⟩
  | none =>
      some ⟨401, "invalid_client", "operator endpoint requires HTTP Basic client credentials"⟩

def credentialIssuerId : String := service.baseUrl

/-- The ids of `credential_configurations_supported`. -/
def configurationsSupported (definitions : DefinitionCatalog) : SortedSet String :=
  definitions.definitions.foldl (fun ids d => ids.insert d.id) .empty

/-! ## Credential offers -/

/-- A request to `POST /oid4vci/offers`; without a body both members are at
their defaults. -/
structure OfferRequest where
  authorization : Option String
  credentialConfigurationIds : Option (List String)
  txCode : Bool
deriving DecidableEq

def notOffered (configId : String) : OauthError :=
  ⟨400, "unknown_credential_configuration", "'" ++ configId ++ "' is not offered by this issuer"⟩

/-- The checks of `create_offer`, up to the ids the offer is for. -/
def checkOffer (definitions : DefinitionCatalog) (request : OfferRequest) :
    Except OauthError (List String) :=
  match operatorRejection service request.authorization with
  | some e => .error e
  | none =>
    let supported := configurationsSupported definitions
    let ids := request.credentialConfigurationIds.getD supported.toList
    if ids = [] then
      .error ⟨400, "invalid_request", "credential_configuration_ids must not be empty"⟩
    else
      match ids.find? (fun id => decide (id ∉ supported)) with
      | some unknown => .error (notOffered unknown)
      | none => .ok ids

/-- Six decimal digits. -/
def randomTxCode (n : ℕ) : String :=
  let digits := (toString (n % 10 ^ txCodeLength)).toList
  String.ofList (List.replicate (txCodeLength - digits.length) '0' ++ digits)

/-- A code in the table: `madeAt` is the clock when it was put there and `seen`
the number of token requests the table had seen by then, both for the record. -/
structure MintedCode where
  code : String
  ids : List String
  txCode : Option String
  madeAt : ℕ
  seen : ℕ
deriving DecidableEq

def MintedCode.offer (minted : MintedCode) : CredentialOffer where
  credentialIssuer := credentialIssuerId service
  credentialConfigurationIds := minted.ids
  grant :=
    { preAuthorizedCode := minted.code
      txCode := minted.txCode.map (fun _ =>
        { inputMode := "numeric"
          length := txCodeLength
          description := "Transaction code delivered by the issuer" }) }

structure CreateOfferResponse where
  credentialOffer : CredentialOffer
  credentialOfferUri : String
  txCode : Option String
deriving DecidableEq

inductive OfferPhase where
  | called
  | minting (ids : List String)
  | listing (minted : MintedCode)
  | created (minted : MintedCode) (response : CreateOfferResponse)
  | refused (error : OauthError)
  | panicked

structure OfferCall where
  request : OfferRequest
  phase : OfferPhase

inductive OfferEvent where
  | check
  | mint (now : ℕ) (code : String) (digits : ℕ)
  | list (now : ℕ) (offerId : String)

/-- The code a call has put into the table. -/
def OfferPhase.minted : OfferPhase → List MintedCode
  | .listing minted => [minted]
  | .created minted _ => [minted]
  | _ => []

/-- One section of `create_offer`. -/
def offerStep (definitions : DefinitionCatalog) (state : IssuerState) (seen : ℕ)
    (call : OfferCall) : OfferEvent → Option (IssuerState × OfferPhase)
  | .check =>
    match call.phase with
    | .called =>
      match checkOffer service definitions call.request with
      | .error e => some (state, .refused e)
      | .ok ids => some (state, .minting ids)
    | _ => none
  | .mint now code digits =>
    match call.phase with
    | .minting ids =>
      if state.codesPoisoned then some (state, .panicked)
      else
        let txCode := if call.request.txCode then some (randomTxCode digits) else none
        some (
          { state with
            preAuthorizedCodes := state.preAuthorizedCodes.insert code offerTtlSecs
              { credentialConfigurationIds := ids, txCode := txCode, failedAttempts := 0 } now },
          .listing { code := code, ids := ids, txCode := txCode, madeAt := now, seen := seen })
    | _ => none
  | .list now offerId =>
    match call.phase with
    | .listing minted =>
        let offer := minted.offer service
        some ({ state with offers := state.offers.insert offerId offerTtlSecs offer now },
          .created minted
            { credentialOffer := offer
              credentialOfferUri :=
                credentialIssuerId service ++ "/oid4vci/offers/" ++ offerId
              txCode := minted.txCode })
    | _ => none

/-- `GET /oid4vci/offers/{id}`. -/
def offerByReference (state : IssuerState) (id : String) (now : ℕ) :
    Option CredentialOffer × IssuerState :=
  ((state.offers.take id now).1, { state with offers := (state.offers.take id now).2 })

/-! ## Token requests -/

/-- The fields of the form, each name once. -/
abbrev TokenForm := List (String × String)

inductive Exchange where
  | refused (error : OauthError)
  | wrongTxCode
  | exchanged (ids : List String)
  | panicked

/-- The `take` at the end of the exchange; `expect` fails if the code expired
since it was looked up. -/
def takeCode (codes : ExpiringTable PreAuthorizedGrant) (code : String) (takenAt : ℕ) :
    Exchange × ExpiringTable PreAuthorizedGrant :=
  match codes.take code takenAt with
  | (some grant, codes) => (.exchanged grant.credentialConfigurationIds, codes)
  | (none, codes) => (.panicked, codes)

/-- The match on the grant's Transaction Code and the one presented. -/
def matchTxCode (codes : ExpiringTable PreAuthorizedGrant) (code : String)
    (grant : PreAuthorizedGrant) (txCode : Option String) (takenAt : ℕ) :
    Exchange × ExpiringTable PreAuthorizedGrant :=
  match grant.txCode, txCode with
  | none, none => takeCode codes code takenAt
  | none, some _ =>
      (.refused ⟨400, "invalid_request", "this offer does not use a tx_code"⟩, codes)
  | some _, none =>
      (.refused ⟨400, "invalid_request", "tx_code is required for this offer"⟩, codes)
  | some expected, some given =>
      if expected ≠ given then
        let counted := codes.update code (fun g =>
          { g with failedAttempts := g.failedAttempts + 1 })
        (.wrongTxCode,
          if maxTxCodeAttempts ≤ grant.failedAttempts + 1 then (counted.take code takenAt).2
          else counted)
      else takeCode codes code takenAt

/-- What `token` does under the lock of the codes; it reads the clock twice. -/
def exchange (codes : ExpiringTable PreAuthorizedGrant) (code : String) (txCode : Option String)
    (readAt takenAt : ℕ) : Exchange × ExpiringTable PreAuthorizedGrant :=
  match codes.getMut code readAt with
  | (none, codes) =>
      (.refused ⟨400, "invalid_grant", "pre-authorized_code is unknown, expired, or already used"⟩,
        codes)
  | (some grant, codes) => matchTxCode codes code grant txCode takenAt

/-- A successful exchange: `seen` is the number of token requests the table had
seen before. -/
structure Exchanged where
  code : String
  ids : List String
  takenAt : ℕ
  seen : ℕ
deriving DecidableEq

structure TokenResponse where
  accessToken : String
  tokenType : String
  expiresIn : ℕ
deriving DecidableEq

structure Granted where
  exchanged : Exchanged
  grantedAt : ℕ
  response : TokenResponse
deriving DecidableEq

inductive TokenPhase where
  | called
  | exchanged (exchanged : Exchanged)
  | granted (granted : Granted)
  | refused (error : OauthError)
  | panicked

structure TokenCall where
  form : TokenForm
  phase : TokenPhase

inductive TokenEvent where
  | exchange (readAt takenAt : ℕ)
  | grant (now : ℕ) (accessToken : String)

/-- The exchange behind a call's token. -/
def TokenPhase.taken : TokenPhase → List Exchanged
  | .exchanged x => [x]
  | .granted g => [g.exchanged]
  | _ => []

/-- The token a call was answered with. -/
def TokenPhase.grants : TokenPhase → List Granted
  | .granted g => [g]
  | _ => []

/-- The pre-authorized code of a form the handler looks up, and the Transaction
Code beside it. -/
def presentedCode (form : TokenForm) : Except OauthError (String × Option String) :=
  if form.lookup "grant_type" ≠ some preAuthorizedCodeGrant then
    .error ⟨400, "unsupported_grant_type", "only the pre-authorized_code grant is supported"⟩
  else
    match form.lookup "pre-authorized_code" with
    | none => .error ⟨400, "invalid_request", "pre-authorized_code is required"⟩
    | some code => .ok (code, form.lookup "tx_code")

/-- The phase an exchange of `code` ends in. -/
def Exchange.phase (code : String) (takenAt seen : ℕ) : Exchange → TokenPhase
  | .refused e => .refused e
  | .wrongTxCode => .refused ⟨400, "invalid_grant", "wrong tx_code"⟩
  | .exchanged ids => .exchanged { code := code, ids := ids, takenAt := takenAt, seen := seen }
  | .panicked => .panicked

/-- A panic inside the section poisons the lock. -/
def Exchange.poisons : Exchange → Bool
  | .panicked => true
  | _ => false

/-- One section of `token`. -/
def tokenStep (state : IssuerState) (seen : ℕ) (call : TokenCall) :
    TokenEvent → Option (IssuerState × TokenPhase)
  | .exchange readAt takenAt =>
    match call.phase with
    | .called =>
      match presentedCode call.form with
      | .error e => some (state, .refused e)
      | .ok (code, txCode) =>
        if state.codesPoisoned then some (state, .panicked)
        else
          let out := exchange state.preAuthorizedCodes code txCode readAt takenAt
          some (
            { state with preAuthorizedCodes := out.2, codesPoisoned := out.1.poisons },
            out.1.phase code takenAt seen)
    | _ => none
  | .grant now accessToken =>
    match call.phase with
    | .exchanged x =>
        some (
          { state with
            accessTokens := state.accessTokens.insert accessToken accessTokenTtlSecs
              { credentialConfigurationIds := x.ids } now },
          .granted
            { exchanged := x
              grantedAt := now
              response :=
                { accessToken := accessToken
                  tokenType := "Bearer"
                  expiresIn := accessTokenTtlSecs } })
    | _ => none

/-- `POST /oid4vci/nonce`. -/
def nonce (state : IssuerState) (cNonce : String) (now : ℕ) : IssuerState :=
  { state with nonces := state.nonces.insert cNonce nonceTtlSecs () now }

/-! ## Credential requests -/

/-- A request's access token, when it was read and what it covers. -/
structure Access where
  token : String
  readAt : ℕ
  ids : List String
deriving DecidableEq

/-- A request that passed every check short of the proof's signature. -/
structure Checked where
  access : Access
  configId : String
  proof : String
  key : ProofKey
  nonce : Option String
deriving DecidableEq

/-- A request that consumed its nonce; `resolved` is the answer the signature
was verified with. -/
structure Consumed (X : External) where
  checked : Checked
  resolved : Except String X.DidDocument
  nonce : String
  takenAt : ℕ

inductive CredentialPhase (X : External) where
  | called
  | authorized (access : Access)
  | verifying (checked : Checked)
  | verified (checked : Checked) (resolved : Except String X.DidDocument)
  | consumed (consumed : Consumed X)
  | redeeming (consumed : Consumed X) (task : ℕ)
  | issued (consumed : Consumed X) (jws : String)
  | denied (consumed : Consumed X) (error : OauthError)
  | refused (error : OauthError)

structure CredentialCall (X : External) where
  authorization : Option String
  body : Value
  phase : CredentialPhase X

inductive CredentialEvent (X : External) where
  | authorize (now : ℕ)
  | inspect (now : ℕ)
  | verify (resolved : Except String X.DidDocument)
  | takeNonce (now : ℕ)

/-- The nonce a request has consumed, whatever became of it. -/
def CredentialPhase.consumption : CredentialPhase X → List (Consumed X)
  | .consumed c => [c]
  | .redeeming c _ => [c]
  | .issued c _ => [c]
  | .denied c _ => [c]
  | _ => []

def bearerToken (authorization : Option String) : Option String :=
  (authorization.bind (fun v => Text.stripPrefix "Bearer ".toList v.toList)).map String.ofList

/-- The checks of `credential` between the access token and the signature. -/
def inspectRequest (definitions : DefinitionCatalog) (access : Access) (body : Value)
    (now : ℕ) : Except OauthError Checked :=
  match CredentialRequest.fromJson body with
  | none => .error ⟨400, "invalid_credential_request", X.credentialRequestError body⟩
  | some request =>
    match request.credentialConfigurationId with
    | none =>
        .error ⟨400, "invalid_credential_request",
          "credential_configuration_id is required (credential_identifier is not supported)"⟩
    | some configId =>
      if configId ∉ configurationsSupported definitions then .error (notOffered configId)
      else if configId ∉ access.ids then
        .error ⟨400, "invalid_credential_request",
          "the access token does not cover '" ++ configId ++ "'"⟩
      else
        match request.jwtProofs with
        | [proof] =>
          match inspectJwtProof X proof (credentialIssuerId service) now with
          | .error e => .error ⟨400, "invalid_proof", e.toString⟩
          | .ok (key, nonce) =>
              .ok { access := access, configId := configId, proof := proof, key := key,
                    nonce := nonce }
        | _ => .error ⟨400, "invalid_proof", "exactly one jwt key proof is required"⟩

def invalidNonce : OauthError :=
  ⟨400, "invalid_nonce", "the proof must carry an unused c_nonce from the nonce endpoint"⟩

/-- One section of `credential`, up to the nonce. -/
def credentialStep (definitions : DefinitionCatalog) (state : IssuerState)
    (call : CredentialCall X) : CredentialEvent X → Option (IssuerState × CredentialPhase X)
  | .authorize now =>
    match call.phase with
    | .called =>
      let unauthorized : OauthError :=
        ⟨401, "invalid_token", "missing, unknown or expired access token"⟩
      match bearerToken call.authorization with
      | none => some (state, .refused unauthorized)
      | some token =>
          let out := state.accessTokens.getMut token now
          some ({ state with accessTokens := out.2 },
            match out.1 with
            | some grant =>
                .authorized
                  { token := token, readAt := now, ids := grant.credentialConfigurationIds }
            | none => .refused unauthorized)
    | _ => none
  | .inspect now =>
    match call.phase with
    | .authorized access =>
      match inspectRequest service definitions access call.body now with
      | .error e => some (state, .refused e)
      | .ok checked => some (state, .verifying checked)
    | _ => none
  | .verify resolved =>
    match call.phase with
    | .verifying checked =>
      match verifyProofSignature service.toIssuerService checked.proof checked.key resolved with
      | .error e => some (state, .refused ⟨400, "invalid_proof", e⟩)
      | .ok () => some (state, .verified checked resolved)
    | _ => none
  | .takeNonce now =>
    match call.phase with
    | .verified checked resolved =>
      match checked.nonce with
      | none => some (state, .refused invalidNonce)
      | some n =>
          let out := state.nonces.take n now
          some ({ state with nonces := out.2 },
            match out.1 with
            | some () =>
                .consumed { checked := checked, resolved := resolved, nonce := n, takenAt := now }
            | none => .refused invalidNonce)
    | _ => none

end IdentityHub.Oid4vci
