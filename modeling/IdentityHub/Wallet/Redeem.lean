import IdentityHub.Wallet.Accept
import IdentityHub.Wallet.Messages
import IdentityHub.Wallet.Proofs

/-!
# Redeeming a Credential Offer

The wallet's side of the Pre-Authorized Code flow: find the issuer and its
authorization server, exchange the code for an access token, ask for each offered
credential, accept what comes back and store it as one batch.
-/

namespace IdentityHub.Wallet

open Json (Value)

variable {X : HubExternal} (hub : Hub X)

/-! ## Requests -/

/-- `check_outbound`. -/
def checkOutbound (url : String) : Except WalletError Unit :=
  (hub.outbound.checkUrl X url).mapError (fun e => .outbound e.toString)

/-- A body, parsed and read as what was asked for. -/
def readBody {α : Type} (X : HubExternal) (read : Value → Option α) (response : HttpResponse) :
    Except String α := do
  let text ← response.body
  let value ← X.parseJson text
  (read value).okOr (X.decodeError value)

/-- `get_json`. -/
def getJson {α : Type} (read : Value → Option α) (url : String) :
    HubProgram X WalletError α := do
  .ofExcept (checkOutbound hub url)
  let response ← send (.ofUrl url) (fun e => .upstream ("GET " ++ url ++ ": " ++ e))
  .require (response.isSuccess = true)
    (.upstream ("GET " ++ url ++ " returned HTTP " ++ X.statusText response.status))
  .ofExcept ((readBody X read response).mapError
    (fun e => .upstream ("GET " ++ url ++ ": " ++ e)))

/-- `read_json`. -/
def readJson {α : Type} (X : HubExternal) (read : Value → Option α) (url : String)
    (response : HttpResponse) : Except WalletError α :=
  if response.isSuccess then
    (readBody X read response).mapError (fun e => .upstream ("POST " ++ url ++ ": " ++ e))
  else
    .error (.upstream ("POST " ++ url ++ " returned HTTP " ++ X.statusText response.status ++
      ": " ++ response.body.toOption.getD ""))

/-- `dpop_nonce_challenge`: the nonce a server demands in a DPoP proof. -/
def dpopNonceChallenge (response : HttpResponse) : Option String :=
  response.dpopNonce.filter (fun _ =>
    if response.status = 401 then
      response.wwwAuthenticate.any (fun v => Text.contains v "use_dpop_nonce")
    else response.status = 400)

/-! ## Discovery -/

/-- `parse_offer_uri`: the offer of the URI's query, and where to fetch it from. -/
def parseOfferUri (X : HubExternal) (uri : String) :
    Except WalletError (Option CredentialOffer × Option String) := do
  let pairs ← (X.queryPairs uri).mapError .invalidOffer
  pairs.foldlM (fun found pair =>
    if pair.1 = "credential_offer" then do
      let value ← (X.parseJson pair.2).mapError .invalidOffer
      let offer ← (CredentialOffer.fromJson value).okOr (.invalidOffer (X.decodeError value))
      return (some offer, found.2)
    else if pair.1 = "credential_offer_uri" then return (found.1, some pair.2)
    else return found) (none, none)

/-- `resolve_offer`. -/
def resolveOffer (body : RedeemOfferBody) : HubProgram X WalletError CredentialOffer := do
  let (inUri, uriOfUri) ←
    .ofExcept (body.offer.elim (.ok (none, none)) (parseOfferUri X))
  match body.credentialOffer.or inUri, body.credentialOfferUri.or uriOfUri with
  | some offer, none => return offer
  | none, some uri => getJson hub CredentialOffer.fromJson uri
  | _, _ => .throw (.invalidOffer
      "give exactly one of a by-value credential_offer or a credential_offer_uri")

/-- What the wallet knows before it asks for a token. -/
structure Discovery where
  offer : CredentialOffer
  grant : PreAuthorizedCodeGrant
  metadata : CredentialIssuerMetadata
  asMetadata : AuthorizationServerMetadata

/-- The authorization server a code is taken to: the one the offer names, or the
issuer's first, or the issuer itself. -/
def authorizationServer (offer : CredentialOffer) (grant : PreAuthorizedCodeGrant)
    (metadata : CredentialIssuerMetadata) : String :=
  (grant.authorizationServer.or metadata.authorizationServers.head?).getD offer.credentialIssuer

/-- The first part of `redeem`: the offer and the two metadata documents. -/
def discover (body : RedeemOfferBody) : HubProgram X WalletError Discovery := do
  let offer ← resolveOffer hub body
  let grant ← .ofExcept (offer.grants.join.okOr
    (.invalidOffer "only offers with a pre-authorized_code grant are supported"))
  .require (grant.txCode.isSome = true → body.txCode.isSome = true)
    (.invalidOffer "this offer requires a tx_code")
  let metadataUrl ← .ofExcept
    ((wellKnownUrl offer.credentialIssuer credentialIssuerWellKnown).mapError .invalidOffer)
  let metadata ← getJson hub CredentialIssuerMetadata.fromJson metadataUrl
  .require (Text.trimEndMatches '/' metadata.credentialIssuer =
      Text.trimEndMatches '/' offer.credentialIssuer)
    (.upstream "issuer metadata names a different credential_issuer than the offer")
  let asMetadataUrl ← .ofExcept ((wellKnownUrl (authorizationServer offer grant metadata)
    authorizationServerWellKnown).mapError .invalidOffer)
  let asMetadata ← getJson hub AuthorizationServerMetadata.fromJson asMetadataUrl
  return { offer := offer, grant := grant, metadata := metadata, asMetadata := asMetadata }

/-! ## The token -/

variable (clientId : Option String)

def clientAssertionTypeJwtBearer : String :=
  "urn:ietf:params:oauth:client-assertion-type:jwt-bearer"

/-- The form of a Token Request, less the client assertion. -/
def tokenForm (grant : PreAuthorizedCodeGrant) (txCode : Option String) :
    List (String × String) :=
  [("grant_type", preAuthorizedCodeGrant), ("pre-authorized_code", grant.preAuthorizedCode)] ++
    (if grant.txCode.isSome then txCode.toList.map (fun code => ("tx_code", code)) else []) ++
    clientId.toList.flatMap (fun id =>
      [("client_id", id), ("client_assertion_type", clientAssertionTypeJwtBearer)])

def AuthorizationServerMetadata.useDpop (asMetadata : AuthorizationServerMetadata) : Bool :=
  asMetadata.dpopSigningAlgValuesSupported.any (fun alg => alg = "ES256")

/-- A fresh assertion, for a wallet that is a known client. -/
def clientAssertion (audience : String) : HubProgram X WalletError (List (String × String)) :=
  match clientId with
  | none => pure []
  | some id => do
      let assertion ← buildClientAssertion hub.identity id audience
      return [("client_assertion", assertion)]

/-- The DPoP header of a request, where one is wanted. -/
def dpopHeader (wanted : Bool) (url : String) (nonce accessToken : Option String) :
    HubProgram X WalletError (List (String × String)) :=
  if wanted then do
    let proof ← buildDpopProof hub.identity "POST" url nonce accessToken
    return [("DPoP", proof)]
  else pure []

/-- One Token Request. -/
def tokenAttempt (discovery : Discovery) (txCode asNonce : Option String) :
    HubProgram X WalletError HttpResponse := do
  let tokenUrl := discovery.asMetadata.tokenEndpoint
  let assertion ← clientAssertion hub clientId discovery.asMetadata.issuer
  let headers ← dpopHeader hub discovery.asMetadata.useDpop tokenUrl asNonce none
  let form := tokenForm clientId discovery.grant txCode ++ assertion
  send { method := .post, url := tokenUrl, headers := headers, body := .form form }
    (fun e => .upstream ("POST " ++ tokenUrl ++ ": " ++ e))

/-- The Token Request, repeated while a DPoP nonce is demanded and attempts are
left; a nonce is taken up once. -/
def tokenAttempts (discovery : Discovery) (txCode : Option String) :
    ℕ → Option String → HubProgram X WalletError HttpResponse
  | 0, _ => .throw (.upstream ("POST " ++ discovery.asMetadata.tokenEndpoint ++
      ": repeated use_dpop_nonce challenge"))
  | attempts + 1, asNonce => do
      let response ← tokenAttempt hub clientId discovery txCode asNonce
      match (dpopNonceChallenge response).filter
          (fun _ => discovery.asMetadata.useDpop && asNonce.isNone) with
      | some nonce => tokenAttempts discovery txCode attempts (some nonce)
      | none => return response

def TokenResponse.dpopBound (token : TokenResponse) : Bool :=
  Text.asciiLower token.tokenType = "dpop"

/-- The second part of `redeem`: the access token. -/
def requestToken (discovery : Discovery) (txCode : Option String) :
    HubProgram X WalletError TokenResponse := do
  let tokenUrl := discovery.asMetadata.tokenEndpoint
  .ofExcept (checkOutbound hub tokenUrl)
  let response ← tokenAttempts hub clientId discovery txCode 2 none
  let token ← .ofExcept (readJson X TokenResponse.fromJson tokenUrl response)
  .require (token.dpopBound = true → discovery.asMetadata.useDpop = true)
    (.upstream "token endpoint issued a DPoP-bound token the wallet did not ask for")
  return token

/-! ## The credentials -/

/-- One call of a protected endpoint. -/
def resourceAttempt (token : TokenResponse) (url : String) (body : Value)
    (nonce : Option String) : HubProgram X WalletError HttpResponse := do
  let dpop ← dpopHeader hub token.dpopBound url nonce (some token.accessToken)
  let scheme := if token.dpopBound then "DPoP " else "Bearer "
  send
    { method := .post
      url := url
      headers := ("Authorization", scheme ++ token.accessToken) :: dpop
      body := .json body }
    (fun e => .upstream ("POST " ++ url ++ ": " ++ e))

/-- The call, repeated once when a DPoP nonce is demanded. The nonce last seen is
kept for the next call. -/
def resourceAttempts (token : TokenResponse) (url : String) (body : Value) :
    ℕ → Option String → HubProgram X WalletError (HttpResponse × Option String)
  | 0, _ => .throw (.upstream ("POST " ++ url ++ ": repeated use_dpop_nonce challenge"))
  | attempts + 1, nonce => do
      let response ← resourceAttempt hub token url body nonce
      match (dpopNonceChallenge response).filter
          (fun _ => token.dpopBound && attempts = 1) with
      | some challenge => resourceAttempts token url body attempts (some challenge)
      | none => return (response, response.dpopNonce.or nonce)

/-- `ResourceClient::post_json`. -/
def postJson {α : Type} (read : Value → Option α) (token : TokenResponse) (url : String)
    (body : Value) (nonce : Option String) : HubProgram X WalletError (α × Option String) := do
  .ofExcept (checkOutbound hub url)
  let (response, nonce) ← resourceAttempts hub token url body 2 nonce
  let value ← .ofExcept (readJson X read url response)
  return (value, nonce)

/-- The fresh `c_nonce` of an issuer that hands them out, and the DPoP nonce that may
come with it. -/
def requestNonce (metadata : CredentialIssuerMetadata) (nonce : Option String) :
    HubProgram X WalletError (Option String × Option String) :=
  match metadata.nonceEndpoint with
  | none => pure (none, nonce)
  | some nonceUrl => do
      .ofExcept (checkOutbound hub nonceUrl)
      let response ← send
        { method := .post, url := nonceUrl, headers := [], body := .empty }
        (fun e => .upstream ("POST " ++ nonceUrl ++ ": " ++ e))
      let cNonce ← .ofExcept (readJson X readNonceResponse nonceUrl response)
      return (some cNonce, response.dpopNonce.or nonce)

/-- What a Credential Request asks for: the identifiers the token names for the
configuration, or else the configuration. -/
def requestTargets (token : TokenResponse) (configId : String) : List (String × Value) :=
  match token.credentialIdentifiersFor configId with
  | [] => [("credential_configuration_id", .string configId)]
  | identifiers => identifiers.map (fun id => ("credential_identifier", .string id))

/-- The part of a round of `redeem` up to the credentials the issuer answers with. -/
def requestCredentials (discovery : Discovery) (token : TokenResponse)
    (configuration : CredentialConfiguration) (target : String × Value) (nonce : Option String) :
    HubProgram X WalletError (List Value × Option String) := do
  let metadata := discovery.metadata
  let (cNonce, nonce) ← requestNonce hub metadata nonce
  let proof ← buildJwtProofForClient hub.identity metadata.credentialIssuer cNonce clientId
    (.forBindingMethods configuration.bindingMethods)
  let request := Value.object
    [target, ("proofs", .object [("jwt", .array [.string proof])])]
  let (issued, nonce) ←
    postJson hub CredentialResponse.fromJson token metadata.credentialEndpoint request nonce
  .require (issued.transactionId = none) (.upstream "deferred issuance is not supported")
  let credentials := issued.credentials ++ issued.credential.toList
  .require (credentials ≠ []) (.upstream "credential response carried no credential")
  return (credentials, nonce)

/-- What a redemption has gathered: the DPoP nonce last seen, the accepted
credentials and what it reports. -/
structure Progress where
  nonce : Option String
  containers : List CredentialContainer
  stored : List RedeemedCredential
  notStored : List NotStoredCredential

def Progress.start : Progress where
  nonce := none
  containers := []
  stored := []
  notStored := []

/-- An accepted credential. -/
def Progress.accept (progress : Progress) (configId credentialType : String)
    (credential : Value) : Progress where
  nonce := progress.nonce
  containers := progress.containers ++
    [{ credentialType := credentialType, payload := credential, format := formatJwtVcJson }]
  stored := progress.stored ++
    [{ credentialConfigurationId := configId, credentialType := credentialType }]
  notStored := progress.notStored

/-- Credentials of a format that is not kept. -/
def Progress.leaveOut (progress : Progress) (configId format : String) (count : ℕ) :
    Progress where
  nonce := progress.nonce
  containers := progress.containers
  stored := progress.stored
  notStored := progress.notStored ++
    [{ credentialConfigurationId := configId
       format := format
       count := count
       reason := "only " ++ formatJwtVcJson ++ " credentials can be presented over DCP" }]

/-- Accept the credentials of one answer, in order. -/
def acceptCredentials (configId : String) :
    List Value → Progress → HubProgram X WalletError Progress
  | [], progress => pure progress
  | credential :: rest, progress => do
      let credentialType ← acceptIssuedCredential hub credential
      acceptCredentials configId rest (progress.accept configId credentialType credential)

/-- One round: the credentials of one target. -/
def redeemTarget (discovery : Discovery) (token : TokenResponse) (configId : String)
    (configuration : CredentialConfiguration) (target : String × Value) (progress : Progress) :
    HubProgram X WalletError Progress := do
  let (credentials, nonce) ←
    requestCredentials hub clientId discovery token configuration target progress.nonce
  let progress := { progress with nonce := nonce }
  if configuration.format = formatJwtVcJson then
    acceptCredentials hub configId credentials progress
  else return progress.leaveOut configId configuration.format credentials.length

def redeemTargets (discovery : Discovery) (token : TokenResponse) (configId : String)
    (configuration : CredentialConfiguration) :
    List (String × Value) → Progress → HubProgram X WalletError Progress
  | [], progress => pure progress
  | target :: rest, progress => do
      let progress ←
        redeemTarget hub clientId discovery token configId configuration target progress
      redeemTargets discovery token configId configuration rest progress

/-- The third part of `redeem`: every offered configuration, in order. -/
def redeemConfigurations (discovery : Discovery) (token : TokenResponse) :
    List String → Progress → HubProgram X WalletError Progress
  | [], progress => pure progress
  | configId :: rest, progress => do
      let configuration ← .ofExcept
        ((discovery.metadata.credentialConfigurationsSupported.lookup configId).okOr
          (.upstream ("issuer metadata does not describe '" ++ configId ++ "'")))
      let progress ← redeemTargets hub clientId discovery token configId configuration
        (requestTargets token configId) progress
      redeemConfigurations discovery token rest progress

/-- The batch a redemption stores. -/
def redeemedBatch (uuid : String) (containers : List CredentialContainer) :
    StoredCredentialBatch where
  issuerPid := "oid4vci:" ++ uuid
  holderPid := none
  status := "ISSUED"
  rejectionReason := none
  credentials := containers

/-- The last part of `redeem`. -/
def storeRedeemed (containers : List CredentialContainer) : HubProgram X WalletError Unit :=
  if containers = [] then pure ()
  else do
    let uuid ← drawUuid
    storeBatch (redeemedBatch uuid containers)

/-- The parts of `redeem` before anything is stored. -/
def gather (body : RedeemOfferBody) : HubProgram X WalletError (Discovery × Progress) := do
  let discovery ← discover hub body
  let token ← requestToken hub clientId discovery body.txCode
  let progress ← redeemConfigurations hub clientId discovery token
    discovery.offer.credentialConfigurationIds .start
  return (discovery, progress)

/-- `redeem`. -/
def redeem (body : RedeemOfferBody) : HubProgram X WalletError RedeemOfferResponse := do
  let (discovery, progress) ← gather hub clientId body
  storeRedeemed progress.containers
  return {
    credentialIssuer := discovery.offer.credentialIssuer
    stored := progress.stored
    notStored := progress.notStored }

end IdentityHub.Wallet
