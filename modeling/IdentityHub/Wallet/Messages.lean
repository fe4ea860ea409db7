import IdentityHub.Hub.Effects
import IdentityHub.Oid4vci.Proof

/-!
# The wallet's side of OID4VCI on the wire

The documents and answers the wallet reads, each with how a JSON value is read as
one. A field that may be left out has its default; a field the wallet does not know
is ignored.
-/

namespace IdentityHub.Wallet

open Json (Value)
open Oid4vci (structField isStruct optional)

/-- A field that may be left out. -/
def withDefault {α : Type*} (read : Value → Option α) (default : α) : Option Value → Option α
  | none => some default
  | some v => read v

/-- A field that must be there. -/
def required {α : Type*} (read : Value → Option α) (field : Option Value) : Option α :=
  field.bind read

def readList {α : Type*} (read : Value → Option α) (v : Value) : Option (List α) :=
  v.asArray.bind (fun items => items.mapM read)

def readBool : Value → Option Bool
  | .bool b => some b
  | _ => none

/-- A map: the entries of an object. -/
def readMap {α : Type*} (read : Value → Option α) : Value → Option (List (String × α))
  | .object fields => fields.mapM (fun field => (read field.2).map (fun a => (field.1, a)))
  | _ => none

/-! ## Credential Offers -/

structure TxCodeDescription where
  inputMode : Option String
  length : Option ℕ
  description : Option String
deriving DecidableEq

def TxCodeDescription.fromJson (v : Value) : Option TxCodeDescription :=
  if isStruct v 3 then do
    let inputMode ← optional Value.asStr (structField v 0 "input_mode")
    let length ← optional (fun n => n.asU64.filter (· < 2 ^ 32)) (structField v 1 "length")
    let description ← optional Value.asStr (structField v 2 "description")
    return { inputMode := inputMode, length := length, description := description }
  else none

structure PreAuthorizedCodeGrant where
  preAuthorizedCode : String
  txCode : Option TxCodeDescription
  authorizationServer : Option String
deriving DecidableEq

def PreAuthorizedCodeGrant.fromJson (v : Value) : Option PreAuthorizedCodeGrant :=
  if isStruct v 3 then do
    let code ← required Value.asStr (structField v 0 "pre-authorized_code")
    let txCode ← optional TxCodeDescription.fromJson (structField v 1 "tx_code")
    let server ← optional Value.asStr (structField v 2 "authorization_server")
    return { preAuthorizedCode := code, txCode := txCode, authorizationServer := server }
  else none

def preAuthorizedCodeGrant : String := "urn:ietf:params:oauth:grant-type:pre-authorized_code"

/-- `grants` holds the one kind of grant the wallet knows. -/
structure CredentialOffer where
  credentialIssuer : String
  credentialConfigurationIds : List String
  grants : Option (Option PreAuthorizedCodeGrant)
deriving DecidableEq

def readGrants (v : Value) : Option (Option PreAuthorizedCodeGrant) :=
  if isStruct v 1 then
    optional PreAuthorizedCodeGrant.fromJson (structField v 0 preAuthorizedCodeGrant)
  else none

def CredentialOffer.fromJson (v : Value) : Option CredentialOffer :=
  if isStruct v 3 then do
    let issuer ← required Value.asStr (structField v 0 "credential_issuer")
    let ids ←
      required (readList Value.asStr) (structField v 1 "credential_configuration_ids")
    let grants ← optional readGrants (structField v 2 "grants")
    return { credentialIssuer := issuer, credentialConfigurationIds := ids, grants := grants }
  else none

/-- What a redemption is asked with: an offer URI, or the offer itself, or where to
fetch it, and the Transaction Code. -/
structure RedeemOfferBody where
  offer : Option String
  credentialOffer : Option CredentialOffer
  credentialOfferUri : Option String
  txCode : Option String
deriving DecidableEq

/-! ## Metadata -/

/-- The fields the wallet does not read are left out of this model. -/
structure CredentialConfiguration where
  format : String
  bindingMethods : List String
deriving DecidableEq

/-- Each field is decoded, also those that are not read. -/
def CredentialConfiguration.fromJson (v : Value) : Option CredentialConfiguration :=
  if isStruct v 6 then do
    let format ← required Value.asStr (structField v 0 "format")
    let _ ← optional Value.asStr (structField v 1 "scope")
    let bindingMethods ← withDefault (readList Value.asStr) []
      (structField v 2 "cryptographic_binding_methods_supported")
    let _ ← withDefault Value.asArray []
      (structField v 3 "credential_signing_alg_values_supported")
    -- `proof_types_supported` is kept as it is
    let _ ← optional
      (fun definition => if isStruct definition 1 then
        required (readList Value.asStr) (structField definition 0 "type") else none)
      (structField v 5 "credential_definition")
    return { format := format, bindingMethods := bindingMethods }
  else none

structure CredentialIssuerMetadata where
  credentialIssuer : String
  authorizationServers : List String
  credentialEndpoint : String
  nonceEndpoint : Option String
  credentialConfigurationsSupported : List (String × CredentialConfiguration)
deriving DecidableEq

def CredentialIssuerMetadata.fromJson (v : Value) : Option CredentialIssuerMetadata :=
  if isStruct v 5 then do
    let issuer ← required Value.asStr (structField v 0 "credential_issuer")
    let servers ← withDefault (readList Value.asStr) [] (structField v 1 "authorization_servers")
    let endpoint ← required Value.asStr (structField v 2 "credential_endpoint")
    let nonceEndpoint ← optional Value.asStr (structField v 3 "nonce_endpoint")
    let configurations ← required (readMap CredentialConfiguration.fromJson)
      (structField v 4 "credential_configurations_supported")
    return {
      credentialIssuer := issuer
      authorizationServers := servers
      credentialEndpoint := endpoint
      nonceEndpoint := nonceEndpoint
      credentialConfigurationsSupported := configurations }
  else none

structure AuthorizationServerMetadata where
  issuer : String
  tokenEndpoint : String
  dpopSigningAlgValuesSupported : List String
deriving DecidableEq

def AuthorizationServerMetadata.fromJson (v : Value) : Option AuthorizationServerMetadata :=
  if isStruct v 5 then do
    let issuer ← required Value.asStr (structField v 0 "issuer")
    let tokenEndpoint ← required Value.asStr (structField v 1 "token_endpoint")
    let _ ← withDefault (readList Value.asStr) [] (structField v 2 "grant_types_supported")
    let _ ← optional readBool
      (structField v 3 "pre-authorized_grant_anonymous_access_supported")
    let algs ← withDefault (readList Value.asStr) []
      (structField v 4 "dpop_signing_alg_values_supported")
    return {
      issuer := issuer
      tokenEndpoint := tokenEndpoint
      dpopSigningAlgValuesSupported := algs }
  else none

/-! ## Answers of the endpoints -/

structure TokenAuthorizationDetail where
  detailType : String
  credentialConfigurationId : Option String
  credentialIdentifiers : List String
deriving DecidableEq

def TokenAuthorizationDetail.fromJson (v : Value) : Option TokenAuthorizationDetail :=
  if isStruct v 3 then do
    let detailType ← required Value.asStr (structField v 0 "type")
    let configurationId ← optional Value.asStr (structField v 1 "credential_configuration_id")
    let identifiers ← withDefault (readList Value.asStr) []
      (structField v 2 "credential_identifiers")
    return {
      detailType := detailType
      credentialConfigurationId := configurationId
      credentialIdentifiers := identifiers }
  else none

structure TokenResponse where
  accessToken : String
  tokenType : String
  authorizationDetails : List TokenAuthorizationDetail
deriving DecidableEq

def TokenResponse.fromJson (v : Value) : Option TokenResponse :=
  if isStruct v 4 then do
    let accessToken ← required Value.asStr (structField v 0 "access_token")
    let tokenType ← required Value.asStr (structField v 1 "token_type")
    let _ ← withDefault Value.asU64 0 (structField v 2 "expires_in")
    let details ← withDefault (readList TokenAuthorizationDetail.fromJson) []
      (structField v 3 "authorization_details")
    return { accessToken := accessToken, tokenType := tokenType, authorizationDetails := details }
  else none

/-- `credential_identifiers_for`. -/
def TokenResponse.credentialIdentifiersFor (token : TokenResponse) (configurationId : String) :
    List String :=
  (token.authorizationDetails.filter (fun d => d.detailType = "openid_credential" &&
    d.credentialConfigurationId = some configurationId)).flatMap (fun d => d.credentialIdentifiers)

def readNonceResponse (v : Value) : Option String :=
  if isStruct v 1 then required Value.asStr (structField v 0 "c_nonce") else none

structure CredentialResponse where
  credentials : List Value
  credential : Option Value
  transactionId : Option String
deriving DecidableEq

def CredentialResponse.fromJson (v : Value) : Option CredentialResponse :=
  if isStruct v 3 then do
    let credentials ← withDefault
      (readList (fun issued => if isStruct issued 1 then structField issued 0 "credential" else none))
      [] (structField v 0 "credentials")
    let credential ← optional some (structField v 1 "credential")
    let transactionId ← optional Value.asStr (structField v 2 "transaction_id")
    return { credentials := credentials, credential := credential, transactionId := transactionId }
  else none

/-! ## What a redemption reports -/

structure RedeemedCredential where
  credentialConfigurationId : String
  credentialType : String
deriving DecidableEq

structure NotStoredCredential where
  credentialConfigurationId : String
  format : String
  count : ℕ
  reason : String
deriving DecidableEq

structure RedeemOfferResponse where
  credentialIssuer : String
  stored : List RedeemedCredential
  notStored : List NotStoredCredential
deriving DecidableEq

end IdentityHub.Wallet
