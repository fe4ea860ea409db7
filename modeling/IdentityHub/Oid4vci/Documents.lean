import IdentityHub.Oid4vci.Endpoints
import IdentityHub.Wallet.Accept
import IdentityHub.Wallet.KeyProofs
import IdentityHub.Wallet.Redeem

/-!
# The issuer's documents, as the wallet reads them

Issuer and wallet share the types of the wire, so each document the issuer writes is one
the wallet reads back, and the Credential Request the wallet writes is one the issuer
reads back. Here the issuer's side is written down on its own, member by member, and the
two are compared.

An object is written with its members in the order of their names; a reader of a struct
does not see the order.
-/

namespace IdentityHub

open Json (Value)

/-- Parsing the text of a value gives the value back. -/
def HubExternal.ParsesOwnText (X : HubExternal) : Prop :=
  ∀ v, CanonicalJson v → X.parseJson (X.jsonText v) = .ok v

theorem canonical_strings (items : List String) :
    CanonicalJson (.array (items.map Value.string)) := by
  apply CanonicalJson.array
  intro v hv
  obtain ⟨s, -, rfl⟩ := List.mem_map.mp hv
  exact .string s

theorem canonical_single {name : String} {v : Value} (h : CanonicalJson v) :
    CanonicalJson (.object [(name, v)]) := by
  refine .object (List.pairwise_singleton ..) ?_
  intro field hfield
  rw [List.mem_singleton.mp hfield]
  exact h

namespace Oid4vci

/-! ## What the issuer writes -/

/-- An entry of `credential_configurations_supported`. -/
def configurationDocument (definition : CredentialDefinition) : Value :=
  .object
    [("credential_definition", .object
        [("type", .array [.string "VerifiableCredential", .string definition.credentialType])]),
     ("credential_signing_alg_values_supported", .array [.string "ES256"]),
     ("cryptographic_binding_methods_supported", .array [.string "did:web", .string "jwk"]),
     ("format", .string formatJwtVcJson),
     ("proof_types_supported", .object
        [("jwt", .object [("proof_signing_alg_values_supported", .array [.string "ES256"])])]),
     ("scope", .string definition.credentialType)]

/-- `configurations_supported`: sorted by id; of two definitions with one id the later
counts. -/
def configurationDocuments (definitions : DefinitionCatalog) : List (String × Value) :=
  (configurationsSupported definitions).toList.filterMap (fun id =>
    (definitions.definitions.reverse.find? (fun d => d.id = id)).map (fun d =>
      (id, configurationDocument d)))

/-- `credential_issuer_metadata`. -/
def credentialIssuerMetadata (baseUrl : String) (definitions : DefinitionCatalog) : Value :=
  .object
    [("credential_configurations_supported", .object (configurationDocuments definitions)),
     ("credential_endpoint", .string (baseUrl ++ "/oid4vci/credential")),
     ("credential_issuer", .string baseUrl),
     ("nonce_endpoint", .string (baseUrl ++ "/oid4vci/nonce"))]

/-- `authorization_server_metadata`. -/
def authorizationServerMetadata (baseUrl : String) : Value :=
  .object
    [("grant_types_supported", .array [.string preAuthorizedCodeGrant]),
     ("issuer", .string baseUrl),
     ("pre-authorized_grant_anonymous_access_supported", .bool true),
     ("token_endpoint", .string (baseUrl ++ "/oid4vci/token"))]

def TxCodeDescription.toJson (description : TxCodeDescription) : Value :=
  .object
    [("description", .string description.description),
     ("input_mode", .string description.inputMode),
     ("length", .ofNat description.length)]

def PreAuthorizedCodeGrant.toJson (grant : PreAuthorizedCodeGrant) : Value :=
  .object (("pre-authorized_code", .string grant.preAuthorizedCode) ::
    grant.txCode.toList.map (fun description => ("tx_code", description.toJson)))

def CredentialOffer.toJson (offer : CredentialOffer) : Value :=
  .object
    [("credential_configuration_ids",
        .array (offer.credentialConfigurationIds.map Value.string)),
     ("credential_issuer", .string offer.credentialIssuer),
     ("grants", .object [(preAuthorizedCodeGrant, offer.grant.toJson)])]

def TokenResponse.toJson (response : TokenResponse) : Value :=
  .object
    [("access_token", .string response.accessToken),
     ("expires_in", .ofNat response.expiresIn),
     ("token_type", .string response.tokenType)]

def nonceResponse (cNonce : String) : Value := .object [("c_nonce", .string cNonce)]

def credentialResponse (jws : String) : Value :=
  .object [("credentials", .array [.object [("credential", .string jws)]])]

def OauthError.toJson (error : OauthError) : Value :=
  .object [("error", .string error.error), ("error_description", .string error.description)]

theorem mem_configurationsSupported {definitions : DefinitionCatalog} {configId : String} :
    configId ∈ configurationsSupported definitions ↔
      ∃ d ∈ definitions.definitions, d.id = configId := by
  have hfold : ∀ (ds : List CredentialDefinition) (ids : SortedSet String),
      configId ∈ ds.foldl (fun ids d => ids.insert d.id) ids ↔
        configId ∈ ids ∨ ∃ d ∈ ds, d.id = configId := by
    intro ds
    induction ds with
    | nil => simp
    | cons d ds ih =>
        intro ids
        rw [List.foldl_cons, ih, SortedSet.mem_insert]
        simp only [List.mem_cons, exists_eq_or_imp]
        rw [or_comm (a := configId = d.id), or_assoc, eq_comm]
  rw [configurationsSupported, hfold]
  have hempty : configId ∉ (SortedSet.empty : SortedSet String) := List.not_mem_nil
  simp [hempty]

/-! ## They are canonical -/

theorem canonical_configurationDocument (definition : CredentialDefinition) :
    CanonicalJson (configurationDocument definition) := by
  have hsorted : ["credential_definition", "credential_signing_alg_values_supported",
      "cryptographic_binding_methods_supported", "format", "proof_types_supported",
      "scope"].Pairwise (· < ·) := by decide
  refine .object hsorted ?_
  intro field hfield
  simp only [List.mem_cons, List.not_mem_nil, or_false] at hfield
  rcases hfield with rfl | rfl | rfl | rfl | rfl | rfl
  · exact canonical_single (canonical_strings ["VerifiableCredential", definition.credentialType])
  · exact canonical_strings ["ES256"]
  · exact canonical_strings ["did:web", "jwk"]
  · exact .string _
  · exact canonical_single (canonical_single (canonical_strings ["ES256"]))
  · exact .string _

theorem keys_configurationDocuments (definitions : DefinitionCatalog) :
    List.Sublist ((configurationDocuments definitions).map Prod.fst)
      (configurationsSupported definitions).toList := by
  unfold configurationDocuments
  generalize (configurationsSupported definitions).toList = ids
  induction ids with
  | nil => exact List.Sublist.refl []
  | cons id ids ih =>
      rw [List.filterMap_cons]
      cases definitions.definitions.reverse.find? (fun d => d.id = id) with
      | none => exact ih.cons id
      | some d => exact ih.cons_cons id

theorem canonical_credentialIssuerMetadata (baseUrl : String) (definitions : DefinitionCatalog) :
    CanonicalJson (credentialIssuerMetadata baseUrl definitions) := by
  have hsorted : ["credential_configurations_supported", "credential_endpoint",
      "credential_issuer", "nonce_endpoint"].Pairwise (· < ·) := by decide
  refine .object hsorted ?_
  intro field hfield
  simp only [List.mem_cons, List.not_mem_nil, or_false] at hfield
  rcases hfield with rfl | rfl | rfl | rfl
  · refine .object ((configurationsSupported definitions).sorted.sublist
      (keys_configurationDocuments definitions)) ?_
    intro field hfield
    obtain ⟨id, -, hid⟩ := List.mem_filterMap.mp hfield
    obtain ⟨d, -, rfl⟩ := Option.map_eq_some_iff.mp hid
    exact canonical_configurationDocument d
  · exact .string _
  · exact .string _
  · exact .string _

theorem canonical_authorizationServerMetadata (baseUrl : String) :
    CanonicalJson (authorizationServerMetadata baseUrl) := by
  have hsorted : ["grant_types_supported", "issuer",
      "pre-authorized_grant_anonymous_access_supported", "token_endpoint"].Pairwise (· < ·) := by
    decide
  refine .object hsorted ?_
  intro field hfield
  simp only [List.mem_cons, List.not_mem_nil, or_false] at hfield
  rcases hfield with rfl | rfl | rfl | rfl
  · exact canonical_strings [preAuthorizedCodeGrant]
  · exact .string _
  · exact .bool true
  · exact .string _

theorem canonical_tokenResponse (response : TokenResponse) : CanonicalJson response.toJson := by
  have hsorted : ["access_token", "expires_in", "token_type"].Pairwise (· < ·) := by decide
  refine .object hsorted ?_
  intro field hfield
  simp only [List.mem_cons, List.not_mem_nil, or_false] at hfield
  rcases hfield with rfl | rfl | rfl
  · exact .string _
  · exact .natural _
  · exact .string _

theorem canonical_nonceResponse (cNonce : String) : CanonicalJson (nonceResponse cNonce) :=
  canonical_single (.string cNonce)

theorem canonical_credentialResponse (jws : String) : CanonicalJson (credentialResponse jws) := by
  apply canonical_single
  apply CanonicalJson.array
  intro v hv
  rw [List.mem_singleton.mp hv]
  exact canonical_single (.string jws)

theorem canonical_txCodeDescription (description : TxCodeDescription) :
    CanonicalJson description.toJson := by
  have hsorted : ["description", "input_mode", "length"].Pairwise (· < ·) := by decide
  refine .object hsorted ?_
  intro field hfield
  simp only [List.mem_cons, List.not_mem_nil, or_false] at hfield
  rcases hfield with rfl | rfl | rfl
  · exact .string _
  · exact .string _
  · exact .natural _

theorem canonical_grant (grant : PreAuthorizedCodeGrant) : CanonicalJson grant.toJson := by
  obtain ⟨code, txCode⟩ := grant
  cases txCode with
  | none => exact canonical_single (.string code)
  | some description =>
      have hsorted : ["pre-authorized_code", "tx_code"].Pairwise (· < ·) := by decide
      refine .object hsorted ?_
      intro field hfield
      simp only [Option.toList_some, List.map_cons, List.map_nil, List.mem_cons,
        List.not_mem_nil, or_false] at hfield
      rcases hfield with rfl | rfl
      · exact .string code
      · exact canonical_txCodeDescription description

theorem canonical_credentialOffer (offer : CredentialOffer) : CanonicalJson offer.toJson := by
  have hsorted : ["credential_configuration_ids", "credential_issuer", "grants"].Pairwise
      (· < ·) := by decide
  refine .object hsorted ?_
  intro field hfield
  simp only [List.mem_cons, List.not_mem_nil, or_false] at hfield
  rcases hfield with rfl | rfl | rfl
  · exact canonical_strings offer.credentialConfigurationIds
  · exact .string _
  · exact canonical_single (canonical_grant offer.grant)

end Oid4vci

namespace Wallet

open Oid4vci (configurationDocument configurationDocuments configurationsSupported
  keys_configurationDocuments mem_configurationsSupported)

/-! ## What the wallet reads -/

/-- What every entry of the issuer's configurations says. -/
def ownConfiguration : CredentialConfiguration where
  format := formatJwtVcJson
  bindingMethods := ["did:web", "jwk"]

theorem read_configurationDocument (definition : CredentialDefinition) :
    CredentialConfiguration.fromJson (configurationDocument definition) = some ownConfiguration :=
  rfl

theorem readMap_configurationDocuments (definitions : DefinitionCatalog) :
    readMap CredentialConfiguration.fromJson (.object (configurationDocuments definitions)) =
      some ((configurationDocuments definitions).map (fun f => (f.1, ownConfiguration))) := by
  have hdocument : ∀ f ∈ configurationDocuments definitions,
      ∃ d, f.2 = configurationDocument d := by
    intro f hf
    obtain ⟨id, -, hid⟩ := List.mem_filterMap.mp hf
    obtain ⟨d, -, rfl⟩ := Option.map_eq_some_iff.mp hid
    exact ⟨d, rfl⟩
  rw [readMap]
  generalize configurationDocuments definitions = documents at hdocument
  induction documents with
  | nil => rfl
  | cons f rest ih =>
      obtain ⟨d, hd⟩ := hdocument f List.mem_cons_self
      have hrest := ih (fun f hf => hdocument f (List.mem_cons_of_mem _ hf))
      rw [List.mapM_cons, hrest, hd, read_configurationDocument]
      rfl

theorem lookup_map_const {α β : Type*} (fields : List (String × α)) (b : β) (key : String) :
    (fields.map (fun f => (f.1, b))).lookup key =
      if key ∈ fields.map Prod.fst then some b else none := by
  induction fields with
  | nil => rfl
  | cons f rest ih =>
      rw [List.map_cons, List.map_cons, List.lookup_cons, ih]
      by_cases h : key = f.1
      · simp [h]
      · simp only [beq_false_of_ne h, List.mem_cons, h, false_or]

/-- The issuer's metadata describe the configurations it supports, all in the same way. -/
theorem lookup_configurations (definitions : DefinitionCatalog) (configId : String) :
    ((configurationDocuments definitions).map (fun f => (f.1, ownConfiguration))).lookup configId =
      if configId ∈ configurationsSupported definitions then some ownConfiguration else none := by
  rw [lookup_map_const]
  have hiff : configId ∈ (configurationDocuments definitions).map Prod.fst ↔
      configId ∈ configurationsSupported definitions := by
    constructor
    · intro h
      exact (keys_configurationDocuments definitions).subset h
    · intro h
      obtain ⟨d, hd, hid⟩ := mem_configurationsSupported.mp h
      obtain ⟨last, hlast⟩ : ∃ last,
          definitions.definitions.reverse.find? (fun d => d.id = configId) = some last := by
        apply Option.isSome_iff_exists.mp
        rw [List.find?_isSome]
        exact ⟨d, List.mem_reverse.mpr hd, decide_eq_true hid⟩
      apply List.mem_map.mpr
      refine ⟨(configId, configurationDocument last), ?_, rfl⟩
      apply List.mem_filterMap.mpr
      exact ⟨configId, h, by rw [hlast, Option.map_some]⟩
  by_cases h : configId ∈ configurationsSupported definitions
  · rw [if_pos h, if_pos (hiff.mpr h)]
  · rw [if_neg h, if_neg (fun hmem => h (hiff.mp hmem))]

/-- The issuer's metadata, as the wallet reads them. -/
def ownMetadata (baseUrl : String) (definitions : DefinitionCatalog) :
    CredentialIssuerMetadata where
  credentialIssuer := baseUrl
  authorizationServers := []
  credentialEndpoint := baseUrl ++ "/oid4vci/credential"
  nonceEndpoint := some (baseUrl ++ "/oid4vci/nonce")
  credentialConfigurationsSupported :=
    (configurationDocuments definitions).map (fun f => (f.1, ownConfiguration))

theorem read_credentialIssuerMetadata (baseUrl : String) (definitions : DefinitionCatalog) :
    CredentialIssuerMetadata.fromJson (Oid4vci.credentialIssuerMetadata baseUrl definitions) =
      some (ownMetadata baseUrl definitions) := by
  have hmap := readMap_configurationDocuments definitions
  unfold CredentialIssuerMetadata.fromJson
  have hfield : Oid4vci.structField (Oid4vci.credentialIssuerMetadata baseUrl definitions) 4
      "credential_configurations_supported" =
        some (.object (configurationDocuments definitions)) := rfl
  have hread : required (readMap CredentialConfiguration.fromJson)
      (some (Value.object (configurationDocuments definitions))) =
        some ((configurationDocuments definitions).map (fun f => (f.1, ownConfiguration))) := hmap
  rw [hfield, hread]
  rfl

def ownAsMetadata (baseUrl : String) : AuthorizationServerMetadata where
  issuer := baseUrl
  tokenEndpoint := baseUrl ++ "/oid4vci/token"
  dpopSigningAlgValuesSupported := []

theorem read_authorizationServerMetadata (baseUrl : String) :
    AuthorizationServerMetadata.fromJson (Oid4vci.authorizationServerMetadata baseUrl) =
      some (ownAsMetadata baseUrl) := rfl

theorem read_tokenResponse (response : Oid4vci.TokenResponse) :
    TokenResponse.fromJson response.toJson =
      some { accessToken := response.accessToken
             tokenType := response.tokenType
             authorizationDetails := [] } := by
  rfl

theorem read_nonceResponse (cNonce : String) :
    readNonceResponse (Oid4vci.nonceResponse cNonce) = some cNonce := rfl

theorem read_credentialResponse (jws : String) :
    CredentialResponse.fromJson (Oid4vci.credentialResponse jws) =
      some { credentials := [.string jws], credential := none, transactionId := none } := rfl

/-! ## Offers -/

/-- An offer of the issuer, as the wallet reads it. -/
def ownOffer (offer : Oid4vci.CredentialOffer) : CredentialOffer where
  credentialIssuer := offer.credentialIssuer
  credentialConfigurationIds := offer.credentialConfigurationIds
  grants := some (some
    { preAuthorizedCode := offer.grant.preAuthorizedCode
      txCode := offer.grant.txCode.map (fun description =>
        { inputMode := some description.inputMode
          length := some description.length
          description := some description.description })
      authorizationServer := none })

theorem mapM_asStr (items : List String) :
    (items.map Value.string).mapM Value.asStr = some items := by
  induction items with
  | nil => rfl
  | cons item rest ih =>
      rw [List.map_cons, List.mapM_cons, ih]
      rfl

theorem read_txCodeDescription {description : Oid4vci.TxCodeDescription}
    (h : description.length < 2 ^ 32) :
    TxCodeDescription.fromJson description.toJson =
      some { inputMode := some description.inputMode
             length := some description.length
             description := some description.description } := by
  have hlength : (Value.ofNat description.length).asU64.filter (· < 2 ^ 32) =
      some description.length := by
    rw [Value.asU64_ofNat (by omega), Option.filter_some, if_pos (decide_eq_true h)]
  have hfield : Oid4vci.optional (fun n => n.asU64.filter (· < 2 ^ 32))
      (Oid4vci.structField description.toJson 1 "length") = some (some description.length) := by
    show (Option.filter _ _).map some = _
    rw [hlength, Option.map_some]
  unfold TxCodeDescription.fromJson
  rw [hfield]
  rfl

theorem read_grant {grant : Oid4vci.PreAuthorizedCodeGrant}
    (h : ∀ description ∈ grant.txCode, description.length < 2 ^ 32) :
    PreAuthorizedCodeGrant.fromJson grant.toJson =
      some { preAuthorizedCode := grant.preAuthorizedCode
             txCode := grant.txCode.map (fun description =>
               { inputMode := some description.inputMode
                 length := some description.length
                 description := some description.description })
             authorizationServer := none } := by
  obtain ⟨code, txCode⟩ := grant
  cases txCode with
  | none => rfl
  | some description =>
      have hread := read_txCodeDescription (h description rfl)
      have hfield : Oid4vci.optional TxCodeDescription.fromJson
          (Oid4vci.structField (Oid4vci.PreAuthorizedCodeGrant.toJson
            { preAuthorizedCode := code, txCode := some description }) 1 "tx_code") =
          (TxCodeDescription.fromJson description.toJson).map some := rfl
      unfold PreAuthorizedCodeGrant.fromJson
      rw [hfield, hread]
      rfl

/-- **Offers are read back.** -/
theorem read_credentialOffer {offer : Oid4vci.CredentialOffer}
    (h : ∀ description ∈ offer.grant.txCode, description.length < 2 ^ 32) :
    CredentialOffer.fromJson offer.toJson = some (ownOffer offer) := by
  have hids : required (readList Value.asStr)
      (Oid4vci.structField offer.toJson 1 "credential_configuration_ids") =
        some offer.credentialConfigurationIds := mapM_asStr offer.credentialConfigurationIds
  have hgrants : Oid4vci.optional readGrants (Oid4vci.structField offer.toJson 2 "grants") =
      ((PreAuthorizedCodeGrant.fromJson offer.grant.toJson).map some).map some := rfl
  unfold CredentialOffer.fromJson
  rw [hids, hgrants, read_grant h]
  rfl

/-! ## Credential Requests -/

/-- The Credential Request the wallet makes for a configuration. -/
def credentialRequest (target : String × Value) (proof : String) : Value :=
  .object [target, ("proofs", .object [("jwt", .array [.string proof])])]

/-- **Credential Requests are read back.** -/
theorem read_credentialRequest (configId proof : String) :
    Oid4vci.CredentialRequest.fromJson
        (credentialRequest ("credential_configuration_id", .string configId) proof) =
      some { credentialConfigurationId := some configId
             credentialIdentifier := none
             proofs := some [proof]
             proof := none } := rfl

theorem jwtProofs_credentialRequest (configId proof : String) :
    (Oid4vci.CredentialRequest.mk (some configId) none (some [proof]) none).jwtProofs = [proof] :=
  rfl

end Wallet

end IdentityHub
