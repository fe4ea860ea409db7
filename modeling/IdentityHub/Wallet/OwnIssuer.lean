import IdentityHub.Issuer.Delivery
import IdentityHub.Wallet.SameAcceptance

/-!
# Credentials of the hub's own issuer

The issuer writes the shape of a credential down where it mints one; the Storage API and
the wallet each write down what they accept. What a definition of the catalog is minted
into passes the Storage API's checks for as long as it lasts. The wallet takes it too,
unless the definition's type is the general one.
-/

namespace IdentityHub

open Json (Value)

variable {X : HubExternal}

/-- The issuer's document is found, and has its key. -/
structure Resolves (hub : Hub X) (oracle : (op : HubOp X) → HubOp.Answer X op)
    (identity : ServiceIdentity X) : Prop where
  allowed : hub.outbound.checkDid X identity.ownDid hub.insecureHttp = .ok ()
  found : ∃ url doc, X.didWebToUrl identity.ownDid hub.insecureHttp = .ok url ∧
    oracle (.fetchDocument url) = .ok doc ∧
      X.findVerifyingKey doc identity.ownKeyId = .ok (X.verifyingKey identity.signingKey)

/-- The Storage API's claims check passes for a container, and the wallet accepts the
credential in it and files it under its definition's type. -/
def Received (hub : Hub X) (oracle : (op : HubOp X) → HubOp.Answer X op)
    (definition : CredentialDefinition) (container : CredentialContainer) : Prop :=
  checkCredentialClaims X [container] hub.identity.ownDid (some hub.trustedIssuerDids)
      (oracle .now) = .ok () ∧
    (acceptIssuedCredential hub container.payload).eval oracle = .ok definition.credentialType

/-! ## What a minted credential says -/

section

variable (service : IssuerService X) (definition : CredentialDefinition) (holderDid : String)
  (statusIndex : Option ℕ) (id : String) (issuedAt expiresAt : ℕ)

theorem credentialPayload_vcType :
    (credentialPayload service definition holderDid statusIndex id issuedAt expiresAt).pointer
      ["vc", "type"] =
        some (.array [.string "VerifiableCredential", .string definition.credentialType]) := by
  cases statusIndex with
  | none => rfl
  | some index =>
      simp [credentialPayload, vcObject, Value.pointer_cons, Value.set]

theorem credentialPayload_hasType :
    hasType (credentialPayload service definition holderDid statusIndex id issuedAt expiresAt)
      definition.credentialType = true := by
  rw [hasType, credentialPayload_vcType]
  simp

/-- The specific type of a minted credential is that of its definition, if that is one. -/
theorem credentialPayload_specificType :
    specificType (credentialPayload service definition holderDid statusIndex id issuedAt expiresAt) =
      if definition.credentialType = "VerifiableCredential" then none
      else some definition.credentialType := by
  rw [specificType, credentialPayload_vcType, Option.bind_some]
  by_cases h : definition.credentialType = "VerifiableCredential"
  · rw [if_pos h, h]
    rfl
  · rw [if_neg h]
    simp [Value.asArray, h]

theorem credentialPayload_subject :
    credentialSubject (credentialPayload service definition holderDid statusIndex id issuedAt
      expiresAt) = some holderDid := rfl

variable {issuedAt expiresAt} {now : ℕ}

theorem credentialPayload_isWithinValidity (hissuedAt : issuedAt ≤ now) (hlive : now < expiresAt)
    (hclock : expiresAt < 2 ^ 64) :
    isWithinValidity (credentialPayload service definition holderDid statusIndex id issuedAt
      expiresAt) now = true := by
  have hexp : (credentialPayload service definition holderDid statusIndex id issuedAt
      expiresAt).getU64 "exp" = some expiresAt := Value.asU64_ofNat hclock
  have hnbf : (credentialPayload service definition holderDid statusIndex id issuedAt
      expiresAt).getU64 "nbf" = some issuedAt :=
    Value.asU64_ofNat (by omega)
  rw [isWithinValidity_iff, hexp, hnbf]
  constructor
  · rintro exp h
    cases h
    exact hlive
  · rintro nbf h
    cases h
    omega

end

/-! ## How it is received -/

section

variable {hub : Hub X} {oracle : (op : HubOp X) → HubOp.Answer X op} {service : IssuerService X}
  (hsign : X.SignRoundTrip)
include hsign

/-- A container with a credential this issuer signed decodes to what was signed. -/
theorem containerJws_signed {container : CredentialContainer} {payload : Value}
    (hpayload : container.payload = .string (service.identity.sign payload)) :
    ∃ header, header.getStr "kid" = some service.identity.ownKeyId ∧
      containerJws X container = .ok (service.identity.sign payload, header, payload) := by
  obtain ⟨header, hdecoded, hkid⟩ :=
    hsign payload service.identity.signingKey service.identity.ownKeyId
  exact ⟨header, hkid, containerJws_eq_ok.mpr ⟨hpayload, hdecoded⟩⟩

variable (hverify : X.SignVerifies)
include hverify

/-- What the issuer signed is acceptable where its document is found. -/
theorem acceptable_signed (hresolves : Resolves hub oracle service.identity) {payload : Value}
    (hiss : payload.getStr "iss" = some service.identity.ownDid)
    (htrusted : service.identity.ownDid ∈ hub.trustedIssuerDids)
    (hsubject : credentialSubject payload = some hub.identity.ownDid)
    (hunexpired : ∀ exp, payload.getU64 "exp" = some exp → oracle .now < exp) :
    Acceptable hub oracle (.string (service.identity.sign payload)) payload := by
  obtain ⟨header, hdecoded, hkid⟩ :=
    hsign payload service.identity.signingKey service.identity.ownKeyId
  obtain ⟨url, doc, hurl, hdoc, hkey⟩ := hresolves.found
  refine ⟨⟨_, header, rfl, hdecoded, _, _, url, doc, _, hiss, hkid, hresolves.allowed, hurl, hdoc,
    hkey, hverify payload service.identity.signingKey service.identity.ownKeyId⟩, ?_, hsubject,
    hunexpired⟩
  rwa [hiss, Option.getD_some]

end

section

variable {hub : Hub X} {oracle : (op : HubOp X) → HubOp.Answer X op} {service : IssuerService X}
  {job : DeliveryJob} {definition : CredentialDefinition} {index t : ℕ} {uuid : String}
  (hsign : X.SignRoundTrip) (htrusted : service.identity.ownDid ∈ hub.trustedIssuerDids)
  (hholder : job.holderDid = hub.identity.ownDid) (hclock : t + definition.validity < 2 ^ 64)
  (hissued : t ≤ oracle .now) (hlive : oracle .now < t + definition.validity)
include hsign htrusted hholder hclock hissued hlive

/-- The Storage API takes what the issuer delivers. -/
theorem delivered_claims_hold :
    checkCredentialClaims X [(mintForJob service job definition index t uuid).container]
      hub.identity.ownDid (some hub.trustedIssuerDids) (oracle .now) = .ok () := by
  have hpayload : (mintForJob service job definition index t uuid).container.payload =
      .string (service.identity.sign (credentialPayload service definition job.holderDid
        (some index) ("urn:uuid:" ++ uuid) t (t + definition.validity))) := rfl
  obtain ⟨header, -, hjws⟩ := containerJws_signed hsign hpayload
  rw [checkCredentialClaims_eq_ok, List.forall_mem_singleton, checkContainerClaims_eq_ok]
  refine ⟨_, header, _, hjws, credentialPayload_hasType .., ?_, ?_,
    credentialPayload_isWithinValidity _ _ _ _ _ hissued hlive hclock⟩
  · rintro trusted h
    cases h
    exact htrusted
  · rw [credentialPayload_subject, hholder]

variable (hverify : X.SignVerifies) (hresolves : Resolves hub oracle service.identity)
  (hstatic : hub.trustedIssuersRegistry = none)
include hverify hresolves hstatic

/-- The wallet takes what the issuer mints, unless it is of the general type. -/
theorem minted_accepted_iff :
    (acceptIssuedCredential hub
        (mintForJob service job definition index t uuid).container.payload).eval oracle =
        .ok definition.credentialType ↔
      definition.credentialType ≠ "VerifiableCredential" := by
  obtain ⟨payload, hpayload⟩ : ∃ payload, payload = credentialPayload service definition
      job.holderDid (some index) ("urn:uuid:" ++ uuid) t (t + definition.validity) := ⟨_, rfl⟩
  have hcontainer : (mintForJob service job definition index t uuid).container.payload =
      .string (service.identity.sign payload) := by
    rw [hpayload]
    rfl
  have hsubject : credentialSubject payload = some hub.identity.ownDid := by
    rw [hpayload, credentialPayload_subject, hholder]
  have hunexpired : ∀ exp, payload.getU64 "exp" = some exp → oracle .now < exp := by
    have hvalid := credentialPayload_isWithinValidity service definition job.holderDid (some index)
      ("urn:uuid:" ++ uuid) hissued hlive hclock
    rw [← hpayload] at hvalid
    exact (isWithinValidity_iff.mp hvalid).1
  have hiss : payload.getStr "iss" = some service.identity.ownDid := by
    rw [hpayload]
    rfl
  have hacceptable := acceptable_signed hsign hverify hresolves hiss htrusted hsubject hunexpired
  have htype : specificType payload = if definition.credentialType = "VerifiableCredential" then none
      else some definition.credentialType := by
    rw [hpayload, credentialPayload_specificType]
  rw [hcontainer, acceptIssuedCredential_eval hstatic]
  constructor
  · rintro ⟨payload', hacceptable', hspecific⟩ hgeneral
    obtain ⟨jws, header, hjws, hdecoded, -⟩ := hacceptable.signed
    obtain ⟨jws', header', hjws', hdecoded', -⟩ := hacceptable'.signed
    rw [hjws] at hjws'
    cases hjws'
    rw [hdecoded] at hdecoded'
    cases hdecoded'
    rw [htype, if_pos hgeneral] at hspecific
    cases hspecific
  · intro hspecific
    refine ⟨payload, hacceptable, ?_⟩
    rw [htype, if_neg hspecific]

/-- **What this issuer issues is what this hub accepts**, from a definition the operator
gave any type but the general one. -/
theorem own_credentials_received_iff {input : CredentialDefinitionInput} {createdAt : ℕ}
    (hdefinition : input.intoDefinition createdAt = .ok definition) :
    Received hub oracle definition (mintForJob service job definition index t uuid).container ↔
      input.credentialType ≠ "VerifiableCredential" := by
  have htype : definition.credentialType = input.credentialType := by
    unfold CredentialDefinitionInput.intoDefinition at hdefinition
    split_ifs at hdefinition
    cases hdefinition
    rfl
  have hdelivered := @delivered_claims_hold X hub oracle service job definition index t uuid hsign
    htrusted hholder hclock hissued hlive
  rw [Received, and_iff_right hdelivered, ← htype]
  exact minted_accepted_iff hsign htrusted hholder hclock hissued hlive hverify hresolves hstatic

end

/-! ### A definition of the general type -/

def ownService : IssuerService hubReference where
  holderApproval := .auto
  insecureHttp := false
  outbound := { allowedHosts := [] }
  identity :=
    { ownDid := "did:web:issuer", ownKeyId := "key-1", signingKey := "issuer" }
  baseUrl := "https://issuer"

def ownInput (credentialType : String) : CredentialDefinitionInput where
  id := "definition-1"
  credentialType := credentialType

def ownDefinition (credentialType : String) : CredentialDefinition where
  id := "definition-1"
  credentialType := credentialType
  format := formatVc10Jwt
  validity := defaultValiditySecs
  jsonSchemaUrl := none
  jsonSchema := none
  mappings := []
  rules := []
  attestations := []
  createdAt := 0

def ownJob (credentialType : String) : DeliveryJob where
  processId := "process-1"
  holderId := "holder-1"
  holderPid := "request-1"
  holderDid := "did:web:hub"
  deliveryBearer := none
  definitions := [ownDefinition credentialType]

def ownMinted (credentialType : String) : Minted :=
  mintForJob ownService (ownJob credentialType) (ownDefinition credentialType) 0 100 "uuid-1"

theorem ownService_resolves : Resolves walletHub walletOracle ownService.identity :=
  ⟨rfl, "https://issuer/.well-known/did.json", issuerDocument, rfl, rfl, rfl⟩

/-- A credential of the general type passes the Storage API's check of its claims, and the
wallet of the same hub does not take it. -/
theorem general_type_not_received :
    (ownInput "VerifiableCredential").intoDefinition 0 =
        .ok (ownDefinition "VerifiableCredential") ∧
      checkCredentialClaims hubReference [(ownMinted "VerifiableCredential").container]
        walletHub.identity.ownDid (some walletHub.trustedIssuerDids) (walletOracle .now) = .ok () ∧
      Resolves walletHub walletOracle ownService.identity ∧
      ¬ Received walletHub walletOracle (ownDefinition "VerifiableCredential")
        (ownMinted "VerifiableCredential").container := by
  have hsign : hubReference.SignRoundTrip := reference_signRoundTrip
  have hverify : hubReference.SignVerifies := reference_signVerifies
  have htrusted : ownService.identity.ownDid ∈ walletHub.trustedIssuerDids :=
    List.mem_singleton.mpr rfl
  have hissued : 100 ≤ walletOracle .now := Nat.le_refl 100
  have hlive : walletOracle .now < 100 + (ownDefinition "VerifiableCredential").validity := by
    decide
  refine ⟨rfl, ?_, ownService_resolves, fun h => ?_⟩
  · exact delivered_claims_hold hsign htrusted rfl (by decide) hissued hlive
  · exact (minted_accepted_iff hsign htrusted rfl (by decide) hissued hlive hverify
      ownService_resolves rfl).mp h.2 rfl

theorem own_credentials_received_membership :
    Received walletHub walletOracle (ownDefinition "MembershipCredential")
        (ownMinted "MembershipCredential").container ↔
      (ownInput "MembershipCredential").credentialType ≠ "VerifiableCredential" := by
  have hsign : hubReference.SignRoundTrip := reference_signRoundTrip
  have hverify : hubReference.SignVerifies := reference_signVerifies
  have htrusted : ownService.identity.ownDid ∈ walletHub.trustedIssuerDids :=
    List.mem_singleton.mpr rfl
  have hissued : 100 ≤ walletOracle .now := Nat.le_refl 100
  have hlive : walletOracle .now < 100 + (ownDefinition "MembershipCredential").validity := by
    decide
  have hdefinition : (ownInput "MembershipCredential").intoDefinition 0 =
      .ok (ownDefinition "MembershipCredential") := rfl
  exact own_credentials_received_iff hsign htrusted rfl (by decide) hissued hlive hverify
    ownService_resolves rfl hdefinition

end IdentityHub
