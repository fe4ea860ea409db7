import IdentityHub.Wallet.BesideIssuer

/-!
# An offer that can be redeemed

The wallet and the Credential Issuer of this repository were written for each other, and
each checks what the other sends. Here it is shown that no check of the one stands in the
way of the other: an offer whose code is live, for credentials the issuer has room for, can
be redeemed by a hub that trusts the issuer, in one go and with all of its credentials.
-/

namespace IdentityHub

/-- What a wallet signs with a key verifies under that key. -/
def HubExternal.VerifiesCompact (X : HubExternal) : Prop :=
  ∀ header payload key, X.verifyJwsSignature (Wallet.signJwsWithHeader X header payload key)
    (X.verifyingKey key) = .ok ()

namespace Wallet

open Json (Value)
open Oid4vci (CredentialCall MintedCode)
open StepSystem (Reachable Steps anyStep)

variable {X : HubExternal}

/-! ## What the two sides need of each other -/

/-- The hub may call the issuer, trusts it and finds its document; and the issuer finds the
hub's. -/
structure Acquainted (hub : Hub X) (service : Oid4vci.Service X)
    (documents : String → Except String X.DidDocument) : Prop where
  welcomes : Welcomes hub documents service.identity
  metadata : ∃ url, wellKnownUrl service.baseUrl credentialIssuerWellKnown = .ok url ∧
    hub.outbound.checkUrl X url = .ok ()
  server : ∃ url, wellKnownUrl service.baseUrl authorizationServerWellKnown = .ok url ∧
    hub.outbound.checkUrl X url = .ok ()
  endpoints : ∀ path ∈ ["/oid4vci/token", "/oid4vci/nonce", "/oid4vci/credential"],
    hub.outbound.checkUrl X (service.baseUrl ++ path) = .ok ()
  keyId : KeyIdOfDid hub.identity
  web : "did:web:".toList.isPrefixOf hub.identity.ownDid.toList = true
  allowed : service.outbound.checkDid X hub.identity.ownDid service.insecureHttp = .ok ()
  published : ∃ url document, X.didWebToUrl hub.identity.ownDid service.insecureHttp = .ok url ∧
    documents url = .ok document ∧ X.findVerifyingKey document hub.identity.ownKeyId =
      .ok (X.verifyingKey hub.identity.signingKey)

section

variable {hub : Hub X} {service : Oid4vci.Service X} {start now : ℕ}
  {documents : String → Except String X.DidDocument} {w : BothSides X} {s : Oid4vci.Sys X}
  {clientId : Option String}

theorem Acquainted.checkOutbound (hacq : Acquainted hub service documents) (path : String)
    (hpath : path ∈ ["/oid4vci/token", "/oid4vci/nonce", "/oid4vci/credential"]) :
    Wallet.checkOutbound hub (service.baseUrl ++ path) = .ok () := by
  rw [Wallet.checkOutbound, hacq.endpoints path hpath]
  rfl

/-! ## A Credential Request -/

/-- The proof the wallet makes for this issuer. -/
def proofFor (hub : Hub X) (service : Oid4vci.Service X) (clientId : Option String)
    (cNonce : String) (now : ℕ) : String :=
  signJwsWithHeader X (proofHeader hub.identity .didUrl)
    (proofPayload service.baseUrl (some cNonce) clientId now) hub.identity.signingKey

theorem proofKey_didUrl {identity : ServiceIdentity X} (h : KeyIdOfDid identity) :
    Oid4vci.proofKey X (proofHeader identity .didUrl) =
      some (.didUrl identity.ownKeyId identity.ownDid) := by
  obtain ⟨fragment, hkeyId⟩ := h.keyId
  have hdid : "did:".toList.isPrefixOf identity.ownKeyId.toList = true := by
    rw [List.isPrefixOf_iff_prefix, hkeyId, String.toList_append, String.toList_append,
      List.append_assoc]
    exact h.did.trans (List.prefix_append _ _)
  have hkid : (proofHeader identity .didUrl).get "kid" = some (.string identity.ownKeyId) := by
    simp [proofHeader]
  have hjwk : (proofHeader identity .didUrl).get "jwk" = none := by
    simp [proofHeader, Value.get]
  rw [Oid4vci.proofKey, hkid, hjwk]
  dsimp only
  rw [if_pos hdid, takeWhile_keyId h]

/-- The issuer takes the proof for what it is. -/
theorem inspect_proofFor (hdecodes : X.DecodesCompact) (hkeyId : KeyIdOfDid hub.identity)
    (hrange : now < 2 ^ 63) {cNonce : String} :
    Oid4vci.inspectJwtProof X (proofFor hub service clientId cNonce now) service.baseUrl now =
      .ok (.didUrl hub.identity.ownKeyId hub.identity.ownDid, some cNonce) := by
  have hbuilt : (buildJwtProofForClient (ε := String) hub.identity service.baseUrl (some cNonce)
      clientId .didUrl).Returns [clockRead X now] (proofFor hub service clientId cNonce now) :=
    .ask (.refl _)
  obtain ⟨key, hinspect, -⟩ := inspect_built hdecodes (fun _ => hkeyId) hrange hbuilt
    (Nat.le_add_right _ _) (Nat.le_add_right _ _)
  have hheader : CanonicalJson (proofHeader hub.identity .didUrl) := canonical_proofHeader .didUrl
  have hdecoded := decode_signed hdecodes hheader
    (canonical_proofPayload service.baseUrl (some cNonce) clientId now) hub.identity.signingKey
  have hkey := proofKey_of_inspectJwtProof hdecoded hinspect
  rw [proofKey_didUrl hkeyId] at hkey
  cases hkey
  exact hinspect

/-- The proof is signed by the key of the hub's document. -/
theorem verify_proofFor (hverifies : X.VerifiesCompact) (hacq : Acquainted hub service documents)
    (clientId : Option String) (cNonce : String) (now : ℕ) : ∃ document,
      Oid4vci.verifyProofSignature service.toIssuerService
        (proofFor hub service clientId cNonce now)
        (.didUrl hub.identity.ownKeyId hub.identity.ownDid) (.ok document) = .ok () := by
  obtain ⟨-, document, -, -, hkey⟩ := hacq.published
  refine ⟨document, ?_⟩
  simp only [Oid4vci.verifyProofSignature, hacq.web, hacq.allowed, Bool.not_true]
  rw [if_neg (by decide), Except.ok_bind, hkey, Except.ok_bind]
  exact hverifies _ _ _

theorem bearerToken_bearer (token : String) :
    Oid4vci.bearerToken (some ("Bearer " ++ token)) = some token := by
  have hstrip : Text.stripPrefix "Bearer ".toList ("Bearer " ++ token).toList =
      some token.toList := by
    rw [Text.stripPrefix_eq_some, String.toList_append]
  rw [Oid4vci.bearerToken, Option.bind_some, hstrip]
  simp

theorem supported_of_get {definitions : DefinitionCatalog} {configId : String}
    {definition : CredentialDefinition} (h : definitions.get configId = some definition) :
    configId ∈ Oid4vci.configurationsSupported definitions := by
  rw [Oid4vci.mem_configurationsSupported]
  have hmem := List.mem_of_find?_eq_some h
  have hid := List.find?_some h
  exact ⟨definition, hmem, of_decide_eq_true hid⟩

/-- The state of the issuer in which it serves the hub: the token is live, and there is room
for `n` credentials. -/
structure Ready (hub : Hub X) (service : Oid4vci.Service X) (start now : ℕ) (token : String)
    (ids : List String) (definitions : DefinitionCatalog) (n : ℕ) (s : Oid4vci.Sys X) :
    Prop where
  reachable : Reachable (Oid4vci.credentialIssuer service start) s
  clock : s.clock ≤ now
  live : ∃ exp, s.state.accessTokens.entries.lookup token =
    some (exp, { credentialConfigurationIds := ids }) ∧ now < exp
  definitions : s.issuer.app.definitions = definitions
  admits : s.issuer.app.Admits hub.identity.ownDid n

/-- **A Credential Request of the hub is served**, and there is room for the others. -/
theorem credential_served (hdecodes : X.DecodesCompact) (hverifies : X.VerifiesCompact)
    (hacq : Acquainted hub service documents) (hrange : now < 2 ^ 63) (clientId : Option String)
    {token : String} {ids : List String} {definitions : DefinitionCatalog} {n : ℕ}
    (hready : Ready hub service start now token ids definitions (n + 1) s) {cNonce : String}
    (hnonce : ∃ exp, s.state.nonces.entries.lookup cNonce = some (exp, ()) ∧ now < exp)
    {configId : String} (hid : configId ∈ ids) {definition : CredentialDefinition}
    (hoffered : definitions.get configId = some definition) :
    ∃ s' x index uuid, Steps (Oid4vci.credentialIssuer service start) anyStep s s' ∧
      s'.credentialCalls[s.credentialCalls.length]? = some
        { authorization := some ("Bearer " ++ token)
          body := credentialRequest ("credential_configuration_id", .string configId)
            (proofFor hub service clientId cNonce now)
          phase := .issued x (mintCredential service.toIssuerService definition
            hub.identity.ownDid (some index) now uuid).jws } ∧
        Ready hub service start now token ids definitions n s' := by
  have hkeyId := hacq.keyId
  obtain ⟨c, hc⟩ : ∃ c : CredentialCall X, c =
      { authorization := some ("Bearer " ++ token)
        body := credentialRequest ("credential_configuration_id", .string configId)
          (proofFor hub service clientId cNonce now)
        phase := .called } := ⟨_, rfl⟩
  have hphase : c.phase = .called := by rw [hc]
  obtain ⟨document, hproof⟩ := verify_proofFor hverifies hacq clientId cNonce now
  obtain ⟨checked, hchecked⟩ : ∃ checked : Oid4vci.Checked, checked =
      { access := { token := token, readAt := now, ids := ids }
        configId := configId
        proof := proofFor hub service clientId cNonce now
        key := .didUrl hub.identity.ownKeyId hub.identity.ownDid
        nonce := some cNonce } := ⟨_, rfl⟩
  have hpasses : Oid4vci.inspectRequest service definitions checked.access c.body now =
      .ok checked := by
    have hread := read_credentialRequest configId (proofFor hub service clientId cNonce now)
    have hsupported := supported_of_get hoffered
    have hinspect : Oid4vci.inspectJwtProof X (proofFor hub service clientId cNonce now)
        (Oid4vci.credentialIssuerId service) now =
          .ok (.didUrl hub.identity.ownKeyId hub.identity.ownDid, some cNonce) :=
      inspect_proofFor hdecodes hkeyId hrange
    rw [hc, hchecked, Oid4vci.inspectRequest, hread]
    dsimp only
    rw [if_neg (not_not.mpr hsupported), if_neg (not_not.mpr hid), jwtProofs_credentialRequest]
    dsimp only
    rw [hinspect]
  -- every check of the endpoint, in the order of its fields
  have hservable : Oid4vci.Servable service s c now (.ok document) checked definition n := by
    obtain ⟨exp, hnonce, hexp⟩ := hnonce
    constructor
    · exact hready.clock
    · rw [hc, hchecked]
      exact bearerToken_bearer token
    · rw [hchecked]
    · rw [hchecked]
      exact hready.live
    · rw [hready.definitions]
      exact hpasses
    · rw [hchecked]
      exact hproof
    · exact ⟨cNonce, exp, by rw [hchecked], hnonce, hexp⟩
    · rw [hready.definitions, hchecked]
      exact hoffered
    · rw [hchecked]
      exact hready.admits
  have hat : ({ s with credentialCalls := s.credentialCalls ++ [c] } :
      Oid4vci.Sys X).credentialCalls[s.credentialCalls.length]? = some c :=
    List.getElem?_concat_length
  have harrives : (Oid4vci.credentialIssuer service start).step s
      (.credential c.authorization c.body) =
        some { s with credentialCalls := s.credentialCalls ++ [c] } :=
    Oid4vci.credential_arrives start hphase
  have hreach := hready.reachable.step harrives
  obtain ⟨s', x, index, uuid, hsteps, hissued, -, hclock, htokens, hdefinitions, hadmits⟩ :=
    Oid4vci.served_of_servable hreach (hservable.arrived _) hat hphase
  have hstart : Steps (Oid4vci.credentialIssuer service start) anyStep s s := .refl
  have hall := (hstart.tail _ trivial harrives).trans hsteps.any
  rw [hchecked] at hissued hadmits
  refine ⟨s', x, index, uuid, hall, ?_, hready.reachable.trans hall, hclock, ?_, ?_, hadmits⟩
  · rw [hc] at hissued
    exact hissued
  · rw [htokens]
    exact hready.live
  · rw [hdefinitions]
    exact hready.definitions

/-! ## What the wallet makes of it -/

/-- **The wallet accepts what was issued to it** and files it under its definition's type. -/
theorem reaches_acceptIssuedCredential (hsign : X.SignRoundTrip) (hverify : X.SignVerifies)
    (hwelcome : Welcomes hub documents service.identity) {definition : CredentialDefinition}
    (hspecific : definition.credentialType ≠ "VerifiableCredential")
    (hvalid : 0 < definition.validity) (hrange : now + definition.validity < 2 ^ 64)
    (index : ℕ) (uuid : String) {post : String → BothSides X → Prop} (hclock : w.hub.clock ≤ now)
    (h : post definition.credentialType { w with hub := { w.hub with clock := now } }) :
    (besideIssuer service start documents now).Reaches
      (acceptIssuedCredential hub (.string (mintCredential service.toIssuerService definition
        hub.identity.ownDid (some index) now uuid).jws)) post w := by
  obtain ⟨payload, hpayload⟩ : ∃ payload, payload = credentialPayload service.toIssuerService
      definition hub.identity.ownDid (some index) ("urn:uuid:" ++ uuid) now
        (now + definition.validity) := ⟨_, rfl⟩
  have hjws : (mintCredential service.toIssuerService definition hub.identity.ownDid (some index)
      now uuid).jws = service.identity.sign payload := by
    rw [hpayload]
    rfl
  have hiss : payload.getStr "iss" = some service.identity.ownDid := by
    rw [hpayload]
    rfl
  have htype : specificType payload = some definition.credentialType := by
    rw [hpayload, credentialPayload_specificType, if_neg hspecific]
  have hsubject : credentialSubject payload = some hub.identity.ownDid := by
    rw [hpayload, credentialPayload_subject]
  have hexp : payload.getU64 "exp" = some (now + definition.validity) := by
    rw [hpayload]
    exact Value.asU64_ofNat hrange
  obtain ⟨header, hdecoded, hkid⟩ :=
    hsign payload service.identity.signingKey service.identity.ownKeyId
  have hcontainer : containerJws X (probeContainer (.string (service.identity.sign payload))) =
      .ok (service.identity.sign payload, header, payload) :=
    containerJws_eq_ok.mpr ⟨rfl, hdecoded⟩
  -- the key that signed is the one the issuer has published
  obtain ⟨url, doc, hurl, hdoc, hkey, -⟩ := hwelcome.published
  have hsignature : X.verifyJwsSignature (service.identity.sign payload)
      (X.verifyingKey service.identity.signingKey) = .ok () := hverify _ _ _
  have hjwt : isJwtFormat formatJwtVcJson = true := by decide
  rw [hjws]
  unfold acceptIssuedCredential verifyCredentialProofs verifyCredentialProofs
  simp only [checkIssuer, hwelcome.static, verifyCredentialProof, Environment.reaches_bind,
    Environment.reaches_ofExcept, Environment.reaches_mapError, Environment.reaches_require,
    Environment.reaches_pure, Except.mapError_eq_ok, Option.okOr_eq_ok]
  refine ⟨service.identity.sign payload, rfl, (header, payload), hdecoded, _, htype, (), ?_, hjwt,
    _, hcontainer, _, hiss, _, hkid, (), hwelcome.allowed, ?_⟩
  · rw [hiss, Option.getD_some]
    exact checkTrustedIssuer_eq_ok.mpr hwelcome.trusted
  apply reaches_resolveDid hurl hdoc
  refine ⟨_, hkey, (), hsignature, hsubject, ?_⟩
  unfold checkNotExpired
  rw [hexp]
  dsimp only
  rw [Environment.reaches_bind]
  apply reaches_nowSecs hclock
  rw [Environment.reaches_require]
  exact ⟨by omega, h⟩

/-! ## One credential after the other -/

/-- The token of a Bearer answer. -/
def bearerResponse (token : String) : TokenResponse where
  accessToken := token
  tokenType := "Bearer"
  authorizationDetails := []

theorem dpopBound_bearer (token : String) : (bearerResponse token).dpopBound = false := by
  have hother : Text.asciiLower "Bearer" ≠ "dpop" := by decide
  exact decide_eq_false hother

theorem dpopNonceChallenge_answerWith (v : Value) :
    dpopNonceChallenge (answerWith X v) = none := rfl

/-- A definition that is offered under this id, and what it says of credentials minted at
`now`. -/
structure Mintable (definitions : DefinitionCatalog) (now : ℕ) (configId credentialType : String) :
    Prop where
  offered : ∃ definition, definitions.get configId = some definition ∧
    definition.credentialType = credentialType ∧ 0 < definition.validity ∧
      now + definition.validity < 2 ^ 64
  specific : credentialType ≠ "VerifiableCredential"

/-- Both sides between two rounds, with room for `n` credentials. -/
structure InHand (hub : Hub X) (service : Oid4vci.Service X) (start now : ℕ) (token : String)
    (ids : List String) (definitions : DefinitionCatalog) (store : CredentialStore) (n : ℕ)
    (w : BothSides X) : Prop where
  ready : Ready hub service start now token ids definitions n w.issuer
  clock : w.hub.clock ≤ now
  store : w.hub.store = store

/-- What a redemption gathers goes on by these configurations and types. -/
structure Gathers (before after : Progress) (items : List (String × String)) : Prop where
  stored : after.stored = before.stored ++ items.map (fun item => ⟨item.1, item.2⟩)
  notStored : after.notStored = before.notStored
  types : after.containers.map (·.credentialType) =
    before.containers.map (·.credentialType) ++ items.map Prod.snd

theorem Gathers.none (progress : Progress) : Gathers progress progress [] where
  stored := (List.append_nil _).symm
  notStored := rfl
  types := (List.append_nil _).symm

theorem Gathers.trans {before between after : Progress} {items items' : List (String × String)}
    (h : Gathers before between items) (h' : Gathers between after items') :
    Gathers before after (items ++ items') where
  stored := by rw [h'.stored, h.stored, List.map_append, List.append_assoc]
  notStored := h'.notStored.trans h.notStored
  types := by rw [h'.types, h.types, List.map_append, List.append_assoc]

variable (hparses : X.ParsesOwnText) (hdecodes : X.DecodesCompact)
  (hverifies : X.VerifiesCompact) (hacq : Acquainted hub service documents)
  (hrange : now < 2 ^ 63) {token : String} {ids : List String} {definitions : DefinitionCatalog}
  {store : CredentialStore}
include hparses hdecodes hverifies hacq hrange

/-- A Credential Request of the wallet is answered with one credential. -/
theorem reaches_requestCredentials {d : Discovery}
    (hd : d.metadata = ownMetadata service.baseUrl definitions) {n : ℕ}
    (hw : InHand hub service start now token ids definitions store (n + 1) w) {configId : String}
    (hid : configId ∈ ids) {definition : CredentialDefinition}
    (hoffered : definitions.get configId = some definition) {nonce : Option String} :
    (besideIssuer service start documents now).Reaches
      (requestCredentials hub clientId d (bearerResponse token) ownConfiguration
        ("credential_configuration_id", .string configId) nonce)
      (fun out w' => InHand hub service start now token ids definitions store n w' ∧
        ∃ index uuid, out.1 = [.string (mintCredential service.toIssuerService definition
          hub.identity.ownDid (some index) now uuid).jws]) w := by
  have hnonceUrl := hacq.checkOutbound "/oid4vci/nonce" (by decide)
  have hcredentialUrl := hacq.checkOutbound "/oid4vci/credential" (by decide)
  obtain ⟨hready, hclock, hstore⟩ := hw
  -- the nonce
  obtain ⟨cNonce, s₁, hstep₁, hcalls₁, hlive₁, htokens₁, hissuer₁, -, hclock₁⟩ :=
    Oid4vci.nonce_served hready.reachable hready.clock
  have hready₁ : Ready hub service start now token ids definitions (n + 1) s₁ := by
    refine ⟨hready.reachable.step hstep₁, hclock₁.le, ?_, ?_, ?_⟩
    · rw [htokens₁]
      exact hready.live
    · rw [hissuer₁]
      exact hready.definitions
    · rw [hissuer₁]
      exact hready.admits
  have hunused : ∃ exp, s₁.state.nonces.entries.lookup cNonce = some (exp, ()) ∧ now < exp :=
    ⟨_, hlive₁, by rw [Oid4vci.nonceTtlSecs]; omega⟩
  -- the credential
  obtain ⟨s₂, x, index, uuid, hsteps₂, hissued, hready₂⟩ :=
    credential_served hdecodes hverifies hacq hrange clientId hready₁ hunused hid hoffered
  have hmethods : ProofKeyRef.forBindingMethods ownConfiguration.bindingMethods = .didUrl := by
    decide
  have hbearer := dpopBound_bearer token
  unfold requestCredentials requestNonce
  rw [hd]
  simp only [ownMetadata, Environment.reaches_bind, Environment.reaches_ofExcept,
    Environment.reaches_pure]
  refine ⟨(), hnonceUrl, ?_⟩
  have hstart : Steps (Oid4vci.credentialIssuer service start) anyStep w.issuer w.issuer := .refl
  apply reaches_send (answerWith X (Oid4vci.nonceResponse cNonce)) (hstart.tail _ trivial hstep₁)
  · apply genuine_nonce rfl rfl
    refine ⟨w.issuer.nonceCalls.length, cNonce, now, le_rfl, ?_, rfl⟩
    rw [hcalls₁]
    exact List.getElem?_concat_length
  refine ⟨cNonce, readJson_answerWith hparses (Oid4vci.canonical_nonceResponse cNonce)
    (read_nonceResponse cNonce), ?_⟩
  unfold buildJwtProofForClient
  rw [hmethods]
  simp only [Environment.reaches_bind, Environment.reaches_pure]
  apply reaches_nowSecs (w := { w with issuer := s₁ }) hclock
  unfold postJson
  simp only [Environment.reaches_bind, Environment.reaches_ofExcept, Environment.reaches_pure,
    Environment.reaches_require]
  refine ⟨(), hcredentialUrl, ?_⟩
  rw [resourceAttempts, resourceAttempt, dpopHeader, hbearer]
  simp only [Bool.false_eq_true, if_false, Environment.reaches_bind, Environment.reaches_pure]
  apply reaches_send (answerWith X (Oid4vci.credentialResponse (mintCredential
    service.toIssuerService definition hub.identity.ownDid (some index) now uuid).jws)) hsteps₂
  · apply genuine_credential rfl rfl
    exact ⟨_, _, x, _, le_rfl, hissued, rfl, rfl, rfl, rfl⟩
  rw [dpopNonceChallenge_answerWith, Option.filter_none]
  have hread : readJson X CredentialResponse.fromJson (service.baseUrl ++ "/oid4vci/credential")
      (answerWith X (Oid4vci.credentialResponse (mintCredential service.toIssuerService definition
        hub.identity.ownDid (some index) now uuid).jws)) = .ok _ :=
    readJson_answerWith hparses (Oid4vci.canonical_credentialResponse _) (read_credentialResponse _)
  rw [Environment.reaches_pure]
  refine ⟨_, hread, rfl, by simp, ⟨hready₂, le_rfl, hstore⟩, index, uuid, rfl⟩

variable (hsign : X.SignRoundTrip) (hverify : X.SignVerifies)
include hsign hverify

/-- **Step lemma.** A round gathers the credential of its configuration. -/
theorem reaches_redeemTarget {d : Discovery}
    (hd : d.metadata = ownMetadata service.baseUrl definitions) {n : ℕ}
    (hw : InHand hub service start now token ids definitions store (n + 1) w)
    {configId credentialType : String} (hid : configId ∈ ids)
    (hmintable : Mintable definitions now configId credentialType) {progress : Progress} :
    (besideIssuer service start documents now).Reaches
      (redeemTarget hub clientId d (bearerResponse token) configId ownConfiguration
        ("credential_configuration_id", .string configId) progress)
      (fun progress' w' => InHand hub service start now token ids definitions store n w' ∧
        Gathers progress progress' [(configId, credentialType)]) w := by
  obtain ⟨definition, hoffered, htype, hvalid, hbound⟩ := hmintable.offered
  have hkept : ownConfiguration.format = formatJwtVcJson := rfl
  unfold redeemTarget
  rw [Environment.reaches_bind]
  apply (reaches_requestCredentials hparses hdecodes hverifies hacq hrange hd hw hid hoffered).mono
  rintro ⟨credentials, nonce⟩ w₁ ⟨hw₁, index, uuid, hcredentials⟩
  change credentials = _ at hcredentials
  dsimp only
  rw [if_pos hkept, hcredentials, acceptCredentials, Environment.reaches_bind]
  apply reaches_acceptIssuedCredential hsign hverify hacq.welcomes (htype ▸ hmintable.specific)
    hvalid hbound index uuid hw₁.clock
  rw [acceptCredentials, Environment.reaches_pure, htype]
  refine ⟨⟨hw₁.ready, le_rfl, hw₁.store⟩, rfl, rfl, ?_⟩
  rw [Progress.accept, List.map_append]
  rfl

/-- **Run lemma.** The rounds gather the credentials of all configurations. -/
theorem reaches_redeemConfigurations {d : Discovery}
    (hd : d.metadata = ownMetadata service.baseUrl definitions) {items : List (String × String)}
    (hids : ∀ item ∈ items, item.1 ∈ ids)
    (hmintable : ∀ item ∈ items, Mintable definitions now item.1 item.2)
    (hw : InHand hub service start now token ids definitions store items.length w)
    {progress : Progress} :
    (besideIssuer service start documents now).Reaches
      (redeemConfigurations hub clientId d (bearerResponse token) (items.map Prod.fst) progress)
      (fun progress' w' => InHand hub service start now token ids definitions store 0 w' ∧
        Gathers progress progress' items) w := by
  induction items generalizing w progress with
  | nil =>
      rw [List.map_nil, redeemConfigurations, Environment.reaches_pure]
      exact ⟨hw, .none progress⟩
  | cons item rest ih =>
      obtain ⟨configId, credentialType⟩ := item
      have hthis := hmintable (configId, credentialType) List.mem_cons_self
      obtain ⟨definition, hoffered, -⟩ := hthis.offered
      -- the wallet looks the configuration up in the metadata it has fetched before
      have hdescribed : d.metadata.credentialConfigurationsSupported.lookup configId =
          some ownConfiguration := by
        rw [hd, ownMetadata, lookup_configurations, if_pos (supported_of_get hoffered)]
      have htargets : requestTargets (bearerResponse token) configId =
          [("credential_configuration_id", .string configId)] := rfl
      rw [List.map_cons, redeemConfigurations]
      simp only [Environment.reaches_bind, Environment.reaches_ofExcept, Option.okOr_eq_ok]
      refine ⟨ownConfiguration, hdescribed, ?_⟩
      rw [htargets, redeemTargets, Environment.reaches_bind]
      apply (reaches_redeemTarget hparses hdecodes hverifies hacq hrange hsign hverify hd hw
        (hids _ List.mem_cons_self) hthis).mono
      rintro progress₁ w₁ ⟨hw₁, hgathers₁⟩
      rw [redeemTargets, Environment.reaches_pure]
      apply (ih (fun item hitem => hids item (List.mem_cons_of_mem _ hitem))
        (fun item hitem => hmintable item (List.mem_cons_of_mem _ hitem)) hw₁).mono
      rintro progress₂ w₂ ⟨hw₂, hgathers₂⟩
      exact ⟨hw₂, hgathers₁.trans hgathers₂⟩

end

/-! ## The whole redemption -/

section

variable {hub : Hub X} {service : Oid4vci.Service X} {start now : ℕ}
  {documents : String → Except String X.DidDocument} {w : BothSides X} {clientId : Option String}
  {minted : MintedCode}

/-- The request to redeem an offer of the issuer, passed on as its text, with its Transaction
Code. -/
def offerBody (service : Oid4vci.Service X) (minted : MintedCode) : RedeemOfferBody where
  offer := none
  credentialOffer := (X.parseJson (X.jsonText (minted.offer service).toJson)).toOption.bind
    CredentialOffer.fromJson
  credentialOfferUri := none
  txCode := minted.txCode

theorem offerBody_eq (hparses : X.ParsesOwnText) : offerBody service minted =
    { offer := none
      credentialOffer := some (ownOffer (minted.offer service))
      credentialOfferUri := none
      txCode := minted.txCode } := by
  have hlength : ∀ description ∈ (minted.offer service).grant.txCode,
      description.length < 2 ^ 32 := by
    intro description hdescription
    obtain ⟨pin, -, rfl⟩ := Option.map_eq_some_iff.mp hdescription
    show Oid4vci.txCodeLength < 2 ^ 32
    decide
  have htext : (X.parseJson (X.jsonText (minted.offer service).toJson)).toOption =
      some (minted.offer service).toJson := by
    rw [hparses _ (Oid4vci.canonical_credentialOffer _)]
    rfl
  rw [offerBody, htext, Option.bind_some, read_credentialOffer hlength]

/-- The grant of an offer, as the wallet reads it. -/
def grantOf (offer : Oid4vci.CredentialOffer) : PreAuthorizedCodeGrant where
  preAuthorizedCode := offer.grant.preAuthorizedCode
  txCode := offer.grant.txCode.map (fun description =>
    { inputMode := some description.inputMode
      length := some description.length
      description := some description.description })
  authorizationServer := none

/-- What the wallet finds out about an offer of the issuer. -/
def ownDiscovery (service : Oid4vci.Service X) (minted : MintedCode)
    (definitions : DefinitionCatalog) : Discovery where
  offer := ownOffer (minted.offer service)
  grant := grantOf (minted.offer service)
  metadata := ownMetadata service.baseUrl definitions
  asMetadata := ownAsMetadata service.baseUrl

/-- The issuer's answer to the wallet's form depends on the code and the Transaction Code. -/
theorem presentedCode_tokenForm {assertion : List (String × String)}
    (hassertion : assertion.lookup "tx_code" = none) :
    Oid4vci.presentedCode (tokenForm clientId (grantOf (minted.offer service)) minted.txCode ++
      assertion) = .ok (minted.code, minted.txCode) := by
  have hgrant : preAuthorizedCodeGrant = Oid4vci.preAuthorizedCodeGrant := rfl
  unfold Oid4vci.presentedCode tokenForm
  cases htx : minted.txCode with
  | none =>
      cases clientId with
      | none => simp [grantOf, MintedCode.offer, htx, hgrant, List.lookup, hassertion]
      | some id => simp [grantOf, MintedCode.offer, htx, hgrant, List.lookup, hassertion]
  | some pin =>
      cases clientId with
      | none => simp [grantOf, MintedCode.offer, htx, hgrant, List.lookup]
      | some id => simp [grantOf, MintedCode.offer, htx, hgrant, List.lookup]

/-- The offer can be redeemed at `now`: its code is live, and the issuer has what it offers
and room to record it. -/
structure Redeemable (hub : Hub X) (s : Oid4vci.Sys X) (now : ℕ) (minted : MintedCode) :
    Prop where
  clock : s.clock ≤ now
  unpoisoned : s.state.codesPoisoned = false
  live : ∃ exp failedAttempts, s.state.preAuthorizedCodes.entries.lookup minted.code =
    some (exp, { credentialConfigurationIds := minted.ids
                 txCode := minted.txCode
                 failedAttempts := failedAttempts }) ∧ now < exp
  mintable : ∀ configId ∈ minted.ids, ∃ credentialType,
    Mintable s.issuer.app.definitions now configId credentialType
  admits : s.issuer.app.Admits hub.identity.ownDid minted.ids.length

/-- A client's assertion takes nothing but a little time. -/
theorem reaches_clientAssertion (hclock : w.hub.clock ≤ now) {audience : String} :
    (besideIssuer service start documents now).Reaches (clientAssertion hub clientId audience)
      (fun assertion w' => assertion.lookup "tx_code" = none ∧ w'.issuer = w.issuer ∧
        w'.hub.clock ≤ now ∧ w'.hub.store = w.hub.store) w := by
  cases clientId with
  | none =>
      rw [clientAssertion, Environment.reaches_pure]
      exact ⟨rfl, rfl, hclock, rfl⟩
  | some id =>
      unfold clientAssertion buildClientAssertion
      simp only [Environment.reaches_bind, Environment.reaches_pure]
      apply reaches_nowSecs hclock
      apply reaches_drawUuid "uuid"
      exact ⟨rfl, rfl, le_rfl, rfl⟩

/-- What was gathered is stored in one batch. -/
theorem reaches_storeRedeemed {containers : List CredentialContainer} :
    (besideIssuer service start documents now).Reaches
      (storeRedeemed containers : HubProgram X WalletError Unit)
      (fun _ w' => w'.issuer = w.issuer ∧ Kept w.hub.store w'.hub.store containers) w := by
  unfold storeRedeemed Kept
  split
  · rw [Environment.reaches_pure]
    exact ⟨rfl, rfl⟩
  · rw [Environment.reaches_bind]
    apply reaches_drawUuid "uuid"
    apply reaches_storeBatch
    dsimp only
    exact ⟨rfl, "uuid", rfl⟩

/-- A choice for each id, kept beside it. -/
theorem exists_items {ids : List String} {r : String → String → Prop}
    (h : ∀ id ∈ ids, ∃ t, r id t) : ∃ items : List (String × String),
      items.map Prod.fst = ids ∧ ∀ item ∈ items, r item.1 item.2 := by
  induction ids with
  | nil => exact ⟨[], rfl, fun _ hitem => absurd hitem List.not_mem_nil⟩
  | cons id rest ih =>
      obtain ⟨t, ht⟩ := h id List.mem_cons_self
      obtain ⟨items, hitems, hall⟩ := ih (fun id hid => h id (List.mem_cons_of_mem _ hid))
      refine ⟨(id, t) :: items, by rw [List.map_cons, hitems], ?_⟩
      intro item hitem
      rcases List.mem_cons.mp hitem with rfl | hrest
      · exact ht
      · exact hall item hrest

/-- The wallet has redeemed the offer: nothing was left out, and one batch holds a credential
for each offered configuration, of the type its definition gives. -/
def RedeemedAll (service : Oid4vci.Service X) (minted : MintedCode)
    (definitions : DefinitionCatalog) (now : ℕ) (before after : CredentialStore)
    (result : RedeemOfferResponse) : Prop :=
  result.credentialIssuer = service.baseUrl ∧ result.notStored = [] ∧
    ∃ items : List (String × String), items.map Prod.fst = minted.ids ∧
      (∀ item ∈ items, Mintable definitions now item.1 item.2) ∧
        result.stored = items.map (fun item => ⟨item.1, item.2⟩) ∧
          ∃ containers, Kept before after containers ∧
            containers.map (·.credentialType) = items.map Prod.snd

variable (hparses : X.ParsesOwnText) (hacq : Acquainted hub service documents)
include hparses hacq

/-- The wallet finds the issuer. -/
theorem reaches_discover : (besideIssuer service start documents now).Reaches
    (discover hub (offerBody service minted))
    (fun d w' => d = ownDiscovery service minted w.issuer.issuer.app.definitions ∧ w' = w) w := by
  obtain ⟨metadataUrl, hmetadata, hmetadataAllowed⟩ := hacq.metadata
  obtain ⟨serverUrl, hserver, hserverAllowed⟩ := hacq.server
  have hpin : (grantOf (minted.offer service)).txCode.isSome = true →
      minted.txCode.isSome = true := by
    cases htx : minted.txCode with
    | none => simp [grantOf, MintedCode.offer, htx]
    | some pin => simp
  rw [offerBody_eq hparses]
  unfold discover resolveOffer
  simp only [Option.elim_none, Environment.reaches_bind, Environment.reaches_ofExcept,
    Environment.reaches_require, Environment.reaches_pure, Except.mapError_eq_ok,
    Option.okOr_eq_ok]
  refine ⟨(none, none), rfl, ?_⟩
  rw [Option.some_or, Option.none_or, Environment.reaches_pure]
  refine ⟨grantOf (minted.offer service), rfl, ?_⟩
  refine ⟨hpin, metadataUrl, hmetadata, ?_⟩
  apply reaches_getJson hparses hmetadataAllowed
    (Oid4vci.canonical_credentialIssuerMetadata service.baseUrl w.issuer.issuer.app.definitions)
    (read_credentialIssuerMetadata service.baseUrl w.issuer.issuer.app.definitions)
    (genuine_metadata rfl hmetadata rfl)
  refine ⟨rfl, serverUrl, hserver, ?_⟩
  apply reaches_getJson hparses hserverAllowed
    (Oid4vci.canonical_authorizationServerMetadata service.baseUrl)
    (read_authorizationServerMetadata service.baseUrl) (genuine_server rfl hserver rfl)
  exact ⟨rfl, rfl⟩

/-- **The code is exchanged** for an access token, which covers what was offered. -/
theorem reaches_requestToken (h : Reachable (Oid4vci.credentialIssuer service start) w.issuer)
    (hminted : Redeemable hub w.issuer now minted) (hclock : w.hub.clock ≤ now)
    {definitions : DefinitionCatalog} :
    (besideIssuer service start documents now).Reaches
      (requestToken hub clientId (ownDiscovery service minted definitions) minted.txCode)
      (fun token w' => ∃ accessToken, token = bearerResponse accessToken ∧
        InHand hub service start now accessToken minted.ids w.issuer.issuer.app.definitions
          w.hub.store minted.ids.length w') w := by
  obtain ⟨exp, failedAttempts, hlookup, hlive⟩ := hminted.live
  have htokenUrl := hacq.checkOutbound "/oid4vci/token" (by decide)
  have hdpop : (ownAsMetadata service.baseUrl).useDpop = false := rfl
  unfold requestToken
  simp only [ownDiscovery, Environment.reaches_bind, Environment.reaches_ofExcept,
    Environment.reaches_pure]
  refine ⟨(), htokenUrl, ?_⟩
  rw [tokenAttempts, tokenAttempt]
  simp only [hdpop, dpopHeader, Bool.false_eq_true, if_false, Bool.false_and,
    Environment.reaches_bind, Environment.reaches_pure]
  apply (reaches_clientAssertion hclock).mono
  rintro assertion w₁ ⟨hassertion, hissuer₁, hclock₁, hstore₁⟩
  have hform : Oid4vci.presentedCode (tokenForm clientId (grantOf (minted.offer service))
      minted.txCode ++ assertion) = .ok (minted.code, minted.txCode) :=
    presentedCode_tokenForm hassertion
  -- the code is live and the Transaction Code is the one the issuer kept
  obtain ⟨s', granted, hsteps, hgranted, htype, htoken, hissuer, -, hclock'⟩ :=
    Oid4vci.token_served h hform hlookup hlive hminted.unpoisoned hminted.clock
  apply reaches_send (answerWith X granted.response.toJson) (hissuer₁ ▸ hsteps)
  · apply genuine_token rfl rfl
    rw [hissuer₁]
    exact ⟨_, _, granted, le_rfl, hgranted, rfl, rfl⟩
  rw [dpopNonceChallenge_answerWith, Option.filter_none]
  have hread : readJson X TokenResponse.fromJson (service.baseUrl ++ "/oid4vci/token")
      (answerWith X granted.response.toJson) =
        .ok (bearerResponse granted.response.accessToken) := by
    rw [readJson_answerWith hparses (Oid4vci.canonical_tokenResponse _) (read_tokenResponse _),
      htype]
    rfl
  rw [Environment.reaches_pure]
  refine ⟨_, hread, ?_⟩
  apply Environment.reaches_require.mpr
  refine ⟨?_, granted.response.accessToken, rfl, ⟨?_, hclock₁, hstore₁⟩⟩
  · rw [dpopBound_bearer]
    exact Bool.false_ne_true
  · refine ⟨h.trans hsteps, hclock'.le, ⟨_, htoken, ?_⟩, ?_, ?_⟩
    · rw [Oid4vci.accessTokenTtlSecs]
      omega
    · rw [hissuer]
    · rw [hissuer]
      exact hminted.admits

variable (clientId) in
/-- The whole redemption, part by part. -/
theorem reaches_redeem (hdecodes : X.DecodesCompact) (hverifies : X.VerifiesCompact)
    (hsign : X.SignRoundTrip) (hverify : X.SignVerifies) (hrange : now < 2 ^ 63)
    (h : Reachable (Oid4vci.credentialIssuer service start) w.issuer)
    (hminted : Redeemable hub w.issuer now minted) (hclock : w.hub.clock ≤ now) :
    (besideIssuer service start documents now).Reaches
      (redeem hub clientId (offerBody service minted))
      (fun result w' => RedeemedAll service minted w.issuer.issuer.app.definitions now w.hub.store
        w'.hub.store result) w := by
  obtain ⟨items, hitems, hmintable⟩ := exists_items hminted.mintable
  have hids : ∀ item ∈ items, item.1 ∈ minted.ids := by
    intro item hitem
    rw [← hitems]
    exact List.mem_map_of_mem hitem
  have hcount : minted.ids.length = items.length := by rw [← hitems, List.length_map]
  unfold redeem gather
  simp only [Environment.reaches_bind]
  apply (reaches_discover hparses hacq).mono
  rintro d w₁ ⟨rfl, rfl⟩
  apply (reaches_requestToken hparses hacq h hminted hclock).mono
  rintro token w₂ ⟨accessToken, rfl, hw₂⟩
  rw [hcount] at hw₂
  have hoffered : (ownDiscovery service minted
      w₁.issuer.issuer.app.definitions).offer.credentialConfigurationIds = items.map Prod.fst :=
    hitems.symm
  rw [hoffered]
  apply (reaches_redeemConfigurations hparses hdecodes hverifies hacq hrange hsign hverify rfl hids
    hmintable hw₂).mono
  rintro progress w₃ ⟨hw₃, hgathers⟩
  simp only [Environment.reaches_pure]
  apply reaches_storeRedeemed.mono
  rintro _ w₄ ⟨-, hkept⟩
  rw [hw₃.store] at hkept
  exact ⟨rfl, hgathers.notStored, items, hitems, hmintable, hgathers.stored, progress.containers,
    hkept, hgathers.types⟩

variable (clientId) in
/-- **An offer of the issuer can be redeemed.** A hub that trusts the issuer and whose document
the issuer finds, redeems a live offer of it in one go: each offered configuration gives one
credential, and all of them are stored together. -/
theorem offer_redeemable (hdecodes : X.DecodesCompact) (hverifies : X.VerifiesCompact)
    (hsign : X.SignRoundTrip) (hverify : X.SignVerifies) (hrange : now < 2 ^ 63)
    (h : Reachable (Oid4vci.credentialIssuer service start) w.issuer)
    (hminted : Redeemable hub w.issuer now minted) (hclock : w.hub.clock ≤ now) :
    ∃ result w', (besideIssuer service start documents now).Runs
      (redeem hub clientId (offerBody service minted)) w result w' ∧
        RedeemedAll service minted w.issuer.issuer.app.definitions now w.hub.store w'.hub.store
          result :=
  (reaches_redeem clientId hparses hacq hdecodes hverifies hsign hverify hrange h hminted
    hclock).runs

end

/-! ## Acme's wallet -/

/-- A compact token is signed by the key that its last part encodes. -/
def verifyCompact (token key : String) : Except String Unit :=
  if (token.toList.reverse.takeWhile (· != '.')).reverse = Base64Url.encode key.toUTF8.toList then
    .ok ()
  else .error "signature error"

def compactToken (header payload : Value) (key : String) : String :=
  b64Text (Reference.jsonText header) ++ "." ++ b64Text (Reference.jsonText payload) ++ "." ++
    String.ofList (Base64Url.encode key.toUTF8.toList)

/-- The sample functions, with all tokens in the compact form. -/
def wireReference : HubExternal :=
  { compactReference with
    signJws := fun payload key kid => compactToken (Reference.header kid) payload key
    verifyJwsSignature := verifyCompact }

theorem verifyCompact_token (header payload : Value) (key : String) :
    verifyCompact (compactToken header payload key) key = .ok () := by
  have hencoded : ∀ c ∈ (Base64Url.encode key.toUTF8.toList).reverse, (c != '.') = true := by
    intro c hc
    rw [bne_iff_ne]
    rintro rfl
    exact dot_notMem_encode _ (List.mem_reverse.mp hc)
  have hlast : ∀ signed : String, ((signed ++ "." ++
      String.ofList (Base64Url.encode key.toUTF8.toList)).toList.reverse.takeWhile
        (· != '.')).reverse = Base64Url.encode key.toUTF8.toList := by
    intro signed
    simp only [String.toList_append, String.toList_ofList, List.reverse_append]
    rw [List.takeWhile_append_of_pos hencoded]
    simp
  exact if_pos (hlast _)

theorem wireReference_decodes : wireReference.DecodesCompact := compactReference_decodes

theorem wireReference_verifies : wireReference.VerifiesCompact := by
  intro header payload key
  unfold signJwsWithHeader
  exact verifyCompact_token header payload key

theorem wireReference_parses : wireReference.ParsesOwnText := by
  intro v _
  change Reference.parseJson (Reference.jsonText v) = .ok v
  rw [Reference.parseJson, Reference.jsonText, String.toList_ofList, Json.Text.parse_print]

theorem wireReference_signRoundTrip : wireReference.SignRoundTrip := by
  intro payload key kid
  exact ⟨Reference.header kid, decodeCompact_token _ _ _, Reference.header_kid kid⟩

theorem wireReference_signVerifies : wireReference.SignVerifies := by
  intro payload key kid
  exact verifyCompact_token _ _ _

def wireService : Oid4vci.Service wireReference.toExternal where
  holderApproval := .auto
  insecureHttp := false
  outbound := { allowedHosts := ["acme.example"] }
  identity :=
    { ownDid := "did:web:issuer.example:issuer"
      ownKeyId := "did:web:issuer.example:issuer#key-1"
      signingKey := "issuer key" }
  baseUrl := "https://issuer.example"
  stsClientId := "hub"
  stsClientSecret := "secret"

def wireHub : Hub wireReference where
  identity :=
    { ownDid := "did:web:acme.example"
      ownKeyId := "did:web:acme.example#key-1"
      signingKey := "acme key" }
  stsParty :=
    { ownDid := "did:web:sts"
      ownKeyId := "did:web:sts#key-1"
      signingKey := "sts key" }
  insecureHttp := false
  outbound := { allowedHosts := ["issuer.example"] }
  trustedIssuerDids := ["did:web:issuer.example:issuer"]
  knownHolderPids := []
  trustedIssuersRegistry := none
  scopeType := some

def wireDocuments (url : String) : Except String wireReference.DidDocument :=
  if url = "https://acme.example/.well-known/did.json" then
    .ok
      { keys := [("did:web:acme.example#key-1", "acme key")]
        capabilityInvocation := []
        services := [] : ReferenceDocument }
  else trustingDocuments url

def wireState : HubState wireReference where
  clock := 4
  seenJti := .empty maxSeenJti
  trustCache := none
  store := []

/-- The operator defines a second credential and offers both, with a Transaction Code. -/
def offeringRun : List (Oid4vci.Action wireReference.toExternal) :=
  [.issuer (.createDefinition { id := "badge", credentialType := "BadgeCredential" } 0),
    .createOffer
      { authorization := some "Basic aHViOnNlY3JldA=="
        credentialConfigurationIds := none
        txCode := true },
    .offer 0 .check, .offer 0 (.mint 0 "code-1" 42), .offer 0 (.list 0 "offer-1")]

def offeredCode : MintedCode where
  code := "code-1"
  ids := ["badge", "membership-credential"]
  txCode := some "000042"
  madeAt := 0
  seen := 0

/-- What `Redeemable` asks, at 5. -/
def redeemsSample (s : Oid4vci.Sys wireReference.toExternal) : Bool :=
  decide (s.clock ≤ 5) && !s.state.codesPoisoned &&
    (s.state.preAuthorizedCodes.entries.lookup "code-1").any (fun entry =>
      entry.2.credentialConfigurationIds = offeredCode.ids && entry.2.txCode = offeredCode.txCode &&
        5 < entry.1) &&
    offeredCode.ids.all (fun configId => (s.issuer.app.definitions.get configId).any (fun d =>
      d.credentialType ≠ "VerifiableCredential" && 0 < d.validity && 5 + d.validity < 2 ^ 64)) &&
    (s.issuer.app.holders.byDid "did:web:acme.example").isNone &&
    KeyedTable.size s.issuer.app.holders.holders < maxHolders &&
    2 ≤ s.issuer.app.issued.statusList.left &&
    KeyedTable.size s.issuer.app.requests.records < s.issuer.app.requests.capacity

theorem redeemable_of_sample {s : Oid4vci.Sys wireReference.toExternal}
    (h : redeemsSample s = true) : Redeemable wireHub s 5 offeredCode := by
  simp only [redeemsSample, Bool.and_eq_true, decide_eq_true_eq, Option.any_eq_true,
    List.all_eq_true, Bool.not_eq_true'] at h
  obtain ⟨⟨⟨⟨⟨⟨⟨hclock, hunpoisoned⟩, ⟨exp, data⟩, hlookup, ⟨hids, htx⟩, hlive⟩, hoffered⟩,
    hunknown⟩, hroom⟩, hleft⟩, hplace⟩ := h
  refine ⟨hclock, hunpoisoned, ⟨exp, data.failedAttempts, ?_, hlive⟩, ?_, ?_⟩
  · rw [← hids, ← htx]
    exact hlookup
  · intro configId hconfigId
    obtain ⟨definition, hdefinition, ⟨hspecific, hvalid⟩, hbound⟩ := hoffered configId hconfigId
    exact ⟨definition.credentialType, ⟨definition, hdefinition, rfl, hvalid, hbound⟩, hspecific⟩
  · have hnobody := Option.isNone_iff_eq_none.mp hunknown
    refine ⟨?_, fun _ => hroom, hleft, Or.inl hplace⟩
    intro holder hholder
    rw [show wireHub.identity.ownDid = "did:web:acme.example" from rfl, hnobody] at hholder
    cases hholder

theorem wire_acquainted : Acquainted wireHub wireService wireDocuments where
  welcomes :=
    { static := rfl
      trusted := List.mem_singleton.mpr rfl
      allowed := by decide +kernel
      published := by
        refine ⟨"https://issuer.example/issuer/did.json", _, ?_, rfl, ?_, ?_⟩
        · decide +kernel
        · rfl
        · exact List.mem_singleton.mpr rfl }
  metadata := ⟨"https://issuer.example/.well-known/openid-credential-issuer", by decide +kernel,
    by decide +kernel⟩
  server := ⟨"https://issuer.example/.well-known/oauth-authorization-server", by decide +kernel,
    by decide +kernel⟩
  endpoints := by decide +kernel
  keyId := ⟨by decide, by decide, "key-1", rfl⟩
  web := by decide
  allowed := by decide +kernel
  published := by
    refine ⟨"https://acme.example/.well-known/did.json", _, ?_, rfl, ?_⟩
    · decide +kernel
    · rfl

set_option maxRecDepth 4000 in
/-- The offer is made, and nothing stands in its way. -/
theorem wire_offered : ∃ s, Reachable (Oid4vci.credentialIssuer wireService 0) s ∧
    Redeemable wireHub s 5 offeredCode := by
  obtain ⟨s, hr, hp⟩ := StepSystem.exists_reachable_of_run
    (M := Oid4vci.credentialIssuer wireService 0) offeringRun (p := redeemsSample)
    (by decide +kernel)
  exact ⟨s, hr, redeemable_of_sample hp⟩

/-- Acme's wallet redeems an offer of two credentials. -/
theorem offer_redeemable_sample :
    ∃ s result w', Reachable (Oid4vci.credentialIssuer wireService 0) s ∧
      (besideIssuer wireService 0 wireDocuments 5).Runs
        (redeem wireHub none (offerBody wireService offeredCode))
          ({ issuer := s, hub := wireState } : BothSides wireReference) result w' ∧
        RedeemedAll wireService offeredCode s.issuer.app.definitions 5 [] w'.hub.store result := by
  obtain ⟨s, hr, hoffered⟩ := wire_offered
  obtain ⟨result, w', hruns, hredeemed⟩ := offer_redeemable none
    (w := { issuer := s, hub := wireState }) wireReference_parses wire_acquainted
    wireReference_decodes wireReference_verifies wireReference_signRoundTrip
    wireReference_signVerifies (by decide) hr hoffered (Nat.le_succ 4)
  exact ⟨s, result, w', hr, hruns, hredeemed⟩

/-- The issuer has both credentials on record. -/
theorem redeemed_on_record_sample :
    ∃ s result w', Reachable (Oid4vci.credentialIssuer wireService 0) s ∧
      (withIssuer wireService 0).Runs (redeem wireHub none (offerBody wireService offeredCode))
        ({ issuer := s, hub := wireState } : BothSides wireReference) result w' ∧
      ∃ items : List (CredentialContainer × IssuedCredential), items.length = 2 ∧
        Kept [] w'.hub.store (items.map Prod.fst) ∧
          (items.map (fun item => item.2.id)).Nodup ∧
            ∀ item ∈ items, OnRecord wireHub wireService w'.issuer.issuer item.1 item.2 := by
  obtain ⟨s, hr, hoffered⟩ := wire_offered
  obtain ⟨result, w', hruns, hissuer, -, offered, hids, -, hstored, -⟩ :=
    (reaches_redeem none (w := { issuer := s, hub := wireState })
      wireReference_parses wire_acquainted wireReference_decodes wireReference_verifies
      wireReference_signRoundTrip wireReference_signVerifies (by decide) hr hoffered
      (Nat.le_succ 4)).runs
  have hwider := hruns.of_narrower (fun _ _ _ => withIssuer_of_besideIssuer)
  obtain ⟨-, items, hkept, hreported, hdistinct, honRecord⟩ :=
    redeemed_on_record wireReference_signRoundTrip wireReference_parses wireReference_decodes
      wire_acquainted.keyId hr hwider hissuer
  refine ⟨s, result, w', hr, hwider, items, ?_, hkept, hdistinct, honRecord⟩
  have hcount : items.length = offered.length := by
    rw [← List.length_map, ← hreported, hstored, List.length_map]
  rw [hcount, ← List.length_map, hids]
  rfl

end Wallet

end IdentityHub
