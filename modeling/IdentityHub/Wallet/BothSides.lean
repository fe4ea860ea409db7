import IdentityHub.Lib.Yields
import IdentityHub.Oid4vci.Chain
import IdentityHub.Oid4vci.Documents
import IdentityHub.Oid4vci.Recorded
import IdentityHub.Wallet.KeyProofs
import IdentityHub.Wallet.Rounds

/-!
# A redemption, seen from both sides

The wallet redeems an offer of this repository's own Credential Issuer. Whatever else the
issuer does meanwhile, and whatever else the network answers: what the wallet stores is on
record at the issuer, for the configuration it was asked for and for this holder, and no
two stored credentials share a record.

The two sides meet in the answers of two URLs only. What the issuer knows of its answers
is an invariant of all its runs (`RequestsBacked`); what the wallet makes of them is an
invariant of its rounds (`Parcels`).
-/

namespace IdentityHub.Wallet

open Json (Value)
open Oid4vci (CredentialCall)
open StepSystem (Reachable Steps anyStep)

variable {X : HubExternal}

/-! ## Both sides -/

/-- The Credential Issuer with all that it ever did, and the state of the hub whose wallet
redeems. -/
structure BothSides (X : HubExternal) where
  issuer : Oid4vci.Sys X
  hub : HubState X

/-- An answer at the URL of the issuer's metadata is the document of some moment. -/
def ServesMetadata (service : Oid4vci.Service X) (start : ℕ) (s s' : Oid4vci.Sys X)
    (request : HttpRequest) (response : HttpResponse) : Prop :=
  request.method = .get → wellKnownUrl service.baseUrl credentialIssuerWellKnown = .ok request.url →
    response.isSuccess = true →
      ∃ s₁, Steps (Oid4vci.credentialIssuer service start) anyStep s s₁ ∧
        Steps (Oid4vci.credentialIssuer service start) anyStep s₁ s' ∧
          response.body = .ok (X.jsonText
            (Oid4vci.credentialIssuerMetadata service.baseUrl s₁.issuer.app.definitions))

/-- An answer of the Credential Endpoint is the one to a request that arrived meanwhile. -/
def AnswersRequest (service : Oid4vci.Service X) (s s' : Oid4vci.Sys X)
    (request : HttpRequest) (response : HttpResponse) : Prop :=
  request.method = .post → request.url = service.baseUrl ++ "/oid4vci/credential" →
    response.isSuccess = true →
      ∃ i c x jws, s.credentialCalls.length ≤ i ∧ s'.credentialCalls[i]? = some c ∧
        request.headers.lookup "Authorization" = c.authorization ∧ request.body = .json c.body ∧
          c.phase = .issued x jws ∧
            response.body = .ok (X.jsonText (Oid4vci.credentialResponse jws))

/-- The hub's surroundings, with the Credential Issuer at its URLs. While the hub waits for
an answer, of whatever kind, the issuer takes any steps. -/
def withIssuer (service : Oid4vci.Service X) (start : ℕ) :
    Environment (hubEffects X) (BothSides X) where
  respond w e w' :=
    Steps (Oid4vci.credentialIssuer service start) anyStep w.issuer w'.issuer ∧
      (hubEnvironment X).respond w.hub e w'.hub ∧
        ∀ request response, e = ⟨HubOp.send request, .ok response⟩ →
          ServesMetadata service start w.issuer w'.issuer request response ∧
            AnswersRequest service w.issuer w'.issuer request response

variable {service : Oid4vci.Service X} {start : ℕ} {w w₁ w' : BothSides X}

/-- Some time later: the issuer went on, and the store of the hub is as it was. -/
structure Later (service : Oid4vci.Service X) (start : ℕ) (w w' : BothSides X) : Prop where
  steps : Steps (Oid4vci.credentialIssuer service start) anyStep w.issuer w'.issuer
  store : w'.hub.store = w.hub.store

theorem Later.refl (w : BothSides X) : Later service start w w := ⟨.refl, rfl⟩

theorem Later.trans (h : Later service start w w₁) (h' : Later service start w₁ w') :
    Later service start w w' where
  steps := h.steps.trans h'.steps
  store := h'.store.trans h.store

theorem Later.reachable (h : Later service start w w')
    (hr : Reachable (Oid4vci.credentialIssuer service start) w.issuer) :
    Reachable (Oid4vci.credentialIssuer service start) w'.issuer :=
  Steps.trans hr h.steps

/-- Only a batch that is stored changes the store. -/
theorem later_of_respond {e : HubEvent X} (h : (withIssuer service start).respond w e w')
    (hstore : ∀ batch, e.op ≠ .storeBatch batch) : Later service start w w' where
  steps := h.1
  store := by
    apply (framed_of_respond h.2.1).store
    rintro batch rfl
    exact hstore batch rfl

/-! ## What the parts of a redemption yield -/

section

variable {hub : Hub X} {ε α : Type}

/-- A part that stores nothing takes time. -/
theorem yields_quiet {p : HubProgram X ε α} {post : List (HubEvent X) → α → Prop}
    (h : p.wp (Confined hub (fun _ op => ∀ batch, op ≠ .storeBatch batch)) post []) :
    (withIssuer service start).Yields p
      (fun a w' => Later service start w w' ∧ ∃ later, post later a) w := by
  apply Environment.Yields.of_wp h
  · intro w₁ past op answer w₂ hlater hallowed hrespond
    apply hlater.trans
    apply later_of_respond hrespond
    rintro batch rfl
    exact hallowed batch rfl
  · exact Later.refl w

theorem yields_send {request : HttpRequest} {describe : String → ε}
    {post : HttpResponse → BothSides X → Prop}
    (h : ∀ response w', Later service start w w' →
      ServesMetadata service start w.issuer w'.issuer request response →
        AnswersRequest service w.issuer w'.issuer request response → post response w') :
    (withIssuer service start).Yields (send request describe : HubProgram X ε HttpResponse) post
      w := by
  unfold send
  rw [Environment.yields_ask]
  intro answer w' hrespond
  rw [Environment.yields_ofExcept]
  intro response hanswer
  rw [Except.mapError_eq_ok] at hanswer
  obtain ⟨hmetadata, hrequest⟩ := hrespond.2.2 request response (by rw [hanswer])
  have hlater : Later service start w w' := by
    apply later_of_respond hrespond
    intro batch hop
    cases hop
  exact h response w' hlater hmetadata hrequest

/-- What is fetched is read off a successful answer. -/
theorem yields_getJson {read : Value → Option α} {url : String} {post : α → BothSides X → Prop}
    (h : ∀ response a w', Later service start w w' →
      ServesMetadata service start w.issuer w'.issuer (.ofUrl url) response →
        response.isSuccess = true → readBody X read response = .ok a → post a w') :
    (withIssuer service start).Yields (getJson hub read url) post w := by
  unfold getJson
  simp only [Environment.yields_bind, Environment.yields_ofExcept, Environment.yields_require,
    Except.mapError_eq_ok]
  intro _ _
  apply yields_send
  intro response w' hlater hmetadata _ hsuccess a hread
  exact h response a w' hlater hmetadata hsuccess hread

theorem readBody_jsonText (hparses : X.ParsesOwnText) {read : Value → Option α} {v : Value} {a : α}
    {response : HttpResponse} (hv : CanonicalJson v) (hbody : response.body = .ok (X.jsonText v))
    (hread : readBody X read response = .ok a) : read v = some a := by
  unfold readBody at hread
  rw [hbody, Except.ok_bind, hparses v hv, Except.ok_bind, Option.okOr_eq_ok] at hread
  exact hread

variable {clientId : Option String}

/-- **The metadata the wallet finds** for an offer of this issuer are the issuer's. -/
theorem yields_discover (hparses : X.ParsesOwnText) {body : RedeemOfferBody} :
    (withIssuer service start).Yields (discover hub body)
      (fun d w' => Later service start w w' ∧
        (d.offer.credentialIssuer = service.baseUrl →
          ∃ definitions, d.metadata = ownMetadata service.baseUrl definitions)) w := by
  have hoffer : (resolveOffer hub body).wp
      (Confined hub (fun _ op => ∀ batch, op ≠ .storeBatch batch)) (fun _ _ => True) [] := by
    apply resolveOffer_wp
    intro past request _ batch hop
    cases hop
  unfold discover
  rw [Environment.yields_bind]
  apply (yields_quiet hoffer).mono
  rintro offer w₁ ⟨hlater₁, -⟩
  simp only [Environment.yields_bind, Environment.yields_ofExcept, Environment.yields_require,
    Environment.yields_pure, Except.mapError_eq_ok]
  intro grant _ _ metadataUrl hurl
  apply yields_getJson
  intro response metadata w₂ hlater₂ hserves hsuccess hread _ asMetadataUrl _
  apply yields_getJson
  intro _ asMetadata w₃ hlater₃ _ _ _
  refine ⟨(hlater₁.trans hlater₂).trans hlater₃, ?_⟩
  intro hissuer
  rw [hissuer] at hurl
  obtain ⟨s₁, -, -, hbody⟩ := hserves rfl hurl hsuccess
  refine ⟨s₁.issuer.app.definitions, ?_⟩
  have hown := readBody_jsonText hparses
    (Oid4vci.canonical_credentialIssuerMetadata service.baseUrl s₁.issuer.app.definitions) hbody
    hread
  rw [read_credentialIssuerMetadata] at hown
  exact (Option.some_inj.mp hown).symm

/-- The last answer to a request for a protected resource. -/
theorem yields_resourceAttempts {token : TokenResponse} {url : String} {body : Value}
    {attempts : ℕ} {nonce : Option String} :
    (withIssuer service start).Yields (resourceAttempts hub token url body attempts nonce)
      (fun out w' => Later service start w w' ∧ ∃ w₁ request, Later service start w w₁ ∧
        request.method = .post ∧ request.url = url ∧ request.body = .json body ∧
          AnswersRequest service w₁.issuer w'.issuer request out.1) w := by
  induction attempts generalizing w nonce with
  | zero =>
      rw [resourceAttempts, Environment.yields_throw]
      trivial
  | succ attempts ih =>
      have hheader : (dpopHeader hub token.dpopBound url nonce (some token.accessToken)).wp
          (Confined hub (fun _ op => ∀ batch, op ≠ .storeBatch batch)) (fun _ _ => True) [] :=
        dpopHeader_wp
      rw [resourceAttempts, resourceAttempt]
      simp only [Environment.yields_bind]
      apply (yields_quiet hheader).mono
      rintro dpop w₁ ⟨hlater₁, -⟩
      apply yields_send
      intro response w₂ hlater₂ _ hanswers
      split
      · -- the server demands a nonce: once more
        apply ih.mono
        rintro out w₃ ⟨hlater₃, w₄, request, hlater₄, hrest⟩
        exact ⟨(hlater₁.trans hlater₂).trans hlater₃, w₄, request,
          (hlater₁.trans hlater₂).trans hlater₄, hrest⟩
      · rw [Environment.yields_pure]
        exact ⟨hlater₁.trans hlater₂, w₁, _, hlater₁, rfl, rfl, rfl, hanswers⟩

/-! ## One credential -/

/-- The answer to a Credential Request of this wallet, for one configuration. -/
structure AnsweredFor (hub : Hub X) (s : Oid4vci.Sys X) (i : ℕ) (configId jws : String) :
    Prop where
  answered : ∃ x, s.Answered i x jws ∧ x.checked.configId = configId ∧
    x.checked.key.holderDid = hub.identity.ownDid

theorem AnsweredFor.later {s s' : Oid4vci.Sys X} {i : ℕ} {configId jws : String}
    (h : AnsweredFor hub s i configId jws)
    (hsteps : Steps (Oid4vci.credentialIssuer service start) anyStep s s') :
    AnsweredFor hub s' i configId jws where
  answered := by
    obtain ⟨x, ⟨c, hc, hphase⟩, hrest⟩ := h.answered
    exact ⟨x, ⟨c, Oid4vci.answered_kept hsteps hc hphase, hphase⟩, hrest⟩

theorem AnsweredFor.lt {s : Oid4vci.Sys X} {i : ℕ} {configId jws : String}
    (h : AnsweredFor hub s i configId jws) : i < s.credentialCalls.length := by
  obtain ⟨x, ⟨c, hc, -⟩, -⟩ := h.answered
  exact (List.getElem?_eq_some_iff.mp hc).1

/-- A request that names an identifier names no configuration. -/
theorem read_identifierRequest (identifier : Value) (proof : String)
    {request : Oid4vci.CredentialRequest}
    (h : Oid4vci.CredentialRequest.fromJson
      (credentialRequest ("credential_identifier", identifier) proof) = some request) :
    request.credentialConfigurationId = none := by
  unfold Oid4vci.CredentialRequest.fromJson at h
  have hnone : Oid4vci.optional Value.asStr
      (Oid4vci.structField (credentialRequest ("credential_identifier", identifier) proof) 0
        "credential_configuration_id") = some none := rfl
  rw [hnone] at h
  obtain ⟨_, -, h⟩ := Option.bind_eq_some_iff.mp h
  obtain ⟨_, -, h⟩ := Option.bind_eq_some_iff.mp h
  obtain ⟨_, -, h⟩ := Option.bind_eq_some_iff.mp h
  cases h
  rfl

/-- The key that was inspected is the one the header names. -/
theorem proofKey_of_inspectJwtProof {X : External} {proof credentialIssuer : String} {now : ℕ}
    {header payload : Value} {key : Oid4vci.ProofKey} {nonce : Option String}
    (hdecoded : X.decodeJwsUnverified proof = .ok (header, payload))
    (h : Oid4vci.inspectJwtProof X proof credentialIssuer now = .ok (key, nonce)) :
    Oid4vci.proofKey X header = some key := by
  unfold Oid4vci.inspectJwtProof at h
  rw [hdecoded] at h
  dsimp only at h
  repeat' split at h
  all_goals cases h
  assumption

/-- **What an answered request was about:** the configuration it named and this holder. -/
theorem answeredFor_of_request (hdecodes : X.DecodesCompact) (hkeyId : KeyIdOfDid hub.identity)
    {s : Oid4vci.Sys X} (h : Reachable (Oid4vci.credentialIssuer service start) s) {i : ℕ}
    {c : CredentialCall X} {x : Oid4vci.Consumed X} {jws configId credentialIssuer : String}
    {token : TokenResponse} {target : String × Value} {cNonce : Option String} {now : ℕ}
    (htarget : target ∈ requestTargets token configId) (hc : s.credentialCalls[i]? = some c)
    (hphase : c.phase = .issued x jws)
    (hbody : c.body = credentialRequest target (signJwsWithHeader X
      (proofHeader hub.identity .didUrl) (proofPayload credentialIssuer cNonce clientId now)
        hub.identity.signingKey)) :
    AnsweredFor hub s i configId jws where
  answered := by
    have hx : x ∈ c.phase.consumption := by
      rw [hphase]
      exact List.mem_cons_self
    obtain ⟨⟨⟨-, definitions, time, hinspect⟩, -⟩, -⟩ :=
      (Oid4vci.credentials_sound h c (List.mem_of_getElem? hc)).spent hx
    obtain ⟨-, request, hrequest, hconfig, hproofs, hproof⟩ :=
      Oid4vci.configId_of_inspectRequest hinspect
    rw [hbody] at hrequest
    have hnamed : target = ("credential_configuration_id", .string configId) := by
      unfold requestTargets at htarget
      split at htarget
      · exact List.mem_singleton.mp htarget
      · obtain ⟨identifier, -, rfl⟩ := List.mem_map.mp htarget
        rw [read_identifierRequest _ _ hrequest] at hconfig
        cases hconfig
    rw [hnamed, read_credentialRequest] at hrequest
    cases hrequest
    cases hconfig
    refine ⟨x, ⟨c, hc, hphase⟩, rfl, ?_⟩
    have hsigned : x.checked.proof = signJwsWithHeader X (proofHeader hub.identity .didUrl)
        (proofPayload credentialIssuer cNonce clientId now) hub.identity.signingKey :=
      (List.cons.inj hproofs).1.symm
    have hkeys : ∃ key, Oid4vci.proofKey X (proofHeader hub.identity .didUrl) = some key ∧
        key.holderDid = hub.identity.ownDid := proofKey_proofHeader (fun _ => hkeyId)
    obtain ⟨key, hkey, hholder⟩ := hkeys
    rw [hsigned] at hproof
    have hheader : CanonicalJson (proofHeader hub.identity .didUrl) := canonical_proofHeader .didUrl
    have hdecoded := decode_signed hdecodes hheader
      (canonical_proofPayload credentialIssuer cNonce clientId now) hub.identity.signingKey
    rw [proofKey_of_inspectJwtProof hdecoded hproof] at hkey
    cases hkey
    exact hholder

/-- **A Credential Request of the wallet** is answered with one credential, by a request that
arrived after it was made. -/
theorem yields_requestCredentials (hparses : X.ParsesOwnText) (hdecodes : X.DecodesCompact)
    (hkeyId : KeyIdOfDid hub.identity)
    (h : Reachable (Oid4vci.credentialIssuer service start) w.issuer) {d : Discovery}
    {definitions : DefinitionCatalog} (hd : d.metadata = ownMetadata service.baseUrl definitions)
    {token : TokenResponse} {configId : String} {target : String × Value}
    (htarget : target ∈ requestTargets token configId) {nonce : Option String} :
    (withIssuer service start).Yields
      (requestCredentials hub clientId d token ownConfiguration target nonce)
      (fun out w' => Later service start w w' ∧ ∃ i jws, w.issuer.credentialCalls.length ≤ i ∧
        AnsweredFor hub w'.issuer i configId jws ∧ out.1 = [.string jws]) w := by
  have hplain : ∀ (past : List (HubEvent X)) (request : HttpRequest), Plain request →
      ∀ batch, HubOp.send request ≠ (HubOp.storeBatch batch : HubOp X) := by
    intro past request _ batch hop
    cases hop
  have hnonce : (requestNonce hub d.metadata nonce).wp
      (Confined hub (fun _ op => ∀ batch, op ≠ .storeBatch batch)) (fun _ _ => True) [] :=
    requestNonce_wp hplain
  unfold requestCredentials
  dsimp only
  rw [Environment.yields_bind]
  apply (yields_quiet hnonce).mono
  rintro ⟨cNonce, nonce₁⟩ w₁ ⟨hlater₁, -⟩
  dsimp only
  rw [Environment.yields_bind]
  have hbuilt : (withIssuer service start).Yields
      (buildJwtProofForClient (ε := WalletError) hub.identity d.metadata.credentialIssuer cNonce
        clientId (.forBindingMethods ownConfiguration.bindingMethods))
      (fun proof w' => Later service start w₁ w' ∧ ∃ now, proof = signJwsWithHeader X
        (proofHeader hub.identity .didUrl)
        (proofPayload d.metadata.credentialIssuer cNonce clientId now)
        hub.identity.signingKey) w₁ := by
    have hmethods : ProofKeyRef.forBindingMethods ownConfiguration.bindingMethods = .didUrl := by
      decide
    unfold buildJwtProofForClient
    rw [hmethods, Environment.yields_bind, nowSecs, Environment.yields_ask]
    intro now w₂ hrespond
    have hlater : Later service start w₁ w₂ := by
      apply later_of_respond hrespond
      intro batch hop
      cases hop
    rw [Environment.yields_done]
    dsimp only
    rw [Environment.yields_pure]
    exact ⟨hlater, now, rfl⟩
  apply hbuilt.mono
  rintro proof w₂ ⟨hlater₂, now, hproof⟩
  unfold postJson
  simp only [Environment.yields_bind, Environment.yields_ofExcept, Environment.yields_require,
    Environment.yields_pure]
  intro _ _
  apply yields_resourceAttempts.mono
  rintro ⟨response, nonce₂⟩ w₃ ⟨hlater₃, w₄, request, hlater₄, hpost, hurl, hbody, hanswers⟩
  intro issued hissued _ _
  have hlater : Later service start w w₃ := (hlater₁.trans hlater₂).trans hlater₃
  refine ⟨hlater, ?_⟩
  rw [readJson] at hissued
  split at hissued
  · rename_i hsuccess
    rw [Except.mapError_eq_ok] at hissued
    have hendpoint : request.url = service.baseUrl ++ "/oid4vci/credential" := by
      rw [hurl, hd]
      rfl
    obtain ⟨i, c, x, jws, hnew, hc, -, hasked, hphase, htext⟩ := hanswers hpost hendpoint hsuccess
    rw [hbody] at hasked
    have hrequest : c.body = credentialRequest target (signJwsWithHeader X
        (proofHeader hub.identity .didUrl)
        (proofPayload d.metadata.credentialIssuer cNonce clientId now)
        hub.identity.signingKey) := by
      rw [← hproof]
      exact (HttpBody.json.inj hasked).symm
    have hread := readBody_jsonText hparses (Oid4vci.canonical_credentialResponse jws) htext hissued
    rw [read_credentialResponse] at hread
    cases hread
    refine ⟨i, jws, ?_, ?_, rfl⟩
    · have hbefore := Oid4vci.credentialCalls_length_le
        ((hlater₁.trans hlater₂).trans hlater₄).steps
      exact hbefore.trans hnew
    · exact answeredFor_of_request hdecodes hkeyId (hlater.reachable h) htarget hc hphase hrequest
  · cases hissued

/-- A credential is filed under the type its payload names. -/
theorem acceptIssuedCredential_filed {credential : Value} :
    (acceptIssuedCredential hub credential).wp
      (Confined hub (fun _ op => ∀ batch, op ≠ .storeBatch batch))
      (fun _ t => ∃ jws header payload, credential = .string jws ∧
        X.decodeJwsUnverified jws = .ok (header, payload) ∧ specificType payload = some t) [] := by
  have hget : ∀ (past : List (HubEvent X)) (url : String),
      ∀ batch, HubOp.send (.ofUrl url) ≠ (HubOp.storeBatch batch : HubOp X) := by
    intro past url batch hop
    cases hop
  simp only [acceptIssuedCredential, Program.wp_bind, Program.wp_ofExcept, Program.wp_mapError,
    Except.mapError_eq_ok, Option.okOr_eq_ok]
  rintro jws hjws ⟨header, payload⟩ hdecoded t htype
  rw [Value.asStr_eq_some] at hjws
  have hfiled : ∃ jws header payload, credential = .string jws ∧
      X.decodeJwsUnverified jws = .ok (header, payload) ∧ specificType payload = some t :=
    ⟨jws, header, payload, hjws, hdecoded, htype⟩
  refine Program.wp_post (checkIssuer_wp hget) (fun trusting _ _ => ?_)
  refine Program.wp_post verifyCredentialProofs_wp (fun proving _ _ => ?_)
  rw [Program.wp_require]
  intro _
  unfold checkNotExpired
  cases payload.getU64 "exp" with
  | none =>
      dsimp only
      rw [Program.wp_pure, Program.wp_pure]
      exact hfiled
  | some exp =>
      dsimp only
      rw [Program.wp_bind, wp_nowSecs]
      refine ⟨trivial, fun now => ?_⟩
      rw [Program.wp_require]
      intro _
      rw [Program.wp_pure]
      exact hfiled

/-! ## The rounds -/

/-- A stored credential: the request it was answered to, the configuration that was asked
for, the token, and the type it is filed under. -/
structure Parcel where
  call : ℕ
  configId : String
  jws : String
  credentialType : String

def Parcel.container (p : Parcel) : CredentialContainer where
  credentialType := p.credentialType
  payload := .string p.jws
  format := formatJwtVcJson

def Parcel.redeemed (p : Parcel) : RedeemedCredential where
  credentialConfigurationId := p.configId
  credentialType := p.credentialType

/-- The issuer answered with it, and its payload names the type. -/
structure Parcel.Genuine (hub : Hub X) (s : Oid4vci.Sys X) (p : Parcel) : Prop where
  answered : AnsweredFor hub s p.call p.configId p.jws
  filed : ∃ header payload, X.decodeJwsUnverified p.jws = .ok (header, payload) ∧
    specificType payload = some p.credentialType

/-- What a redemption has gathered are these parcels, no two from one request. -/
structure Parcels (hub : Hub X) (s : Oid4vci.Sys X) (parcels : List Parcel)
    (progress : Progress) : Prop where
  containers : progress.containers = parcels.map Parcel.container
  stored : progress.stored = parcels.map Parcel.redeemed
  notStored : progress.notStored = []
  distinct : (parcels.map Parcel.call).Nodup
  genuine : ∀ p ∈ parcels, p.Genuine hub s

section

variable {parcels : List Parcel} {progress : Progress} {s s' : Oid4vci.Sys X}

theorem Parcels.later (h : Parcels hub s parcels progress)
    (hsteps : Steps (Oid4vci.credentialIssuer service start) anyStep s s') :
    Parcels hub s' parcels progress where
  containers := h.containers
  stored := h.stored
  notStored := h.notStored
  distinct := h.distinct
  genuine p hp := ⟨(h.genuine p hp).answered.later hsteps, (h.genuine p hp).filed⟩

theorem Parcels.none : Parcels hub s [] .start where
  containers := rfl
  stored := rfl
  notStored := rfl
  distinct := List.nodup_nil
  genuine _ hp := absurd hp List.not_mem_nil

/-- A parcel from a request that is newer than all so far joins them. -/
theorem Parcels.accept (h : Parcels hub s parcels progress)
    (hsteps : Steps (Oid4vci.credentialIssuer service start) anyStep s s') {p : Parcel}
    (hp : p.Genuine hub s') (hnew : s.credentialCalls.length ≤ p.call) {nonce : Option String} :
    Parcels hub s' (parcels ++ [p])
      ({ progress with nonce := nonce }.accept p.configId p.credentialType (.string p.jws)) where
  containers := by
    rw [Progress.accept, h.containers, List.map_append]
    rfl
  stored := by
    rw [Progress.accept, h.stored, List.map_append]
    rfl
  notStored := h.notStored
  distinct := by
    rw [List.map_append, List.nodup_append]
    refine ⟨h.distinct, List.nodup_singleton _, ?_⟩
    intro i hi j hj
    obtain ⟨q, hq, rfl⟩ := List.mem_map.mp hi
    rw [List.map_singleton, List.mem_singleton] at hj
    have hlt := (h.genuine q hq).answered.lt
    omega
  genuine q hq := by
    rcases List.mem_append.mp hq with hold | hnew
    · exact (h.later hsteps).genuine q hold
    · rw [List.mem_singleton.mp hnew]
      exact hp

end

section

variable (hparses : X.ParsesOwnText) (hdecodes : X.DecodesCompact)
  (hkeyId : KeyIdOfDid hub.identity) {d : Discovery} {definitions : DefinitionCatalog}
  (hd : d.metadata = ownMetadata service.baseUrl definitions) {token : TokenResponse}
include hparses hdecodes hkeyId hd

/-- **Step lemma.** A round adds the one credential it is answered with. -/
theorem yields_redeemTarget (h : Reachable (Oid4vci.credentialIssuer service start) w.issuer)
    {configId : String} {target : String × Value} (htarget : target ∈ requestTargets token configId)
    {parcels : List Parcel} {progress : Progress}
    (hparcels : Parcels hub w.issuer parcels progress) :
    (withIssuer service start).Yields
      (redeemTarget hub clientId d token configId ownConfiguration target progress)
      (fun progress' w' => Later service start w w' ∧
        ∃ parcels', Parcels hub w'.issuer parcels' progress') w := by
  unfold redeemTarget
  rw [Environment.yields_bind]
  apply (yields_requestCredentials hparses hdecodes hkeyId h hd htarget).mono
  rintro ⟨credentials, nonce⟩ w₁ ⟨hlater₁, i, jws, hnew, hanswered, hcredentials⟩
  change credentials = [.string jws] at hcredentials
  have hkept : ownConfiguration.format = formatJwtVcJson := rfl
  dsimp only
  rw [if_pos hkept, hcredentials, acceptCredentials, Environment.yields_bind]
  apply (yields_quiet acceptIssuedCredential_filed).mono
  rintro credentialType w₂ ⟨hlater₂, -, jws', header, payload, hjws, hdecoded, htype⟩
  cases hjws
  rw [acceptCredentials, Environment.yields_pure]
  have hlater := hlater₁.trans hlater₂
  exact ⟨hlater, _, hparcels.accept hlater.steps (p := ⟨i, configId, jws, credentialType⟩)
    ⟨hanswered.later hlater₂.steps, header, payload, hdecoded, htype⟩ hnew⟩

theorem yields_redeemTargets {targets : List (String × Value)} {configId : String}
    (htargets : ∀ target ∈ targets, target ∈ requestTargets token configId)
    (h : Reachable (Oid4vci.credentialIssuer service start) w.issuer) {parcels : List Parcel}
    {progress : Progress} (hparcels : Parcels hub w.issuer parcels progress) :
    (withIssuer service start).Yields
      (redeemTargets hub clientId d token configId ownConfiguration targets progress)
      (fun progress' w' => Later service start w w' ∧
        ∃ parcels', Parcels hub w'.issuer parcels' progress') w := by
  induction targets generalizing w parcels progress with
  | nil =>
      rw [redeemTargets, Environment.yields_pure]
      exact ⟨.refl w, parcels, hparcels⟩
  | cons target rest ih =>
      rw [redeemTargets, Environment.yields_bind]
      apply (yields_redeemTarget hparses hdecodes hkeyId hd h
        (htargets target List.mem_cons_self) hparcels).mono
      rintro progress₁ w₁ ⟨hlater₁, parcels₁, hparcels₁⟩
      have hrest : ∀ target ∈ rest, target ∈ requestTargets token configId :=
        fun target hmem => htargets target (List.mem_cons_of_mem _ hmem)
      apply (ih hrest (hlater₁.reachable h) hparcels₁).mono
      rintro progress₂ w₂ ⟨hlater₂, hgathered⟩
      exact ⟨hlater₁.trans hlater₂, hgathered⟩

/-- **Run lemma.** -/
theorem yields_redeemConfigurations {configIds : List String}
    (h : Reachable (Oid4vci.credentialIssuer service start) w.issuer) {parcels : List Parcel}
    {progress : Progress} (hparcels : Parcels hub w.issuer parcels progress) :
    (withIssuer service start).Yields
      (redeemConfigurations hub clientId d token configIds progress)
      (fun progress' w' => Later service start w w' ∧
        ∃ parcels', Parcels hub w'.issuer parcels' progress') w := by
  induction configIds generalizing w parcels progress with
  | nil =>
      rw [redeemConfigurations, Environment.yields_pure]
      exact ⟨.refl w, parcels, hparcels⟩
  | cons configId rest ih =>
      rw [redeemConfigurations]
      simp only [Environment.yields_bind, Environment.yields_ofExcept, Option.okOr_eq_ok]
      intro configuration hconfiguration
      have hown : configuration = ownConfiguration := by
        rw [hd, ownMetadata, lookup_configurations] at hconfiguration
        split at hconfiguration
        · exact (Option.some_inj.mp hconfiguration).symm
        · cases hconfiguration
      rw [hown]
      apply (yields_redeemTargets hparses hdecodes hkeyId hd (fun _ hmem => hmem) h hparcels).mono
      rintro progress₁ w₁ ⟨hlater₁, parcels₁, hparcels₁⟩
      apply (ih (hlater₁.reachable h) hparcels₁).mono
      rintro progress₂ w₂ ⟨hlater₂, hgathered⟩
      exact ⟨hlater₁.trans hlater₂, hgathered⟩

end

end

/-! ## The whole redemption -/

section

variable {hub : Hub X} {clientId : Option String} (hsign : X.SignRoundTrip)
include hsign

/-- The container holds the credential of the record, filed under its type, for this
holder. -/
structure OnRecord (hub : Hub X) (service : Oid4vci.Service X) (s : IssuerSys)
    (container : CredentialContainer) (record : IssuedCredential) : Prop where
  listed : record ∈ s.app.issued.all
  signed : ∃ jws, container.payload = .string jws ∧ record.AgreesWith service.toIssuerService jws
  type : container.credentialType = record.credentialType
  holder : record.holderDid = hub.identity.ownDid

/-- The record of a parcel. -/
theorem Parcel.Genuine.onRecord {s : Oid4vci.Sys X}
    (h : Reachable (Oid4vci.credentialIssuer service start) s) {p : Parcel} (hp : p.Genuine hub s) :
    ∃ record : IssuedCredential, OnRecord hub service s.issuer p.container record ∧
      record.AgreesWith service.toIssuerService p.jws ∧
        p.redeemed = ⟨record.credentialDefinitionId, record.credentialType⟩ := by
  obtain ⟨⟨x, hanswered, hconfig, hholder⟩, header, payload, hdecoded, hfiled⟩ := hp
  obtain ⟨record, hlisted, hagrees, hdefinition, hfor⟩ :=
    Oid4vci.answered_recorded hsign h hanswered
  have htype : p.credentialType = record.credentialType := by
    obtain ⟨signed, hjws, hdescribes⟩ := hagrees
    obtain ⟨header', hdecoded', -⟩ := hsign signed service.identity.signingKey
      service.identity.ownKeyId
    rw [hjws] at hdecoded
    change X.decodeJwsUnverified (service.identity.sign signed) = _ at hdecoded'
    rw [hdecoded] at hdecoded'
    cases hdecoded'
    -- the general type comes first in the list, so the last other one is the record's
    rw [specificType, hdescribes.vcType] at hfiled
    by_cases hgeneral : record.credentialType = "VerifiableCredential"
    · simp [Value.asArray, hgeneral] at hfiled
    · simp [Value.asArray, hgeneral] at hfiled
      exact hfiled.symm
  refine ⟨record, ⟨hlisted, ⟨p.jws, rfl, hagrees⟩, htype, hfor.trans hholder⟩, hagrees, ?_⟩
  rw [Parcel.redeemed, hdefinition, hconfig, htype]

/-- The records of the parcels, no two the same. -/
theorem Parcels.onRecord {s : Oid4vci.Sys X}
    (h : Reachable (Oid4vci.credentialIssuer service start) s)
    {parcels : List Parcel} {progress : Progress} (hparcels : Parcels hub s parcels progress) :
    ∃ items : List (CredentialContainer × IssuedCredential),
      progress.containers = items.map Prod.fst ∧
        progress.stored =
          items.map (fun item => ⟨item.2.credentialDefinitionId, item.2.credentialType⟩) ∧
          (items.map (fun item => item.2.id)).Nodup ∧
            ∀ item ∈ items, OnRecord hub service s.issuer item.1 item.2 := by
  have hrecords : ∀ p : { p // p ∈ parcels }, ∃ record : IssuedCredential,
      OnRecord hub service s.issuer p.1.container record ∧
        record.AgreesWith service.toIssuerService p.1.jws ∧
          p.1.redeemed = ⟨record.credentialDefinitionId, record.credentialType⟩ := by
    intro p
    exact (hparcels.genuine p.1 p.2).onRecord hsign h
  choose record honRecord hagrees hredeemed using hrecords
  refine ⟨parcels.attach.map (fun p => (p.1.container, record p)), ?_, ?_, ?_, ?_⟩
  · rw [hparcels.containers, List.map_map]
    exact (List.attach_map_val (f := Parcel.container)).symm
  · rw [hparcels.stored, List.map_map, ← List.attach_map_val (f := Parcel.redeemed)]
    apply List.map_congr_left
    intro p _
    exact hredeemed p
  · rw [List.map_map]
    have hattached : parcels.attach.Nodup := List.nodup_attach.mpr hparcels.distinct.of_map
    apply hattached.map_on
    intro p _ q _ hid
    obtain ⟨⟨x, hanswered, -⟩, -⟩ := hparcels.genuine p.1 p.2
    obtain ⟨⟨y, hanswered', -⟩, -⟩ := hparcels.genuine q.1 q.2
    have hcall := Oid4vci.answered_apart hsign h hanswered hanswered' (hagrees p) (hagrees q) hid
    exact Subtype.ext (List.inj_on_of_nodup_map hparcels.distinct p.2 q.2 hcall)
  · intro item hitem
    obtain ⟨p, -, rfl⟩ := List.mem_map.mp hitem
    exact honRecord p

/-- The store after a redemption: one batch more, if anything was gathered. -/
def Kept (before after : CredentialStore) (containers : List CredentialContainer) : Prop :=
  if containers = [] then after = before
  else ∃ uuid, after = before.store (redeemedBatch uuid containers)

omit hsign in
theorem yields_storeRedeemed {containers : List CredentialContainer} :
    (withIssuer service start).Yields (storeRedeemed containers : HubProgram X WalletError Unit)
      (fun _ w' => Steps (Oid4vci.credentialIssuer service start) anyStep w.issuer w'.issuer ∧
        Kept w.hub.store w'.hub.store containers) w := by
  unfold storeRedeemed Kept
  split
  · rw [Environment.yields_pure]
    exact ⟨.refl, rfl⟩
  · rw [Environment.yields_bind, drawUuid, Environment.yields_ask]
    intro uuid w₁ hdrawn
    rw [Environment.yields_done, storeBatch, Environment.yields_ask]
    intro _ w₂ hstored
    rw [Environment.yields_done]
    have hsame : w₁.hub = w.hub := hdrawn.2.1
    have hstore : w₂.hub =
        { w₁.hub with store := w₁.hub.store.store (redeemedBatch uuid containers) } :=
      hstored.2.1
    exact ⟨hdrawn.1.trans hstored.1, uuid, by rw [hstore, hsame]⟩

/-- **What a redemption stores is on record.** Whatever else the issuer does meanwhile, and
whatever the network answers elsewhere: a redemption of an offer of this issuer that ends
well has stored, in one batch, credentials that the issuer has on record, each for itself,
for the configuration that is reported, under its type and for this holder. -/
theorem redeemed_on_record (hparses : X.ParsesOwnText) (hdecodes : X.DecodesCompact)
    (hkeyId : KeyIdOfDid hub.identity)
    (h : Reachable (Oid4vci.credentialIssuer service start) w.issuer)
    {body : RedeemOfferBody} {result : RedeemOfferResponse}
    (hruns : (withIssuer service start).Runs (redeem hub clientId body) w result w')
    (hissuer : result.credentialIssuer = service.baseUrl) :
    result.notStored = [] ∧ ∃ items : List (CredentialContainer × IssuedCredential),
      Kept w.hub.store w'.hub.store (items.map Prod.fst) ∧
        result.stored =
          items.map (fun item => ⟨item.2.credentialDefinitionId, item.2.credentialType⟩) ∧
          (items.map (fun item => item.2.id)).Nodup ∧
            ∀ item ∈ items, OnRecord hub service w'.issuer.issuer item.1 item.2 := by
  have hyields : (withIssuer service start).Yields (redeem hub clientId body)
      (fun result w' => result.credentialIssuer = service.baseUrl →
        ∃ w₁ progress parcels, Later service start w w₁ ∧ result.stored = progress.stored ∧
          result.notStored = progress.notStored ∧ Parcels hub w₁.issuer parcels progress ∧
            Steps (Oid4vci.credentialIssuer service start) anyStep w₁.issuer w'.issuer ∧
              Kept w₁.hub.store w'.hub.store progress.containers) w := by
    have htoken : ∀ (d : Discovery) (past : List (HubEvent X)) (request : HttpRequest),
        TokenRequest hub clientId d body.txCode request →
          ∀ batch, HubOp.send request ≠ (HubOp.storeBatch batch : HubOp X) := by
      intro d past request _ batch hop
      cases hop
    unfold redeem gather
    simp only [Environment.yields_bind]
    apply (yields_discover hparses).mono
    rintro d w₁ ⟨hlater₁, hmetadata⟩
    by_cases hown : d.offer.credentialIssuer = service.baseUrl
    · obtain ⟨definitions, hd⟩ := hmetadata hown
      apply (yields_quiet (requestToken_wp (htoken d))).mono
      rintro token w₂ ⟨hlater₂, -⟩
      have hlater := hlater₁.trans hlater₂
      apply (yields_redeemConfigurations hparses hdecodes hkeyId hd (hlater.reachable h)
        Parcels.none).mono
      rintro progress w₃ ⟨hlater₃, parcels, hparcels⟩
      simp only [Environment.yields_pure]
      apply yields_storeRedeemed.mono
      rintro _ w₄ ⟨hsteps, hkept⟩ _
      exact ⟨w₃, progress, parcels, hlater.trans hlater₃, rfl, rfl, hparcels, hsteps, hkept⟩
    · -- an offer of another issuer
      apply Environment.Yields.of_forall
      intro token w₂
      apply Environment.Yields.of_forall
      intro progress w₃
      rw [Environment.yields_pure]
      apply Environment.Yields.of_forall
      intro _ w₄
      rw [Environment.yields_pure]
      intro hown'
      exact absurd hown' hown
  obtain ⟨w₁, progress, parcels, hlater, hstored, hnotStored, hparcels, hsteps, hkept⟩ :=
    hyields.of_runs hruns hissuer
  have hreached : Reachable (Oid4vci.credentialIssuer service start) w'.issuer :=
    (hlater.reachable h).trans hsteps
  obtain ⟨items, hcontainers, hreported, hdistinct, honRecord⟩ :=
    (hparcels.later hsteps).onRecord hsign hreached
  refine ⟨hnotStored.trans hparcels.notStored, items, ?_, hstored.trans hreported, hdistinct,
    honRecord⟩
  rw [← hcontainers, ← hlater.store]
  exact hkept

end

end IdentityHub.Wallet
