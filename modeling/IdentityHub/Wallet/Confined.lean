import IdentityHub.Hub.Vouched
import IdentityHub.Wallet.Redeem

/-!
# What a redemption asks for

One rule for each part of `redeem`: the requests it sends, each to an allowed host, and
what is known once the part has been gone through. Forms are sent to the token endpoint
and nowhere else; nothing is stored before the end.
-/

namespace IdentityHub.Wallet

open Json (Value)

variable {X : HubExternal} {hub : Hub X} {clientId : Option String}
  {own : List (HubEvent X) → HubOp X → Prop} {past : List (HubEvent X)}

/-- The container a credential is filed in. -/
def filed (credential : Value) (credentialType : String) : CredentialContainer where
  credentialType := credentialType
  payload := credential
  format := formatJwtVcJson

/-- The requests that carry no form. -/
def Plain (request : HttpRequest) : Prop := ∀ form, request.body ≠ .form form

/-- A request that was answered. -/
def answered (X : HubExternal) (request : HttpRequest) (response : HttpResponse) : HubEvent X :=
  ⟨HubOp.send request, .ok response⟩

/-- A document was fetched at a URL and reads as `a`. -/
def Fetched {α : Type} (X : HubExternal) (read : Value → Option α) (url : String)
    (events : List (HubEvent X)) (a : α) : Prop :=
  ∃ response, answered X (.ofUrl url) response ∈ events ∧ readBody X read response = .ok a

/-- What discovery has found: the issuer's metadata, which names the issuer of the
offer, and the metadata of the authorization server. -/
structure Discovered (X : HubExternal) (events : List (HubEvent X)) (d : Discovery) : Prop where
  granted : d.offer.grants.join = some d.grant
  issuer : ∃ url, wellKnownUrl d.offer.credentialIssuer credentialIssuerWellKnown = .ok url ∧
    Fetched X CredentialIssuerMetadata.fromJson url events d.metadata
  sameIssuer : Text.trimEndMatches '/' d.metadata.credentialIssuer =
    Text.trimEndMatches '/' d.offer.credentialIssuer
  server : ∃ url, wellKnownUrl (authorizationServer d.offer d.grant d.metadata)
      authorizationServerWellKnown = .ok url ∧
    Fetched X AuthorizationServerMetadata.fromJson url events d.asMetadata

/-- The assertion of a client, made for an audience. -/
def Assertion (identity : ServiceIdentity X) (clientId : Option String) (audience : String)
    (field : String × String) : Prop :=
  ∃ id now jti, clientId = some id ∧
    field = ("client_assertion", signJwsWithHeader X (clientAssertionHeader identity)
      (clientAssertionPayload id audience now jti) identity.signingKey)

/-- A Token Request of this redemption. -/
def TokenRequest (hub : Hub X) (clientId : Option String) (d : Discovery)
    (txCode : Option String) (request : HttpRequest) : Prop :=
  request.url = d.asMetadata.tokenEndpoint ∧
    ∃ assertion, request.body = .form (tokenForm clientId d.grant txCode ++ assertion) ∧
      ∀ field ∈ assertion, Assertion hub.identity clientId d.asMetadata.issuer field

theorem plain_ofUrl (url : String) : Plain (.ofUrl url) := nofun

section

variable (hplain : ∀ past request, Plain request → own past (.send request))
include hplain

/-- **What the wallet accepts** it can vouch for. -/
theorem acceptIssuedCredential_wp {credential : Value} :
    (acceptIssuedCredential hub credential).wp (Confined hub own)
      (fun later t => ∃ jws header payload,
        Vouched hub (fun source list => SnapshotSeen hub source later list) later
          (filed credential t) jws header payload) past := by
  simp only [acceptIssuedCredential, Program.wp_bind, Program.wp_ofExcept, Program.wp_mapError,
    Except.mapError_eq_ok, Option.okOr_eq_ok]
  rintro jws hjws ⟨header, payload⟩ hdecoded t htype
  rw [Value.asStr_eq_some] at hjws
  have hget : ∀ past url, own past (.send (.ofUrl url)) :=
    fun past url => hplain past _ (plain_ofUrl url)
  refine Program.wp_post (checkIssuer_wp hget) (fun trusting _ htrusted => ?_)
  refine Program.wp_post (Program.wp_extends verifyCredentialProofs_wp) ?_
  rintro proving _ ⟨hgrown, hproofs⟩
  rw [Program.wp_require]
  intro hsubject
  obtain ⟨jws', header', payload', hproof⟩ := hproofs _ (List.mem_singleton.mpr rfl)
  obtain ⟨hpayload, hdecoded'⟩ := containerJws_eq_ok.mp hproof.1
  rw [show (probeContainer credential).payload = credential from rfl, hjws] at hpayload
  cases hpayload
  rw [hdecoded] at hdecoded'
  cases hdecoded'
  obtain ⟨doc, hsigned⟩ := hproof.2
  have hiss : ∃ iss, payload.getStr "iss" = some iss := by
    obtain ⟨iss, -, -, -, hiss, -⟩ := hsigned
    exact ⟨iss, hiss⟩
  obtain ⟨iss, hiss⟩ := hiss
  have hvouched : ∀ later, proving <+: later →
      (∀ exp, payload.getU64 "exp" = some exp →
        ∃ reading, clockRead X reading ∈ later ∧ reading < exp) →
      Vouched hub (fun source list => SnapshotSeen hub source later list) later
        (filed credential t) jws header payload := by
    intro later hlater hlive
    have hsub : trusting ⊆ later := (hgrown.trans hlater).subset
    refine ⟨⟨containerJws_eq_ok.mpr ⟨hjws, hdecoded⟩, doc, hsigned.mono hlater.subset⟩,
      ⟨iss, hiss, ?_⟩, hsubject, hasType_of_specificType htype, hlive⟩
    have htrust := htrusted t (List.mem_singleton.mpr rfl)
    rw [hiss, Option.getD_some] at htrust
    exact htrust.mono (fun source list hseen => hseen.mono hsub) hsub
  unfold checkNotExpired
  cases hexp : payload.getU64 "exp" with
  | none =>
      dsimp only
      rw [Program.wp_pure, Program.wp_pure]
      exact ⟨jws, header, payload, hvouched proving (List.prefix_refl _) (by simp [hexp])⟩
  | some exp =>
      dsimp only
      rw [Program.wp_bind, wp_nowSecs]
      refine ⟨trivial, fun now => ?_⟩
      rw [Program.wp_require]
      intro hlive
      rw [Program.wp_pure]
      refine ⟨jws, header, payload, hvouched _ (List.prefix_append _ _) (fun exp' hexp' => ?_)⟩
      rw [hexp] at hexp'
      cases hexp'
      exact ⟨now, by simp, hlive⟩

theorem getJson_wp {α : Type} {read : Value → Option α} {url : String} :
    (getJson hub read url).wp (Confined hub own)
      (fun later a => Fetched X read url later a) past := by
  simp only [getJson, checkOutbound, Program.wp_bind, Program.wp_ofExcept, Program.wp_require,
    wp_send, Except.mapError_eq_ok]
  intro _ hallowed
  refine ⟨⟨hallowed, hplain _ _ (plain_ofUrl url)⟩, fun response _ a hread => ?_⟩
  exact ⟨response, by simp [answered], hread⟩

theorem resolveOffer_wp {body : RedeemOfferBody} :
    (resolveOffer hub body).wp (Confined hub own) (fun _ _ => True) past := by
  unfold resolveOffer
  rw [Program.wp_bind, Program.wp_ofExcept]
  rintro ⟨inUri, uriOfUri⟩ _
  dsimp only
  split
  · rw [Program.wp_pure]
    trivial
  · exact Program.wp_post (getJson_wp hplain) (fun _ _ _ => trivial)
  · rw [Program.wp_throw]
    trivial

/-- **Discovery** sends no form. -/
theorem discover_wp {body : RedeemOfferBody} :
    (discover hub body).wp (Confined hub own) (fun later d => Discovered X later d) past := by
  unfold discover
  rw [Program.wp_bind]
  refine Program.wp_post (resolveOffer_wp hplain) (fun offered offer _ => ?_)
  rw [Program.wp_bind, Program.wp_ofExcept]
  intro grant hgrant
  rw [Option.okOr_eq_ok] at hgrant
  rw [Program.wp_bind, Program.wp_require]
  intro _
  rw [Program.wp_bind, Program.wp_ofExcept]
  intro metadataUrl hmetadataUrl
  rw [Except.mapError_eq_ok] at hmetadataUrl
  rw [Program.wp_bind]
  refine Program.wp_post (getJson_wp hplain) (fun known metadata hmetadata => ?_)
  rw [Program.wp_bind, Program.wp_require]
  intro hsame
  rw [Program.wp_bind, Program.wp_ofExcept]
  intro asMetadataUrl hasMetadataUrl
  rw [Except.mapError_eq_ok] at hasMetadataUrl
  rw [Program.wp_bind]
  refine Program.wp_post (Program.wp_extends (getJson_wp hplain)) ?_
  rintro later asMetadata ⟨hgrown, hasMetadata⟩
  rw [Program.wp_pure]
  obtain ⟨response, hanswered, hread⟩ := hmetadata
  exact ⟨hgrant, ⟨metadataUrl, hmetadataUrl, response, hgrown.subset hanswered, hread⟩, hsame,
    ⟨asMetadataUrl, hasMetadataUrl, hasMetadata⟩⟩

end

/-! ## The token -/

theorem clientAssertion_wp {audience : String} :
    (clientAssertion hub clientId audience).wp (Confined hub own)
      (fun _ fields => ∀ field ∈ fields, Assertion hub.identity clientId audience field) past := by
  unfold clientAssertion buildClientAssertion
  cases clientId with
  | none =>
      rw [Program.wp_pure]
      intro field hmem
      cases hmem
  | some id =>
      simp only [Program.wp_bind, wp_nowSecs, wp_drawUuid, Program.wp_pure]
      refine ⟨trivial, fun now => ⟨trivial, fun jti field hmem => ?_⟩⟩
      exact ⟨id, now, jti, rfl, List.mem_singleton.mp hmem⟩

theorem dpopHeader_wp {wanted : Bool} {url : String} {nonce accessToken : Option String} :
    (dpopHeader hub wanted url nonce accessToken).wp (Confined hub own) (fun _ _ => True)
      past := by
  unfold dpopHeader buildDpopProof
  split
  · simp only [Program.wp_bind, wp_nowSecs, wp_drawUuid, Program.wp_pure]
    exact ⟨trivial, fun _ => ⟨trivial, fun _ => trivial⟩⟩
  · rw [Program.wp_pure]
    trivial

section

variable {d : Discovery} {txCode : Option String}
  (htoken : ∀ past request, TokenRequest hub clientId d txCode request → own past (.send request))
include htoken

theorem tokenAttempts_wp (hallowed : hub.outbound.checkUrl X d.asMetadata.tokenEndpoint = .ok ())
    {attempts : ℕ} {asNonce : Option String} :
    (tokenAttempts hub clientId d txCode attempts asNonce).wp (Confined hub own)
      (fun _ _ => True) past := by
  induction attempts generalizing asNonce past with
  | zero =>
      rw [tokenAttempts, Program.wp_throw]
      trivial
  | succ attempts ih =>
      rw [tokenAttempts, Program.wp_bind]
      unfold tokenAttempt
      dsimp only
      rw [Program.wp_bind]
      refine Program.wp_post clientAssertion_wp (fun asserted assertion hassertion => ?_)
      rw [Program.wp_bind]
      refine Program.wp_post dpopHeader_wp (fun later headers _ => ?_)
      rw [wp_send]
      refine ⟨⟨hallowed, htoken _ _ ⟨rfl, assertion, rfl, hassertion⟩⟩, fun response => ?_⟩
      split
      · exact ih
      · rw [Program.wp_pure]
        trivial

/-- **The token is asked for at the token endpoint.** -/
theorem requestToken_wp :
    (requestToken hub clientId d txCode).wp (Confined hub own) (fun _ _ => True) past := by
  unfold requestToken checkOutbound
  dsimp only
  rw [Program.wp_bind, Program.wp_ofExcept]
  intro _ hallowed
  rw [Except.mapError_eq_ok] at hallowed
  rw [Program.wp_bind]
  refine Program.wp_post (tokenAttempts_wp htoken hallowed) (fun later response _ => ?_)
  simp only [Program.wp_bind, Program.wp_ofExcept, Program.wp_require, Program.wp_pure,
    implies_true]

end

/-! ## The credentials -/

section

variable (hplain : ∀ past request, Plain request → own past (.send request))
  {d : Discovery} {token : TokenResponse}
include hplain

theorem requestNonce_wp {metadata : CredentialIssuerMetadata} {nonce : Option String} :
    (requestNonce hub metadata nonce).wp (Confined hub own) (fun _ _ => True) past := by
  unfold requestNonce checkOutbound
  split
  · rw [Program.wp_pure]
    trivial
  · simp only [Program.wp_bind, Program.wp_ofExcept, wp_send, Program.wp_pure,
      Except.mapError_eq_ok]
    intro _ hallowed
    exact ⟨⟨hallowed, hplain _ _ (fun form h => by cases h)⟩, fun _ _ _ => trivial⟩

theorem resourceAttempts_wp {url : String} (hallowed : hub.outbound.checkUrl X url = .ok ())
    {body : Value} {attempts : ℕ} {nonce : Option String} :
    (resourceAttempts hub token url body attempts nonce).wp (Confined hub own)
      (fun _ _ => True) past := by
  induction attempts generalizing nonce past with
  | zero =>
      rw [resourceAttempts, Program.wp_throw]
      trivial
  | succ attempts ih =>
      rw [resourceAttempts, Program.wp_bind]
      unfold resourceAttempt
      dsimp only
      rw [Program.wp_bind]
      refine Program.wp_post dpopHeader_wp (fun later dpop _ => ?_)
      rw [wp_send]
      refine ⟨⟨hallowed, hplain _ _ (fun form h => by cases h)⟩, fun response => ?_⟩
      split
      · exact ih
      · rw [Program.wp_pure]
        trivial

theorem postJson_wp {α : Type} {read : Value → Option α} {url : String} {body : Value}
    {nonce : Option String} :
    (postJson hub read token url body nonce).wp (Confined hub own) (fun _ _ => True) past := by
  unfold postJson checkOutbound
  rw [Program.wp_bind, Program.wp_ofExcept]
  intro _ hallowed
  rw [Except.mapError_eq_ok] at hallowed
  rw [Program.wp_bind]
  refine Program.wp_post (resourceAttempts_wp hplain hallowed) ?_
  rintro later ⟨response, nonce⟩ _
  simp only [Program.wp_bind, Program.wp_ofExcept, Program.wp_pure, implies_true]

theorem requestCredentials_wp {configuration : CredentialConfiguration}
    {target : String × Value} {nonce : Option String} :
    (requestCredentials hub clientId d token configuration target nonce).wp (Confined hub own)
      (fun _ _ => True) past := by
  unfold requestCredentials
  dsimp only
  rw [Program.wp_bind]
  refine Program.wp_post (requestNonce_wp hplain) ?_
  rintro nonced ⟨cNonce, nonce₁⟩ _
  dsimp only
  rw [Program.wp_bind]
  unfold buildJwtProofForClient
  rw [Program.wp_bind, wp_nowSecs]
  refine ⟨trivial, fun now => ?_⟩
  dsimp only
  rw [Program.wp_pure, Program.wp_bind]
  refine Program.wp_post (postJson_wp hplain) ?_
  rintro later ⟨issued, nonce₂⟩ _
  simp only [Program.wp_bind, Program.wp_require, Program.wp_pure, implies_true]

end

/-- Every credential gathered so far can be vouched for. -/
def Progress.Vouched (hub : Hub X) (events : List (HubEvent X)) (progress : Progress) : Prop :=
  ∀ container ∈ progress.containers, ∃ jws header payload,
    IdentityHub.Vouched hub (fun source list => SnapshotSeen hub source events list) events
      container jws header payload

theorem Progress.Vouched.mono {events events' : List (HubEvent X)} {progress progress' : Progress}
    (h : progress.Vouched hub events) (hsub : events ⊆ events')
    (hcontainers : progress'.containers = progress.containers) : progress'.Vouched hub events' := by
  intro container hmem
  rw [hcontainers] at hmem
  obtain ⟨jws, header, payload, hvouched⟩ := h container hmem
  exact ⟨jws, header, payload,
    hvouched.mono (fun source list hseen => hseen.mono hsub) hsub⟩

section

variable (hplain : ∀ past request, Plain request → own past (.send request))
  {d : Discovery} {token : TokenResponse}
include hplain

theorem acceptCredentials_wp {configId : String} {credentials : List Value} {progress : Progress}
    (h : progress.Vouched hub past) :
    (acceptCredentials hub configId credentials progress).wp (Confined hub own)
      (fun later progress' => progress'.Vouched hub later) past := by
  induction credentials generalizing progress past with
  | nil =>
      rw [acceptCredentials, Program.wp_pure]
      exact h
  | cons credential rest ih =>
      rw [acceptCredentials, Program.wp_bind]
      refine Program.wp_post (Program.wp_extends (acceptIssuedCredential_wp hplain)) ?_
      rintro later t ⟨hgrown, hvouched⟩
      refine ih (fun container hmem => ?_)
      rcases List.mem_append.mp hmem with hold | hnew
      · exact h.mono hgrown.subset rfl container hold
      · rw [List.mem_singleton.mp hnew]
        exact hvouched

theorem redeemTarget_wp {configId : String} {configuration : CredentialConfiguration}
    {target : String × Value} {progress : Progress} (h : progress.Vouched hub past) :
    (redeemTarget hub clientId d token configId configuration target progress).wp
      (Confined hub own) (fun later progress' => progress'.Vouched hub later) past := by
  unfold redeemTarget
  rw [Program.wp_bind]
  refine Program.wp_post (Program.wp_extends (requestCredentials_wp hplain)) ?_
  rintro later ⟨credentials, nonce⟩ ⟨hgrown, -⟩
  dsimp only
  split
  · exact acceptCredentials_wp hplain (h.mono hgrown.subset rfl)
  · rw [Program.wp_pure]
    exact h.mono hgrown.subset rfl

theorem redeemTargets_wp {configId : String} {configuration : CredentialConfiguration}
    {targets : List (String × Value)} {progress : Progress} (h : progress.Vouched hub past) :
    (redeemTargets hub clientId d token configId configuration targets progress).wp
      (Confined hub own) (fun later progress' => progress'.Vouched hub later) past := by
  induction targets generalizing progress past with
  | nil =>
      rw [redeemTargets, Program.wp_pure]
      exact h
  | cons target rest ih =>
      rw [redeemTargets, Program.wp_bind]
      exact Program.wp_post (redeemTarget_wp hplain h) (fun later progress' h' => ih h')

/-- **The rounds of a redemption** send no form and gather what can be vouched for. -/
theorem redeemConfigurations_wp {configIds : List String} {progress : Progress}
    (h : progress.Vouched hub past) :
    (redeemConfigurations hub clientId d token configIds progress).wp (Confined hub own)
      (fun later progress' => progress'.Vouched hub later) past := by
  induction configIds generalizing progress past with
  | nil =>
      rw [redeemConfigurations, Program.wp_pure]
      exact h
  | cons configId rest ih =>
      rw [redeemConfigurations, Program.wp_bind, Program.wp_ofExcept]
      intro configuration _
      rw [Program.wp_bind]
      exact Program.wp_post (redeemTargets_wp hplain h) (fun later progress' h' => ih h')

end

theorem start_vouched {events : List (HubEvent X)} : Progress.start.Vouched hub events := by
  intro container hmem
  cases hmem

/-- Everything before the end of a redemption, where its Token Requests are of the kind
`own` allows. -/
theorem gather_wp {body : RedeemOfferBody}
    (hplain : ∀ past request, Plain request → own past (.send request))
    (htoken : ∀ d past request, TokenRequest hub clientId d body.txCode request →
      own past (.send request)) :
    (gather hub clientId body).wp (Confined hub own)
      (fun later gathered => gathered.2.Vouched hub later) past := by
  unfold gather
  rw [Program.wp_bind]
  refine Program.wp_post (discover_wp hplain) (fun discovered d _ => ?_)
  rw [Program.wp_bind]
  refine Program.wp_post (requestToken_wp (htoken d)) (fun later token _ => ?_)
  rw [Program.wp_bind]
  refine Program.wp_post (redeemConfigurations_wp hplain start_vouched) ?_
  intro later progress hvouched
  rw [Program.wp_pure]
  exact hvouched

end IdentityHub.Wallet
