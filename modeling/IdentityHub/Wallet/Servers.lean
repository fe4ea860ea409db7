import IdentityHub.Hub.Reference
import IdentityHub.Wallet.Confined

/-!
# Which server gets the code

The pre-authorized code, the Transaction Code and the client assertion are fields of
the Token Request's form, and forms go to the token endpoint alone. Whether that is the
endpoint of the server the code was meant for depends on two things the wallet does not
check: that the server's metadata names the server it was asked for, and that a server
the offer names is one of the issuer's.
-/

namespace IdentityHub.Wallet

open Json (Value)

variable {X : HubExternal} {hub : Hub X} {clientId : Option String}

/-- The server whose metadata discovery asked for. -/
def Discovery.server (d : Discovery) : String := authorizationServer d.offer d.grant d.metadata

/-- A Token Request that goes where it was meant to: to the token endpoint of the server
whose metadata was asked for, which is the issuer or one the issuer lists, with an
assertion made for that server, if any. -/
structure MeantFor (hub : Hub X) (clientId : Option String) (txCode : Option String)
    (d : Discovery) (request : HttpRequest) : Prop where
  endpoint : request.url = d.asMetadata.tokenEndpoint
  named : d.asMetadata.issuer = d.server
  listed : d.server = d.offer.credentialIssuer ∨ d.server ∈ d.metadata.authorizationServers
  audience : ∃ assertion, request.body = .form (tokenForm clientId d.grant txCode ++ assertion) ∧
    ∀ field ∈ assertion, Assertion hub.identity clientId d.server field

/-- The documents agree: the server's metadata is its own, and a server the offer names
is the issuer or one of those it lists. -/
structure Consistent (d : Discovery) : Prop where
  own : d.asMetadata.issuer = authorizationServer d.offer d.grant d.metadata
  offered : ∀ server, d.grant.authorizationServer = some server →
    server = d.offer.credentialIssuer ∨ server ∈ d.metadata.authorizationServers

/-- Without a server in the offer, the one chosen is the issuer's. -/
theorem server_listed {d : Discovery} (hnone : d.grant.authorizationServer = none) :
    d.server = d.offer.credentialIssuer ∨ d.server ∈ d.metadata.authorizationServers := by
  rw [Discovery.server, authorizationServer, hnone, Option.none_or]
  cases hservers : d.metadata.authorizationServers with
  | nil => exact Or.inl rfl
  | cons server rest => exact Or.inr List.mem_cons_self

theorem server_offered {d : Discovery} {server : String}
    (hsome : d.grant.authorizationServer = some server) : d.server = server := by
  rw [Discovery.server, authorizationServer, hsome, Option.some_or, Option.getD_some]

theorem meantFor_iff {d : Discovery} {txCode : Option String} {request : HttpRequest}
    (h : TokenRequest hub clientId d txCode request) :
    MeantFor hub clientId txCode d request ↔ Consistent d := by
  constructor
  · intro hmeant
    refine ⟨hmeant.named, fun server hserver => ?_⟩
    rw [← server_offered hserver]
    exact hmeant.listed
  · intro hconsistent
    have hnamed : d.asMetadata.issuer = d.server := hconsistent.own
    obtain ⟨hendpoint, assertion, hbody, hassertion⟩ := h
    rw [hnamed] at hassertion
    refine ⟨hendpoint, hnamed, ?_, assertion, hbody, hassertion⟩
    cases hserver : d.grant.authorizationServer with
    | none => exact server_listed hserver
    | some server =>
        rw [server_offered hserver]
        exact hconsistent.offered server hserver

/-! ## Every form of a run -/

/-- In a run of `p`, an event is where `own` allows it. -/
theorem own_of_sent {ε α : Type} {p q : HubProgram X ε α}
    {own : List (HubEvent X) → HubOp X → Prop} {post : List (HubEvent X) → α → Prop}
    {events : List (HubEvent X)} {request : HttpRequest} {answer : Except String HttpResponse}
    (h : p.wp (Confined hub own) post []) (hr : p.Evolves events q)
    (hsent : (⟨HubOp.send request, answer⟩ : HubEvent X) ∈ events) :
    ∃ past, own past (.send request) := by
  obtain ⟨before, after, rfl⟩ := List.append_of_mem hsent
  exact ⟨_, (Program.wp_asked h hr).2⟩

/-- What is stored is the environment's own affair. -/
theorem storeRedeemed_wp {own : List (HubEvent X) → HubOp X → Prop} {past : List (HubEvent X)}
    {containers : List CredentialContainer}
    (hstore : ∀ past batch, own past (.storeBatch batch)) :
    (storeRedeemed containers : HubProgram X WalletError Unit).wp (Confined hub own)
      (fun _ _ => True) past := by
  unfold storeRedeemed
  split
  · rw [Program.wp_pure]
    trivial
  · simp only [Program.wp_bind, wp_drawUuid, wp_storeBatch, implies_true, and_true]
    exact ⟨trivial, fun _ => hstore _ _⟩

theorem Fetched.mono {α : Type} {read : Value → Option α} {url : String}
    {events events' : List (HubEvent X)} {a : α} (h : Fetched X read url events a)
    (hsub : events ⊆ events') : Fetched X read url events' a := by
  obtain ⟨response, hanswered, hread⟩ := h
  exact ⟨response, hsub hanswered, hread⟩

/-- Discovery, and what comes after it. -/
theorem redeem_eq (body : RedeemOfferBody) :
    redeem hub clientId body = (discover hub body >>= fun d => do
      let token ← requestToken hub clientId d body.txCode
      let progress ← redeemConfigurations hub clientId d token
        d.offer.credentialConfigurationIds .start
      storeRedeemed progress.containers
      return {
        credentialIssuer := d.offer.credentialIssuer
        stored := progress.stored
        notStored := progress.notStored }) := by
  unfold redeem gather
  simp only [Program.bind_assoc, Program.pure_bind]

/-- A form of a run is a Token Request of what discovery found in it. -/
theorem tokenRequest_of_form {body : RedeemOfferBody}
    {q : HubProgram X WalletError RedeemOfferResponse} {events : List (HubEvent X)}
    (hrun : (redeem hub clientId body).Evolves events q) {request : HttpRequest}
    {answer : Except String HttpResponse} {form : List (String × String)}
    (hform : request.body = .form form)
    (hsent : (⟨HubOp.send request, answer⟩ : HubEvent X) ∈ events) :
    ∃ before d, before <+: events ∧ (discover hub body).Returns before d ∧
      TokenRequest hub clientId d body.txCode request := by
  have hdiscover := @discover_wp X hub (fun _ op => ∀ r, op = .send r → Plain r) []
    (fun _ r hr r' h => by cases h; exact hr) body
  have hquiet : ∀ {q : HubProgram X WalletError Discovery} {events : List (HubEvent X)},
      (discover hub body).Evolves events q →
        (⟨HubOp.send request, answer⟩ : HubEvent X) ∉ events := by
    intro q events hr hmem
    obtain ⟨past, hown⟩ := own_of_sent hdiscover hr hmem
    exact hown request rfl form hform
  rw [redeem_eq] at hrun
  rcases Program.evolves_bind hrun with ⟨p, hr, -⟩ | ⟨before, d, after, rfl, hr, hafter⟩
  · exact absurd hsent (hquiet hr)
  · refine ⟨before, d, List.prefix_append _ _, hr, ?_⟩
    rcases List.mem_append.mp hsent with hmem | hmem
    · exact absurd hmem (hquiet hr)
    · -- after discovery a request is plain or asks for the token
      let own : List (HubEvent X) → HubOp X → Prop := fun _ op =>
        ∀ r, op = .send r → Plain r ∨ TokenRequest hub clientId d body.txCode r
      have hplain : ∀ past r, Plain r → own past (.send r) := by
        rintro past r hr r' h
        cases h
        exact Or.inl hr
      have htoken : ∀ past r, TokenRequest hub clientId d body.txCode r → own past (.send r) := by
        rintro past r hr r' h
        cases h
        exact Or.inr hr
      have hrest : ((do
            let token ← requestToken hub clientId d body.txCode
            let progress ← redeemConfigurations hub clientId d token
              d.offer.credentialConfigurationIds .start
            storeRedeemed progress.containers
            return {
              credentialIssuer := d.offer.credentialIssuer
              stored := progress.stored
              notStored := progress.notStored }) : HubProgram X WalletError RedeemOfferResponse).wp
          (Confined hub own) (fun _ _ => True) [] := by
        rw [Program.wp_bind]
        refine Program.wp_post (requestToken_wp htoken) (fun later token _ => ?_)
        rw [Program.wp_bind]
        refine Program.wp_post (redeemConfigurations_wp hplain start_vouched) ?_
        intro later progress _
        rw [Program.wp_bind]
        refine Program.wp_post (storeRedeemed_wp fun _ _ => nofun) (fun _ _ _ => ?_)
        rw [Program.wp_pure]
        trivial
      obtain ⟨past, hown⟩ := own_of_sent hrest hafter hmem
      rcases hown request rfl with hnot | hasked
      · exact absurd hform (hnot form)
      · exact hasked

theorem send_returns {ε : Type} {request : HttpRequest} {describe : String → ε}
    (response : HttpResponse) :
    (send request describe : HubProgram X ε HttpResponse).Returns [answered X request response]
      response :=
  .ask (.refl _)

theorem getJson_returns {α : Type} {read : Value → Option α} {url : String}
    {response : HttpResponse} {a : α} (hallowed : hub.outbound.checkUrl X url = .ok ())
    (hsuccess : response.isSuccess = true) (hread : readBody X read response = .ok a) :
    (getJson hub read url).Returns [answered X (.ofUrl url) response] a := by
  have hread' : (readBody X read response).mapError
      (fun e => WalletError.upstream ("GET " ++ url ++ ": " ++ e)) = .ok a :=
    Except.mapError_eq_ok.mpr hread
  refine Program.Returns.after (.ofExcept (Except.mapError_eq_ok.mpr hallowed)) ?_
  refine Program.Returns.afterEvent (send_returns response) ?_
  exact Program.Returns.after (.require hsuccess) (.ofExcept hread')

/-- An answer whose body is a document. -/
def documentResponse (document : Value) : HttpResponse where
  status := 200
  body := .ok (String.ofList (Json.Text.print document))
  dpopNonce := none
  wwwAuthenticate := none

theorem readBody_document {α : Type} {read : Value → Option α} {document : Value} {a : α}
    (hread : read document = some a) :
    readBody hubReference read (documentResponse document) = .ok a := by
  have hparse : hubReference.parseJson (String.ofList (Json.Text.print document)) =
      .ok document := by
    show Reference.parseJson _ = _
    rw [Reference.parseJson, String.toList_ofList, Json.Text.parse_print]
  show Except.bind (hubReference.parseJson (String.ofList (Json.Text.print document)))
    (fun value => (read value).okOr (hubReference.decodeError value)) = .ok a
  rw [hparse]
  exact Option.okOr_eq_ok.mpr hread

def mixedHub : Hub hubReference where
  identity := { ownDid := "did:web:hub", ownKeyId := "did:web:hub#key-1", signingKey := "hub" }
  stsParty := { ownDid := "did:web:sts", ownKeyId := "did:web:sts#key-1", signingKey := "sts" }
  insecureHttp := false
  outbound := { allowedHosts := ["issuer", "evil"] }
  trustedIssuerDids := []
  knownHolderPids := []
  trustedIssuersRegistry := none
  scopeType := some

def mixedGrant : PreAuthorizedCodeGrant where
  preAuthorizedCode := "code"
  txCode := none
  authorizationServer := some "https://evil"

/-- The offer names a server that the issuer does not list. -/
def mixedOffer : CredentialOffer where
  credentialIssuer := "https://issuer"
  credentialConfigurationIds := []
  grants := some (some mixedGrant)

def mixedBody : RedeemOfferBody where
  offer := none
  credentialOffer := some mixedOffer
  credentialOfferUri := none
  txCode := none

def mixedMetadata : CredentialIssuerMetadata where
  credentialIssuer := "https://issuer"
  authorizationServers := []
  credentialEndpoint := "https://issuer/credential"
  nonceEndpoint := none
  credentialConfigurationsSupported := []

/-- The server says that it is the bank. -/
def mixedAsMetadata : AuthorizationServerMetadata where
  issuer := "https://bank"
  tokenEndpoint := "https://evil/token"
  dpopSigningAlgValuesSupported := []

def mixedDiscovery : Discovery where
  offer := mixedOffer
  grant := mixedGrant
  metadata := mixedMetadata
  asMetadata := mixedAsMetadata

def mixedMetadataDocument : Value :=
  .object
    [("credential_issuer", .string "https://issuer"),
     ("credential_endpoint", .string "https://issuer/credential"),
     ("credential_configurations_supported", .object [])]

def mixedAsMetadataDocument : Value :=
  .object [("issuer", .string "https://bank"), ("token_endpoint", .string "https://evil/token")]

def mixedDiscovering : List (HubEvent hubReference) :=
  [answered hubReference (.ofUrl "https://issuer/.well-known/openid-credential-issuer")
    (documentResponse mixedMetadataDocument),
   answered hubReference (.ofUrl "https://evil/.well-known/oauth-authorization-server")
    (documentResponse mixedAsMetadataDocument)]

/-- The Token Request: its assertion is made for the bank. -/
def mixedRequest : HttpRequest where
  method := .post
  url := "https://evil/token"
  headers := []
  body := .form (tokenForm (some "wallet") mixedGrant none ++
    [("client_assertion", signJwsWithHeader hubReference (clientAssertionHeader mixedHub.identity)
      (clientAssertionPayload "wallet" "https://bank" 100 "uuid-1") "hub")])

def mixedEvents : List (HubEvent hubReference) :=
  mixedDiscovering ++
    [clockRead hubReference 100, ⟨HubOp.uuid, "uuid-1"⟩, ⟨HubOp.send mixedRequest, .error "down"⟩]

theorem mixed_discover : (discover mixedHub mixedBody).Returns mixedDiscovering mixedDiscovery := by
  have hoffer : (resolveOffer mixedHub mixedBody).Returns [] mixedOffer := .refl _
  refine Program.Returns.after hoffer ?_
  refine Program.Returns.after (.ofExcept rfl) ?_
  refine Program.Returns.after (.require nofun) ?_
  refine Program.Returns.after (.ofExcept rfl) ?_
  refine Program.Returns.afterEvent (getJson_returns rfl rfl (readBody_document rfl)) ?_
  refine Program.Returns.after (.require rfl) ?_
  refine Program.Returns.after (.ofExcept rfl) ?_
  refine Program.Returns.afterEvent (getJson_returns rfl rfl (readBody_document rfl)) ?_
  exact .refl _

theorem mixed_token : (requestToken mixedHub (some "wallet") mixedDiscovery none).Evolves
    [clockRead hubReference 100, ⟨HubOp.uuid, "uuid-1"⟩, ⟨HubOp.send mixedRequest, .error "down"⟩]
    (.throw (.upstream ("POST " ++ "https://evil/token" ++ ": " ++ "down"))) := by
  have hallowed : checkOutbound mixedHub "https://evil/token" = .ok () := rfl
  refine Program.Returns.followed (Program.Returns.ofExcept hallowed) ?_
  exact .ask (.ask (.ask (.refl _)))

theorem mixed_run : (redeem mixedHub (some "wallet") mixedBody).Evolves mixedEvents
    (.throw (.upstream ("POST " ++ "https://evil/token" ++ ": " ++ "down"))) := by
  rw [redeem_eq]
  exact mixed_discover.followed (Program.Evolves.bind mixed_token)

end IdentityHub.Wallet
