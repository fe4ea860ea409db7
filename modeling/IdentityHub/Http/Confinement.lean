import IdentityHub.Hub.Offers
import IdentityHub.Issuer.Outgoing
import IdentityHub.Wallet.Custody

/-!
# Outbound confinement

Seven functions make requests to destinations that a message or a remote document names.
Whatever they are given and whatever they are answered, each request they make, redirects
included, is for `http` or `https` and goes to a host on the allow-list.

One of them asks for another URL than the one it has checked: credentials are posted below
the endpoint. Both go to the same host, if the longer one goes anywhere.
-/

namespace IdentityHub

open Wallet

variable {X : HubExternal}

/-- The hub's operations that go out through the shared client. -/
def hubRequests (X : HubExternal) : Requests (hubEffects X)
  | .fetchDocument url => some { url := url, failed := .error }
  | .send request => some { url := request.url, failed := .error }
  | _ => none

/-- The issuer's side of the same process. -/
def Hub.issuerService (hub : Hub X) (holderApproval : HolderApproval) (baseUrl : String) :
    IssuerService X where
  holderApproval := holderApproval
  insecureHttp := hub.insecureHttp
  outbound := hub.outbound
  identity := hub.identity
  baseUrl := baseUrl

/-- A call of a function that makes requests, with what it is given. -/
inductive OutboundCall where
  | verifyBearerToken (authorizationHeader : Option String)
  | verifyCredentialProofs (credentials : List CredentialContainer)
  | validateOfferCredentials (issuerDid : String) (credentials : List CredentialObject)
  | redeem (clientId : Option String) (body : RedeemOfferBody)
  | fetchTrustList (source : TrustedIssuersRegistry) (now : ℕ)
  | tryDeliverIssuedCredential (job : DeliveryJob)
  | verifyProofSignature (proof : String) (key : Oid4vci.ProofKey)

variable (hub : Hub X) (holderApproval : HolderApproval) (baseUrl : String)
  (join : String → String → Option String)

/-- The URLs a call may make requests at, in order. -/
def OutboundCall.MayRequest (call : OutboundCall) (urls : List String) : Prop :=
  let client : Client := { outbound := hub.outbound, join := join }
  let service := hub.issuerService holderApproval baseUrl
  match call with
  | verifyBearerToken authorizationHeader =>
      client.MayRequest X (hubRequests X) (IdentityHub.verifyBearerToken hub authorizationHeader)
        urls
  | verifyCredentialProofs credentials =>
      client.MayRequest X (hubRequests X) (IdentityHub.verifyCredentialProofs hub credentials) urls
  | validateOfferCredentials issuerDid credentials =>
      client.MayRequest X (hubRequests X)
        (IdentityHub.validateOfferCredentials hub issuerDid credentials) urls
  | redeem clientId body =>
      client.MayRequest X (hubRequests X) (Wallet.redeem hub clientId body) urls
  | fetchTrustList source now =>
      client.MayRequest X (hubRequests X) (IdentityHub.fetchTrustList hub source now) urls
  | tryDeliverIssuedCredential job =>
      client.MayRequest X (issuerRequests X)
        (IssuerProgram.tryDeliverIssuedCredential service job) urls
  | verifyProofSignature proof key =>
      client.MayRequest X (issuerRequests X)
        (IssuerProgram.verifyProofSignature service proof key) urls

variable {hub holderApproval baseUrl join}

/-- Where an operation of the hub goes has been checked. -/
def Checked (hub : Hub X) (op : HubOp X) : Prop :=
  ∀ call, hubRequests X op = some call → hub.outbound.checkUrl X call.url = .ok ()

theorem checked_of_asksOnly {op : HubOp X} (h : AsksOnly hub (fun _ => False) op) :
    Checked hub op := by
  cases op with
  | fetchDocument url =>
      rintro _ ⟨⟩
      exact h
  | send request => exact h.elim
  | _ => exact nofun

theorem checked_of_confined {own : List (HubEvent X) → HubOp X → Prop} {past : List (HubEvent X)}
    {op : HubOp X} (h : Confined hub own past op) : Checked hub op := by
  cases op with
  | fetchDocument url =>
      rintro _ ⟨⟩
      exact h
  | send request =>
      rintro _ ⟨⟩
      exact h.1
  | _ => exact nofun

theorem checked_of_inNameOf {issuerDid : String} {past : List (HubEvent X)} {op : HubOp X}
    (h : InNameOf hub issuerDid past op) : Checked hub op := by
  cases op with
  | fetchDocument url =>
      rintro _ ⟨⟩
      exact h.2
  | send request =>
      rintro _ ⟨⟩
      exact h.1
  | _ => exact nofun

/-- The hub's programs are given by what they have checked, -/
theorem allowed_of_checked {ε α : Type} {p : HubProgram X ε α}
    {Q : List (HubEvent X) → HubOp X → Prop} {post : List (HubEvent X) → α → Prop}
    (h : p.wp Q post []) (hQ : ∀ past op, Q past op → Checked hub op) {urls : List String}
    (hurls : Client.MayRequest X { outbound := hub.outbound, join := join } (hubRequests X) p urls) :
    ∀ url ∈ urls, hub.outbound.Allows X url := by
  refine hurls.allowed (Program.wp_mono h (fun past op hop call hcall _ _ => ?_) (fun _ _ hp => hp))
  exact OutboundPolicy.checkUrl_eq_ok.mp (hQ past op hop call hcall)

/-- and the issuer's by what is admitted. -/
theorem allowed_of_admitted {ε α : Type} {p : IssuerProgram X ε α}
    {post : List (Event (issuerEffects X)) → α → Prop}
    (h : p.wp (fun _ => IssuerProgram.Admitted (hub.issuerService holderApproval baseUrl)) post [])
    {urls : List String}
    (hurls : Client.MayRequest X { outbound := hub.outbound, join := join } (issuerRequests X) p
      urls) :
    ∀ url ∈ urls, hub.outbound.Allows X url :=
  hurls.allowed h

variable (hub holderApproval baseUrl join) in
/-- **Outbound confinement.** -/
theorem outbound_confined {hosts : WebUrl.HostParser}
    (hstandard : X.FollowsUrlStandard hosts) :
    (∀ (call : OutboundCall) (urls : List String),
      call.MayRequest hub holderApproval baseUrl join urls →
        ∀ url ∈ urls, hub.outbound.Allows X url) ∧
    ∀ endpoint parsed, hub.outbound.checkUrl X endpoint = .ok () →
      X.parseUrl (endpoint ++ "/credentials") = .ok parsed → X.parseUrl endpoint = .ok parsed := by
  constructor
  · intro call urls hurls
    cases call with
    | verifyBearerToken authorizationHeader =>
        have hasks : (verifyBearerToken hub authorizationHeader).wp (fun _ => Checked hub)
            (fun _ _ => True) [] :=
          verifyBearerToken_asks (fun _ _ => checked_of_asksOnly) (fun _ _ => nofun)
        exact allowed_of_checked hasks (fun _ _ hop => hop) hurls
    | verifyCredentialProofs credentials =>
        have hverified : (verifyCredentialProofs hub credentials).wp
            (Confined hub (fun _ _ => True)) (fun _ _ => True) [] :=
          Program.wp_post verifyCredentialProofs_wp (fun _ _ _ => trivial)
        exact allowed_of_checked hverified (fun _ _ => checked_of_confined) hurls
    | validateOfferCredentials issuerDid credentials =>
        exact allowed_of_checked validateOfferCredentials_wp (fun _ _ => checked_of_inNameOf) hurls
    | redeem clientId body =>
        exact allowed_of_checked redeem_wp (fun _ _ => checked_of_confined) hurls
    | fetchTrustList source now =>
        have hfetched : (fetchTrustList hub source now).wp
            (Confined hub (fun _ _ => True)) (fun _ _ => True) [] :=
          Program.wp_post (fetchTrustList_wp (fun _ _ => trivial)) (fun _ _ _ => trivial)
        exact allowed_of_checked hfetched (fun _ _ => checked_of_confined) hurls
    | tryDeliverIssuedCredential job =>
        exact allowed_of_admitted (IssuerProgram.tryDeliverIssuedCredential_wp hstandard) hurls
    | verifyProofSignature proof key =>
        exact allowed_of_admitted IssuerProgram.verifyProofSignature_wp hurls
  · intro endpoint parsed hchecked hparsed
    exact OutboundPolicy.parseUrl_credentials hstandard
      (OutboundPolicy.checkUrl_eq_ok.mp hchecked) hparsed

/-! ## A redirected request -/

/-- Hosts that are ASCII names. -/
def asciiHosts : WebUrl.HostParser where
  parse host :=
    if host.all (fun c => c.isAlphanum || c == '.' || c == '-') = true then
      some (String.ofList (host.map Char.toLower))
    else none
  rejects := by
    intro host c hc hspace
    refine if_neg (fun hall => ?_)
    have hnamed := List.all_eq_true.mp hall c hc
    rw [Bool.or_eq_true, Bool.or_eq_true, beq_iff_eq, beq_iff_eq] at hnamed
    rcases hnamed with (halphanum | rfl) | rfl
    · rw [WebUrl.isC0OrSpace_of_isAlphanum halphanum] at hspace
      cases hspace
    · exact absurd hspace (by decide)
    · exact absurd hspace (by decide)

/-- The external functions of the sample runs, with the standard's URLs. -/
def standardReference : HubExternal :=
  { hubReference with
    parseUrl := fun url =>
      ((WebUrl.parse asciiHosts url).map (fun parts =>
        ({ scheme := parts.1, host := some parts.2 } : Url))).okOr "invalid URL" }

theorem standardReference_parseUrl {url : String} {parsed : Url} :
    standardReference.parseUrl url = .ok parsed ↔ ∃ scheme host,
      WebUrl.parse asciiHosts url = some (scheme, host) ∧
        parsed = { scheme := scheme, host := some host } := by
  change Option.okOr _ _ = _ ↔ _
  rw [Option.okOr_eq_ok, Option.map_eq_some_iff]
  constructor
  · rintro ⟨⟨scheme, host⟩, hparse, rfl⟩
    exact ⟨scheme, host, hparse, rfl⟩
  · rintro ⟨scheme, host, hparse, rfl⟩
    exact ⟨(scheme, host), hparse, rfl⟩

theorem standardReference_follows :
    standardReference.FollowsUrlStandard asciiHosts where
  scheme := by
    intro s parsed h
    obtain ⟨scheme, host, hparse, rfl⟩ := standardReference_parseUrl.mp h
    exact WebUrl.scheme_of_parse hparse
  http _ _ _ := standardReference_parseUrl

def acmeHub : Hub standardReference where
  identity :=
    { ownDid := "did:web:hub.example"
      ownKeyId := "did:web:hub.example#key-1"
      signingKey := "hub key" }
  stsParty :=
    { ownDid := "did:web:hub.example:sts"
      ownKeyId := "did:web:hub.example:sts#key-1"
      signingKey := "sts key" }
  insecureHttp := false
  outbound := { allowedHosts := ["acme.example"] }
  trustedIssuerDids := []
  knownHolderPids := []
  trustedIssuersRegistry := none
  scopeType _ := none

example :
    acmeHub.outbound.checkUrl standardReference " HTTPS:\\\\me@Acme.example:8443 " = .ok () := by
  decide +kernel

def acmeKey : Oid4vci.ProofKey := .didUrl "did:web:acme.example#key-1" "did:web:acme.example"

/-- A `Location` is a whole URL. -/
def absoluteOnly (_ location : String) : Option String := some location

def acmeUrl : String := "https://acme.example/.well-known/did.json"

def movedUrl : String := "https://Acme.example/moved"

/-- The first answer redirects the client, the second is that there is no document. -/
def acmeEvents : List (Event (wireEffects (issuerEffects standardReference))) :=
  [⟨WireOp.request (IssuerOp.fetchDocument acmeUrl) acmeUrl,
      { location := some movedUrl, answer := .error "moved" }⟩,
    ⟨WireOp.request (IssuerOp.fetchDocument acmeUrl) movedUrl,
      { location := none, answer := .error "not found" }⟩]

theorem acme_asks : ∃ next,
    IssuerProgram.verifyProofSignature (acmeHub.issuerService .auto "https://hub.example") "proof"
        acmeKey = .ask (IssuerOp.fetchDocument acmeUrl) next ∧
      next (.error "not found") = .throw "not found" :=
  ⟨_, rfl, rfl⟩

theorem acme_redirected : OutboundCall.MayRequest acmeHub .auto "https://hub.example" absoluteOnly
    (.verifyProofSignature "proof" acmeKey) [acmeUrl, movedUrl] := by
  obtain ⟨next, hasks, hnext⟩ := acme_asks
  let client : Client := { outbound := acmeHub.outbound, join := absoluteOnly }
  have hcarried : (client.carry standardReference (issuerRequests standardReference)
      (.fetchDocument acmeUrl) : Program _ String _).Returns acmeEvents (.error "not found") := by
    rw [carry_eq_exchange rfl rfl]
    exact exchange_redirected rfl rfl (exchange_answered _)
  have hrest : (next (.error "not found")).interpret
      (client.carry standardReference (issuerRequests standardReference)) =
        .throw "not found" := by
    rw [hnext]
    rfl
  refine ⟨acmeEvents, .throw "not found", ?_, rfl⟩
  rw [hasks, ← List.append_nil acmeEvents]
  exact hcarried.followed (hrest ▸ .refl _)

theorem outbound_confined_acme :
    (∀ url ∈ [acmeUrl, movedUrl], acmeHub.outbound.Allows standardReference url) ∧
      standardReference.parseUrl "https://acme.example:8443" =
        .ok { scheme := "https", host := some "acme.example" } :=
  have hconfined := outbound_confined acmeHub .auto "https://hub.example" absoluteOnly
    standardReference_follows
  ⟨hconfined.1 _ _ acme_redirected, hconfined.2 "https://acme.example:8443" _ rfl rfl⟩

end IdentityHub
