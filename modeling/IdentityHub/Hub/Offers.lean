import IdentityHub.Hub.Replay
import IdentityHub.Wallet.Servers

/-!
# Accepted Credential Offers

`POST /offers` of a Credential Service. The caller is authenticated and must be
trusted; then the offer's ids are looked up, where it gives no types, in the catalog
of the issuer it names, and it is recorded. Three identities are in play: the `iss` of
the token, the trusted party, and the `issuer` of the message.
-/

namespace IdentityHub

open Json (Value)
open Oid4vci (structField isStruct optional)
open Wallet (withDefault required readList readBody Fetched answered)

/-! ## Messages -/

/-- One credential of an offer or of a catalog; the fields nothing reads are left out of
this model. -/
structure CredentialObject where
  id : String
  credentialType : Option String
deriving DecidableEq

/-- Each field is decoded, also those that are not read. -/
def CredentialObject.fromJson (v : Value) : Option CredentialObject :=
  if isStruct v 9 then do
    let _ ← optional (readList Value.asStr) (structField v 0 "@context")
    let id ← required Value.asStr (structField v 1 "id")
    let _ ← withDefault Value.asStr "CredentialObject" (structField v 2 "type")
    let credentialType ← optional Value.asStr (structField v 3 "credentialType")
    let _ ← optional (readList Value.asStr) (structField v 4 "bindingMethods")
    let _ ← optional Value.asStr (structField v 5 "credentialSchema")
    let _ ← optional Value.asStr (structField v 6 "profile")
    -- `issuancePolicy` is kept as it is
    let _ ← optional Value.asStr (structField v 8 "offerReason")
    return { id := id, credentialType := credentialType }
  else none

/-- Body of the Credential Offer API. -/
structure CredentialOfferMessage where
  context : List String
  messageType : String
  issuer : String
  credentials : List CredentialObject
deriving DecidableEq

/-- An answer of the Issuer Metadata API. -/
structure IssuerMetadata where
  context : List String
  messageType : String
  issuer : String
  credentialsSupported : Option (List CredentialObject)
deriving DecidableEq

def IssuerMetadata.fromJson (v : Value) : Option IssuerMetadata :=
  if isStruct v 4 then do
    let context ← withDefault (readList Value.asStr) [dcpContext] (structField v 0 "@context")
    let messageType ← withDefault Value.asStr "" (structField v 1 "type")
    let issuer ← required Value.asStr (structField v 2 "issuer")
    let supported ←
      optional (readList CredentialObject.fromJson) (structField v 3 "credentialsSupported")
    return {
      context := context
      messageType := messageType
      issuer := issuer
      credentialsSupported := supported }
  else none

/-- The credentials of a catalog. -/
def IssuerMetadata.catalog (metadata : IssuerMetadata) : List CredentialObject :=
  metadata.credentialsSupported.getD []

/-- The ids of the entries that give no type. -/
def sparseIds (credentials : List CredentialObject) : List String :=
  (credentials.filter (fun c => c.credentialType.isNone)).map (fun c => c.id)

/-- The types of the entries that give one. -/
def CredentialOfferMessage.offeredTypes (message : CredentialOfferMessage) : List String :=
  message.credentials.filterMap (fun c => c.credentialType)

/-- The offer as it is recorded. -/
def CredentialOfferMessage.accepted (message : CredentialOfferMessage) : NewAcceptedOffer where
  issuer := message.issuer
  credentials := message.credentials.map
    (fun c => { id := c.id, credentialType := c.credentialType })

/-! ## The handler -/

variable {X : HubExternal} (hub : Hub X)

/-- The first of the ids that the catalog does not know is the error. -/
def checkKnownIds (known : List String) : List String → Except ValidationError Unit
  | [] => .ok ()
  | id :: rest => if id ∈ known then checkKnownIds known rest else .error (.unknownCredentialId id)

/-- The lookup of `validate_offer_credentials`: the catalog of an issuer, found through
its DID document. -/
def fetchCatalog (issuerDid : String) : HubProgram X ValidationError IssuerMetadata := do
  .ofExcept ((hub.outbound.checkDid X issuerDid hub.insecureHttp).mapError
    (fun e => .catalogUnavailable e.toString))
  let issuerDoc ← (resolveDid issuerDid hub.insecureHttp).mapError .catalogUnavailable
  let endpoint ← .ofExcept ((X.serviceEndpointUrl issuerDoc "IssuerService").mapError
    .catalogUnavailable)
  .ofExcept ((hub.outbound.checkUrl X (endpoint ++ "/metadata")).mapError
    (fun e => .catalogUnavailable e.toString))
  let response ← send (.ofUrl (endpoint ++ "/metadata")) .catalogUnavailable
  .require (response.isSuccess = true)
    (.catalogUnavailable
      ("issuer metadata endpoint returned HTTP " ++ X.statusText response.status))
  .ofExcept ((readBody X IssuerMetadata.fromJson response).mapError .catalogUnavailable)

/-- `validate_offer_credentials`: an offer has a credential, and the ids without a type
are in the issuer's catalog. -/
def validateOfferCredentials (issuerDid : String) (credentials : List CredentialObject) :
    HubProgram X ValidationError Unit := do
  .require (credentials ≠ []) .emptyCredentials
  if sparseIds credentials = [] then return ()
  else do
    let metadata ← fetchCatalog hub issuerDid
    .ofExcept (checkKnownIds (metadata.catalog.map (fun c => c.id)) (sparseIds credentials))

/-- The part of `credential_offer` after the caller is trusted. -/
def acceptOffer (message : CredentialOfferMessage) : HubProgram X Response Unit := do
  (validateOfferCredentials hub message.issuer message.credentials).mapError
    ValidationError.response
  let _ ← addOffer message.accepted
  return ()

/-- `credential_offer`. -/
def credentialOffer (authorizationHeader : Option String) (message : CredentialOfferMessage) :
    HubProgram X Response Unit := do
  let claims ← (verifyBearerToken hub authorizationHeader).mapError AuthError.response
  let caller := (claims.getStr "iss").getD ""
  (checkIssuer hub caller message.offeredTypes).mapError AuthError.response
  acceptOffer hub message

/-! ## What a lookup does -/

/-- The catalog of an issuer was fetched: at the endpoint its document names. -/
def CatalogFetched (hub : Hub X) (issuerDid : String) (events : List (HubEvent X))
    (metadata : IssuerMetadata) : Prop :=
  ∃ url doc endpoint, X.didWebToUrl issuerDid hub.insecureHttp = .ok url ∧
    documentFetched X url (.ok doc) ∈ events ∧
      X.serviceEndpointUrl doc "IssuerService" = .ok endpoint ∧
        Fetched X IssuerMetadata.fromJson (endpoint ++ "/metadata") events metadata

/-- What may be asked for in the name of an issuer: its document, its catalog, and to
record an offer of its own. The requests go to allowed hosts. -/
def InNameOf (hub : Hub X) (issuerDid : String) (past : List (HubEvent X)) (op : HubOp X) : Prop :=
  match op with
  | .fetchDocument url =>
      X.didWebToUrl issuerDid hub.insecureHttp = .ok url ∧ hub.outbound.checkUrl X url = .ok ()
  | .send request => hub.outbound.checkUrl X request.url = .ok () ∧
      ∃ url doc endpoint, X.didWebToUrl issuerDid hub.insecureHttp = .ok url ∧
        documentFetched X url (.ok doc) ∈ past ∧
          X.serviceEndpointUrl doc "IssuerService" = .ok endpoint ∧
            request = .ofUrl (endpoint ++ "/metadata")
  | .addOffer offer => offer.issuer = issuerDid
  | _ => False

variable {hub}

theorem CatalogFetched.mono {issuerDid : String} {events events' : List (HubEvent X)}
    {metadata : IssuerMetadata} (h : CatalogFetched hub issuerDid events metadata)
    (hsub : events ⊆ events') : CatalogFetched hub issuerDid events' metadata := by
  obtain ⟨url, doc, endpoint, hurl, hdoc, hendpoint, hread⟩ := h
  exact ⟨url, doc, endpoint, hurl, hsub hdoc, hendpoint, hread.mono hsub⟩

theorem checkKnownIds_eq_ok {known ids : List String} :
    checkKnownIds known ids = .ok () ↔ ∀ id ∈ ids, id ∈ known := by
  induction ids with
  | nil => simp [checkKnownIds]
  | cons id ids ih =>
      rw [checkKnownIds, List.forall_mem_cons, ← ih]
      by_cases hknown : id ∈ known
      · simp [hknown]
      · simp [hknown]

theorem fetchCatalog_wp {issuerDid : String} {past : List (HubEvent X)} :
    (fetchCatalog hub issuerDid).wp (InNameOf hub issuerDid)
      (fun later metadata => CatalogFetched hub issuerDid later metadata) past := by
  simp only [fetchCatalog, Program.wp_bind, Program.wp_ofExcept, Program.wp_mapError,
    Program.wp_require, wp_resolveDid, wp_send, Except.mapError_eq_ok]
  rintro _ hdid url hurl
  refine ⟨⟨hurl, OutboundPolicy.checkUrl_of_checkDid hdid hurl⟩, fun doc endpoint hendpoint => ?_⟩
  intro _ hallowed
  have hfetched : documentFetched X url (.ok doc) ∈ past ++ [documentFetched X url (.ok doc)] :=
    List.mem_append_right _ List.mem_cons_self
  refine ⟨⟨hallowed, url, doc, endpoint, hurl, hfetched, hendpoint, rfl⟩, ?_⟩
  intro response _ metadata hread
  exact ⟨url, doc, endpoint, hurl, List.mem_append_left _ hfetched, hendpoint, response,
    List.mem_append_right _ List.mem_cons_self, hread⟩

/-- The ids without a type are those of the catalog of the issuer the offer names. -/
def IdsKnown (hub : Hub X) (issuerDid : String) (credentials : List CredentialObject)
    (events : List (HubEvent X)) : Prop :=
  sparseIds credentials = [] ∨ ∃ metadata, CatalogFetched hub issuerDid events metadata ∧
    ∀ id ∈ sparseIds credentials, id ∈ metadata.catalog.map (fun c => c.id)

theorem IdsKnown.mono {issuerDid : String} {credentials : List CredentialObject}
    {events events' : List (HubEvent X)} (h : IdsKnown hub issuerDid credentials events)
    (hsub : events ⊆ events') : IdsKnown hub issuerDid credentials events' := by
  rcases h with hfull | ⟨metadata, hfetched, hknown⟩
  · exact Or.inl hfull
  · exact Or.inr ⟨metadata, hfetched.mono hsub, hknown⟩

/-- **What an offer's credentials are checked for.** -/
theorem validateOfferCredentials_wp {issuerDid : String} {credentials : List CredentialObject}
    {past : List (HubEvent X)} :
    (validateOfferCredentials hub issuerDid credentials).wp (InNameOf hub issuerDid)
      (fun later _ => credentials ≠ [] ∧ IdsKnown hub issuerDid credentials later) past := by
  unfold validateOfferCredentials
  rw [Program.wp_bind, Program.wp_require]
  intro hcredentials
  split
  · rename_i hfull
    rw [Program.wp_pure]
    exact ⟨hcredentials, Or.inl hfull⟩
  · rw [Program.wp_bind]
    refine Program.wp_post fetchCatalog_wp (fun later metadata hfetched => ?_)
    rw [Program.wp_ofExcept]
    intro _ hknown
    exact ⟨hcredentials, Or.inr ⟨metadata, hfetched, checkKnownIds_eq_ok.mp hknown⟩⟩

theorem acceptOffer_wp {message : CredentialOfferMessage} {past : List (HubEvent X)} :
    (acceptOffer hub message).wp (InNameOf hub message.issuer)
      (fun later _ => IdsKnown hub message.issuer message.credentials later) past := by
  unfold acceptOffer
  rw [Program.wp_bind, Program.wp_mapError]
  refine Program.wp_post validateOfferCredentials_wp ?_
  rintro later _ ⟨-, hknown⟩
  rw [Program.wp_bind, wp_addOffer]
  refine ⟨rfl, fun id => ?_⟩
  rw [Program.wp_pure]
  exact hknown.mono (List.subset_append_left _ _)

/-! ## The parts of a call -/

/-- The request authenticates its caller as `iss`. -/
def AuthenticatedAs (hub : Hub X) (authorizationHeader : Option String)
    (events : List (HubEvent X)) (iss : String) : Prop :=
  ∃ claims, (verifyBearerToken hub authorizationHeader).Returns events claims ∧
    claims.getStr "iss" = some iss

theorem authenticatedAs_of_returns {authorizationHeader : Option String}
    {events : List (HubEvent X)} {claims : Value}
    (h : (verifyBearerToken hub authorizationHeader).Returns events claims) :
    AuthenticatedAs hub authorizationHeader events ((claims.getStr "iss").getD "") := by
  obtain ⟨checks, token, header, doc, -, hchecked⟩ := tokenChecked_of_accepted h
  refine ⟨claims, h, ?_⟩
  rw [← hchecked.own, Option.getD_some]

/-- A call is still verifying the token, or still asking whether to trust the caller, or
has let it through and deals with the offer. -/
theorem credentialOffer_evolves {authorizationHeader : Option String}
    {message : CredentialOfferMessage} {events : List (HubEvent X)} {q : HubProgram X Response Unit}
    (h : (credentialOffer hub authorizationHeader message).Evolves events q) :
    (∃ p, (verifyBearerToken hub authorizationHeader).Evolves events p) ∨
      (∃ auth trust iss p, events = auth ++ trust ∧
        AuthenticatedAs hub authorizationHeader auth iss ∧
          (checkIssuer hub iss message.offeredTypes).Evolves trust p) ∨
        ∃ auth trust rest iss, events = auth ++ trust ++ rest ∧
          AuthenticatedAs hub authorizationHeader auth iss ∧
            (checkIssuer hub iss message.offeredTypes).Returns trust () ∧
              (acceptOffer hub message).Evolves rest q := by
  rcases Program.evolves_bind h with ⟨p, hp, -⟩ | ⟨auth, claims, after, rfl, hauth, hafter⟩
  · obtain ⟨p', hp', -⟩ := Program.evolves_mapError hp
    exact Or.inl ⟨p', hp'⟩
  · have hcaller := authenticatedAs_of_returns (Program.returns_mapError hauth)
    rcases Program.evolves_bind hafter with ⟨p, hp, -⟩ | ⟨trust, u, rest, rfl, htrust, hrest⟩
    · obtain ⟨p', hp', -⟩ := Program.evolves_mapError hp
      exact Or.inr (Or.inl ⟨auth, after, _, p', rfl, hcaller, hp'⟩)
    · exact Or.inr (Or.inr ⟨auth, trust, rest, _, (List.append_assoc _ _ _).symm, hcaller,
        Program.returns_mapError htrust, hrest⟩)

/-- Every operation but recording an offer. -/
def RecordsNoOffer (_ : List (HubEvent X)) (op : HubOp X) : Prop :=
  ∀ offer, op ≠ .addOffer offer

theorem not_recorded {ε α : Type} {p q : HubProgram X ε α}
    {post : List (HubEvent X) → α → Prop} {events : List (HubEvent X)} {offer : NewAcceptedOffer}
    {id : String} (hwp : p.wp RecordsNoOffer post []) (h : p.Evolves events q) :
    offerRecorded X offer id ∉ events := by
  intro hmem
  obtain ⟨before, after, rfl⟩ := List.append_of_mem hmem
  exact Program.wp_asked hwp h offer rfl

theorem verifyBearerToken_records {authorizationHeader : Option String} :
    (verifyBearerToken hub authorizationHeader).wp RecordsNoOffer (fun _ _ => True) [] := by
  refine verifyBearerToken_asks (fun past op hasked => ?_) (fun _ _ => nofun)
  rintro offer rfl
  exact hasked

theorem checkIssuer_records {iss : String} {types : List String} :
    (checkIssuer hub iss types).wp RecordsNoOffer (fun _ _ => True) [] := by
  have hsend : ∀ past url, RecordsNoOffer (X := X) past (.send (.ofUrl url)) := fun _ _ => nofun
  refine Program.wp_mono (checkIssuer_wp hsend) ?_ (fun _ _ _ => trivial)
  rintro past op hconfined offer rfl
  exact hconfined offer rfl

/-! ## Calls side by side -/

/-- The offer names the caller: its issuer is the `iss` of the token of the request. -/
def NamesCaller (X : HubExternal) (authorizationHeader : Option String)
    (message : CredentialOfferMessage) : Prop :=
  ∀ token header payload iss, bearerOf authorizationHeader = .ok token →
    X.decodeJwsUnverified token = .ok (header, payload) → payload.getStr "iss" = some iss →
      message.issuer = iss

/-- What a call has done so far, and that what it did once its caller was trusted, it
did in the caller's name. -/
inductive InOwnName (hub : Hub X) (authorizationHeader : Option String) (types : List String) :
    List (HubEvent X) → Prop
  | verifying {events : List (HubEvent X)} {p : HubProgram X AuthError Value} :
      (verifyBearerToken hub authorizationHeader).Evolves events p →
        InOwnName hub authorizationHeader types events
  | trusting {auth trust : List (HubEvent X)} {iss : String} {p : HubProgram X AuthError Unit} :
      AuthenticatedAs hub authorizationHeader auth iss →
        (checkIssuer hub iss types).Evolves trust p →
          InOwnName hub authorizationHeader types (auth ++ trust)
  | accepting {auth trust rest : List (HubEvent X)} {iss : String} :
      AuthenticatedAs hub authorizationHeader auth iss →
        (checkIssuer hub iss types).Returns trust () →
          (∀ before op answer after, rest = before ++ ⟨op, answer⟩ :: after →
            InNameOf hub iss before op) →
              InOwnName hub authorizationHeader types (auth ++ trust ++ rest)

theorem AuthenticatedAs.iss {authorizationHeader : Option String} {events : List (HubEvent X)}
    {iss : String} (h : AuthenticatedAs hub authorizationHeader events iss)
    {message : CredentialOfferMessage} (hown : NamesCaller X authorizationHeader message) :
    message.issuer = iss := by
  obtain ⟨claims, hreturns, hiss⟩ := h
  obtain ⟨checks, token, header, doc, -, hchecked⟩ := tokenChecked_of_accepted hreturns
  exact hown token header claims iss hchecked.presented hchecked.decoded hiss

theorem acceptOffer_inNameOf {message : CredentialOfferMessage} {rest : List (HubEvent X)}
    {q : HubProgram X Response Unit} (h : (acceptOffer hub message).Evolves rest q)
    {before after : List (HubEvent X)} {op : HubOp X} {answer : HubOp.Answer X op}
    (hrest : rest = before ++ ⟨op, answer⟩ :: after) : InNameOf hub message.issuer before op := by
  subst hrest
  have hasked := Program.wp_asked (@acceptOffer_wp X hub message []) h
  rwa [List.nil_append] at hasked

/-- One call: whatever it does in somebody's name, it does in its caller's. -/
theorem inOwnName_of_evolves {authorizationHeader : Option String}
    {message : CredentialOfferMessage} {events : List (HubEvent X)} {q : HubProgram X Response Unit}
    (h : (credentialOffer hub authorizationHeader message).Evolves events q)
    (hown : NamesCaller X authorizationHeader message) :
    InOwnName hub authorizationHeader message.offeredTypes events := by
  rcases credentialOffer_evolves h with ⟨p, hp⟩ | ⟨auth, trust, iss, p, rfl, hauth, htrust⟩ |
    ⟨auth, trust, rest, iss, rfl, hauth, htrust, hrest⟩
  · exact .verifying hp
  · exact .trusting hauth htrust
  · refine .accepting hauth htrust (fun before op answer after hsplit => ?_)
    rw [← hauth.iss hown]
    exact acceptOffer_inNameOf hrest hsplit

/-- An offer is recorded in the name of the trusted caller. -/
theorem InOwnName.recorded {authorizationHeader : Option String} {types : List String}
    {events : List (HubEvent X)} (h : InOwnName hub authorizationHeader types events)
    {offer : NewAcceptedOffer} {id : String} (hmem : offerRecorded X offer id ∈ events) :
    ∃ auth trust, auth ++ trust <+: events ∧
      AuthenticatedAs hub authorizationHeader auth offer.issuer ∧
        (checkIssuer hub offer.issuer types).Returns trust () := by
  cases h with
  | verifying hp => exact absurd hmem (not_recorded verifyBearerToken_records hp)
  | @trusting auth trust iss p hauth hp =>
      obtain ⟨claims, hreturns, -⟩ := hauth
      rcases List.mem_append.mp hmem with hmem | hmem
      · exact absurd hmem (not_recorded verifyBearerToken_records hreturns)
      · exact absurd hmem (not_recorded checkIssuer_records hp)
  | @accepting auth trust rest iss hauth htrust hnamed =>
      have hrest : offerRecorded X offer id ∈ rest := by
        obtain ⟨claims, hreturns, -⟩ := hauth
        rcases List.mem_append.mp hmem with hmem | hmem
        · rcases List.mem_append.mp hmem with hmem | hmem
          · exact absurd hmem (not_recorded verifyBearerToken_records hreturns)
          · exact absurd hmem (not_recorded checkIssuer_records htrust)
        · exact hmem
      obtain ⟨before, after, hsplit⟩ := List.append_of_mem hrest
      have hissuer : offer.issuer = iss := hnamed before (.addOffer offer) id after hsplit
      subst hissuer
      exact ⟨auth, trust, List.prefix_append _ _, hauth, htrust⟩

/-- An offer the store holds was there before, or was recorded since. -/
theorem mem_offers_of_replays {s s' : HubState X} {events : List (HubEvent X)}
    (h : (hubEnvironment X).Replays s events s') {kept : AcceptedOffer}
    (hmem : kept ∈ s'.offers) :
    kept ∈ s.offers ∨ offerRecorded X kept.offer kept.id ∈ events := by
  have hstep : ∀ s e s', (hubEnvironment X).respond s e s' → kept ∈ s'.offers →
      kept ∈ s.offers ∨ e = offerRecorded X kept.offer kept.id := by
    intro s e s' he hmid
    by_cases hrecorded : ∃ offer id, e = offerRecorded X offer id
    · obtain ⟨offer, id, rfl⟩ := hrecorded
      have hoffers : s'.offers = s.offers.record { id := id, offer := offer } := by
        rw [show s' = { s with offers := s.offers.record { id := id, offer := offer } } from he]
      rw [hoffers] at hmid
      rcases OfferStore.mem_record hmid with hold | rfl
      · exact Or.inl hold
      · exact Or.inr rfl
    · rw [(framed_of_respond he).offers (fun offer id heq => hrecorded ⟨offer, id, heq⟩)] at hmid
      exact Or.inl hmid
  rcases h.origin (P := fun s => kept ∈ s.offers) hstep hmem with hold | ⟨e, he, rfl⟩
  · exact Or.inl hold
  · exact Or.inr he

variable {ι : Type} [DecidableEq ι] {start : HubState X} {headers : ι → Option String}
  {messages : ι → CredentialOfferMessage}

/-- Interleaved calls, each with its own `Authorization` header and message. -/
abbrev OfferRun (hub : Hub X) (start : HubState X) (headers : ι → Option String)
    (messages : ι → CredentialOfferMessage) :=
  Interleaving (hubEnvironment X) start (fun i => credentialOffer hub (headers i) (messages i))

/-- **Whom accepted offers come from.** While every offer names its caller, every offer
the store holds was recorded by a call that authenticated the party it names and was let
through as that party; and no call does anything in another's name. -/
theorem offers_name_their_caller (run : OfferRun hub start headers messages)
    (hstart : start.offers = []) (hown : ∀ i, NamesCaller X (headers i) (messages i)) :
    (∀ i, InOwnName hub (headers i) (messages i).offeredTypes (eventsOf i run.log)) ∧
      ∀ kept ∈ run.final.offers, ∃ i auth trust, auth ++ trust <+: eventsOf i run.log ∧
        AuthenticatedAs hub (headers i) auth kept.offer.issuer ∧
          (checkIssuer hub kept.offer.issuer (messages i).offeredTypes).Returns trust () ∧
            (i, offerRecorded X kept.offer kept.id) ∈ run.log := by
  have hcalls : ∀ i, InOwnName hub (headers i) (messages i).offeredTypes (eventsOf i run.log) :=
    fun i => inOwnName_of_evolves (run.evolves i) (hown i)
  refine ⟨hcalls, fun kept hkept => ?_⟩
  rcases mem_offers_of_replays run.replays hkept with hold | hrecorded
  · rw [hstart] at hold
    cases hold
  · obtain ⟨⟨i, e⟩, hmem, rfl⟩ := List.mem_map.mp hrecorded
    obtain ⟨auth, trust, hparts, hauth, htrust⟩ := (hcalls i).recorded (mem_eventsOf.mpr hmem)
    exact ⟨i, auth, trust, hparts, hauth, htrust, hmem⟩

/-! ### An offer in another's name

The caller is trusted, and names a victim as the issuer of its offer, with an id the
victim's catalog knows. -/

def offerHub (registry : Option TrustedIssuersRegistry) : Hub hubReference :=
  { sampleHub with
    outbound := { allowedHosts := ["caller", "victim"] }
    trustedIssuerDids := [sampleCaller]
    trustedIssuersRegistry := registry }

/-- The document of an issuer at `endpoint`. -/
def issuerServiceDocument (endpoint : String) : hubReference.DidDocument :=
  { keys := [("key-1", "caller")]
    capabilityInvocation := ["key-1"]
    services := [("IssuerService", endpoint)] : ReferenceDocument }

def offerAuthEvents : List (HubEvent hubReference) :=
  [documentFetched hubReference "https://caller/.well-known/did.json"
    (.ok (issuerServiceDocument "https://caller")), clockRead hubReference 0]

/-- The caller's token, for the sample hub with any registry. -/
theorem offer_authenticated (registry : Option TrustedIssuersRegistry) :
    (verifyBearerToken (offerHub registry) (some (sampleHeader none))).Returns offerAuthEvents
      (samplePayload none) := by
  have hdecoded : hubReference.decodeJwsUnverified (sampleToken none) =
      .ok (Reference.header "key-1", samplePayload none) :=
    reference_decode_sign (samplePayload none) "key-1" "caller"
  have hsignature : hubReference.verifyJwsSignature (sampleToken none) "caller" = .ok () :=
    reference_verify_sign (samplePayload none) "key-1" "caller"
  have hallowed : (offerHub registry).outbound.checkDid hubReference sampleCaller false = .ok () :=
    rfl
  have hchecks : (checkBearerToken (offerHub registry) (some (sampleHeader none))).Returns
      offerAuthEvents (samplePayload none) :=
    checkBearerToken_returns (sample_presented none) hdecoded rfl (Reference.header_kid _) hallowed
      rfl rfl hsignature (List.mem_singleton.mpr rfl) rfl rfl rfl (by decide) rfl rfl
  exact verifyBearerToken_returns hchecks

/-- A catalog with one credential. -/
def catalogDocument (issuer id credentialType : String) : Value :=
  .object
    [("issuer", .string issuer),
     ("credentialsSupported", .array
       [.object [("id", .string id), ("credentialType", .string credentialType)]])]

def catalogMetadata (issuer id credentialType : String) : IssuerMetadata where
  context := [dcpContext]
  messageType := ""
  issuer := issuer
  credentialsSupported := some [{ id := id, credentialType := some credentialType }]

theorem catalogDocument_read (issuer id credentialType : String) :
    IssuerMetadata.fromJson (catalogDocument issuer id credentialType) =
      some (catalogMetadata issuer id credentialType) := rfl

/-- An offer of one credential, by its id. -/
def idOffer (issuer : String) : CredentialOfferMessage where
  context := [dcpContext]
  messageType := "CredentialOfferMessage"
  issuer := issuer
  credentials := [{ id := "credential-1", credentialType := none }]

/-- The lookup for such an offer, at a party that is its own issuer. -/
def lookupEvents (name credentialType : String) : List (HubEvent hubReference) :=
  [documentFetched hubReference ("https://" ++ name ++ "/.well-known/did.json")
      (.ok (issuerServiceDocument ("https://" ++ name))),
    answered hubReference (.ofUrl ("https://" ++ name ++ "/metadata"))
      (Wallet.documentResponse
        (catalogDocument ("did:web:" ++ name) "credential-1" credentialType))]

def acceptEvents (name credentialType : String) : List (HubEvent hubReference) :=
  lookupEvents name credentialType ++
    [offerRecorded hubReference (idOffer ("did:web:" ++ name)).accepted "offer-1"]

theorem idOffer_accepted {registry : Option TrustedIssuersRegistry} {name credentialType : String}
    (hdid : (offerHub registry).outbound.checkDid hubReference ("did:web:" ++ name) false = .ok ())
    (hurl : hubReference.didWebToUrl ("did:web:" ++ name) false =
      .ok ("https://" ++ name ++ "/.well-known/did.json"))
    (hallowed : (offerHub registry).outbound.checkUrl hubReference
      ("https://" ++ name ++ "/metadata") = .ok ()) :
    (acceptOffer (offerHub registry) (idOffer ("did:web:" ++ name))).Returns
      (acceptEvents name credentialType) () := by
  have hread := Wallet.readBody_document
    (catalogDocument_read ("did:web:" ++ name) "credential-1" credentialType)
  have hcatalog : (fetchCatalog (offerHub registry) ("did:web:" ++ name)).Returns
      (lookupEvents name credentialType)
      (catalogMetadata ("did:web:" ++ name) "credential-1" credentialType) := by
    refine .after (.ofExcept (Except.mapError_eq_ok.mpr hdid)) ?_
    refine .afterEvent (.mapError (resolveDid_returns hurl _)) ?_
    refine .after (.ofExcept (Except.mapError_eq_ok.mpr rfl)) ?_
    refine .after (.ofExcept (Except.mapError_eq_ok.mpr hallowed)) ?_
    refine .afterEvent (Wallet.send_returns _) ?_
    exact .after (.require rfl) (.ofExcept (Except.mapError_eq_ok.mpr hread))
  have hvalid : (validateOfferCredentials (offerHub registry) ("did:web:" ++ name)
      (idOffer ("did:web:" ++ name)).credentials).Returns (lookupEvents name credentialType)
      () := by
    refine .after (.require nofun) ?_
    exact hcatalog.followed (Program.Returns.ofExcept rfl)
  exact hvalid.mapError.followed (.ask (.refl _))

def offerStart : HubState hubReference := sampleState (.empty maxSeenJti)

/-- The store with the one offer. -/
def offerEnd (name : String) : HubState hubReference :=
  { offerStart with
    offers := [{ id := "offer-1", offer := (idOffer ("did:web:" ++ name)).accepted }] }

theorem replays_idOffer (name credentialType : String) :
    (hubEnvironment hubReference).Replays offerStart
      (offerAuthEvents ++ acceptEvents name credentialType) (offerEnd name) := by
  have hrecorded := respond_offerRecorded offerStart (idOffer ("did:web:" ++ name)).accepted "offer-1"
  rw [show offerStart.offers = [] from rfl, OfferStore.record_nil] at hrecorded
  have hauth : (hubEnvironment hubReference).Replays offerStart offerAuthEvents offerStart :=
    .cons (respond_documentFetched _ _ _)
      (.cons (respond_clockRead offerStart (Nat.zero_le 0)) (.nil _))
  have hlookup : (hubEnvironment hubReference).Replays offerStart (lookupEvents name credentialType)
      offerStart :=
    .cons (respond_documentFetched _ _ _) (.cons rfl (.nil _))
  have hend : (hubEnvironment hubReference).Replays offerStart
      [offerRecorded hubReference (idOffer ("did:web:" ++ name)).accepted "offer-1"]
      (offerEnd name) := .cons hrecorded (.nil _)
  unfold acceptEvents
  refine hauth.append ?_
  exact hlookup.append hend

/-- The offer as a call on its own; the caller is on the static list. -/
theorem idOffer_returns {name credentialType : String}
    (haccepted : (acceptOffer (offerHub none) (idOffer ("did:web:" ++ name))).Returns
      (acceptEvents name credentialType) ()) :
    (credentialOffer (offerHub none) (some (sampleHeader none))
      (idOffer ("did:web:" ++ name))).Returns
        (offerAuthEvents ++ acceptEvents name credentialType) () := by
  have htrusted : (checkIssuer (offerHub none) sampleCaller []).Returns [] () := .refl _
  exact (offer_authenticated none).mapError.followed (htrusted.mapError.after haccepted)

abbrev idOfferRun (name : String) :=
  OfferRun (offerHub none) offerStart (fun _ : Unit => some (sampleHeader none))
    (fun _ => idOffer ("did:web:" ++ name))

/-- The sample token is one of the sample caller. -/
theorem sample_iss {token iss : String} {header payload : Value}
    (hpresented : bearerOf (some (sampleHeader none)) = .ok token)
    (hdecoded : hubReference.decodeJwsUnverified token = .ok (header, payload))
    (hiss : payload.getStr "iss" = some iss) : sampleCaller = iss := by
  rw [sample_presented] at hpresented
  have htoken : sampleToken none = token := Except.ok.inj hpresented
  have hsigned : hubReference.decodeJwsUnverified (sampleToken none) =
      .ok (Reference.header "key-1", samplePayload none) :=
    reference_decode_sign (samplePayload none) "key-1" "caller"
  rw [htoken, hdecoded] at hsigned
  cases hsigned
  exact Option.some.inj hiss

theorem offer_caller {registry : Option TrustedIssuersRegistry}
    {auth : List (HubEvent hubReference)} {iss : String}
    (h : AuthenticatedAs (offerHub registry) (some (sampleHeader none)) auth iss) :
    iss = sampleCaller := by
  obtain ⟨claims, hreturns, hiss⟩ := h
  obtain ⟨checks, token, header, doc, -, hchecked⟩ := tokenChecked_of_accepted hreturns
  exact (sample_iss hchecked.presented hchecked.decoded hiss).symm

/-- A caller that authenticates as itself gets an offer recorded, and a catalog looked up,
in the name of another. -/
theorem offer_in_anothers_name :
    ∃ run : idOfferRun "victim",
      (∀ auth iss, AuthenticatedAs (offerHub none) (some (sampleHeader none)) auth iss →
        iss = sampleCaller) ∧
      (∃ kept ∈ run.final.offers, kept.offer.issuer = "did:web:victim") ∧
        ∃ doc, ((), documentFetched hubReference "https://victim/.well-known/did.json" (.ok doc)) ∈
          run.log := by
  have haccepted := @idOffer_accepted none "victim" "MembershipCredential" rfl rfl rfl
  refine ⟨.alone (idOffer_returns haccepted) (replays_idOffer _ _), fun _ _ => offer_caller,
    ⟨_, List.mem_cons_self, rfl⟩, issuerServiceDocument "https://victim", ?_⟩
  refine List.mem_map.mpr ⟨_, ?_, rfl⟩
  exact List.mem_append_right _ List.mem_cons_self

theorem offers_name_their_caller_own :
    ∃ run : idOfferRun "caller",
      (∀ i, InOwnName (offerHub none) (some (sampleHeader none))
        (idOffer "did:web:caller").offeredTypes (eventsOf i run.log)) ∧
      ∀ kept ∈ run.final.offers, ∃ i auth trust, auth ++ trust <+: eventsOf i run.log ∧
        AuthenticatedAs (offerHub none) (some (sampleHeader none)) auth kept.offer.issuer ∧
          (checkIssuer (offerHub none) kept.offer.issuer
            (idOffer "did:web:caller").offeredTypes).Returns trust () ∧
              (i, offerRecorded hubReference kept.offer kept.id) ∈ run.log := by
  have haccepted := @idOffer_accepted none "caller" "MembershipCredential" rfl rfl rfl
  have hnames : NamesCaller hubReference (some (sampleHeader none)) (idOffer "did:web:caller") :=
    fun _ _ _ _ hpresented hdecoded hiss => sample_iss hpresented hdecoded hiss
  exact ⟨.alone (idOffer_returns haccepted) (replays_idOffer _ _),
    offers_name_their_caller (.alone (idOffer_returns haccepted) (replays_idOffer _ _)) rfl
      (fun _ => hnames)⟩

/-! ## Offers under a trusted issuers registry -/

/-- A snapshot trusts the caller, at a reading of the clock, for each type the offer
gives; where it gives none, for one the caller is listed for. -/
structure TrustedForOffer (X : HubExternal) (list : X.TrustList) (reading : ℕ) (iss : String)
    (credentials : List CredentialObject) : Prop where
  given : ∀ c ∈ credentials, ∀ t, c.credentialType = some t →
    (X.checkTrust list iss t reading).trusted = true
  listed : (∀ c ∈ credentials, c.credentialType = none) →
    ∃ types t, X.listedTypes list iss = some types ∧ t ∈ types ∧
      (X.checkTrust list iss t reading).trusted = true

theorem mem_offeredTypes {message : CredentialOfferMessage} {t : String} :
    t ∈ message.offeredTypes ↔ ∃ c ∈ message.credentials, c.credentialType = some t := by
  rw [CredentialOfferMessage.offeredTypes, List.mem_filterMap]

theorem offeredTypes_eq_nil {message : CredentialOfferMessage} :
    message.offeredTypes = [] ↔ ∀ c ∈ message.credentials, c.credentialType = none := by
  rw [CredentialOfferMessage.offeredTypes, List.filterMap_eq_nil_iff]

/-- What the registry has been asked about the types of an offer. -/
theorem trustedForOffer_of_checkListed {list : X.TrustList} {iss : String} {reading : ℕ}
    {message : CredentialOfferMessage}
    (h : checkListed X list iss reading message.offeredTypes = .ok ()) :
    TrustedForOffer X list reading iss message.credentials := by
  unfold checkListed at h
  split_ifs at h with hnone hsome
  · have hall := offeredTypes_eq_nil.mp hnone
    refine ⟨fun c hc t ht => ?_, fun _ => ?_⟩
    · rw [hall c hc] at ht
      cases ht
    · obtain ⟨t, ht, htrusted⟩ := List.any_eq_true.mp hsome
      cases hlisted : X.listedTypes list iss with
      | none => simp [hlisted] at ht
      | some types => exact ⟨types, t, rfl, by simpa [hlisted] using ht, htrusted⟩
  · refine ⟨fun c hc t ht => ?_, fun hall => absurd (offeredTypes_eq_nil.mpr hall) hnone⟩
    exact checkTypes_eq_ok.mp h t (mem_offeredTypes.mpr ⟨c, hc, ht⟩)

/-- **What the registry's trust covers.** With a registry, the caller of an accepted offer
is trusted by one snapshot, at one reading of the clock, for every type the offer gives,
and where it gives none for a type the caller is listed for; of the other entries only the
ids are looked up, in the catalog of the issuer the offer names. -/
theorem accepted_offer_trusted {source : TrustedIssuersRegistry}
    (hregistry : hub.trustedIssuersRegistry = some source) {authorizationHeader : Option String}
    {message : CredentialOfferMessage} {events : List (HubEvent X)}
    (h : (credentialOffer hub authorizationHeader message).Returns events ()) :
    ∃ auth iss list reading, auth <+: events ∧ AuthenticatedAs hub authorizationHeader auth iss ∧
      SnapshotSeen hub source events list ∧ clockRead X reading ∈ events ∧
        TrustedForOffer X list reading iss message.credentials ∧
          IdsKnown hub message.issuer message.credentials events := by
  obtain ⟨auth, claims, later, rfl, hauth, hlater⟩ := Program.returns_bind h
  have hcaller := authenticatedAs_of_returns (Program.returns_mapError hauth)
  obtain ⟨trust, u, rest, rfl, htrust, hrest⟩ := Program.returns_bind hlater
  have hasks := @checkIssuer_registry_wp X hub (fun _ _ => True) (fun _ _ => trivial) source
    hregistry ((claims.getStr "iss").getD "") message.offeredTypes []
  obtain ⟨list, reading, hseen, hread, hlisted⟩ :=
    Program.wp_returns hasks (Program.returns_mapError htrust)
  have hknown := Program.wp_returns (@acceptOffer_wp X hub message []) hrest
  rw [List.nil_append] at hseen hread hknown
  have hsub : trust ⊆ auth ++ (trust ++ rest) := by simp
  refine ⟨auth, _, list, reading, List.prefix_append _ _, hcaller, hseen.mono hsub, hsub hread,
    trustedForOffer_of_checkListed hlisted, hknown.mono ?_⟩
  simp

/-- The type of an entry: the one it gives, or else the one its id has in the catalog of
the issuer the offer names. -/
def EntryType (hub : Hub X) (message : CredentialOfferMessage) (events : List (HubEvent X))
    (c : CredentialObject) (t : String) : Prop :=
  c.credentialType = some t ∨
    (c.credentialType = none ∧ ∃ metadata, CatalogFetched hub message.issuer events metadata ∧
      ∃ listed ∈ metadata.catalog, listed.id = c.id ∧ listed.credentialType = some t)

/-! ### An offer of a type its caller is not trusted for -/

def sampleRegistry : TrustedIssuersRegistry where
  baseUrl := "https://registry"
  did := "did:web:registry"

/-- The caller is trusted for one type. -/
def sampleSnapshot : CachedTrustList hubReference where
  list :=
    { iat := 0
      exp := 400
      issuers := .object [(sampleCaller, .array [.string "MembershipCredential"])] :
      ReferenceTrustList }
  fetchedAt := 0

/-- The registry is asked for a fresh snapshot's answer. -/
def registryTrustEvents : List (HubEvent hubReference) :=
  [trustCacheRead hubReference (some sampleSnapshot), clockRead hubReference 0,
    clockRead hubReference 0]

def registryOfferEvents (credentialType : String) : List (HubEvent hubReference) :=
  offerAuthEvents ++ (registryTrustEvents ++ acceptEvents "caller" credentialType)

theorem registry_returns (credentialType : String) :
    (credentialOffer (offerHub (some sampleRegistry)) (some (sampleHeader none))
      (idOffer "did:web:caller")).Returns (registryOfferEvents credentialType) () := by
  have htrusted : (checkIssuer (offerHub (some sampleRegistry)) sampleCaller []).Returns
      registryTrustEvents () := .ask (.ask (.ask (.refl _)))
  have haccepted := @idOffer_accepted (some sampleRegistry) "caller" credentialType rfl rfl rfl
  exact (offer_authenticated _).mapError.followed (htrusted.mapError.followed haccepted)

/-- Where a document was fetched. -/
def documentUrl : HubEvent X → Option String
  | ⟨HubOp.fetchDocument url, _⟩ => some url
  | _ => none

/-- What was read from the cache of snapshots. -/
def snapshotRead : HubEvent X → Option (Option (CachedTrustList X))
  | ⟨HubOp.readTrustCache, cached⟩ => some cached
  | _ => none

theorem sampleSnapshot_seen {source : TrustedIssuersRegistry} {list : hubReference.TrustList}
    (hsource : source = sampleRegistry) {credentialType : String}
    (h : SnapshotSeen (offerHub (some sampleRegistry)) source (registryOfferEvents credentialType)
      list) : list = sampleSnapshot.list := by
  subst hsource
  rcases h with ⟨cached, hread, rfl⟩ | ⟨token, url, doc, kid, key, now, hurl, hfetched, -⟩
  · have hmem : some (some cached) ∈ (registryOfferEvents credentialType).map snapshotRead :=
      List.mem_map.mpr ⟨_, hread, rfl⟩
    have hreads : (registryOfferEvents credentialType).map snapshotRead =
        [none, none, some (some sampleSnapshot), none, none, none, none, none] := rfl
    rw [hreads] at hmem
    simp only [List.mem_cons, Option.some.injEq, reduceCtorEq, false_or, List.not_mem_nil,
      or_false] at hmem
    rw [hmem]
  · -- the registry's document is not among those that were fetched
    have hmem : some url ∈ (registryOfferEvents credentialType).map documentUrl :=
      List.mem_map.mpr ⟨_, hfetched, rfl⟩
    have hurls : (registryOfferEvents credentialType).map documentUrl =
        [some "https://caller/.well-known/did.json", none, none, none, none,
          some "https://caller/.well-known/did.json", none, none] := rfl
    have hregistry : url = "https://registry/.well-known/did.json" := (Except.ok.inj hurl).symm
    rw [hurls, hregistry] at hmem
    simp at hmem

/-- An offer by id is accepted though its caller is not trusted for the type the id has in
the caller's own catalog. -/
theorem id_only_type_not_covered :
    ∃ events auth c, (credentialOffer (offerHub (some sampleRegistry)) (some (sampleHeader none))
        (idOffer "did:web:caller")).Returns events () ∧
      auth <+: events ∧ AuthenticatedAs (offerHub (some sampleRegistry)) (some (sampleHeader none))
        auth sampleCaller ∧
          c ∈ (idOffer "did:web:caller").credentials ∧
            EntryType (offerHub (some sampleRegistry)) (idOffer "did:web:caller") events c
              "PIDCredential" ∧
              ¬ TrustedFor (offerHub (some sampleRegistry))
                (fun source list => SnapshotSeen (offerHub (some sampleRegistry)) source events list)
                events sampleCaller "PIDCredential" := by
  refine ⟨registryOfferEvents "PIDCredential", offerAuthEvents,
    { id := "credential-1", credentialType := none }, registry_returns _, List.prefix_append _ _,
    ⟨samplePayload none, offer_authenticated _, rfl⟩, List.mem_cons_self, ?_, ?_⟩
  · have hfetched : CatalogFetched (offerHub (some sampleRegistry)) "did:web:caller"
        (registryOfferEvents "PIDCredential")
        (catalogMetadata "did:web:caller" "credential-1" "PIDCredential") := by
      refine ⟨"https://caller/.well-known/did.json", issuerServiceDocument "https://caller",
        "https://caller", rfl, List.mem_cons_self, rfl,
        Wallet.documentResponse
          (catalogDocument "did:web:caller" "credential-1" "PIDCredential"), ?_,
        Wallet.readBody_document (catalogDocument_read _ _ _)⟩
      have hlookup : answered hubReference (.ofUrl "https://caller/metadata")
          (Wallet.documentResponse
            (catalogDocument "did:web:caller" "credential-1" "PIDCredential")) ∈
            acceptEvents "caller" "PIDCredential" :=
        List.mem_append_left _ (List.mem_cons_of_mem _ List.mem_cons_self)
      exact List.mem_append_right _ (List.mem_append_right _ hlookup)
    exact Or.inr ⟨rfl, _, hfetched, { id := "credential-1", credentialType := some "PIDCredential" },
      List.mem_cons_self, rfl, rfl⟩
  · intro htrusted
    have hregistry : (offerHub (some sampleRegistry)).trustedIssuersRegistry =
        some sampleRegistry := rfl
    obtain ⟨list, reading, hseen, -, hdecision⟩ := (trustedFor_registry hregistry).mp htrusted
    have hnever : (hubReference.checkTrust sampleSnapshot.list sampleCaller "PIDCredential"
        reading).trusted = false := rfl
    rw [sampleSnapshot_seen rfl hseen, hnever] at hdecision
    cases hdecision

theorem accepted_offer_trusted_id :
    ∃ auth iss list reading, auth <+: registryOfferEvents "MembershipCredential" ∧
      AuthenticatedAs (offerHub (some sampleRegistry)) (some (sampleHeader none)) auth iss ∧
        SnapshotSeen (offerHub (some sampleRegistry)) sampleRegistry
          (registryOfferEvents "MembershipCredential") list ∧
        clockRead hubReference reading ∈ registryOfferEvents "MembershipCredential" ∧
          TrustedForOffer hubReference list reading iss (idOffer "did:web:caller").credentials ∧
            IdsKnown (offerHub (some sampleRegistry)) (idOffer "did:web:caller").issuer
              (idOffer "did:web:caller").credentials
              (registryOfferEvents "MembershipCredential") :=
  accepted_offer_trusted rfl (registry_returns "MembershipCredential")

end IdentityHub
