import IdentityHub.Http.Response
import IdentityHub.Hub.Effects

/-!
# Self-Issued ID Tokens

The token of an incoming request: its signer's DID document is fetched, its
signature and claims are checked, and its `jti` is remembered. The nested access
token of a presentation query is checked against the hub's own token service.
-/

namespace IdentityHub

open Json (Value)

def nbfLeewaySecs : ℕ := 30

inductive AuthError where
  | missingToken
  | didResolution (detail : String)
  | invalidSignature (detail : String)
  | wrongAudience
  | expired
  | issuerSubjectMismatch
  | notYetValid
  | issuedInFuture
  | keyNotAuthorizedForInvocation (kid : String)
  | tokenReplayed
  | untrustedIssuer (iss : String)
  | notTrustedForType (issuer credentialType reason : String)
  | trustRegistryUnavailable (detail : String)
  | noTrustedIssuerConfigured
  | invalidNestedToken (detail : String)
  | nestedTokenExpired
  | nestedTokenNotBoundToCaller
  | nestedTokenIssuerNotAuthoritative (iss : String)
  | outboundDestinationNotAllowed (detail : String)
deriving DecidableEq

def AuthError.toString : AuthError → String
  | .missingToken => "missing or malformed Authorization: Bearer header"
  | .didResolution detail => "could not resolve caller DID: " ++ detail
  | .invalidSignature detail => "signature verification failed: " ++ detail
  | .wrongAudience => "token audience does not match this service's DID"
  | .expired => "token has expired"
  | .issuerSubjectMismatch =>
      "token sub does not match iss - a Self-Issued ID Token must be about its own issuer"
  | .notYetValid => "token is not yet valid (nbf is in the future)"
  | .issuedInFuture => "token iat (issued-at) is in the future"
  | .keyNotAuthorizedForInvocation kid =>
      "signing key '" ++ kid ++ "' is not listed under the caller's own " ++
        "capabilityInvocation verification relationship"
  | .tokenReplayed => "token jti has already been used (replay)"
  | .untrustedIssuer iss =>
      "issuer '" ++ iss ++ "' is not on this service's trusted-issuer allow-list"
  | .notTrustedForType issuer credentialType reason =>
      "issuer '" ++ issuer ++ "' is not trusted for credential type '" ++ credentialType ++
        "' by the trusted issuers registry: " ++ reason
  | .trustRegistryUnavailable detail =>
      "the trusted issuers registry's snapshot is unavailable, so no issuer is trusted: " ++ detail
  | .noTrustedIssuerConfigured =>
      "no trusted issuer is configured for this service - the Storage/Credential Offer API " ++
        "rejects every caller until at least one --trusted-issuer-did is given"
  | .invalidNestedToken detail => "nested access token is not valid: " ++ detail
  | .nestedTokenExpired => "nested access token has expired"
  | .nestedTokenNotBoundToCaller =>
      "nested access token is not bound to the party presenting it " ++
        "(aud does not match the outer envelope's own caller)"
  | .nestedTokenIssuerNotAuthoritative iss =>
      "nested access token issuer '" ++ iss ++
        "' is not authoritative for this service's credentials"
  | .outboundDestinationNotAllowed detail => "outbound destination is not allowed: " ++ detail

/-- `auth_error_response`. -/
def AuthError.response (e : AuthError) : Response where
  status := 401
  body := e.toString

/-- Where the trusted issuers registry is, and who signs its snapshot. -/
structure TrustedIssuersRegistry where
  baseUrl : String
  did : String

/-- The configuration and identities of a hub process; `scopeType` is the type the
scope pattern captures in a scope. -/
structure Hub (X : HubExternal) where
  identity : ServiceIdentity X
  stsParty : ServiceIdentity X
  insecureHttp : Bool
  outbound : OutboundPolicy
  trustedIssuerDids : List String
  knownHolderPids : List String
  trustedIssuersRegistry : Option TrustedIssuersRegistry
  scopeType : String → Option String

variable {X : HubExternal} {ε : Type} (hub : Hub X)

/-- The token of an `Authorization: Bearer` header. -/
def bearerOf (authorizationHeader : Option String) : Except AuthError String :=
  match authorizationHeader.bind (fun h => Text.stripPrefix "Bearer ".toList h.toList) with
  | some token => .ok (String.ofList token)
  | none => .error .missingToken

/-- A time claim, where there is one, is not further ahead than the leeway. -/
def checkNotAhead (payload : Value) (claim : String) (error : AuthError) :
    HubProgram X AuthError Unit :=
  match payload.getU64 claim with
  | none => pure ()
  | some time => do
      let now ← nowSecs
      .require (time ≤ now + nbfLeewaySecs) error

/-- Remember the `jti`, where there is one; it must not be remembered already. -/
def checkReplay (payload : Value) : HubProgram X AuthError Unit :=
  match payload.getStr "jti" with
  | none => pure ()
  | some jti => do
      let new ← rememberJti jti
      .require (new = true) .tokenReplayed

/-- The part of `verify_bearer_token` before the `jti`: the token's signature
under its signer's document, and its other claims. -/
def checkBearerToken (authorizationHeader : Option String) : HubProgram X AuthError Value := do
  let token ← .ofExcept (bearerOf authorizationHeader)
  let (header, payload) ←
    .ofExcept ((X.decodeJwsUnverified token).mapError .invalidSignature)
  let callerDid ←
    .ofExcept ((payload.getStr "iss").okOr (.invalidSignature "token has no iss claim"))
  let kid ←
    .ofExcept ((header.getStr "kid").okOr (.invalidSignature "token has no kid header"))
  -- the destination is checked before anything is fetched
  .ofExcept ((hub.outbound.checkDid X callerDid hub.insecureHttp).mapError
    (fun e => .outboundDestinationNotAllowed e.toString))
  let callerDoc ← (resolveDid callerDid hub.insecureHttp).mapError .didResolution
  let callerKey ← .ofExcept ((X.findVerifyingKey callerDoc kid).mapError .invalidSignature)
  .ofExcept ((X.verifyJwsSignature token callerKey).mapError .invalidSignature)
  .require (kid ∈ X.capabilityInvocation callerDoc) (.keyNotAuthorizedForInvocation kid)
  .require ((payload.getStr "sub").getD "" = callerDid) .issuerSubjectMismatch
  .require ((payload.getStr "aud").getD "" = hub.identity.ownDid) .wrongAudience
  let now ← nowSecs
  .require (now < (payload.getU64 "exp").getD 0) .expired
  checkNotAhead payload "nbf" .notYetValid
  checkNotAhead payload "iat" .issuedInFuture
  return payload

/-- `verify_bearer_token`: the claims of the token, once everything about it has
been checked and its `jti` is remembered. -/
def verifyBearerToken (authorizationHeader : Option String) : HubProgram X AuthError Value := do
  let payload ← checkBearerToken hub authorizationHeader
  checkReplay payload
  return payload

/-- `check_trusted_issuer`: the issuer is on the list. -/
def checkTrustedIssuer (claims : Value) (trustedIssuerDids : List String) :
    Except AuthError Unit :=
  if trustedIssuerDids = [] then .error .noTrustedIssuerConfigured
  else
    let iss := (claims.getStr "iss").getD ""
    if iss ∈ trustedIssuerDids then .ok () else .error (.untrustedIssuer iss)

theorem checkTrustedIssuer_eq_ok {iss : String} {trustedIssuerDids : List String} :
    checkTrustedIssuer (.object [("iss", .string iss)]) trustedIssuerDids = .ok () ↔
      iss ∈ trustedIssuerDids := by
  have hiss : (Value.object [("iss", .string iss)]).getStr "iss" = some iss := by
    simp [Value.getStr]
  unfold checkTrustedIssuer
  rw [hiss, Option.getD_some]
  by_cases hnil : trustedIssuerDids = []
  · simp [hnil]
  · by_cases hmem : iss ∈ trustedIssuerDids
    · simp [hnil, hmem]
    · simp [hnil, hmem]

/-- `verify_nested_access_token`: the payload of a token the hub's own token
service issued to the party that presents it. -/
def verifyNestedAccessToken (nestedToken outerSub : String) (authority : ServiceIdentity X) :
    HubProgram X AuthError Value := do
  let (header, payload) ←
    .ofExcept ((X.decodeJwsUnverified nestedToken).mapError .invalidNestedToken)
  let nestedIss ←
    .ofExcept ((payload.getStr "iss").okOr (.invalidNestedToken "nested token has no iss claim"))
  let kid ←
    .ofExcept ((header.getStr "kid").okOr (.invalidNestedToken "nested token has no kid header"))
  .require (nestedIss = authority.ownDid) (.nestedTokenIssuerNotAuthoritative nestedIss)
  .require (kid = authority.ownKeyId)
    (.invalidNestedToken
      ("nested token kid '" ++ kid ++ "' is not the key of '" ++ nestedIss ++ "'"))
  .ofExcept ((X.verifyJwsSignature nestedToken (X.verifyingKey authority.signingKey)).mapError
    .invalidNestedToken)
  let now ← nowSecs
  .require (now < (payload.getU64 "exp").getD 0) .nestedTokenExpired
  .require ((payload.getStr "aud").getD "" = outerSub) .nestedTokenNotBoundToCaller
  return payload

/-! ## What the checks establish -/

/-- The operations that may be asked for: fetching at hosts on the list, reading
the clock, and, for the operations `rest` allows, those. -/
def AsksOnly (rest : HubOp X → Prop) (op : HubOp X) : Prop :=
  match op with
  | .now => True
  | .fetchDocument url => hub.outbound.checkUrl X url = .ok ()
  | op => rest op

/-- The signature of a token holds under the key its header names in the document
its own `iss` resolved to. -/
def SignedByIssuer (X : HubExternal) (insecureHttp : Bool) (events : List (HubEvent X))
    (token : String) (header payload : Value) (doc : X.DidDocument) : Prop :=
  ∃ iss kid url key, payload.getStr "iss" = some iss ∧ header.getStr "kid" = some kid ∧
    X.didWebToUrl iss insecureHttp = .ok url ∧ documentFetched X url (.ok doc) ∈ events ∧
      X.findVerifyingKey doc kid = .ok key ∧ X.verifyJwsSignature token key = .ok ()

/-- What is known of a token once its checks have passed. -/
structure TokenChecked (authorizationHeader : Option String) (events : List (HubEvent X))
    (token : String) (header payload : Value) (doc : X.DidDocument) : Prop where
  presented : bearerOf authorizationHeader = .ok token
  decoded : X.decodeJwsUnverified token = .ok (header, payload)
  signed : SignedByIssuer X hub.insecureHttp events token header payload doc
  invocable : ∃ kid, header.getStr "kid" = some kid ∧ kid ∈ X.capabilityInvocation doc
  own : some ((payload.getStr "sub").getD "") = payload.getStr "iss"
  audience : (payload.getStr "aud").getD "" = hub.identity.ownDid
  live : ∃ reading exp, clockRead X reading ∈ events ∧ payload.getU64 "exp" = some exp ∧
    reading < exp

variable {hub}

theorem checkNotAhead_wp {Q : List (HubEvent X) → HubOp X → Prop}
    {past : List (HubEvent X)} {post : List (HubEvent X) → Unit → Prop}
    {payload : Value} {claim : String} {error : AuthError}
    (hnow : ∀ events, Q events .now) (hpost : ∀ events, post (past ++ events) ()) :
    (checkNotAhead payload claim error).wp Q post past := by
  unfold checkNotAhead
  cases payload.getU64 claim with
  | none =>
      have hpast := hpost []
      rw [List.append_nil] at hpast
      exact Program.wp_pure.mpr hpast
  | some time =>
      rw [Program.wp_bind, wp_nowSecs]
      refine ⟨hnow past, fun reading => ?_⟩
      rw [Program.wp_require]
      exact fun _ => hpost _

theorem checkBearerToken_wp (authorizationHeader : Option String) :
    (checkBearerToken hub authorizationHeader).wp
      (fun _ => AsksOnly hub (fun _ => False))
      (fun events payload =>
        ∃ token header doc, TokenChecked hub authorizationHeader events token header payload doc)
      [] := by
  simp only [checkBearerToken, Program.wp_bind, Program.wp_ofExcept, Program.wp_mapError,
    Program.wp_require, Program.wp_pure, wp_resolveDid, wp_nowSecs, Except.mapError_eq_ok,
    Option.okOr_eq_ok]
  rintro token hpresented ⟨header, payload⟩ hdecoded iss hiss kid hkid _ hallowed url hurl
  refine ⟨?_, fun doc key hkey _ hsignature hinvocable hown haudience => ⟨trivial, ?_⟩⟩
  · exact OutboundPolicy.checkUrl_of_checkDid hallowed hurl
  · intro reading hlive
    refine checkNotAhead_wp (fun _ => trivial) (fun events => ?_)
    refine checkNotAhead_wp (fun _ => trivial) (fun events' => ?_)
    refine ⟨token, header, doc, hpresented, hdecoded,
      ⟨iss, kid, url, key, hiss, hkid, hurl, by simp, hkey, hsignature⟩,
      ⟨kid, hkid, hinvocable⟩, by rw [hiss, hown], haudience, ?_⟩
    cases hexp : payload.getU64 "exp" with
    | none => simp [hexp] at hlive
    | some exp => exact ⟨reading, exp, by simp, rfl, by simpa [hexp] using hlive⟩

/-- Besides what the checks ask for, only the `jti` is remembered. -/
theorem verifyBearerToken_asks {Q : List (HubEvent X) → HubOp X → Prop}
    (hchecks : ∀ past op, AsksOnly hub (fun _ => False) op → Q past op)
    (hremember : ∀ past jti, Q past (.rememberJti jti)) {authorizationHeader : Option String} :
    (verifyBearerToken hub authorizationHeader).wp Q (fun _ _ => True) [] := by
  have hbefore : (checkBearerToken hub authorizationHeader).wp Q (fun _ _ => True) [] :=
    Program.wp_mono (checkBearerToken_wp authorizationHeader) hchecks (fun _ _ _ => trivial)
  unfold verifyBearerToken
  rw [Program.wp_bind]
  refine Program.wp_post hbefore (fun later payload _ => ?_)
  unfold checkReplay
  cases payload.getStr "jti" with
  | none =>
      rw [Program.wp_bind, Program.wp_pure, Program.wp_pure]
      trivial
  | some jti =>
      simp only [Program.wp_bind, wp_rememberJti, Program.wp_require, Program.wp_pure]
      exact ⟨hremember _ _, fun _ _ => trivial⟩

theorem checkNotAhead_returns {payload : Value} {claim : String} {error : AuthError}
    (h : payload.getU64 claim = none) :
    (checkNotAhead (X := X) payload claim error).Returns [] () := by
  rw [checkNotAhead, h]
  exact .refl _

/-- A token that passes every check, and has no `nbf` and no `iat`, passes with one
fetch and one clock reading. -/
theorem checkBearerToken_returns {authorizationHeader : Option String}
    {token iss kid url : String} {header payload : Value} {doc : X.DidDocument}
    {key : X.VerifyingKey} {now exp : ℕ} (hpresented : bearerOf authorizationHeader = .ok token)
    (hdecoded : X.decodeJwsUnverified token = .ok (header, payload))
    (hiss : payload.getStr "iss" = some iss) (hkid : header.getStr "kid" = some kid)
    (hallowed : hub.outbound.checkDid X iss hub.insecureHttp = .ok ())
    (hurl : X.didWebToUrl iss hub.insecureHttp = .ok url)
    (hkey : X.findVerifyingKey doc kid = .ok key) (hsignature : X.verifyJwsSignature token key = .ok ())
    (hinvocable : kid ∈ X.capabilityInvocation doc) (hown : payload.getStr "sub" = some iss)
    (haudience : payload.getStr "aud" = some hub.identity.ownDid)
    (hexp : payload.getU64 "exp" = some exp) (hlive : now < exp)
    (hnbf : payload.getU64 "nbf" = none) (hiat : payload.getU64 "iat" = none) :
    (checkBearerToken hub authorizationHeader).Returns
      [documentFetched X url (.ok doc), clockRead X now] payload := by
  unfold checkBearerToken
  refine .after (.ofExcept hpresented) ?_
  refine .after (.ofExcept (Except.mapError_eq_ok.mpr hdecoded)) ?_
  refine .after (.ofExcept (Option.okOr_eq_ok.mpr hiss)) ?_
  refine .after (.ofExcept (Option.okOr_eq_ok.mpr hkid)) ?_
  refine .after (.ofExcept (Except.mapError_eq_ok.mpr hallowed)) ?_
  refine .afterEvent (.mapError (resolveDid_returns hurl doc)) ?_
  refine .after (.ofExcept (Except.mapError_eq_ok.mpr hkey)) ?_
  refine .after (.ofExcept (Except.mapError_eq_ok.mpr hsignature)) ?_
  refine .after (.require hinvocable) ?_
  refine .after (.require (by rw [hown, Option.getD_some])) ?_
  refine .after (.require (by rw [haudience, Option.getD_some])) ?_
  refine .afterEvent (nowSecs_returns now) ?_
  refine .after (.require (by rwa [hexp, Option.getD_some])) ?_
  exact .after (checkNotAhead_returns hnbf) (.after (checkNotAhead_returns hiat) (.refl _))

/-- A token that passes the checks is accepted when it has no `jti`, or a new one. -/
theorem verifyBearerToken_returns {authorizationHeader : Option String} {payload : Value}
    {events : List (HubEvent X)}
    (h : (checkBearerToken hub authorizationHeader).Returns events payload) :
    (verifyBearerToken hub authorizationHeader).Returns
      (events ++ (payload.getStr "jti").toList.map (fun jti => jtiOffered X jti true)) payload := by
  unfold verifyBearerToken
  refine h.bind.trans ?_
  change (checkReplay payload >>= fun _ => pure payload).Evolves _ _
  unfold checkReplay
  cases payload.getStr "jti" with
  | none => exact .refl _
  | some jti => exact (rememberJti_returns jti true).bind.bind

end IdentityHub
