import IdentityHub.Hub.Presentation
import IdentityHub.Hub.Replay
import IdentityHub.Hub.State

/-!
# A presentation holds exactly the authorised credentials

What a caller may see is said without the handler: which nested token grants, which
types are both asked for and granted, which stored payloads have such a type and are
worth presenting. `presentation_query` refuses the caller or presents these payloads,
each once.
-/

namespace IdentityHub

open Json (Value)

variable {X : HubExternal}

/-! ## Who may see what -/

/-- A token the hub's own token service issued to a caller, live at `now`. -/
structure IssuedTo (hub : Hub X) (caller : String) (now : ℕ) (token : String)
    (payload : Value) : Prop where
  decoded : ∃ header, X.decodeJwsUnverified token = .ok (header, payload) ∧
    header.getStr "kid" = some hub.stsParty.ownKeyId
  issuer : payload.getStr "iss" = some hub.stsParty.ownDid
  signed : X.verifyJwsSignature token (X.verifyingKey hub.stsParty.signingKey) = .ok ()
  live : ∃ exp, payload.getU64 "exp" = some exp ∧ now < exp
  audience : payload.getStr "aud" = some caller

/-- A type some scope of the nested token among the claims names. No token grants
nothing, nor does one without `scope`. -/
def Granted (hub : Hub X) (claims : Value) (caller : String) (now : ℕ)
    (credentialType : String) : Prop :=
  ∃ token payload granted, claims.getStr "token" = some token ∧
    IssuedTo hub caller now token payload ∧ payload.getStr "scope" = some granted ∧
      ∃ scope ∈ Text.splitWhitespace granted, hub.scopeType scope = some credentialType

/-- A payload that is no decodable JWS, or is one inside its validity window. -/
def Presents (X : HubExternal) (now : ℕ) (p : Value) : Prop :=
  ∀ jws header payload, p = .string jws → X.decodeJwsUnverified jws = .ok (header, payload) →
    (∀ exp, payload.getU64 "exp" = some exp → now < exp) ∧
      ∀ nbf, payload.getU64 "nbf" = some nbf → nbf ≤ now + clockSkewSecs

/-- The payload of a stored credential that was issued, of a type both asked for and
granted, and worth presenting. -/
def Authorised (hub : Hub X) (store : CredentialStore) (claims : Value) (caller : String)
    (now : ℕ) (message : PresentationQueryMessage) (p : Value) : Prop :=
  (∃ batch ∈ store, batch.status = "ISSUED" ∧
    ∃ container ∈ batch.credentials, container.payload = p ∧
      (∃ scope ∈ message.scope, hub.scopeType scope = some container.credentialType) ∧
        Granted hub claims caller now container.credentialType) ∧
    Presents X now p

/-! ## What is kept of the credentials found -/

theorem presentsValid_iff {now : ℕ} {container : CredentialContainer} :
    presentsValid X now container = true ↔ Presents X now container.payload := by
  unfold presentsValid
  constructor
  · intro h jws header payload hp hdecoded
    have hstr : container.payload.asStr = some jws := Value.asStr_eq_some.mpr hp
    rw [hstr, Option.map_some, hdecoded] at h
    exact isWithinValidity_iff.mp h
  · intro h
    split
    · rename_i header payload hdecoded
      obtain ⟨jws, hstr, hok⟩ := Option.map_eq_some_iff.mp hdecoded
      exact isWithinValidity_iff.mpr (h jws header payload (Value.asStr_eq_some.mp hstr) hok)
    · rfl

section

variable (hjson : Function.Injective X.jsonText)
include hjson

/-- The payloads kept are those that were there and not seen before. -/
theorem mem_firstOfEachPayload {seen : List String} {credentials : List CredentialContainer}
    {p : Value} :
    p ∈ (firstOfEachPayload X seen credentials).map (fun c => c.payload) ↔
      p ∈ credentials.map (fun c => c.payload) ∧ X.jsonText p ∉ seen := by
  induction credentials generalizing seen with
  | nil => simp [firstOfEachPayload]
  | cons container rest ih =>
      rw [firstOfEachPayload]
      by_cases hseen : X.jsonText container.payload ∈ seen
      · rw [if_pos hseen, ih, List.map_cons, List.mem_cons]
        constructor
        · rintro ⟨hmem, hnew⟩
          exact ⟨Or.inr hmem, hnew⟩
        · rintro ⟨rfl | hmem, hnew⟩
          · exact absurd hseen hnew
          · exact ⟨hmem, hnew⟩
      · rw [if_neg hseen, List.map_cons, List.mem_cons, ih, List.map_cons, List.mem_cons]
        by_cases hp : p = container.payload
        · subst hp
          simp [hseen]
        · have htext : X.jsonText p ≠ X.jsonText container.payload := fun h => hp (hjson h)
          simp [hp, htext]

theorem nodup_firstOfEachPayload {seen : List String} {credentials : List CredentialContainer} :
    ((firstOfEachPayload X seen credentials).map (fun c => c.payload)).Nodup := by
  induction credentials generalizing seen with
  | nil => exact List.nodup_nil
  | cons container rest ih =>
      rw [firstOfEachPayload]
      by_cases hseen : X.jsonText container.payload ∈ seen
      · rw [if_pos hseen]
        exact ih
      · rw [if_neg hseen, List.map_cons, List.nodup_cons]
        refine ⟨fun hmem => ?_, ih⟩
        exact ((mem_firstOfEachPayload hjson).mp hmem).2 List.mem_cons_self

/-- The payloads presented are those found that are worth presenting, each once. -/
theorem presentable_spec (credentials : List CredentialContainer) (now : ℕ) :
    ((presentable X credentials now).map (fun c => c.payload)).Nodup ∧
      ∀ p, p ∈ (presentable X credentials now).map (fun c => c.payload) ↔
        (∃ container ∈ credentials, container.payload = p) ∧ Presents X now p := by
  unfold presentable
  refine ⟨(nodup_firstOfEachPayload hjson).sublist (List.filter_sublist.map _), fun p => ?_⟩
  have hfirst := @mem_firstOfEachPayload X hjson [] credentials p
  rw [List.mem_map, List.mem_map] at hfirst
  simp only [List.not_mem_nil, not_false_eq_true, and_true] at hfirst
  rw [← hfirst, List.mem_map]
  constructor
  · rintro ⟨container, hmem, rfl⟩
    obtain ⟨hmem, hvalid⟩ := List.mem_filter.mp hmem
    exact ⟨⟨container, hmem, rfl⟩, presentsValid_iff.mp hvalid⟩
  · rintro ⟨⟨container, hmem, rfl⟩, hvalid⟩
    exact ⟨container, List.mem_filter.mpr ⟨hmem, presentsValid_iff.mpr hvalid⟩, rfl⟩

end

/-! ## What the nested token grants -/

variable {hub : Hub X} {oracle : (op : HubOp X) → HubOp.Answer X op}

theorem verifyNestedAccessToken_eval {token caller : String} {payload : Value}
    (hcaller : caller ≠ "") :
    (verifyNestedAccessToken token caller hub.stsParty).eval oracle = .ok payload ↔
      IssuedTo hub caller (oracle .now) token payload := by
  have haudience : ∀ payload : Value,
      (payload.getStr "aud").getD "" = caller ↔ payload.getStr "aud" = some caller := by
    intro payload
    cases payload.getStr "aud" with
    | none => simp [hcaller.symm]
    | some aud => simp
  have hlive : ∀ payload : Value, oracle .now < (payload.getU64 "exp").getD 0 ↔
      ∃ exp, payload.getU64 "exp" = some exp ∧ oracle .now < exp := by
    intro payload
    cases payload.getU64 "exp" <;> simp
  simp only [verifyNestedAccessToken, Program.eval_bind, Program.eval_ofExcept,
    Except.bind_eq_ok, Program.eval_require_eq_ok, Except.mapError_eq_ok, Option.okOr_eq_ok,
    eval_nowSecs, Program.eval_pure, Except.ok.injEq]
  constructor
  · rintro ⟨⟨header, payload'⟩, hdecoded, iss, hiss, kid, hkid, _, rfl, _, rfl, _, hsigned, now, rfl,
      _, hexp, _, haud, rfl⟩
    exact ⟨⟨header, hdecoded, hkid⟩, hiss, hsigned, (hlive _).mp hexp, (haudience _).mp haud⟩
  · rintro ⟨⟨header, hdecoded, hkid⟩, hiss, hsigned, hexp, haud⟩
    exact ⟨(header, payload), hdecoded, _, hiss, _, hkid, (), rfl, (), rfl, (), hsigned, _, rfl,
      (), (hlive payload).mpr hexp, (), (haudience payload).mpr haud, rfl⟩

/-- A token's payload is what it decodes to. -/
theorem IssuedTo.unique {token caller : String} {now : ℕ} {payload payload' : Value}
    (h : IssuedTo hub caller now token payload) (h' : IssuedTo hub caller now token payload') :
    payload = payload' := by
  obtain ⟨header, hdecoded, -⟩ := h.decoded
  obtain ⟨header', hdecoded', -⟩ := h'.decoded
  rw [hdecoded] at hdecoded'
  cases hdecoded'
  rfl

theorem grantedCredentialTypes_refused {claims : Value} {token caller : String}
    (hcaller : caller ≠ "") (htoken : claims.getStr "token" = some token)
    (h : ∀ payload, ¬ IssuedTo hub caller (oracle .now) token payload) :
    ∃ e, (grantedCredentialTypes hub claims caller).eval oracle = .error e := by
  unfold grantedCredentialTypes
  rw [htoken]
  dsimp only
  rw [Program.eval_bind]
  cases hverify : (verifyNestedAccessToken token caller hub.stsParty).eval oracle with
  | error e => exact ⟨e, rfl⟩
  | ok payload => exact absurd ((verifyNestedAccessToken_eval hcaller).mp hverify) (h payload)

theorem grantedCredentialTypes_granted {claims : Value} {caller : String} (hcaller : caller ≠ "")
    (h : ∀ token, claims.getStr "token" = some token →
      ∃ payload, IssuedTo hub caller (oracle .now) token payload) :
    ∃ types, (grantedCredentialTypes hub claims caller).eval oracle = .ok types ∧
      ∀ t, t ∈ types ↔ Granted hub claims caller (oracle .now) t := by
  unfold grantedCredentialTypes
  cases htoken : claims.getStr "token" with
  | none =>
      refine ⟨[], rfl, fun t => ?_⟩
      simp [Granted, htoken]
  | some token =>
      obtain ⟨payload, hissued⟩ := h token htoken
      have hverify := (verifyNestedAccessToken_eval hcaller).mpr hissued
      dsimp only
      rw [Program.eval_bind, hverify]
      refine ⟨_, rfl, fun t => ?_⟩
      rw [mem_credentialTypes]
      constructor
      · rintro ⟨scope, hmem, htype⟩
        cases hscope : payload.getStr "scope" with
        | none =>
            rw [hscope, Option.getD_none] at hmem
            exact absurd hmem (List.not_mem_nil)
        | some granted =>
            rw [hscope, Option.getD_some] at hmem
            exact ⟨token, payload, granted, htoken, hissued, hscope, scope, hmem, htype⟩
      · rintro ⟨token', payload', granted, htoken', hissued', hscope, scope, hmem, htype⟩
        rw [htoken] at htoken'
        cases htoken'
        have hsame := hissued.unique hissued'
        subst hsame
        exact ⟨scope, by rwa [hscope, Option.getD_some], htype⟩

/-! ## The answer -/

/-- The clock reads `now`, and the store finds what it holds, in some order. -/
structure Answers (oracle : (op : HubOp X) → HubOp.Answer X op) (now : ℕ)
    (store : CredentialStore) : Prop where
  clock : oracle .now = now
  found : ∀ types, (oracle (.credentialsOfTypes types)).Perm (store.credentialsOfTypes types)

/-- Whoever is accepted has a DID that could be resolved. -/
theorem caller_ne_empty (hdid : ∀ insecureHttp url, X.didWebToUrl "" insecureHttp ≠ .ok url)
    {authorizationHeader : Option String} {claims : Value} {caller : String}
    (haccepted : (verifyBearerToken hub authorizationHeader).eval oracle = .ok claims)
    (hiss : claims.getStr "iss" = some caller) : caller ≠ "" := by
  rintro rfl
  simp only [verifyBearerToken, checkBearerToken, Program.eval_bind, Program.eval_ofExcept,
    Except.bind_eq_ok, Program.eval_mapError, Except.mapError_eq_ok, Option.okOr_eq_ok,
    eval_resolveDid, Program.eval_pure, Except.ok.injEq] at haccepted
  obtain ⟨claims', ⟨token, -, ⟨header, payload⟩, -, iss, hiss', kid, -, -, -, doc, ⟨url, hurl, -⟩,
    key, -, -, -, -, -, -, -, -, -, now, -, -, -, -, -, -, -, rfl⟩, -, -, rfl⟩ := haccepted
  rw [hiss] at hiss'
  cases hiss'
  exact hdid _ _ hurl

theorem mem_credentialsOfTypes {store : CredentialStore} {types : List String}
    {container : CredentialContainer} :
    container ∈ store.credentialsOfTypes types ↔
      (∃ batch ∈ store, batch.status = "ISSUED" ∧ container ∈ batch.credentials) ∧
        container.credentialType ∈ types := by
  simp only [CredentialStore.credentialsOfTypes, List.mem_filter, List.mem_flatMap,
    decide_eq_true_eq, and_assoc]

/-- What becomes of a query with a scope alone once its caller is known. -/
theorem presentationQuery_eval {authorizationHeader : Option String}
    {message : PresentationQueryMessage} {claims : Value} {caller : String}
    (hscope : message.scope ≠ []) (hdefinition : message.presentationDefinition = none)
    (haccepted : (verifyBearerToken hub authorizationHeader).eval oracle = .ok claims)
    (hiss : claims.getStr "iss" = some caller) :
    (presentationQuery hub authorizationHeader message).eval oracle =
      (((grantedCredentialTypes hub claims caller).eval oracle).mapError AuthError.response).bind
        (fun allowed => .ok [hub.identity.sign (presentationPayload hub caller
          (presentable X (oracle (.credentialsOfTypes
            ((credentialTypes hub message.scope).filter (· ∈ allowed)))) (oracle .now))
          (oracle .now) (oracle .uuid))]) := by
  have hquery : checkQuery message = .ok () := by
    unfold checkQuery
    rw [hdefinition]
    simp [hscope]
  unfold presentationQuery
  rw [Program.eval_bind, Program.eval_mapError, haccepted]
  show (answerQuery hub claims message).eval oracle = _
  unfold answerQuery
  rw [hiss, Option.getD_some, hquery]
  simp only [Program.ofExcept_ok, Program.pure_bind, Program.eval_bind, Program.eval_mapError]
  rfl

/-- **A presentation query is refused, or answered with exactly what the caller may
see.** A nested token that is not the hub's own for this caller refuses the whole
query; otherwise the presentation lists each authorised payload once, and nothing
else. -/
theorem presentation_exact (hjson : Function.Injective X.jsonText)
    (hdid : ∀ insecureHttp url, X.didWebToUrl "" insecureHttp ≠ .ok url) {now : ℕ}
    {store : CredentialStore} (hanswers : Answers oracle now store)
    {authorizationHeader : Option String} {message : PresentationQueryMessage} {claims : Value}
    {caller : String} (hscope : message.scope ≠ [])
    (hdefinition : message.presentationDefinition = none)
    (haccepted : (verifyBearerToken hub authorizationHeader).eval oracle = .ok claims)
    (hiss : claims.getStr "iss" = some caller) :
    ((∃ token, claims.getStr "token" = some token ∧
        ∀ payload, ¬ IssuedTo hub caller now token payload) →
      ∃ response, (presentationQuery hub authorizationHeader message).eval oracle =
        .error response ∧ response.status = 401) ∧
    ((∀ token, claims.getStr "token" = some token →
        ∃ payload, IssuedTo hub caller now token payload) →
      ∃ payload presented,
        (presentationQuery hub authorizationHeader message).eval oracle =
            .ok [hub.identity.sign payload] ∧
          payload.pointer ["vp", "verifiableCredential"] = some (.array presented) ∧
            presented.Nodup ∧
              ∀ p, p ∈ presented ↔ Authorised hub store claims caller now message p) := by
  obtain ⟨rfl, hfound⟩ := hanswers
  have hcaller := caller_ne_empty hdid haccepted hiss
  rw [presentationQuery_eval hscope hdefinition haccepted hiss]
  constructor
  · rintro ⟨token, htoken, hforged⟩
    obtain ⟨e, hrefused⟩ := grantedCredentialTypes_refused hcaller htoken hforged
    rw [hrefused]
    exact ⟨e.response, rfl, rfl⟩
  · intro hgenuine
    obtain ⟨types, hgranted, htypes⟩ := grantedCredentialTypes_granted hcaller hgenuine
    rw [hgranted]
    obtain ⟨hnodup, hmem⟩ := presentable_spec hjson (oracle (.credentialsOfTypes
      ((credentialTypes hub message.scope).filter (· ∈ types)))) (oracle .now)
    refine ⟨_, _, rfl, rfl, hnodup, fun p => ?_⟩
    rw [hmem]
    refine and_congr_left (fun _ => ?_)
    have hfound' : ∀ container : CredentialContainer,
        container ∈ oracle (.credentialsOfTypes
            ((credentialTypes hub message.scope).filter (· ∈ types))) ↔
          (∃ batch ∈ store, batch.status = "ISSUED" ∧ container ∈ batch.credentials) ∧
            (∃ scope ∈ message.scope, hub.scopeType scope = some container.credentialType) ∧
              Granted hub claims caller (oracle .now) container.credentialType := by
      intro container
      rw [(hfound _).mem_iff, mem_credentialsOfTypes, List.mem_filter, decide_eq_true_eq,
        mem_credentialTypes, htypes]
    constructor
    · rintro ⟨container, hcontainer, rfl⟩
      obtain ⟨⟨batch, hbatch, hstatus, hin⟩, hrequested, hgrants⟩ := (hfound' container).mp hcontainer
      exact ⟨batch, hbatch, hstatus, container, hin, rfl, hrequested, hgrants⟩
    · rintro ⟨batch, hbatch, hstatus, container, hin, rfl, hrequested, hgrants⟩
      exact ⟨container, (hfound' container).mpr ⟨⟨batch, hbatch, hstatus, hin⟩, hrequested, hgrants⟩,
        rfl⟩

/-! ### A query that is answered -/

def nestedPayload : Value :=
  .object
    [("iss", .string "did:web:sts"), ("aud", .string sampleCaller), ("exp", .ofNat 300),
     ("scope", .string "MembershipCredential")]

def nestedToken : String :=
  hubReference.signJws nestedPayload "sts" "did:web:sts#key-1"

def callerPayload : Value :=
  .object
    [("iss", .string sampleCaller), ("sub", .string sampleCaller), ("aud", .string "did:web:hub"),
     ("exp", .ofNat 300), ("token", .string nestedToken)]

def callerToken : String := hubReference.signJws callerPayload "caller" "key-1"

def membershipContainer : CredentialContainer where
  credentialType := "MembershipCredential"
  format := "jwt_vc_json"
  payload := .string "membership"

def membershipStore : CredentialStore :=
  [{ issuerPid := "issuer-1", holderPid := none, status := "ISSUED", rejectionReason := none,
     credentials := [membershipContainer, membershipContainer] }]

def membershipOracle : (op : HubOp hubReference) → HubOp.Answer hubReference op
  | .now => 0
  | .fetchDocument _ => .ok sampleDocument
  | .send _ => .error "unreachable"
  | .uuid => "uuid-1"
  | .rememberJti _ => true
  | .readTrustCache => none
  | .writeTrustCache _ => ()
  | .storeBatch _ => ()
  | .credentialsOfTypes types => membershipStore.credentialsOfTypes types
  | .addOffer _ => "offer-1"

def membershipQuery : PresentationQueryMessage where
  context := []
  messageType := "PresentationQueryMessage"
  scope := ["MembershipCredential"]
  presentationDefinition := none

theorem callerToken_accepted :
    (verifyBearerToken sampleHub (some ("Bearer " ++ callerToken))).eval membershipOracle =
      .ok callerPayload := by
  have hpresented : bearerOf (some ("Bearer " ++ callerToken)) = .ok callerToken := by
    have hstrip : Text.stripPrefix "Bearer ".toList ("Bearer " ++ callerToken).toList =
        some callerToken.toList := by
      rw [Text.stripPrefix_eq_some, String.toList_append]
    rw [bearerOf, Option.bind_some, hstrip]
    simp
  have hdecoded : hubReference.decodeJwsUnverified callerToken =
      .ok (Reference.header "key-1", callerPayload) :=
    reference_decode_sign callerPayload "key-1" "caller"
  have hsignature : hubReference.verifyJwsSignature callerToken "caller" = .ok () :=
    reference_verify_sign callerPayload "key-1" "caller"
  have hchecked : (checkBearerToken sampleHub (some ("Bearer " ++ callerToken))).Returns
      [documentFetched hubReference "https://caller/.well-known/did.json" (.ok sampleDocument),
        clockRead hubReference 0] callerPayload :=
    checkBearerToken_returns hpresented hdecoded rfl (Reference.header_kid _) rfl rfl rfl
      hsignature (List.mem_singleton.mpr rfl) rfl rfl rfl (by decide) rfl rfl
  have hreturns := verifyBearerToken_returns hchecked
  have hjti : callerPayload.getStr "jti" = none := rfl
  rw [hjti, Option.toList_none, List.map_nil, List.append_nil] at hreturns
  have hanswers : ∀ e ∈ [documentFetched hubReference "https://caller/.well-known/did.json"
      (.ok sampleDocument), clockRead hubReference 0], e.answer = membershipOracle e.op := by
    intro e he
    rcases List.mem_cons.mp he with rfl | he
    · rfl
    · rw [List.mem_singleton.mp he]
      rfl
  exact Program.Returns.eval (E := hubEffects hubReference) membershipOracle hreturns hanswers

theorem nestedToken_issued :
    IssuedTo sampleHub sampleCaller 0 nestedToken nestedPayload := by
  have hdecoded : hubReference.decodeJwsUnverified nestedToken =
      .ok (Reference.header "did:web:sts#key-1", nestedPayload) :=
    reference_decode_sign nestedPayload "did:web:sts#key-1" "sts"
  have hsignature : hubReference.verifyJwsSignature nestedToken "sts" = .ok () :=
    reference_verify_sign nestedPayload "did:web:sts#key-1" "sts"
  exact ⟨⟨_, hdecoded, Reference.header_kid _⟩, rfl, hsignature, ⟨300, rfl, by decide⟩, rfl⟩

theorem hubReference_jsonText : Function.Injective hubReference.jsonText := by
  intro a b h
  have hprint : Json.Text.print a = Json.Text.print b := by
    have hlist := congrArg String.toList h
    simpa [hubReference, reference, Reference.jsonText] using hlist
  exact Json.Text.print_injective hprint

theorem presentation_exact_membership :
    ∃ payload presented,
      (presentationQuery sampleHub (some ("Bearer " ++ callerToken)) membershipQuery).eval
          membershipOracle = .ok [sampleHub.identity.sign payload] ∧
        payload.pointer ["vp", "verifiableCredential"] = some (.array presented) ∧
          presented.Nodup ∧
            ∀ p, p ∈ presented ↔
              Authorised sampleHub membershipStore callerPayload sampleCaller 0 membershipQuery p := by
  refine (presentation_exact hubReference_jsonText (fun insecureHttp url => ?_)
    ⟨rfl, fun types => .refl _⟩ (List.cons_ne_nil _ _) rfl callerToken_accepted rfl).2
    (fun token htoken => ?_)
  · cases insecureHttp <;> nofun
  · have htoken' : callerPayload.getStr "token" = some nestedToken := rfl
    rw [htoken', Option.some_inj] at htoken
    rw [← htoken]
    exact ⟨nestedPayload, nestedToken_issued⟩

end IdentityHub
