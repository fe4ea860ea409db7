import IdentityHub.Hub.Disclosure
import IdentityHub.Issuer.Catalog

/-!
# The token service and the verifier of its tokens

The hub's own Secure Token Service puts a nested access token into the tokens it issues,
made out to whoever will present it, with the scopes it was asked for. The hub checks
such tokens when it answers presentation queries. The two agree on who may present a
token, until when, and on the types it grants.
-/

namespace IdentityHub

open Json (Value)

/-! ## Scopes -/

/-- The literal part of `DEFAULT_SCOPE_PATTERN`,
`org[.]eclipse[.]dspace[.]dcp[.]vc[.]type:(?P<type>[^:]+)(?P<suffix>:.+)?`. -/
def vcTypeAlias : String := "org.eclipse.dspace.dcp.vc.type:"

/-- The group `type` of the leftmost match: after the literal, every character up to the
next colon, at least one. The suffix decides nothing. -/
def captureType : List Char → Option (List Char)
  | [] => none
  | c :: rest =>
      match (Text.stripPrefix vcTypeAlias.toList (c :: rest)).map
          (fun after => after.takeWhile (· != ':')) with
      | some (t :: ts) => some (t :: ts)
      | _ => captureType rest

/-- `ScopeMatcher::credential_type` with the default pattern. -/
def defaultScopeType (scope : String) : Option String :=
  (captureType scope.toList).map String.ofList

/-- A scope that names a credential type, with an optional suffix. -/
structure TypeScope where
  credentialType : String
  suffix : Option String

def TypeScope.text (scope : TypeScope) : String :=
  vcTypeAlias ++ scope.credentialType ++ scope.suffix.elim "" (fun suffix => ":" ++ suffix)

/-- The type is one a credential definition may have; the suffix has no white space. -/
structure TypeScope.WellFormed (scope : TypeScope) : Prop where
  type : validCredentialType scope.credentialType = true
  suffix : ∀ suffix, scope.suffix = some suffix →
    ∀ c ∈ suffix.toList, Text.isWhitespace c = false

/-! ## The service -/

structure StsConfig where
  clientId : String
  clientSecret : String

inductive StsError where
  | unsupportedGrantType
  | invalidClient
  | invalidRequest (detail : String)
deriving DecidableEq

def StsError.toString : StsError → String
  | .unsupportedGrantType => "unsupported_grant_type: only client_credentials is supported"
  | .invalidClient => "invalid_client: unknown client_id/client_secret"
  | .invalidRequest detail => "invalid_request: " ++ detail

structure StsTokenRequest where
  grantType : String
  clientId : String
  clientSecret : String
  audience : String
  bearerAccessScope : Option String
  ownServiceDid : String

structure StsTokenResponse where
  accessToken : String
  expiresIn : ℕ
  tokenType : String

def tokenTtlSecs : ℕ := 300

/-- `constant_time_eq`: the differences of all bytes, gathered. -/
def constantTimeEq (a b : List UInt8) : Bool :=
  a.length == b.length && (a.zip b).foldl (fun acc p => acc ||| (p.1 ^^^ p.2)) 0 == 0

variable {X : HubExternal}

/-- Who presents the nested token: the token service's own party when the token is for
this service, else the party it is addressed to. -/
def StsTokenRequest.presenter (req : StsTokenRequest) (signer : ServiceIdentity X) : String :=
  if req.audience = req.ownServiceDid then signer.ownDid else req.audience

def accessTokenPayload (signer : ServiceIdentity X) (req : StsTokenRequest) (scope : String)
    (now : ℕ) (jti : String) : Value :=
  .object
    [("iss", .string signer.ownDid),
     ("sub", .string signer.ownDid),
     ("aud", .string (req.presenter signer)),
     ("scope", .string scope),
     ("iat", .ofNat now),
     ("exp", .ofNat (now + tokenTtlSecs)),
     ("jti", .string jti)]

def idTokenPayload (signer : ServiceIdentity X) (req : StsTokenRequest) (now : ℕ) (jti : String)
    (token : Option String) : Value :=
  .object
    ([("iss", .string signer.ownDid),
      ("sub", .string signer.ownDid),
      ("aud", .string req.audience),
      ("iat", .ofNat now),
      ("nbf", .ofNat now),
      ("exp", .ofNat (now + tokenTtlSecs)),
      ("jti", .string jti)] ++ token.toList.map (fun t => ("token", .string t)))

/-- The nested token, where a scope is asked for. -/
def issueAccessToken (signer : ServiceIdentity X) (req : StsTokenRequest) (now : ℕ) :
    HubProgram X StsError (Option String) :=
  match req.bearerAccessScope with
  | none => pure none
  | some scope => do
      let jti ← drawUuid
      return some (signer.sign (accessTokenPayload signer req scope now jti))

/-- `issue_token`. -/
def issueToken (config : StsConfig) (signer : ServiceIdentity X) (req : StsTokenRequest) :
    HubProgram X StsError StsTokenResponse := do
  .require (req.grantType = "client_credentials") .unsupportedGrantType
  .require (constantTimeEq req.clientId.toUTF8.toList config.clientId.toUTF8.toList = true ∧
    constantTimeEq req.clientSecret.toUTF8.toList config.clientSecret.toUTF8.toList = true)
    .invalidClient
  .require (Text.isBlank req.audience = false) (.invalidRequest "audience must not be empty")
  let now ← nowSecs
  let jti ← drawUuid
  let token ← issueAccessToken signer req now
  return {
    accessToken := signer.sign (idTokenPayload signer req now jti token)
    expiresIn := tokenTtlSecs
    tokenType := "Bearer" }

/-- A request of the configured client, for somebody. -/
structure ValidRequest (config : StsConfig) (req : StsTokenRequest) : Prop where
  grant : req.grantType = "client_credentials"
  client : req.clientId = config.clientId
  secret : req.clientSecret = config.clientSecret
  audience : Text.isBlank req.audience = false

/-! ## What a scope names -/

theorem takeWhile_colon {t after : List Char} (hcolon : ':' ∉ t)
    (hafter : after = [] ∨ ∃ rest, after = ':' :: rest) :
    (t ++ after).takeWhile (· != ':') = t := by
  have hall : ∀ c ∈ t, (c != ':') = true := by
    intro c hc
    rw [bne_iff_ne]
    rintro rfl
    exact hcolon hc
  rw [List.takeWhile_append_of_pos hall]
  rcases hafter with rfl | ⟨rest, rfl⟩
  · rw [List.takeWhile_nil, List.append_nil]
  · rw [List.takeWhile_cons_of_neg (by simp), List.append_nil]

/-- A text that starts with the literal and a type. -/
theorem captureType_alias {t after : List Char} (hne : t ≠ []) (hcolon : ':' ∉ t)
    (hafter : after = [] ∨ ∃ rest, after = ':' :: rest) :
    captureType (vcTypeAlias.toList ++ (t ++ after)) = some t := by
  have hstrip := Text.stripPrefix_eq_some.mpr
    (rfl : vcTypeAlias.toList ++ (t ++ after) = vcTypeAlias.toList ++ (t ++ after))
  obtain ⟨c, rest, hcons⟩ : ∃ c rest, vcTypeAlias.toList ++ (t ++ after) = c :: rest :=
    ⟨'o', _, rfl⟩
  rw [hcons] at hstrip ⊢
  rw [captureType, hstrip, Option.map_some, takeWhile_colon hcolon hafter]
  cases t with
  | nil => exact absurd rfl hne
  | cons c ts => rfl

/-- The characters of a valid type are letters, digits and three marks. -/
theorem validCredentialType_chars {t : String} (h : validCredentialType t = true) :
    t.toList ≠ [] ∧ ∀ c ∈ t.toList, c.isAlphanum = true ∨ c = '_' ∨ c = '.' ∨ c = '-' := by
  unfold validCredentialType at h
  cases hlist : t.toList with
  | nil =>
      rw [hlist] at h
      cases h
  | cons first rest =>
      rw [hlist] at h
      dsimp only at h
      rw [Bool.and_eq_true, List.all_eq_true] at h
      refine ⟨nofun, fun c hc => ?_⟩
      rcases List.mem_cons.mp hc with rfl | hc
      · exact Or.inl (by rw [Char.isAlphanum, h.1, Bool.true_or])
      · simpa [or_assoc] using h.2 c hc

/-- Such a character is no colon and no white space. -/
theorem typeChar_plain {c : Char} (h : c.isAlphanum = true ∨ c = '_' ∨ c = '.' ∨ c = '-') :
    c ≠ ':' ∧ Text.isWhitespace c = false := by
  have hrange : 33 ≤ c.toNat ∧ c.toNat ≤ 126 ∧ c.toNat ≠ 58 := by
    rcases h with h | rfl | rfl | rfl
    · have hlies := Text.toNat_of_isAlphanum h
      omega
    · decide
    · decide
    · decide
  constructor
  · rintro rfl
    exact hrange.2.2 rfl
  · unfold Text.isWhitespace
    simp
    omega

section

variable {scope : TypeScope} (h : scope.WellFormed)
include h

/-- The default pattern finds the type a scope was made with. -/
theorem defaultScopeType_text : defaultScopeType scope.text = some scope.credentialType := by
  obtain ⟨hne, hchars⟩ := validCredentialType_chars h.type
  have hcolon : ':' ∉ scope.credentialType.toList :=
    fun hmem => (typeChar_plain (hchars ':' hmem)).1 rfl
  have hafter : (scope.suffix.elim "" (fun suffix => ":" ++ suffix)).toList = [] ∨
      ∃ rest, (scope.suffix.elim "" (fun suffix => ":" ++ suffix)).toList = ':' :: rest := by
    cases scope.suffix with
    | none => exact Or.inl rfl
    | some suffix =>
        refine Or.inr ⟨suffix.toList, ?_⟩
        rw [Option.elim_some, String.toList_append]
        rfl
  have htext : scope.text.toList = vcTypeAlias.toList ++ (scope.credentialType.toList ++
      (scope.suffix.elim "" (fun suffix => ":" ++ suffix)).toList) := by
    rw [TypeScope.text, String.toList_append, String.toList_append, List.append_assoc]
  rw [defaultScopeType, htext, captureType_alias hne hcolon hafter, Option.map_some,
    String.ofList_toList]

/-- A scope is one word. -/
theorem text_word :
    scope.text.toList ≠ [] ∧ ∀ c ∈ scope.text.toList, Text.isWhitespace c = false := by
  obtain ⟨-, hchars⟩ := validCredentialType_chars h.type
  have halias : ∀ c ∈ vcTypeAlias.toList, Text.isWhitespace c = false := by
    simp [vcTypeAlias, Text.isWhitespace]
  rw [TypeScope.text, String.toList_append, String.toList_append]
  refine ⟨by simp [vcTypeAlias], fun c hc => ?_⟩
  rw [List.mem_append, List.mem_append] at hc
  rcases hc with (hc | hc) | hc
  · exact halias c hc
  · exact (typeChar_plain (hchars c hc)).2
  · cases hsuffix : scope.suffix with
    | none =>
        rw [hsuffix] at hc
        cases hc
    | some suffix =>
        rw [hsuffix, Option.elim_some, String.toList_append, List.mem_append] at hc
        rcases hc with hc | hc
        · rw [List.mem_singleton.mp hc]
          decide
        · exact h.suffix suffix hsuffix c hc

end

/-- The types a string of joined scopes names. -/
theorem mem_joinedTypes {hub : Hub X} (hpattern : hub.scopeType = defaultScopeType)
    {scopes : List TypeScope} (h : ∀ scope ∈ scopes, scope.WellFormed) {t : String} :
    t ∈ credentialTypes hub
        (Text.splitWhitespace (String.intercalate " " (scopes.map TypeScope.text))) ↔
      ∃ scope ∈ scopes, scope.credentialType = t := by
  have hwords : ∀ w ∈ scopes.map TypeScope.text,
      w.toList ≠ [] ∧ ∀ c ∈ w.toList, Text.isWhitespace c = false := by
    intro w hw
    obtain ⟨scope, hscope, rfl⟩ := List.mem_map.mp hw
    exact text_word (h scope hscope)
  rw [Text.splitWhitespace_intercalate hwords, mem_credentialTypes, hpattern]
  constructor
  · rintro ⟨w, hw, htype⟩
    obtain ⟨scope, hscope, rfl⟩ := List.mem_map.mp hw
    rw [defaultScopeType_text (h scope hscope)] at htype
    exact ⟨scope, hscope, Option.some.inj htype⟩
  · rintro ⟨scope, hscope, rfl⟩
    exact ⟨scope.text, List.mem_map_of_mem hscope, defaultScopeType_text (h scope hscope)⟩

/-! ## What is issued -/

theorem foldl_differences {pairs : List (UInt8 × UInt8)} {acc : UInt8} :
    pairs.foldl (fun acc p => acc ||| (p.1 ^^^ p.2)) acc = 0 ↔
      acc = 0 ∧ ∀ p ∈ pairs, p.1 = p.2 := by
  induction pairs generalizing acc with
  | nil => simp
  | cons p pairs ih =>
      rw [List.foldl_cons, ih, UInt8.or_eq_zero_iff, UInt8.xor_eq_zero_iff, List.forall_mem_cons,
        and_assoc]

/-- The comparison is equality. -/
theorem constantTimeEq_iff {a b : List UInt8} : constantTimeEq a b = true ↔ a = b := by
  rw [constantTimeEq, Bool.and_eq_true, beq_iff_eq, beq_iff_eq, foldl_differences]
  constructor
  · rintro ⟨hlength, -, hsame⟩
    refine List.ext_getElem hlength (fun i hi hj => ?_)
    have hzip : i < (a.zip b).length := by
      rw [List.length_zip]
      omega
    have hmem : (a.zip b)[i] ∈ a.zip b := List.getElem_mem hzip
    rw [List.getElem_zip] at hmem
    exact hsame _ hmem
  · rintro rfl
    refine ⟨rfl, rfl, fun p hp => ?_⟩
    obtain ⟨i, hi, rfl⟩ := List.mem_iff_getElem.mp hp
    rw [List.getElem_zip]

/-- The events of issuing a token: the clock and the draws. -/
def issueEvents (X : HubExternal) (t : ℕ) (jtis : List String) : List (HubEvent X) :=
  clockRead X t :: jtis.map (fun jti => ⟨HubOp.uuid, jti⟩)

section

variable {config : StsConfig} {signer : ServiceIdentity X} {req : StsTokenRequest}
  (hvalid : ValidRequest config req) (t : ℕ)
include hvalid

/-- What a valid request gets, once the nested token is issued. -/
theorem issueToken_returns (jti : String) {events : List (HubEvent X)} {token : Option String}
    (htoken : (issueAccessToken signer req t).Returns events token) :
    (issueToken config signer req).Returns (clockRead X t :: ⟨HubOp.uuid, jti⟩ :: events)
      { accessToken := signer.sign (idTokenPayload signer req t jti token)
        expiresIn := tokenTtlSecs
        tokenType := "Bearer" } := by
  have hclient : constantTimeEq req.clientId.toUTF8.toList config.clientId.toUTF8.toList = true ∧
      constantTimeEq req.clientSecret.toUTF8.toList config.clientSecret.toUTF8.toList = true := by
    rw [hvalid.client, hvalid.secret]
    exact ⟨constantTimeEq_iff.mpr rfl, constantTimeEq_iff.mpr rfl⟩
  refine .after (.require hvalid.grant) (.after (.require hclient)
    (.after (.require hvalid.audience) ?_))
  refine .afterEvent (nowSecs_returns t) ?_
  have hdraw : (drawUuid : HubProgram X StsError String).Returns [⟨HubOp.uuid, jti⟩] jti :=
    .ask (.refl _)
  refine .afterEvent hdraw ?_
  have hrest := htoken.followed (f := fun token => (pure
    { accessToken := signer.sign (idTokenPayload signer req t jti token)
      expiresIn := tokenTtlSecs
      tokenType := "Bearer" } : HubProgram X StsError StsTokenResponse)) (.refl _)
  rwa [List.append_nil] at hrest

end

/-! ## What is accepted -/

section

variable {hub : Hub X} {oracle : (op : HubOp X) → HubOp.Answer X op}
  (hsign : X.SignRoundTrip) (hverify : X.SignVerifies)
include hsign hverify

/-- A token the token service signed in its own name is accepted until it expires, from
its audience. -/
theorem verifyNestedAccessToken_signed {payload claims : Value} {presenter aud : String} {exp : ℕ}
    (hiss : payload.getStr "iss" = some hub.stsParty.ownDid)
    (haud : payload.getStr "aud" = some aud) (hexp : payload.getU64 "exp" = some exp) :
    (verifyNestedAccessToken (hub.stsParty.sign payload) presenter hub.stsParty).eval oracle =
        .ok claims ↔ claims = payload ∧ oracle .now < exp ∧ presenter = aud := by
  obtain ⟨header, hdecoded, hkid⟩ := hsign payload hub.stsParty.signingKey hub.stsParty.ownKeyId
  have hsigned := hverify payload hub.stsParty.signingKey hub.stsParty.ownKeyId
  simp only [verifyNestedAccessToken, ServiceIdentity.sign, Program.eval_bind,
    Program.eval_ofExcept, Except.bind_eq_ok, Program.eval_require_eq_ok, Except.mapError_eq_ok,
    Option.okOr_eq_ok, eval_nowSecs, Program.eval_pure, Except.ok.injEq]
  constructor
  · rintro ⟨⟨header', payload'⟩, hdecoded', _, -, _, -, _, -, _, -, _, -, now, rfl, _, hlive, _,
      hown, rfl⟩
    rw [hdecoded] at hdecoded'
    cases hdecoded'
    rw [hexp, Option.getD_some] at hlive
    rw [haud, Option.getD_some] at hown
    exact ⟨rfl, hlive, hown.symm⟩
  · rintro ⟨rfl, hlive, rfl⟩
    refine ⟨(header, claims), hdecoded, _, hiss, _, hkid, (), rfl, (), rfl, (), hsigned, _, rfl, (),
      ?_, (), ?_, rfl⟩
    · rwa [hexp, Option.getD_some]
    · rw [haud, Option.getD_some]

variable {config : StsConfig} {req : StsTokenRequest}

/-- What the service grants with the nested token, whoever's token carries it. -/
theorem grantedCredentialTypes_signed {outer : Value} {presenter granted jti : String}
    {types : List String} {t : ℕ} (hclock : t + tokenTtlSecs < 2 ^ 64)
    (htoken : outer.getStr "token" =
      some (hub.stsParty.sign (accessTokenPayload hub.stsParty req granted t jti)))
    (htypes : (grantedCredentialTypes hub outer presenter).eval oracle = .ok types) :
    types = credentialTypes hub (Text.splitWhitespace granted) := by
  rw [grantedCredentialTypes, htoken] at htypes
  dsimp only at htypes
  rw [Program.eval_bind, Except.bind_eq_ok] at htypes
  obtain ⟨claims, hclaims, htypes⟩ := htypes
  have hexp : (accessTokenPayload hub.stsParty req granted t jti).getU64 "exp" =
      some (t + tokenTtlSecs) := Json.Value.asU64_ofNat hclock
  obtain ⟨rfl, -⟩ := (verifyNestedAccessToken_signed hsign hverify rfl rfl hexp).mp hclaims
  rw [Program.eval_pure] at htypes
  exact (Except.ok.inj htypes).symm

end

def stsHub : Hub hubReference := { sampleHub with scopeType := defaultScopeType }

def stsConfig : StsConfig where
  clientId := "client"
  clientSecret := "secret"

/-- The request is for the hub itself, and its scopes name two types. -/
def stsRequest : StsTokenRequest where
  grantType := "client_credentials"
  clientId := "client"
  clientSecret := "secret"
  audience := "did:web:hub"
  bearerAccessScope := some (String.intercalate " " (([
    { credentialType := "MembershipCredential", suffix := none },
    { credentialType := "Pass", suffix := some "read" }] : List TypeScope).map TypeScope.text))
  ownServiceDid := "did:web:hub"

end IdentityHub
