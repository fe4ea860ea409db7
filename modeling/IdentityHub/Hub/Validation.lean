import IdentityHub.Hub.Auth

/-!
# What a delivered message says

The checks of a `CredentialMessage` after its token: its status and correlation id,
the embedded signature of each credential, and what each credential says about
itself.
-/

namespace IdentityHub

open Json (Value)

inductive ValidationError where
  | invalidStatus (status : String)
  | unknownHolderPid (holderPid : String)
  | unverifiableProof (detail : String)
  | unsupportedCredentialFormat (format : String)
  | emptyCredentials
  | unknownCredentialId (id : String)
  | catalogUnavailable (detail : String)
  | untrustedCredentialIssuer (iss : String)
  | foreignSubject (subject : String)
  | outsideValidity
  | typeNotInCredential (credentialType : String)
deriving DecidableEq

def ValidationError.toString : ValidationError → String
  | .invalidStatus status =>
      "credential message status '" ++ status ++
        "' is not one of the recognized values (ISSUED, REJECTED)"
  | .unknownHolderPid holderPid =>
      "holderPid '" ++ holderPid ++
        "' does not match a request this service was configured to expect"
  | .unverifiableProof detail =>
      "a credential's own embedded proof could not be verified: " ++ detail
  | .unsupportedCredentialFormat format =>
      "credential format '" ++ format ++ "' cannot be verified by this service"
  | .emptyCredentials => "a CredentialOfferMessage must offer at least one credential"
  | .unknownCredentialId id =>
      "offered credential id '" ++ id ++ "' does not match the issuer's own known catalog"
  | .catalogUnavailable detail =>
      "could not resolve the offering issuer's own credential catalog: " ++ detail
  | .untrustedCredentialIssuer iss => "credential issuer '" ++ iss ++ "' is not a trusted issuer"
  | .foreignSubject subject => "credential is bound to '" ++ subject ++ "', not to this service"
  | .outsideValidity => "credential is outside its validity period"
  | .typeNotInCredential credentialType =>
      "credentialType '" ++ credentialType ++ "' is not one of the credential's own vc.type"

/-- `validation_error_response`. -/
def ValidationError.response (e : ValidationError) : Response where
  status := 400
  body := e.toString

def clockSkewSecs : ℕ := 60

/-- `has_type`: `vc.type` is the type, or a list that has it. -/
def hasType (payload : Value) (credentialType : String) : Bool :=
  match payload.pointer ["vc", "type"] with
  | some (.string only) => only = credentialType
  | some (.array types) => types.any (fun t => t.asStr = some credentialType)
  | _ => false

/-- `is_within_validity`: each bound is looked at only where it reads as an unsigned
integer. -/
def isWithinValidity (payload : Value) (now : ℕ) : Bool :=
  (payload.getU64 "nbf").all (fun nbf => nbf ≤ now + clockSkewSecs) &&
    (payload.getU64 "exp").all (fun exp => now < exp)

/-- Whom a credential is about: `sub`, or else the id of its subject. -/
def credentialSubject (payload : Value) : Option String :=
  (payload.getStr "sub").or ((payload.pointer ["vc", "credentialSubject", "id"]).bind Value.asStr)

variable {X : HubExternal} (hub : Hub X)

/-- The JWS of a container, with its header and payload. -/
def containerJws (X : HubExternal) (container : CredentialContainer) :
    Except ValidationError (String × Value × Value) :=
  match container.payload.asStr with
  | none => .error (.unverifiableProof "a jwt-format credential's payload must be a JWS string")
  | some jws =>
    match X.decodeJwsUnverified jws with
    | .error e => .error (.unverifiableProof e)
    | .ok (header, payload) => .ok (jws, header, payload)

/-- One round of `check_credential_claims`. -/
def checkContainerClaims (X : HubExternal) (container : CredentialContainer) (ownDid : String)
    (trustedIssuerDids : Option (List String)) (now : ℕ) : Except ValidationError Unit :=
  match containerJws X container with
  | .error e => .error e
  | .ok (_, _, payload) =>
    let issuer := (payload.getStr "iss").getD ""
    if !hasType payload container.credentialType then
      .error (.typeNotInCredential container.credentialType)
    else if !trustedIssuerDids.all (fun trusted => issuer ∈ trusted) then
      .error (.untrustedCredentialIssuer issuer)
    else if credentialSubject payload ≠ some ownDid then
      .error (.foreignSubject ((credentialSubject payload).getD "nobody"))
    else if !isWithinValidity payload now then .error .outsideValidity
    else .ok ()

def checkCredentialClaims (X : HubExternal) : List CredentialContainer → String →
    Option (List String) → ℕ → Except ValidationError Unit
  | [], _, _, _ => .ok ()
  | container :: rest, ownDid, trustedIssuerDids, now => do
      checkContainerClaims X container ownDid trustedIssuerDids now
      checkCredentialClaims X rest ownDid trustedIssuerDids now

def validateStatus (status : String) : Except ValidationError Unit :=
  if status ∈ ["ISSUED", "REJECTED"] then .ok () else .error (.invalidStatus status)

/-- An empty list of known ids restricts nothing. -/
def checkKnownHolderPid (holderPid : String) (knownHolderPids : List String) :
    Except ValidationError Unit :=
  if knownHolderPids = [] ∨ holderPid ∈ knownHolderPids then .ok ()
  else .error (.unknownHolderPid holderPid)

/-- The one kind of format the hub can verify. Lower-casing beyond ASCII gives none
of the letters looked for. -/
def isJwtFormat (format : String) : Bool :=
  Text.contains (Text.asciiLower (Text.trim format)) "jwt"

/-- One round of `verify_credential_proofs`. -/
def verifyCredentialProof (container : CredentialContainer) :
    HubProgram X ValidationError Unit := do
  .require (isJwtFormat container.format = true) (.unsupportedCredentialFormat container.format)
  let (jws, header, payload) ← .ofExcept (containerJws X container)
  let vcIssuer ←
    .ofExcept ((payload.getStr "iss").okOr (.unverifiableProof "credential has no iss claim"))
  let kid ←
    .ofExcept ((header.getStr "kid").okOr (.unverifiableProof "credential JWS has no kid header"))
  .ofExcept ((hub.outbound.checkDid X vcIssuer hub.insecureHttp).mapError
    (fun e => .unverifiableProof e.toString))
  let issuerDoc ← (resolveDid vcIssuer hub.insecureHttp).mapError .unverifiableProof
  let verifyingKey ← .ofExcept ((X.findVerifyingKey issuerDoc kid).mapError .unverifiableProof)
  .ofExcept ((X.verifyJwsSignature jws verifyingKey).mapError .unverifiableProof)

def verifyCredentialProofs : List CredentialContainer → HubProgram X ValidationError Unit
  | [] => pure ()
  | container :: rest => do
      verifyCredentialProof hub container
      verifyCredentialProofs rest

/-! ## When the checks pass -/

theorem isWithinValidity_iff {payload : Value} {now : ℕ} :
    isWithinValidity payload now = true ↔
      (∀ exp, payload.getU64 "exp" = some exp → now < exp) ∧
        ∀ nbf, payload.getU64 "nbf" = some nbf → nbf ≤ now + clockSkewSecs := by
  rw [isWithinValidity, Bool.and_eq_true, and_comm]
  simp [Option.all_eq_true]

theorem containerJws_eq_ok {container : CredentialContainer} {jws : String} {header payload : Value} :
    containerJws X container = .ok (jws, header, payload) ↔
      container.payload = .string jws ∧ X.decodeJwsUnverified jws = .ok (header, payload) := by
  unfold containerJws
  cases hstr : container.payload.asStr with
  | none =>
      have hne : container.payload ≠ .string jws := by
        intro h
        rw [h] at hstr
        cases hstr
      simp [hne]
  | some jws' =>
      rw [Value.asStr_eq_some] at hstr
      rw [hstr, Value.string.injEq]
      constructor
      · intro h
        dsimp only at h
        split at h
        · cases h
        · rename_i hdecoded
          cases h
          exact ⟨rfl, hdecoded⟩
      · rintro ⟨rfl, hdecoded⟩
        dsimp only
        rw [hdecoded]

/-- What the checks of one container establish. -/
structure ClaimsHold (X : HubExternal) (container : CredentialContainer) (ownDid : String)
    (trustedIssuerDids : Option (List String)) (now : ℕ) (jws : String) (header payload : Value) :
    Prop where
  decoded : containerJws X container = .ok (jws, header, payload)
  type : hasType payload container.credentialType = true
  issuer : ∀ trusted, trustedIssuerDids = some trusted → (payload.getStr "iss").getD "" ∈ trusted
  subject : credentialSubject payload = some ownDid
  validity : isWithinValidity payload now = true

variable {container : CredentialContainer} {ownDid : String}
  {trustedIssuerDids : Option (List String)} {now : ℕ}

theorem checkContainerClaims_eq_ok :
    checkContainerClaims X container ownDid trustedIssuerDids now = .ok () ↔
      ∃ jws header payload,
        ClaimsHold X container ownDid trustedIssuerDids now jws header payload := by
  have hissuer : ∀ issuer : String,
      trustedIssuerDids.all (fun trusted => decide (issuer ∈ trusted)) = true ↔
        ∀ trusted, trustedIssuerDids = some trusted → issuer ∈ trusted := by
    intro issuer
    cases trustedIssuerDids <;> simp
  unfold checkContainerClaims
  constructor
  · intro h
    split at h
    · cases h
    · rename_i jws header payload hjws
      refine ⟨jws, header, payload, ?_⟩
      dsimp only at h
      split_ifs at h with htype htrusted hsubject hvalid
      exact ⟨hjws, by simpa using htype, (hissuer _).mp (by simpa using htrusted),
        by simpa using hsubject, by simpa using hvalid⟩
  · rintro ⟨jws, header, payload, hholds⟩
    rw [hholds.decoded]
    simp [hholds.type, (hissuer _).mpr hholds.issuer, hholds.subject, hholds.validity]

theorem checkCredentialClaims_eq_ok : ∀ {credentials : List CredentialContainer},
    checkCredentialClaims X credentials ownDid trustedIssuerDids now = .ok () ↔
      ∀ container ∈ credentials,
        checkContainerClaims X container ownDid trustedIssuerDids now = .ok ()
  | [] => by simp [checkCredentialClaims]
  | container :: rest => by
      rw [checkCredentialClaims, List.forall_mem_cons, ← checkCredentialClaims_eq_ok]
      cases checkContainerClaims X container ownDid trustedIssuerDids now with
      | error e => simp [bind, Except.bind]
      | ok u => simp [bind, Except.bind]

end IdentityHub
