import IdentityHub.Hub.Trust
import IdentityHub.Hub.Validation

/-!
# Accepting an issued credential

What the wallet checks of a credential an OID4VCI issuer handed it.
-/

namespace IdentityHub

open Json (Value)

inductive WalletError where
  | invalidOffer (detail : String)
  | outbound (detail : String)
  | upstream (detail : String)
  | rejected (detail : String)
deriving DecidableEq

def WalletError.toString : WalletError → String
  | .invalidOffer detail => "invalid offer: " ++ detail
  | .outbound detail => "outbound destination is not allowed: " ++ detail
  | .upstream detail => "credential issuer failed: " ++ detail
  | .rejected detail => "issued credential rejected: " ++ detail

def WalletError.status : WalletError → ℕ
  | .invalidOffer _ => 400
  | .outbound _ | .rejected _ => 403
  | .upstream _ => 502

def formatJwtVcJson : String := "jwt_vc_json"

/-- The last entry of the `vc.type` list that is not the general one. -/
def specificType (payload : Value) : Option String :=
  ((payload.pointer ["vc", "type"]).bind Value.asArray).bind (fun types =>
    (types.filterMap Value.asStr).reverse.find? (fun t => t != "VerifiableCredential"))

theorem hasType_of_specificType {payload : Value} {t : String}
    (h : specificType payload = some t) : hasType payload t = true := by
  unfold specificType at h
  obtain ⟨types, htypes, hfind⟩ := Option.bind_eq_some_iff.mp h
  obtain ⟨v, hv, harray⟩ := Option.bind_eq_some_iff.mp htypes
  have hv' : v = .array types := by
    cases v <;> simp_all [Value.asArray]
  subst hv'
  have hmem := List.mem_of_find?_eq_some hfind
  rw [List.mem_reverse, List.mem_filterMap] at hmem
  obtain ⟨entry, hentry, hstr⟩ := hmem
  unfold hasType
  rw [hv]
  exact List.any_eq_true.mpr ⟨entry, hentry, by simpa using hstr⟩

variable {X : HubExternal} (hub : Hub X)

/-- The container the wallet has a credential's proof verified in. -/
def probeContainer (credential : Value) : CredentialContainer where
  credentialType := ""
  payload := credential
  format := formatJwtVcJson

/-- An `exp` that reads as an unsigned integer lies ahead. -/
def checkNotExpired (payload : Value) : HubProgram X WalletError Unit :=
  match payload.getU64 "exp" with
  | none => pure ()
  | some exp => do
      let now ← nowSecs
      .require (now < exp) (.rejected "credential has expired")

def foreignSubjectText (X : HubExternal) (subject : Option String) (ownDid : String) : String :=
  let shown :=
    match subject with
    | some s => "Some(" ++ X.debugText s ++ ")"
    | none => "None"
  "credential is bound to " ++ shown ++ ", not to this Credential Service (" ++ ownDid ++ ")"

/-- `accept_issued_credential`: the type the credential is filed under. -/
def acceptIssuedCredential (credential : Value) : HubProgram X WalletError String := do
  let jws ← .ofExcept (credential.asStr.okOr (.rejected "credential is not a JWT string"))
  let (_, payload) ← .ofExcept ((X.decodeJwsUnverified jws).mapError .rejected)
  let credentialType ←
    .ofExcept ((specificType payload).okOr (.rejected "credential has no specific vc.type"))
  let iss := (payload.getStr "iss").getD ""
  (checkIssuer hub iss [credentialType]).mapError (fun e => .rejected e.toString)
  (verifyCredentialProofs hub [probeContainer credential]).mapError
    (fun e => .rejected e.toString)
  .require (credentialSubject payload = some hub.identity.ownDid)
    (.rejected (foreignSubjectText X (credentialSubject payload) hub.identity.ownDid))
  checkNotExpired payload
  return credentialType

end IdentityHub
