import IdentityHub.Hub.Auth

/-!
# Whom the hub trusts

An issuer is trusted when it is on the static list, or, with a trusted issuers
registry configured, when the registry's signed snapshot trusts it for the types at
stake. The snapshot is fetched, verified and kept for a quarter of its lifetime; no
valid snapshot, no trust.
-/

namespace IdentityHub

open Json (Value)

/-- `REFRESH_MARGIN_SECS`. -/
def refreshMarginSecs : ℕ := 30

/-- `u64::saturating_add`. -/
def saturatingAdd (a b : ℕ) : ℕ := min (a + b) (2 ^ 64 - 1)

/-- Whether a snapshot valid from `iat` to `exp` is to be fetched again. -/
def needsRefresh (fetchedAt iat exp now : ℕ) : Bool :=
  saturatingAdd fetchedAt ((exp - iat) / 4) ≤ now || exp ≤ saturatingAdd now refreshMarginSecs

/-- A snapshot that is used as it is has been fetched less than a quarter of its lifetime
ago, and is not about to expire. -/
theorem lt_of_needsRefresh_eq_false {fetchedAt iat exp now : ℕ}
    (h : needsRefresh fetchedAt iat exp now = false) :
    now < fetchedAt + (exp - iat) / 4 ∧ now < exp := by
  rw [needsRefresh, Bool.or_eq_false_iff] at h
  have hage := Nat.lt_of_not_le (of_decide_eq_false h.1)
  have hmargin := Nat.lt_of_not_le (of_decide_eq_false h.2)
  rw [saturatingAdd] at hage hmargin
  have hyoung := lt_of_lt_of_le hage (Nat.min_le_left _ _)
  have hclock := lt_of_lt_of_le hage (Nat.min_le_right _ _)
  refine ⟨hyoung, ?_⟩
  rcases Nat.le_total (now + refreshMarginSecs) (2 ^ 64 - 1) with hle | hle
  · rw [Nat.min_eq_left hle] at hmargin
    omega
  · rw [Nat.min_eq_right hle] at hmargin
    omega

variable {X : HubExternal} (hub : Hub X)

def CachedTrustList.stale (cached : CachedTrustList X) (now : ℕ) : Bool :=
  needsRefresh cached.fetchedAt (X.listIat cached.list) (X.listExp cached.list) now

/-- `RegistryTrust::fetch`. -/
def fetchTrustList (source : TrustedIssuersRegistry) (now : ℕ) :
    HubProgram X String X.TrustList := do
  let url := Text.trimEndMatches '/' source.baseUrl ++ "/v1/snapshot"
  .ofExcept ((hub.outbound.checkUrl X url).mapError (fun e => url ++ ": " ++ e.toString))
  let response ← send (.ofUrl url) (fun e => "GET " ++ url ++ ": " ++ e)
  .require (response.isSuccess = true) ("GET " ++ url ++ ": " ++ X.statusText response.status)
  let token ← .ofExcept (response.body.mapError (fun e => "GET " ++ url ++ ": " ++ e))
  .ofExcept ((hub.outbound.checkDid X source.did hub.insecureHttp).mapError
    (fun e => source.did ++ ": " ++ e.toString))
  let doc ← (resolveDid source.did hub.insecureHttp).mapError
    (fun e => "resolving " ++ source.did ++ ": " ++ e)
  let kid ← .ofExcept (X.snapshotKid (Text.trim token))
  let key ← .ofExcept (X.findVerifyingKey doc kid)
  .ofExcept (X.verifySnapshot (Text.trim token) source.did key now)

/-- `RegistryTrust::trust_list`: the cached snapshot while it is fresh, else a new
one, else the cached one until it expires. -/
def trustList (source : TrustedIssuersRegistry) : HubProgram X String X.TrustList := do
  let cached ← readTrustCache
  let now ← nowSecs
  match cached.filter (fun c => !c.stale now) with
  | some fresh => return fresh.list
  | none =>
      let fetched ← (fetchTrustList hub source now).attempt
      match fetched with
      | .ok list => do
          writeTrustCache { list := list, fetchedAt := now }
          return list
      | .error e =>
          match cached.filter (fun c => now < X.listExp c.list) with
          | some unexpired => return unexpired.list
          | none => .throw e

/-- The issuer is trusted for each of the types. -/
def checkTypes (X : HubExternal) (list : X.TrustList) (iss : String) (now : ℕ) :
    List String → Except AuthError Unit
  | [] => .ok ()
  | credentialType :: rest =>
      let decision := X.checkTrust list iss credentialType now
      if decision.trusted then checkTypes X list iss now rest
      else .error (.notTrustedForType iss credentialType (decision.reason.getD ""))

/-- With no type at stake the issuer must be trusted for one it is listed for. -/
def checkListed (X : HubExternal) (list : X.TrustList) (iss : String) (now : ℕ)
    (credentialTypes : List String) : Except AuthError Unit :=
  if credentialTypes = [] then
    if ((X.listedTypes list iss).getD []).any (fun t => (X.checkTrust list iss t now).trusted) then
      .ok ()
    else .error (.untrustedIssuer iss)
  else checkTypes X list iss now credentialTypes

/-- `check_issuer`: the registry when one is configured, else the static list, which
ignores the types. -/
def checkIssuer (iss : String) (credentialTypes : List String) : HubProgram X AuthError Unit :=
  match hub.trustedIssuersRegistry with
  | some source => do
      let list ← (trustList hub source).mapError .trustRegistryUnavailable
      let now ← nowSecs
      .ofExcept (checkListed X list iss now credentialTypes)
  | none => .ofExcept (checkTrustedIssuer (.object [("iss", .string iss)]) hub.trustedIssuerDids)

end IdentityHub
