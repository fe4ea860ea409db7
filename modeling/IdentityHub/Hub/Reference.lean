import IdentityHub.Hub.Effects
import IdentityHub.Reference

/-!
# A concrete choice of the hub's external functions

On top of `reference`: a snapshot of the trusted issuers registry is a signed token
that lists, under the DID of each issuer, the credential types it is trusted for.
-/

namespace IdentityHub

open Json (Value)

structure ReferenceTrustList where
  iat : ℕ
  exp : ℕ
  issuers : Value

namespace Reference

def listedTypes (list : ReferenceTrustList) (iss : String) : Option (List String) :=
  ((list.issuers.get iss).bind Value.asArray).map (fun types => types.filterMap Value.asStr)

def checkTrust (list : ReferenceTrustList) (iss credentialType : String) (_ : ℕ) : TrustDecision :=
  if credentialType ∈ (listedTypes list iss).getD [] then { trusted := true, reason := none }
  else { trusted := false, reason := some "not listed" }

def snapshotKid (text : String) : Except String String :=
  match decodeJws text with
  | .ok (header, _) => (header.getStr "kid").elim (.error "no kid") .ok
  | .error e => .error e

def verifySnapshot (text did key : String) (now : ℕ) : Except String ReferenceTrustList := do
  verifyJws text key
  let (_, payload) ← decodeJws text
  match payload.getStr "iss", payload.getU64 "iat", payload.getU64 "exp",
      payload.get "issuers" with
  | some iss, some iat, some exp, some issuers =>
      if iss = did ∧ now < exp then .ok { iat := iat, exp := exp, issuers := issuers }
      else .error "not a current snapshot"
  | _, _, _, _ => .error "not a snapshot"

def parseJson (text : String) : Except String Value :=
  match Json.Text.parse text.toList with
  | some v => .ok v
  | none => .error "expected value"

/-- The pairs after the question mark, with nothing to decode in them. -/
def queryPairs (url : String) : Except String (List (String × String)) :=
  .ok ((((Text.splitOnce '?' url).elim "" Prod.snd).toList.splitOn '&').map (fun pair =>
    (Text.splitOnce '=' (String.ofList pair)).getD (String.ofList pair, "")))

end Reference

/-- The external functions of the hub's sample runs. -/
def hubReference : HubExternal where
  toExternal := reference
  TrustList := ReferenceTrustList
  listIat list := list.iat
  listExp list := list.exp
  listedTypes := Reference.listedTypes
  checkTrust := Reference.checkTrust
  snapshotKid := Reference.snapshotKid
  verifySnapshot := Reference.verifySnapshot
  debugText s := "\"" ++ s ++ "\""
  parseJson := Reference.parseJson
  decodeError _ := "invalid type"
  queryPairs := Reference.queryPairs
  publicKeyXy key := (String.toUTF8 key |>.toList, String.toUTF8 key |>.toList)
  ecdsaSign key _ := String.toUTF8 key |>.toList
  sha256 bytes := bytes

end IdentityHub
