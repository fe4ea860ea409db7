import IdentityHub.Hub.Effects
import IdentityHub.Oid4vci.Proof

/-!
# What the wallet signs

The key proof of a Credential Request, the DPoP proof of a request, and the
assertion a client authenticates with; and the well-known URLs of an issuer.
-/

namespace IdentityHub.Wallet

open Json (Value)

def credentialIssuerWellKnown : String := "openid-credential-issuer"

def authorizationServerWellKnown : String := "oauth-authorization-server"

/-- `well_known_url`: the segment goes between the authority and the path. -/
def wellKnownUrl (issuer name : String) : Except String String :=
  let trimmed := (Text.trimEndMatches '/' issuer).toList
  match Text.splitAtFirst "://".toList trimmed with
  | none => .error ("issuer identifier '" ++ issuer ++ "' is not an absolute URL")
  | some (scheme, rest) =>
    let authority := rest.takeWhile (· != '/')
    let path := rest.dropWhile (· != '/')
    if authority = [] then .error ("issuer identifier '" ++ issuer ++ "' has no host")
    else
      -- only the issuer's own metadata keeps a slash at the end
      let slash :=
        if name = credentialIssuerWellKnown ∧ path ≠ [] ∧ issuer.toList.getLast? = some '/' then
          "/"
        else ""
      .ok (String.ofList scheme ++ "://" ++ String.ofList authority ++ "/.well-known/" ++ name ++
        String.ofList path ++ slash)

variable {X : HubExternal}

def b64Text (text : String) : String :=
  String.ofList (Base64Url.encode text.toUTF8.toList)

/-- `sign_jws_with_header`; the header names the algorithm already. -/
def signJwsWithHeader (X : HubExternal) (header payload : Value) (key : X.SigningKey) : String :=
  let signingInput := b64Text (X.jsonText header) ++ "." ++ b64Text (X.jsonText payload)
  let signature := X.ecdsaSign key signingInput.toUTF8.toList
  signingInput ++ "." ++ String.ofList (Base64Url.encode signature)

/-- `public_jwk`. -/
def publicJwk (X : HubExternal) (key : X.SigningKey) : Value :=
  .object
    [("crv", .string "P-256"), ("kty", .string "EC"),
     ("x", .string (String.ofList (Base64Url.encode (X.publicKeyXy key).1))),
     ("y", .string (String.ofList (Base64Url.encode (X.publicKeyXy key).2)))]

inductive ProofKeyRef where
  | didUrl
  | jwk
deriving DecidableEq

/-- `ProofKeyRef::for_binding_methods`. -/
def ProofKeyRef.forBindingMethods (methods : List String) : ProofKeyRef :=
  if methods = [] ∨ methods.any (fun m => m = "did" || "did:".toList.isPrefixOf m.toList) then
    .didUrl
  else .jwk

variable {ε : Type} (identity : ServiceIdentity X)

/-- `build_jwt_proof_for_client`. -/
def buildJwtProofForClient (credentialIssuer : String) (nonce clientId : Option String)
    (key : ProofKeyRef) : HubProgram X ε String := do
  let now ← nowSecs
  let payload := Value.object
    ([("aud", .string credentialIssuer), ("iat", .ofNat now)] ++
      clientId.toList.map (fun id => ("iss", .string id)) ++
      nonce.toList.map (fun n => ("nonce", .string n)))
  let header := Value.object
    (("alg", .string "ES256") ::
      match key with
      | .didUrl => [("kid", .string identity.ownKeyId), ("typ", .string Oid4vci.proofJwtTyp)]
      | .jwk => [("jwk", publicJwk X identity.signingKey), ("typ", .string Oid4vci.proofJwtTyp)])
  return signJwsWithHeader X header payload identity.signingKey

/-- `build_dpop_proof`; `htu` is named without its query and fragment. -/
def buildDpopProof (htm htu : String) (nonce accessToken : Option String) :
    HubProgram X ε String := do
  let jti ← drawUuid
  let now ← nowSecs
  let path := String.ofList (htu.toList.takeWhile (fun c => c != '?' && c != '#'))
  let payload := Value.object
    (accessToken.toList.map (fun token =>
        ("ath", .string (String.ofList (Base64Url.encode (X.sha256 token.toUTF8.toList))))) ++
      [("htm", .string htm), ("htu", .string path), ("iat", .ofNat now), ("jti", .string jti)] ++
      nonce.toList.map (fun n => ("nonce", .string n)))
  let header := Value.object
    [("alg", .string "ES256"), ("jwk", publicJwk X identity.signingKey),
     ("typ", .string "dpop+jwt")]
  return signJwsWithHeader X header payload identity.signingKey

def clientAssertionPayload (clientId audience : String) (now : ℕ) (jti : String) : Value :=
  .object
    [("aud", .string audience), ("exp", .ofNat (now + 60)), ("iat", .ofNat now),
     ("iss", .string clientId), ("jti", .string jti), ("sub", .string clientId)]

def clientAssertionHeader : Value :=
  .object
    [("alg", .string "ES256"), ("kid", .string identity.ownKeyId), ("typ", .string "JWT")]

/-- `build_client_assertion`. -/
def buildClientAssertion (clientId audience : String) : HubProgram X ε String := do
  let now ← nowSecs
  let jti ← drawUuid
  return signJwsWithHeader X (clientAssertionHeader identity)
    (clientAssertionPayload clientId audience now jti) identity.signingKey

end IdentityHub.Wallet
