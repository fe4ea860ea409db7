import IdentityHub.Http.Outbound
import IdentityHub.Issuer.Mint

/-!
# The Credential Request and its key proof

How a body is read as a Credential Request, which key proofs it carries, and
what is checked about a `jwt` key proof: first everything that needs neither the
network nor the issuer's tables (`inspectJwtProof`), then its signature under
the key its header names (`verifyProofSignature`).
-/

namespace IdentityHub.Oid4vci

open Json (Value)

/-! ## Reading a Credential Request -/

/-- A field of a struct: by name in an object, by position in an array. -/
def structField (v : Value) (position : ℕ) (name : String) : Option Value :=
  match v with
  | .array items => items[position]?
  | v => v.get name

/-- A struct all of whose fields may be left out is any object, or an array that
is not too long. -/
def isStruct (v : Value) (fields : ℕ) : Bool :=
  match v with
  | .object _ => true
  | .array items => items.length ≤ fields
  | _ => false

/-- An `Option` field: `none` when absent or `null`. -/
def optional {α : Type*} (read : Value → Option α) : Option Value → Option (Option α)
  | none | some .null => some none
  | some v => (read v).map some

structure SingleProof where
  proofType : String
  jwt : Option String
deriving DecidableEq

/-- Body of the Credential Endpoint; `proofs` holds the `jwt` member. -/
structure CredentialRequest where
  credentialConfigurationId : Option String
  credentialIdentifier : Option String
  proofs : Option (List String)
  proof : Option SingleProof
deriving DecidableEq

def readProofs (v : Value) : Option (List String) :=
  if isStruct v 1 then
    match structField v 0 "jwt" with
    | none => some []
    | some jwt => jwt.asArray.bind (fun items => items.mapM Value.asStr)
  else none

def readSingleProof (v : Value) : Option SingleProof :=
  if isStruct v 2 then do
    let proofType ← (structField v 0 "proof_type").bind Value.asStr
    let jwt ← optional Value.asStr (structField v 1 "jwt")
    return { proofType := proofType, jwt := jwt }
  else none

def CredentialRequest.fromJson (v : Value) : Option CredentialRequest :=
  if isStruct v 4 then do
    let configurationId ←
      optional Value.asStr (structField v 0 "credential_configuration_id")
    let identifier ← optional Value.asStr (structField v 1 "credential_identifier")
    let proofs ← optional readProofs (structField v 2 "proofs")
    let proof ← optional readSingleProof (structField v 3 "proof")
    return {
      credentialConfigurationId := configurationId
      credentialIdentifier := identifier
      proofs := proofs
      proof := proof }
  else none

/-- Every `jwt` key proof of the request, in either of the two shapes. -/
def CredentialRequest.jwtProofs (request : CredentialRequest) : List String :=
  request.proofs.getD [] ++
    match request.proof with
    | some { proofType := "jwt", jwt := some jwt } => [jwt]
    | _ => []

/-! ## Key proofs -/

def proofJwtTyp : String := "openid4vci-proof+jwt"

def proofMaxAgeSecs : ℕ := 300

def proofIatLeewaySecs : ℕ := 30

/-- How the header of a proof names the holder's key. -/
inductive ProofKey where
  | didUrl (kid did : String)
  | jwk (x y did : String)
deriving DecidableEq

def ProofKey.holderDid : ProofKey → String
  | .didUrl _ did => did
  | .jwk _ _ did => did

inductive ProofError where
  | malformed (detail : String)
  | wrongType
  | wrongAlgorithm
  | noKey
  | wrongAudience
  | staleOrFutureIat
deriving DecidableEq

def ProofError.toString : ProofError → String
  | .malformed detail => "proof is not a decodable JWS: " ++ detail
  | .wrongType => "proof typ must be '" ++ proofJwtTyp ++ "'"
  | .wrongAlgorithm => "proof alg must be ES256"
  | .noKey =>
      "proof header must carry exactly one of kid (a DID URL) or jwk (a P-256 key)"
  | .wrongAudience => "proof aud does not name this Credential Issuer"
  | .staleOrFutureIat => "proof iat is missing, in the future, or too old"

variable {X : External} (service : IssuerService X)

/-- The `did:jwk` of a public key. -/
def didJwk (X : External) (x y : String) : String :=
  let publicKey := Value.object
    [("crv", .string "P-256"), ("kty", .string "EC"), ("x", .string x), ("y", .string y)]
  "did:jwk:" ++ String.ofList (Base64Url.encode (X.jsonText publicKey).toUTF8.toList)

/-- The key reference of a proof's header: `kid` or `jwk`, never both. -/
def proofKey (X : External) (header : Value) : Option ProofKey :=
  match header.get "kid", header.get "jwk" with
  | some (.string kid), none =>
      if "did:".toList.isPrefixOf kid.toList then
        some (.didUrl kid (String.ofList (kid.toList.takeWhile (· != '#'))))
      else none
  | none, some (.object fields) =>
      let jwk := Value.object fields
      if jwk.getStr "kty" ≠ some "EC" ∨ jwk.getStr "crv" ≠ some "P-256" ∨
          (jwk.get "d").isSome then none
      else
        match jwk.getStr "x", jwk.getStr "y" with
        | some x, some y => some (.jwk x y (didJwk X x y))
        | _, _ => none
  | _, _ => none

/-- `aud` is the issuer, or a list that has it. -/
def audienceNames (payload : Value) (credentialIssuer : String) : Bool :=
  match payload.get "aud" with
  | some (.string aud) => aud = credentialIssuer
  | some (.array auds) => auds.any (fun a => a.asStr = some credentialIssuer)
  | _ => false

/-- `iat` is there, at most 30 s ahead and at most 300 s old. -/
def iatFresh (payload : Value) (now : ℕ) : Bool :=
  match payload.getU64 "iat" with
  | some iat => iat ≤ now + proofIatLeewaySecs && now ≤ iat + proofMaxAgeSecs
  | none => false

def inspectJwtProof (X : External) (proof credentialIssuer : String) (now : ℕ) :
    Except ProofError (ProofKey × Option String) :=
  match X.decodeJwsUnverified proof with
  | .error e => .error (.malformed e)
  | .ok (header, payload) =>
    if header.getStr "typ" ≠ some proofJwtTyp then .error .wrongType
    else if header.getStr "alg" ≠ some "ES256" then .error .wrongAlgorithm
    else
      match proofKey X header with
      | none => .error .noKey
      | some key =>
        if !audienceNames payload credentialIssuer then .error .wrongAudience
        else if !iatFresh payload now then .error .staleOrFutureIat
        else .ok (key, payload.getStr "nonce")

/-- `verify_proof_signature`; `resolved` is the network's answer to resolving
the DID of the `kid`. -/
def verifyProofSignature (proof : String) (key : ProofKey)
    (resolved : Except String X.DidDocument) : Except String Unit := do
  let verifyingKey ←
    match key with
    | .jwk x y _ => X.jwkToVerifyingKey x y
    | .didUrl kid did =>
      if !"did:web:".toList.isPrefixOf did.toList then
        .error ("unsupported DID method in kid '" ++ kid ++ "'")
      else
        match service.outbound.checkDid X did service.insecureHttp with
        | .error e => .error e.toString
        | .ok () => do
            let document ← resolved
            X.findVerifyingKey document kid
  X.verifyJwsSignature proof verifyingKey

end IdentityHub.Oid4vci
