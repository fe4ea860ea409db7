import IdentityHub.Lib.Json
import IdentityHub.Lib.WebUrl

/-!
# What the hub takes from crates outside the repository

The hub builds on `dcp_core` (DIDs and JWS), on the URL parser of its HTTP
client, on `chrono` for dates, on `flate2` for the status list, on `base64` and
on `serde_json`. Their functions are the fields of `External`; every definition of the model
takes such a structure. What a result relies on about them is a hypothesis of
that result, stated as one of the laws at the end of this file.

A DID document, a signing key and a verifying key are opaque. Errors are the
strings `dcp_core` reports.
-/

namespace IdentityHub

open Json (Value)

/-- A parsed URL, as far as the outbound policy looks at it. -/
structure Url where
  scheme : String
  host : Option String
deriving DecidableEq

/-- The functions of the crates the hub is built on, under their names there.
`signJws` takes the payload, the key and its id; `decodeJwsUnverified` gives the
header and the payload of a string whose parts decode and verifies nothing;
`rfc3339` is the date to the second, `none` past the range of the date type, and
`rfc3339Max` the date at the end of that range. -/
structure External where
  -- dcp_core
  DidDocument : Type
  SigningKey : Type
  VerifyingKey : Type
  signJws : Value → SigningKey → String → String
  decodeJwsUnverified : String → Except String (Value × Value)
  verifyJwsSignature : String → VerifyingKey → Except String Unit
  verifyingKey : SigningKey → VerifyingKey
  findVerifyingKey : DidDocument → String → Except String VerifyingKey
  capabilityInvocation : DidDocument → List String
  serviceEndpointUrl : DidDocument → String → Except String String
  didWebToUrl : String → Bool → Except String String
  jwkToVerifyingKey : String → String → Except String VerifyingKey
  -- reqwest: Url::parse, and StatusCode as it prints
  parseUrl : String → Except String Url
  statusText : ℕ → String
  -- chrono
  rfc3339 : ℕ → Option String
  rfc3339Max : String
  -- flate2
  gzip : List UInt8 → List UInt8
  -- base64, its STANDARD engine
  base64Standard : String → Option (List UInt8)
  -- serde_json: a value's text, and why a body is no Credential Request
  jsonText : Value → String
  credentialRequestError : Value → String

namespace External

/-- Decoding a JWS the hub signed gives back its payload and its key id. -/
def SignRoundTrip (X : External) : Prop :=
  ∀ payload key kid, ∃ header,
    X.decodeJwsUnverified (X.signJws payload key kid) = .ok (header, payload) ∧
      header.getStr "kid" = some kid

/-- A JWS verifies under the verifying key of the key it was signed with. -/
def SignVerifies (X : External) : Prop :=
  ∀ payload key kid,
    X.verifyJwsSignature (X.signJws payload key kid) (X.verifyingKey key) = .ok ()

/-- Where an `http` or `https` URL goes is read off it as the URL standard says, and no
other text is taken for one. -/
structure FollowsUrlStandard (X : External) (hosts : WebUrl.HostParser) : Prop where
  scheme : ∀ s parsed, X.parseUrl s = .ok parsed → WebUrl.scheme s = some parsed.scheme
  http : ∀ s, WebUrl.scheme s = some "http" ∨ WebUrl.scheme s = some "https" →
    ∀ parsed, X.parseUrl s = .ok parsed ↔ ∃ scheme host,
      WebUrl.parse hosts s = some (scheme, host) ∧
        parsed = { scheme := scheme, host := some host }

end External

end IdentityHub
