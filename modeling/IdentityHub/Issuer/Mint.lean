import IdentityHub.Http.Outbound
import IdentityHub.Issuer.Catalog
import IdentityHub.Issuer.StatusList
import IdentityHub.Messages

/-!
# What the issuer signs

The credential a definition is minted into, for either issuance protocol, and
the signed status list.
-/

namespace IdentityHub

open Json (Value)

/-- How an unknown holder's first request is treated. -/
inductive HolderApproval where
  | auto
  | manual
deriving DecidableEq

/-- The configuration and identity of an Issuer Service. -/
structure IssuerService (X : External) where
  holderApproval : HolderApproval
  insecureHttp : Bool
  outbound : OutboundPolicy
  identity : ServiceIdentity X
  baseUrl : String

def statusListContext : String := "https://w3id.org/vc/status-list/2021/v1"

def statusListPath : String := "/statuslist/revocation"

variable {X : External} (service : IssuerService X)

/-- The public URL of the revocation status list. -/
def statusListUrl : String := service.baseUrl ++ statusListPath

/-- `xsd_date_time`: a date past chrono's range is clamped to its end. -/
def xsdDateTime (X : External) (secs : ℕ) : String := (X.rfc3339 secs).getD X.rfc3339Max

/-- A freshly signed credential and the facts its record needs. -/
structure MintedCredential where
  id : String
  jws : String
  issuedAt : ℕ
  expiresAt : ℕ

/-- The `credentialStatus` entry pointing at one bit of the list. -/
def statusEntry (index : ℕ) : Value :=
  .object
    [("id", .string (statusListUrl service ++ "#" ++ toString index)),
     ("type", .string "StatusList2021Entry"),
     ("statusPurpose", .string "revocation"),
     ("statusListIndex", .string (toString index)),
     ("statusListCredential", .string (statusListUrl service))]

def vcObject (definition : CredentialDefinition) (holderDid : String)
    (statusIndex : Option ℕ) (id : String) (issuedAt expiresAt : ℕ) : Value :=
  let vc : Value := .object
    [("@context", .array [.string vcContext]),
     ("id", .string id),
     ("type", .array [.string "VerifiableCredential", .string definition.credentialType]),
     ("issuer", .string service.identity.ownDid),
     ("issuanceDate", .string (xsdDateTime X issuedAt)),
     ("expirationDate", .string (xsdDateTime X expiresAt)),
     ("credentialSubject", .object [("id", .string holderDid)])]
  match statusIndex with
  | none => vc
  | some index =>
      (vc.set "@context" (.array [.string vcContext, .string statusListContext])).set
        "credentialStatus" (statusEntry service index)

def credentialPayload (definition : CredentialDefinition) (holderDid : String)
    (statusIndex : Option ℕ) (id : String) (issuedAt expiresAt : ℕ) : Value :=
  .object
    [("iss", .string service.identity.ownDid),
     ("sub", .string holderDid),
     ("vc", vcObject service definition holderDid statusIndex id issuedAt expiresAt),
     ("iat", .ofNat issuedAt),
     ("nbf", .ofNat issuedAt),
     ("exp", .ofNat expiresAt),
     ("jti", .string id)]

/-- Sign a definition as a JWT VC bound to a holder; `now` is the clock reading
and `uuid` the drawn identifier. -/
def mintCredential (definition : CredentialDefinition) (holderDid : String)
    (statusIndex : Option ℕ) (now : ℕ) (uuid : String) : MintedCredential :=
  let id := "urn:uuid:" ++ uuid
  let expiresAt := now + definition.validity
  { id := id
    jws := service.identity.sign
      (credentialPayload service definition holderDid statusIndex id now expiresAt)
    issuedAt := now
    expiresAt := expiresAt }

/-- The payload of the StatusList2021Credential. -/
def statusListPayload (list : StatusList) (now : ℕ) : Value :=
  .object
    [("iss", .string service.identity.ownDid),
     ("sub", .string (statusListUrl service)),
     ("iat", .ofNat now),
     ("nbf", .ofNat now),
     ("vc", .object
       [("@context", .array [.string vcContext, .string statusListContext]),
        ("id", .string (statusListUrl service)),
        ("type", .array [.string "VerifiableCredential", .string "StatusList2021Credential"]),
        ("issuer", .string service.identity.ownDid),
        ("credentialSubject", .object
          [("id", .string (statusListUrl service ++ "#list")),
           ("type", .string "StatusList2021"),
           ("statusPurpose", .string "revocation"),
           ("encodedList", .string (list.encoded X))])])]

end IdentityHub
