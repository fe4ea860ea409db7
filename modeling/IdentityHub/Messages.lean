import IdentityHub.External

/-!
# Protocol messages and service identities

The DCP messages the modelled handlers read and write, and the identity a
service signs with.
-/

namespace IdentityHub

def dcpContext : String := "https://w3id.org/dspace-dcp/v1.0/dcp.jsonld"

def vcContext : String := "https://www.w3.org/2018/credentials/v1"

/-- One entry of a `CredentialMessage`. -/
structure CredentialContainer where
  credentialType : String
  payload : Json.Value
  format : String
deriving DecidableEq

/-- Body of the Storage API. -/
structure CredentialMessage where
  context : List String
  messageType : String
  issuerPid : String
  holderPid : String
  status : String
  credentials : List CredentialContainer
  rejectionReason : Option String
deriving DecidableEq

/-- Body of the Resolution API; `presentationDefinition` is not interpreted. -/
structure PresentationQueryMessage where
  context : List String
  messageType : String
  scope : List String
  presentationDefinition : Option Json.Value
deriving DecidableEq

/-- Body of the Credential Request API; `credentials` holds the ids asked for. -/
structure CredentialRequestMessage where
  context : List String
  messageType : String
  holderPid : String
  credentials : List String
deriving DecidableEq

/-- A `did:web` identity this process controls. -/
structure ServiceIdentity (X : External) where
  ownDid : String
  ownKeyId : String
  signingKey : X.SigningKey

/-- `sign_jws` under this identity's own key and key id. -/
def ServiceIdentity.sign {X : External} (identity : ServiceIdentity X) (payload : Json.Value) :
    String :=
  X.signJws payload identity.signingKey identity.ownKeyId

end IdentityHub
