import IdentityHub.Lib.Json
import IdentityHub.Lib.Text

/-!
# The credential-definition catalog

What the issuer may issue: a list of definitions in insertion order, seeded
with one entry, edited by the operator. A definition is built from operator
input by `intoDefinition`, which is where its rules are checked.
-/

namespace IdentityHub

/-- A rule-level error, mapped by the admin API onto its HTTP status: 400, 404,
409 and 503. -/
inductive IssuerError where
  | invalid (message : String)
  | notFound (message : String)
  | conflict (message : String)
  | full (message : String)
deriving DecidableEq

def maxCredentialDefinitions : ℕ := 256

/-- The one credential format this hub can sign. -/
def formatVc10Jwt : String := "VC1_0_JWT"

/-- Default credential validity, seconds. -/
def defaultValiditySecs : ℕ := 3600

structure CredentialDefinition where
  id : String
  credentialType : String
  format : String
  validity : ℕ
  jsonSchemaUrl : Option String
  jsonSchema : Option Json.Value
  mappings : List Json.Value
  rules : List Json.Value
  attestations : List Json.Value
  createdAt : ℕ
deriving DecidableEq

/-- What the operator may send; `validity` is any 64-bit signed integer. -/
structure CredentialDefinitionInput where
  id : String
  credentialType : String
  format : Option String := none
  validity : Option ℤ := none
  jsonSchemaUrl : Option String := none
  jsonSchema : Option Json.Value := none
  mappings : Option (List Json.Value) := none
  rules : Option (List Json.Value) := none
  attestations : Option (List Json.Value) := none

/-- `^[A-Za-z][A-Za-z0-9_.-]*$`. -/
def validCredentialType (value : String) : Bool :=
  match value.toList with
  | [] => false
  | c :: rest =>
      c.isAlpha && rest.all (fun c => c.isAlphanum || c == '_' || c == '.' || c == '-')

def CredentialDefinitionInput.intoDefinition (input : CredentialDefinitionInput)
    (createdAt : ℕ) : Except IssuerError CredentialDefinition :=
  if Text.isBlank input.id then .error (.invalid "id must not be empty")
  else if !validCredentialType input.credentialType then
    .error (.invalid "credentialType must match ^[A-Za-z][A-Za-z0-9_.-]*$")
  else if input.format.getD formatVc10Jwt ≠ formatVc10Jwt then
    .error (.invalid ("format '" ++ input.format.getD formatVc10Jwt ++
      "' is not supported; only " ++ formatVc10Jwt))
  else if input.validity.any (· ≤ 0) then .error (.invalid "validity must be > 0")
  else .ok
    { id := input.id
      credentialType := input.credentialType
      format := input.format.getD formatVc10Jwt
      validity := (input.validity.map Int.toNat).getD defaultValiditySecs
      jsonSchemaUrl := input.jsonSchemaUrl
      jsonSchema := input.jsonSchema
      mappings := input.mappings.getD []
      rules := input.rules.getD []
      attestations := input.attestations.getD []
      createdAt := createdAt }

/-- The catalog, in insertion order. -/
structure DefinitionCatalog where
  definitions : List CredentialDefinition

namespace DefinitionCatalog

/-- The seeded entry: `membership-credential`, every option left out. -/
def seeded (now : ℕ) : DefinitionCatalog where
  definitions :=
    [{ id := "membership-credential"
       credentialType := "MembershipCredential"
       format := formatVc10Jwt
       validity := defaultValiditySecs
       jsonSchemaUrl := none
       jsonSchema := none
       mappings := []
       rules := []
       attestations := []
       createdAt := now }]

/-- The seed is what `intoDefinition` makes of the input the source builds it
from, so its `expect` never fires. -/
theorem seeded_eq_intoDefinition (now : ℕ) :
    (CredentialDefinitionInput.mk "membership-credential" "MembershipCredential"
      none none none none none none none).intoDefinition now =
      .ok ((seeded now).definitions.head (by simp [seeded])) := rfl

def get (catalog : DefinitionCatalog) (id : String) : Option CredentialDefinition :=
  catalog.definitions.find? (fun d => d.id == id)

def create (catalog : DefinitionCatalog) (definition : CredentialDefinition) :
    Except IssuerError DefinitionCatalog :=
  if (catalog.get definition.id).isSome then
    .error (.conflict ("credential definition '" ++ definition.id ++ "' already exists"))
  else if maxCredentialDefinitions ≤ catalog.definitions.length then
    .error (.full ("at most 256 credential definitions"))
  else .ok { definitions := catalog.definitions ++ [definition] }

/-- Replace the first definition with this id, keeping its `createdAt`. -/
def update (catalog : DefinitionCatalog) (definition : CredentialDefinition) :
    Except IssuerError (CredentialDefinition × DefinitionCatalog) :=
  match catalog.get definition.id with
  | none => .error (.notFound ("no credential definition '" ++ definition.id ++ "'"))
  | some existing =>
      let updated := { definition with createdAt := existing.createdAt }
      .ok (updated,
        { definitions := catalog.definitions.replaceF
            (fun d => if d.id == definition.id then some updated else none) })

def remove (catalog : DefinitionCatalog) (id : String) : DefinitionCatalog where
  definitions := catalog.definitions.filter (fun d => d.id != id)

end DefinitionCatalog

end IdentityHub
