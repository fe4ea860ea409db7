import IdentityHub.Issuer.Query
import IdentityHub.Issuer.Service
import IdentityHub.Oid4vci.Proof

/-!
# What the admin API shows and reads

The JSON the issuer's records are shown as, and how the body of an admin request is read.
A record is shown with all its fields but two: the holder's bearer token and the delivery
flag of a process stay inside. What the operator sends is read field by field, and a field
the API does not know is ignored.
-/

namespace IdentityHub

open Json (Value Number)
open Oid4vci (structField optional)

/-! ## What is shown -/

def textOrNull (text : Option String) : Value := text.elim .null .string

def CredentialDefinition.toJson (definition : CredentialDefinition) : Value :=
  .object
    [("id", .string definition.id),
     ("credentialType", .string definition.credentialType),
     ("format", .string definition.format),
     ("validity", .ofNat definition.validity),
     ("jsonSchemaUrl", textOrNull definition.jsonSchemaUrl),
     ("jsonSchema", definition.jsonSchema.getD .null),
     ("mappings", .array definition.mappings),
     ("rules", .array definition.rules),
     ("attestations", .array definition.attestations),
     ("createdAt", .ofNat definition.createdAt)]

def HolderStatus.text : HolderStatus → String
  | .pending => "pending"
  | .approved => "approved"
  | .rejected => "rejected"

def Holder.toJson (holder : Holder) : Value :=
  .object
    [("holderId", .string holder.holderId),
     ("did", .string holder.did),
     ("name", textOrNull holder.name),
     ("properties", .object holder.properties),
     ("status", .string holder.status.text),
     ("createdAt", .ofNat holder.createdAt)]

def ProcessState.text : ProcessState → String
  | .submitted => "SUBMITTED"
  | .approved => "APPROVED"
  | .delivered => "DELIVERED"
  | .errored => "ERRORED"
  | .rejected => "REJECTED"

/-- `delivery_bearer` and `delivery_started` are skipped. -/
def IssuanceProcess.toJson (process : IssuanceProcess) : Value :=
  .object
    [("id", .string process.id),
     ("state", .string process.state.text),
     ("holderId", .string process.holderId),
     ("holderDid", .string process.holderDid),
     ("holderPid", .string process.holderPid),
     ("credentialDefinitions", .array (process.credentialDefinitions.map .string)),
     ("errorDetail", textOrNull process.errorDetail),
     ("createdAt", .ofNat process.createdAt),
     ("stateTimestamp", .ofNat process.stateTimestamp)]

def CredentialRecordStatus.text : CredentialRecordStatus → String
  | .active => "active"
  | .revoked => "revoked"

def IssuedCredential.toJson (record : IssuedCredential) : Value :=
  .object
    [("id", .string record.id),
     ("credentialType", .string record.credentialType),
     ("credentialDefinitionId", .string record.credentialDefinitionId),
     ("holderId", .string record.holderId),
     ("holderDid", .string record.holderDid),
     ("issuanceProcessId", .string record.issuanceProcessId),
     ("format", .string record.format),
     ("issuedAt", .ofNat record.issuedAt),
     ("expiresAt", .ofNat record.expiresAt),
     ("status", .string record.status.text),
     ("statusListIndex", .ofNat record.statusListIndex)]

/-! ## What is read -/

/-- A struct with these fields, read off a text: an object names a field once at most, and
an array is not too long. -/
def isStructOf (names : List String) : Value → Bool
  | .object fields => names.all (fun name => fields.countP (fun field => field.1 = name) ≤ 1)
  | .array items => items.length ≤ names.length
  | _ => false

/-- An `i64`. -/
def readI64 : Value → Option ℤ
  | .number (.posInt n) => if n.toNat < 2 ^ 63 then some n.toNat else none
  | .number (.negInt z) => some z
  | _ => none

def readObject : Value → Option (List (String × Value))
  | .object fields => some fields
  | _ => none

def CredentialDefinitionInput.fromJson (v : Value) : Option CredentialDefinitionInput :=
  if isStructOf ["id", "credentialType", "format", "validity", "jsonSchemaUrl", "jsonSchema",
    "mappings", "rules", "attestations"] v then do
    let id ← (structField v 0 "id").bind Value.asStr
    let credentialType ← (structField v 1 "credentialType").bind Value.asStr
    let format ← optional Value.asStr (structField v 2 "format")
    let validity ← optional readI64 (structField v 3 "validity")
    let jsonSchemaUrl ← optional Value.asStr (structField v 4 "jsonSchemaUrl")
    let jsonSchema ← optional some (structField v 5 "jsonSchema")
    let mappings ← optional Value.asArray (structField v 6 "mappings")
    let rules ← optional Value.asArray (structField v 7 "rules")
    let attestations ← optional Value.asArray (structField v 8 "attestations")
    return {
      id := id
      credentialType := credentialType
      format := format
      validity := validity
      jsonSchemaUrl := jsonSchemaUrl
      jsonSchema := jsonSchema
      mappings := mappings
      rules := rules
      attestations := attestations }
  else none

def HolderRegistration.fromJson (v : Value) : Option HolderRegistration :=
  if isStructOf ["holderId", "did", "name", "properties"] v then do
    let holderId ← optional Value.asStr (structField v 0 "holderId")
    let did ← (structField v 1 "did").bind Value.asStr
    let name ← optional Value.asStr (structField v 2 "name")
    let properties ← optional readObject (structField v 3 "properties")
    return { holderId := holderId, did := did, name := name, properties := properties }
  else none

def HolderUpdate.fromJson (v : Value) : Option HolderUpdate :=
  if isStructOf ["holderId", "name", "properties"] v then do
    let holderId ← (structField v 0 "holderId").bind Value.asStr
    let name ← optional Value.asStr (structField v 1 "name")
    let properties ← optional readObject (structField v 2 "properties")
    return { holderId := holderId, name := name, properties := properties }
  else none

/-- An `operandRight` that is left out is null. -/
def Criterion.fromJson (v : Value) : Option Criterion :=
  if isStructOf ["operandLeft", "operator", "operandRight"] v then do
    let operandLeft ← (structField v 0 "operandLeft").bind Value.asStr
    let operator ← (structField v 1 "operator").bind Value.asStr
    return {
      operandLeft := operandLeft
      operator := operator
      operandRight := (structField v 2 "operandRight").getD .null }
  else none

def QuerySpec.fromJson (v : Value) : Option QuerySpec :=
  if isStructOf ["offset", "limit", "filterExpression", "sortField", "sortOrder"] v then do
    let offset ← optional readI64 (structField v 0 "offset")
    let limit ← optional readI64 (structField v 1 "limit")
    let filterExpression ← optional
      (fun criteria => criteria.asArray.bind (fun items => items.mapM Criterion.fromJson))
      (structField v 2 "filterExpression")
    let sortField ← optional Value.asStr (structField v 3 "sortField")
    let sortOrder ← optional Value.asStr (structField v 4 "sortOrder")
    return {
      offset := offset
      limit := limit
      filterExpression := filterExpression
      sortField := sortField
      sortOrder := sortOrder }
  else none

end IdentityHub
