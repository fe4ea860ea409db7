import IdentityHub.Lib.Grouping
import IdentityHub.Lib.Rdf
import IdentityHub.Hub.State
import Mathlib.Data.Prod.Lex

/-!
# The credential graph

`CredentialGraph` of the graph crate. A batch or an offer is taken apart into triples
about fresh blank nodes, inserted one after another; what there are too many of is
counted, and then deleted, oldest first, by one update; and it is read back by a query
whose ordered rows are grouped again. A method is a program over the operations of the
store, each of which happens at once: inserting a quad, answering a query, carrying out
an update. The store is in memory and the queries are fixed, so no operation fails.
-/

namespace IdentityHub.CredentialGraph

open Json (Value)
open Rdf (Term Triple SortedBy optional)

/-! ## Vocabulary and terms -/

/-- The predicates and classes the graph is written in. -/
inductive Vocab where
  | rdfType
  | verifiableCredential
  | issuer
  | credentialBatch
  | acceptedCredentialOffer
  | order
  | batchId
  | issuerPid
  | holderPid
  | status
  | rejectionReason
  | hasCredential
  | credentialType
  | format
  | payload
  | offerId
  | offersCredential
  | credentialId
deriving DecidableEq

def rdf (term : String) : String := "http://www.w3.org/1999/02/22-rdf-syntax-ns#" ++ term

def vc (term : String) : String := "https://www.w3.org/2018/credentials#" ++ term

def ds (term : String) : String := "https://ds42.org/ontologies/ds-identity-hub-rs#" ++ term

def Vocab.iri : Vocab → String
  | rdfType => rdf "type"
  | verifiableCredential => vc "VerifiableCredential"
  | issuer => vc "issuer"
  | credentialBatch => ds "CredentialBatch"
  | acceptedCredentialOffer => ds "AcceptedCredentialOffer"
  | order => ds "order"
  | batchId => ds "batchId"
  | issuerPid => ds "issuerPid"
  | holderPid => ds "holderPid"
  | status => ds "status"
  | rejectionReason => ds "rejectionReason"
  | hasCredential => ds "hasCredential"
  | credentialType => ds "credentialType"
  | format => ds "format"
  | payload => ds "payload"
  | offerId => ds "offerId"
  | offersCredential => ds "offersCredential"
  | credentialId => ds "credentialId"

abbrev Node := Term Vocab
abbrev Quad := Triple Vocab

/-- `literal_value`. -/
def literalValue : Node → Option String
  | .literal text => some text
  | .integer n => some (toString n)
  | .iri name => some name.iri
  | .blank _ => none

/-- `serde_json`, from a value to its text and back. -/
structure JsonText where
  text : Value → String
  fromStr : String → Option Value

/-- Reading the text of a value gives the value. -/
def JsonText.Invertible (J : JsonText) : Prop := ∀ v, J.fromStr (J.text v) = some v

/-- `decode_payload`. -/
def decodePayload (J : JsonText) (literal : String) : Value :=
  (J.fromStr literal).getD (.string literal)

/-! ## What goes in and what comes out -/

structure CredentialEntry where
  credentialType : String
  payload : Value
  format : String
deriving DecidableEq

/-- A batch before the graph has an id for it. -/
structure NewCredentialBatch where
  issuerPid : String
  holderPid : Option String
  status : String
  rejectionReason : Option String
  credentials : List CredentialEntry
deriving DecidableEq

/-- A stored batch, read back. -/
structure CredentialBatch extends NewCredentialBatch where
  id : String
deriving DecidableEq

/-! ## The queries

Rows bind the variables of a query under their names there. -/

/-- What the optional credential part of a batch row binds. -/
structure CredentialBinding where
  cred : Node
  corder : Node
  type : Node
  format : Node
  payload : Node
deriving DecidableEq

structure BatchRow where
  batch : Node
  border : Node
  batchId : Node
  issuerPid : Node
  holderPid : Option Node
  status : Node
  rejectionReason : Option Node
  credential : Option CredentialBinding
deriving DecidableEq

structure CredentialRow where
  type : Node
  format : Node
  payload : Node
deriving DecidableEq

/-- What the optional credential part of an offer row binds. -/
structure OfferedBinding where
  oc : Node
  ocorder : Node
  credentialId : Node
  credentialType : Option Node
deriving DecidableEq

structure OfferRow where
  offer : Node
  border : Node
  offerId : Node
  issuer : Node
  credential : Option OfferedBinding
deriving DecidableEq

section

variable (g : Rdf.Graph Vocab)

def credentialBindings (batch : Node) : Multiset CredentialBinding :=
  (g.objects batch .hasCredential).bind fun cred =>
  (g.objects cred .order).bind fun corder =>
  (g.objects cred .credentialType).bind fun type =>
  (g.objects cred .format).bind fun format =>
  (g.objects cred .payload).map fun payload =>
    { cred, corder, type, format, payload }

/-- The rest of the query of `batches` for one `?batch` and one `?border`. -/
def batchMatches (batch border : Node) : Multiset BatchRow :=
  (g.objects batch .batchId).bind fun batchId =>
  (g.objects batch .issuerPid).bind fun issuerPid =>
  (g.objects batch .status).bind fun status =>
  (optional (g.objects batch .holderPid)).bind fun holderPid =>
  (optional (g.objects batch .rejectionReason)).bind fun rejectionReason =>
  (optional (credentialBindings g batch)).map fun credential =>
    { batch, border, batchId, issuerPid, holderPid, status, rejectionReason, credential }

/-- The query of `batches`. -/
def batchSolutions : Multiset BatchRow :=
  (g.facts .order).bind fun t => batchMatches g t.subject t.object

/-- `ORDER BY ?border ?corder`. -/
def BatchRow.key (row : BatchRow) : WithBot ℕ ×ₗ WithBot ℕ :=
  toLex (row.border.number, row.credential.elim ⊥ (fun c => c.corder.number))

/-- The query of `credentials_of_types`. -/
def credentialSolutions : Multiset CredentialRow :=
  (g.subjects .status (.literal "ISSUED")).bind fun batch =>
  (g.objects batch .hasCredential).bind fun cred =>
  (g.objects cred .credentialType).bind fun type =>
  (g.objects cred .format).bind fun format =>
  (g.objects cred .payload).map fun payload =>
    { type, format, payload }

def offeredBindings (offer : Node) : Multiset OfferedBinding :=
  (g.objects offer .offersCredential).bind fun oc =>
  (g.objects oc .order).bind fun ocorder =>
  (g.objects oc .credentialId).bind fun credentialId =>
  (optional (g.objects oc .credentialType)).map fun credentialType =>
    { oc, ocorder, credentialId, credentialType }

/-- The rest of the query of `offers` for one `?offer` and one `?border`. -/
def offerMatches (offer border : Node) : Multiset OfferRow :=
  (g.objects offer .offerId).bind fun offerId =>
  (g.objects offer .issuer).bind fun issuer =>
  (optional (offeredBindings g offer)).map fun credential =>
    { offer, border, offerId, issuer, credential }

/-- The query of `offers`. -/
def offerSolutions : Multiset OfferRow :=
  (g.facts .order).bind fun t => offerMatches g t.subject t.object

/-- `ORDER BY ?border ?ocorder`. -/
def OfferRow.key (row : OfferRow) : WithBot ℕ ×ₗ WithBot ℕ :=
  toLex (row.border.number, row.credential.elim ⊥ (fun c => c.ocorder.number))

/-- The nodes of a class with their order, as the inner query of `trim_oldest` finds
them. -/
def orderedNodes (nodeClass : Vocab) : Multiset (Node × Node) :=
  (g.subjects .rdfType (.iri nodeClass)).bind fun node =>
  (g.objects node .order).map fun order => (node, order)

/-- The nodes the inner query of `trim_oldest` keeps: the first ones by their order. -/
def Oldest (nodeClass : Vocab) (excess : ℕ) (nodes : List Node) : Prop :=
  ∃ rows : List (Node × Node), (rows : Multiset (Node × Node)) = orderedNodes g nodeClass ∧
    SortedBy (fun row => row.2.number) rows ∧ nodes = (rows.take excess).map Prod.fst

/-- The solutions of the update of `trim_oldest`: a fact about an evicted node, and one
about a child of it if there is one. -/
def trimSolutions (childPredicate : Vocab) (nodes : List Node) : Multiset (Quad × Option Quad) :=
  (nodes : Multiset Node).bind fun node =>
  (g.filter (fun t => t.subject = node)).val.bind fun fact =>
  (optional ((g.objects node childPredicate).bind fun child =>
    (g.filter (fun t => t.subject = child)).val)).map fun childFact => (fact, childFact)

/-- The triples the update of `trim_oldest` leaves: neither of the two templates deletes
them in any solution. -/
def trimmed (childPredicate : Vocab) (nodes : List Node) : Rdf.Graph Vocab :=
  g.filter (fun t => t ∉ (trimSolutions g childPredicate nodes).map Prod.fst ∧
    some t ∉ (trimSolutions g childPredicate nodes).map Prod.snd)

end

/-! ## The store -/

/-- One operation of the store, or of the counters a method draws on. -/
inductive GraphOp where
  | newUuid
  | newBlankNode
  | nextOrder
  | insert (quad : Quad)
  | countOfType (nodeClass : Vocab)
  | deleteOldest (nodeClass childPredicate : Vocab) (excess : ℕ)
  | selectBatches
  | selectCredentials
  | selectOffers

abbrev GraphOp.Answer : GraphOp → Type
  | .newUuid => String
  | .newBlankNode => ℕ
  | .nextOrder => ℕ
  | .insert _ => Unit
  | .countOfType _ => ℕ
  | .deleteOldest _ _ _ => Unit
  | .selectBatches => List BatchRow
  | .selectCredentials => List CredentialRow
  | .selectOffers => List OfferRow

abbrev graphEffects : Effects where
  Op := GraphOp
  Answer := GraphOp.Answer

abbrev GraphProgram (α : Type) := Program graphEffects Empty α

abbrev GraphEvent := Event graphEffects

/-- The triples, the insertion counter, and the blank nodes there have been. -/
structure GraphState where
  triples : Rdf.Graph Vocab
  nextOrder : ℕ
  nodes : Finset ℕ

/-- `open_in_memory`. -/
def openInMemory : GraphState where
  triples := ∅
  nextOrder := 0
  nodes := ∅

/-- What may be answered, and the state afterwards. A blank node is a new one, the
counter has 64 bits, and a query is answered in any order its `ORDER BY` allows. -/
def graphEnvironment : Environment graphEffects GraphState where
  respond s e s' :=
    match e with
    | ⟨.newUuid, _⟩ => s' = s
    | ⟨.newBlankNode, label⟩ => label ∉ s.nodes ∧ s' = { s with nodes := insert label s.nodes }
    | ⟨.nextOrder, order⟩ =>
        order = s.nextOrder ∧ s' = { s with nextOrder := (s.nextOrder + 1) % 2 ^ 64 }
    | ⟨.insert quad, _⟩ => s' = { s with triples := insert quad s.triples }
    | ⟨.countOfType nodeClass, count⟩ =>
        count = (s.triples.subjects .rdfType (.iri nodeClass)).card ∧ s' = s
    | ⟨.deleteOldest nodeClass childPredicate excess, _⟩ =>
        ∃ nodes, Oldest s.triples nodeClass excess nodes ∧
          s' = { s with triples := trimmed s.triples childPredicate nodes }
    | ⟨.selectBatches, rows⟩ =>
        (rows : Multiset BatchRow) = batchSolutions s.triples ∧ SortedBy BatchRow.key rows ∧ s' = s
    | ⟨.selectCredentials, rows⟩ =>
        (rows : Multiset CredentialRow) = credentialSolutions s.triples ∧ s' = s
    | ⟨.selectOffers, rows⟩ =>
        (rows : Multiset OfferRow) = offerSolutions s.triples ∧ SortedBy OfferRow.key rows ∧ s' = s

/-! ## Events and operations -/

def uuidDrawn (id : String) : GraphEvent := ⟨GraphOp.newUuid, id⟩

def nodeDrawn (label : ℕ) : GraphEvent := ⟨GraphOp.newBlankNode, label⟩

def orderDrawn (order : ℕ) : GraphEvent := ⟨GraphOp.nextOrder, order⟩

def inserted (quad : Quad) : GraphEvent := ⟨GraphOp.insert quad, ()⟩

def counted (nodeClass : Vocab) (count : ℕ) : GraphEvent := ⟨GraphOp.countOfType nodeClass, count⟩

def deletedOldest (nodeClass childPredicate : Vocab) (excess : ℕ) : GraphEvent :=
  ⟨GraphOp.deleteOldest nodeClass childPredicate excess, ()⟩

def batchesSelected (rows : List BatchRow) : GraphEvent := ⟨GraphOp.selectBatches, rows⟩

def credentialsSelected (rows : List CredentialRow) : GraphEvent :=
  ⟨GraphOp.selectCredentials, rows⟩

def offersSelected (rows : List OfferRow) : GraphEvent := ⟨GraphOp.selectOffers, rows⟩

def newUuid : GraphProgram String := .ask GraphOp.newUuid .pure

/-- `BlankNode::default()`. -/
def newBlankNode : GraphProgram ℕ := .ask GraphOp.newBlankNode .pure

def nextOrder : GraphProgram ℕ := .ask GraphOp.nextOrder .pure

def insertQuad (quad : Quad) : GraphProgram Unit := .ask (GraphOp.insert quad) .pure

def countOfType (nodeClass : Vocab) : GraphProgram ℕ := .ask (GraphOp.countOfType nodeClass) .pure

def deleteOldest (nodeClass childPredicate : Vocab) (excess : ℕ) : GraphProgram Unit :=
  .ask (GraphOp.deleteOldest nodeClass childPredicate excess) .pure

def selectBatches : GraphProgram (List BatchRow) := .ask GraphOp.selectBatches .pure

def selectCredentials : GraphProgram (List CredentialRow) := .ask GraphOp.selectCredentials .pure

def selectOffers : GraphProgram (List OfferRow) := .ask GraphOp.selectOffers .pure

def insertAll : List Quad → GraphProgram Unit
  | [] => pure ()
  | quad :: quads => do
      insertQuad quad
      insertAll quads

/-! ## The methods -/

/-- `trim_oldest`. -/
def trimOldest (nodeClass childPredicate : Vocab) (cap : ℕ) : GraphProgram Unit := do
  let count ← countOfType nodeClass
  if 0 < count - cap then deleteOldest nodeClass childPredicate (count - cap) else pure ()

/-- Draw a node for each item from the `i`-th on, and make its quads. -/
def childQuads {α : Type} (quadsOf : ℕ → ℕ → α → List Quad) : ℕ → List α → GraphProgram (List Quad)
  | _, [] => pure []
  | i, item :: items => do
      let child ← newBlankNode
      let quads ← childQuads quadsOf (i + 1) items
      pure (quadsOf child i item ++ quads)

/-- What `add_batch` and `add_offer` both do, with the quads of the node they make, the
quads of each of its children, and the class they trim. -/
def addRecord {α : Type} (rootQuads : Node → String → ℕ → List Quad)
    (quadsOf : Node → ℕ → ℕ → α → List Quad) (items : List α) (nodeClass childPredicate : Vocab)
    (cap : ℕ) : GraphProgram String := do
  let id ← newUuid
  let node ← newBlankNode
  let order ← nextOrder
  let quads ← childQuads (quadsOf (.blank node)) 0 items
  insertAll (rootQuads (.blank node) id order ++ quads)
  trimOldest nodeClass childPredicate cap
  pure id

section

variable (J : JsonText)

/-- The quads of a batch's own node. -/
def batchQuads (node : Node) (id : String) (order : ℕ) (batch : NewCredentialBatch) : List Quad :=
  [⟨node, .rdfType, .iri .credentialBatch⟩, ⟨node, .batchId, .literal id⟩,
    ⟨node, .order, .integer order⟩, ⟨node, .issuerPid, .literal batch.issuerPid⟩,
    ⟨node, .status, .literal batch.status⟩] ++
  batch.holderPid.toList.map (fun holderPid => ⟨node, .holderPid, .literal holderPid⟩) ++
  batch.rejectionReason.toList.map (fun reason => ⟨node, .rejectionReason, .literal reason⟩)

/-- The quads of a batch's `i`-th credential. -/
def entryQuads (node cred : Node) (i : ℕ) (entry : CredentialEntry) : List Quad :=
  [⟨node, .hasCredential, cred⟩, ⟨cred, .rdfType, .iri .verifiableCredential⟩,
    ⟨cred, .order, .integer i⟩, ⟨cred, .credentialType, .literal entry.credentialType⟩,
    ⟨cred, .format, .literal entry.format⟩, ⟨cred, .payload, .literal (J.text entry.payload)⟩]

def addBatch (batch : NewCredentialBatch) : GraphProgram String :=
  addRecord (fun node id order => batchQuads node id order batch)
    (fun node cred i entry => entryQuads J node (.blank cred) i entry) batch.credentials
    .credentialBatch .hasCredential maxCredentialBatches

/-- What a row says of its batch. -/
def BatchRow.start (row : BatchRow) : CredentialBatch where
  id := (literalValue row.batchId).getD ""
  issuerPid := (literalValue row.issuerPid).getD ""
  holderPid := row.holderPid.bind literalValue
  status := (literalValue row.status).getD ""
  rejectionReason := row.rejectionReason.bind literalValue
  credentials := []

/-- What the credential part of a row says. -/
def CredentialBinding.entry (binding : CredentialBinding) : Option CredentialEntry :=
  (literalValue binding.type).map fun credentialType =>
    { credentialType
      format := (literalValue binding.format).getD ""
      payload := ((literalValue binding.payload).map (decodePayload J)).getD .null }

/-- A row's credential, if it has one, joins the batch. -/
def BatchRow.addTo (batch : CredentialBatch) (row : BatchRow) : CredentialBatch :=
  { batch with credentials :=
      batch.credentials ++ (row.credential.bind (CredentialBinding.entry J)).toList }

/-- All batches: a row belongs to the batch before it if it has the same node. -/
def batches : GraphProgram (List CredentialBatch) := do
  let rows ← selectBatches
  pure ((rows.foldl (pushRow BatchRow.batch BatchRow.start (BatchRow.addTo J)) []).map Prod.snd)

/-- What a row of `credentials_of_types` gives, if its type is asked for. -/
def CredentialRow.entry (types : List String) (row : CredentialRow) : Option CredentialEntry :=
  (literalValue row.type).bind fun credentialType =>
    if credentialType ∈ types then
      some {
        credentialType
        format := (literalValue row.format).getD ""
        payload := ((literalValue row.payload).map (decodePayload J)).getD .null }
    else none

def credentialsOfTypes (types : List String) : GraphProgram (List CredentialEntry) := do
  let rows ← selectCredentials
  pure (rows.filterMap (CredentialRow.entry J types))

end

/-- The quads of an offer's own node. -/
def offerQuads (node : Node) (id : String) (order : ℕ) (offer : NewAcceptedOffer) : List Quad :=
  [⟨node, .rdfType, .iri .acceptedCredentialOffer⟩, ⟨node, .offerId, .literal id⟩,
    ⟨node, .order, .integer order⟩, ⟨node, .issuer, .literal offer.issuer⟩]

/-- The quads of an offer's `i`-th credential. -/
def offeredQuads (node oc : Node) (i : ℕ) (credential : OfferedCredential) : List Quad :=
  [⟨node, .offersCredential, oc⟩, ⟨oc, .order, .integer i⟩,
    ⟨oc, .credentialId, .literal credential.id⟩] ++
  credential.credentialType.toList.map
    (fun credentialType => ⟨oc, .credentialType, .literal credentialType⟩)

def addOffer (offer : NewAcceptedOffer) : GraphProgram String :=
  addRecord (fun node id order => offerQuads node id order offer)
    (fun node oc i credential => offeredQuads node (.blank oc) i credential) offer.credentials
    .acceptedCredentialOffer .offersCredential maxAcceptedOffers

/-- What a row says of its offer. -/
def OfferRow.start (row : OfferRow) : AcceptedOffer where
  id := (literalValue row.offerId).getD ""
  offer := { issuer := (literalValue row.issuer).getD "", credentials := [] }

/-- What the credential part of a row says. -/
def OfferedBinding.entry (binding : OfferedBinding) : Option OfferedCredential :=
  (literalValue binding.credentialId).map fun id =>
    { id, credentialType := binding.credentialType.bind literalValue }

/-- A row's credential, if it has one, joins the offer. -/
def OfferRow.addTo (accepted : AcceptedOffer) (row : OfferRow) : AcceptedOffer :=
  { accepted with offer := { accepted.offer with credentials :=
      accepted.offer.credentials ++ (row.credential.bind OfferedBinding.entry).toList } }

/-- All offers, grouped as batches are. -/
def offers : GraphProgram (List AcceptedOffer) := do
  let rows ← selectOffers
  pure ((rows.foldl (pushRow OfferRow.offer OfferRow.start OfferRow.addTo) []).map Prod.snd)

end IdentityHub.CredentialGraph
