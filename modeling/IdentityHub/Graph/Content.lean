import IdentityHub.Graph.Records

/-!
# Batches and offers in the graph

The record an inserted batch or offer is, and what the three queries read back from a
graph that holds some batches and offers and nothing else: each batch with its fields
and its credentials in order, whatever order the rows of equal rank and the triples came
in.
-/

namespace IdentityHub.CredentialGraph

open Rdf (Term Triple Description WellDescribed SortedBy graphOf valuesOf optionalRows)

variable (J : JsonText)

/-! ## Placed batches -/

/-- A batch and where it is in the graph: its node, its order, and the node of each
credential. -/
structure PlacedBatch where
  node : ℕ
  order : ℕ
  id : String
  batch : NewCredentialBatch
  children : List (ℕ × CredentialEntry)
  agree : children.map Prod.snd = batch.credentials

/-- What the graph gives back for it. -/
def PlacedBatch.content (p : PlacedBatch) : CredentialBatch := { p.batch with id := p.id }

def batchFacts (id : String) (order : ℕ) (batch : NewCredentialBatch) : List (Vocab × Node) :=
  [(.rdfType, .iri .credentialBatch), (.batchId, .literal id), (.order, .integer order),
    (.issuerPid, .literal batch.issuerPid), (.status, .literal batch.status)] ++
  batch.holderPid.toList.map (fun holderPid => (.holderPid, .literal holderPid)) ++
  batch.rejectionReason.toList.map (fun reason => (.rejectionReason, .literal reason))

def entryFacts (i : ℕ) (entry : CredentialEntry) : List (Vocab × Node) :=
  [(.rdfType, .iri .verifiableCredential), (.order, .integer i),
    (.credentialType, .literal entry.credentialType), (.format, .literal entry.format),
    (.payload, .literal (J.text entry.payload))]

/-- What the graph says of a batch's `i`-th credential. -/
def entryDescription (i : ℕ) (child : ℕ × CredentialEntry) : Description Vocab :=
  ⟨.blank child.1, entryFacts J i child.2⟩

def PlacedBatch.root (p : PlacedBatch) : Description Vocab where
  node := .blank p.node
  facts := batchFacts p.id p.order p.batch ++
    p.children.map (fun child => (.hasCredential, .blank child.1))

section

variable (p : PlacedBatch)

@[simp] theorem PlacedBatch.root_rdfType :
    p.root.values .rdfType = [.iri .credentialBatch] := by
  simp [PlacedBatch.root, Description.values, batchFacts]

@[simp] theorem PlacedBatch.root_order : p.root.values .order = [.integer p.order] := by
  simp [PlacedBatch.root, Description.values, batchFacts]

@[simp] theorem PlacedBatch.root_batchId : p.root.values .batchId = [.literal p.id] := by
  simp [PlacedBatch.root, Description.values, batchFacts]

@[simp] theorem PlacedBatch.root_issuerPid :
    p.root.values .issuerPid = [.literal p.batch.issuerPid] := by
  simp [PlacedBatch.root, Description.values, batchFacts]

@[simp] theorem PlacedBatch.root_status : p.root.values .status = [.literal p.batch.status] := by
  simp [PlacedBatch.root, Description.values, batchFacts]

@[simp] theorem PlacedBatch.root_holderPid :
    p.root.values .holderPid = p.batch.holderPid.toList.map .literal := by
  simp [PlacedBatch.root, Description.values, batchFacts]

@[simp] theorem PlacedBatch.root_rejectionReason :
    p.root.values .rejectionReason = p.batch.rejectionReason.toList.map .literal := by
  simp [PlacedBatch.root, Description.values, batchFacts]

@[simp] theorem PlacedBatch.root_hasCredential :
    p.root.values .hasCredential = p.children.map (fun child => .blank child.1) := by
  simp [PlacedBatch.root, Description.values, batchFacts]

@[simp] theorem PlacedBatch.root_offerId : p.root.values .offerId = [] := by
  simp [PlacedBatch.root, Description.values, batchFacts]

end

def PlacedBatch.record (p : PlacedBatch) : Record where
  nodeClass := .credentialBatch
  childPredicate := .hasCredential
  order := p.order
  root := p.root
  children := p.children.mapIdx (entryDescription J)
  classed := by decide
  typed := p.root_rdfType
  ordered := p.root_order
  linked := by
    rw [p.root_hasCredential, map_mapIdx_const]
    exact fun i child => rfl
  plain d hd c hc := by
    obtain ⟨i, hi, rfl⟩ := List.mem_mapIdx.mp hd
    simpa [Description.values, entryDescription, entryFacts] using hc

/-! ## Placed offers -/

/-- An offer and where it is in the graph. -/
structure PlacedOffer where
  node : ℕ
  order : ℕ
  id : String
  offer : NewAcceptedOffer
  children : List (ℕ × OfferedCredential)
  agree : children.map Prod.snd = offer.credentials

def PlacedOffer.content (o : PlacedOffer) : AcceptedOffer := { id := o.id, offer := o.offer }

def offerFacts (id : String) (order : ℕ) (offer : NewAcceptedOffer) : List (Vocab × Node) :=
  [(.rdfType, .iri .acceptedCredentialOffer), (.offerId, .literal id), (.order, .integer order),
    (.issuer, .literal offer.issuer)]

def offeredFacts (i : ℕ) (credential : OfferedCredential) : List (Vocab × Node) :=
  [(.order, .integer i), (.credentialId, .literal credential.id)] ++
  credential.credentialType.toList.map
    (fun credentialType => (.credentialType, .literal credentialType))

/-- What the graph says of an offer's `i`-th credential. -/
def offeredDescription (i : ℕ) (child : ℕ × OfferedCredential) : Description Vocab :=
  ⟨.blank child.1, offeredFacts i child.2⟩

def PlacedOffer.root (o : PlacedOffer) : Description Vocab where
  node := .blank o.node
  facts := offerFacts o.id o.order o.offer ++
    o.children.map (fun child => (.offersCredential, .blank child.1))

section

variable (o : PlacedOffer)

@[simp] theorem PlacedOffer.root_rdfType :
    o.root.values .rdfType = [.iri .acceptedCredentialOffer] := by
  simp [PlacedOffer.root, Description.values, offerFacts]

@[simp] theorem PlacedOffer.root_order : o.root.values .order = [.integer o.order] := by
  simp [PlacedOffer.root, Description.values, offerFacts]

@[simp] theorem PlacedOffer.root_offerId : o.root.values .offerId = [.literal o.id] := by
  simp [PlacedOffer.root, Description.values, offerFacts]

@[simp] theorem PlacedOffer.root_issuer :
    o.root.values .issuer = [.literal o.offer.issuer] := by
  simp [PlacedOffer.root, Description.values, offerFacts]

@[simp] theorem PlacedOffer.root_offersCredential :
    o.root.values .offersCredential = o.children.map (fun child => .blank child.1) := by
  simp [PlacedOffer.root, Description.values, offerFacts]

@[simp] theorem PlacedOffer.root_batchId : o.root.values .batchId = [] := by
  simp [PlacedOffer.root, Description.values, offerFacts]

@[simp] theorem PlacedOffer.root_status : o.root.values .status = [] := by
  simp [PlacedOffer.root, Description.values, offerFacts]

end

def PlacedOffer.record (o : PlacedOffer) : Record where
  nodeClass := .acceptedCredentialOffer
  childPredicate := .offersCredential
  order := o.order
  root := o.root
  children := o.children.mapIdx offeredDescription
  classed := by decide
  typed := o.root_rdfType
  ordered := o.root_order
  linked := by
    rw [o.root_offersCredential, map_mapIdx_const]
    exact fun i child => rfl
  plain d hd c hc := by
    obtain ⟨i, hi, rfl⟩ := List.mem_mapIdx.mp hd
    simp [Description.values, offeredDescription, offeredFacts] at hc

/-- The records of some batches and offers. -/
def contentRecords (bs : List PlacedBatch) (os : List PlacedOffer) : List Record :=
  bs.map (PlacedBatch.record J) ++ os.map PlacedOffer.record

/-- The graph that holds some batches and offers and nothing else. -/
def contentGraph (bs : List PlacedBatch) (os : List PlacedOffer) : Rdf.Graph Vocab :=
  recordGraph (contentRecords J bs os)

/-! ## Nodes -/

def PlacedBatch.nodes (p : PlacedBatch) : List ℕ := p.node :: p.children.map Prod.fst

def PlacedOffer.nodes (o : PlacedOffer) : List ℕ := o.node :: o.children.map Prod.fst

/-- The nodes of some batches and offers. -/
def contentNodes (bs : List PlacedBatch) (os : List PlacedOffer) : List ℕ :=
  bs.flatMap PlacedBatch.nodes ++ os.flatMap PlacedOffer.nodes

theorem map_node_record (p : PlacedBatch) :
    (p.record J).descriptions.map Description.node = p.nodes.map Term.blank := by
  rw [Record.descriptions, List.map_cons, PlacedBatch.nodes, List.map_cons, List.map_map]
  refine congrArg₂ _ rfl (map_mapIdx_const ?_ p.children)
  exact fun i child => rfl

theorem map_node_offer (o : PlacedOffer) :
    o.record.descriptions.map Description.node = o.nodes.map Term.blank := by
  rw [Record.descriptions, List.map_cons, PlacedOffer.nodes, List.map_cons, List.map_map]
  refine congrArg₂ _ rfl (map_mapIdx_const ?_ o.children)
  exact fun i child => rfl

theorem nodup_batchFacts (p : PlacedBatch) (h : (p.children.map Prod.fst).Nodup) :
    p.root.facts.Nodup := by
  have hchildren : (p.children.map (fun child => (Vocab.hasCredential, (.blank child.1 : Node)))).Nodup := by
    have hmap := h.map (f := fun n => (Vocab.hasCredential, (.blank n : Node)))
      (fun _ _ heq => Term.blank.inj (Prod.ext_iff.mp heq).2)
    rwa [List.map_map] at hmap
  refine List.nodup_append.mpr ⟨?_, hchildren, ?_⟩
  · unfold batchFacts
    cases p.batch.holderPid <;> cases p.batch.rejectionReason <;> simp
  · rintro f hf f' hf' rfl
    obtain ⟨child, -, rfl⟩ := List.mem_map.mp hf'
    simp [batchFacts] at hf

theorem nodup_offerFacts (o : PlacedOffer) (h : (o.children.map Prod.fst).Nodup) :
    o.root.facts.Nodup := by
  have hchildren : (o.children.map (fun child => (Vocab.offersCredential, (.blank child.1 : Node)))).Nodup := by
    have hmap := h.map (f := fun n => (Vocab.offersCredential, (.blank n : Node)))
      (fun _ _ heq => Term.blank.inj (Prod.ext_iff.mp heq).2)
    rwa [List.map_map] at hmap
  refine List.nodup_append.mpr ⟨by simp [offerFacts], hchildren, ?_⟩
  rintro f hf f' hf' rfl
  obtain ⟨child, -, rfl⟩ := List.mem_map.mp hf'
  simp [offerFacts] at hf

/-- Different nodes everywhere. -/
theorem wellPlaced_content {bs : List PlacedBatch} {os : List PlacedOffer}
    (h : (contentNodes bs os).Nodup) : WellPlaced (contentRecords J bs os) := by
  obtain ⟨hbs, hos, -⟩ := List.nodup_append.mp h
  constructor
  · have hnodes : ((contentRecords J bs os).flatMap Record.descriptions).map Description.node =
        (contentNodes bs os).map Term.blank := by
      rw [contentRecords, List.flatMap_append, List.flatMap_map, List.flatMap_map,
        List.map_append, List.map_flatMap, List.map_flatMap, contentNodes, List.map_append,
        List.map_flatMap, List.map_flatMap]
      exact congrArg₂ _ (List.flatMap_congr (fun p _ => map_node_record J p))
        (List.flatMap_congr (fun o _ => map_node_offer o))
    rw [hnodes]
    exact h.map (fun _ _ => Term.blank.inj)
  · intro d hd
    obtain ⟨r, hr, hdr⟩ := List.mem_flatMap.mp hd
    rcases List.mem_append.mp hr with hr | hr
    · obtain ⟨p, hp, rfl⟩ := List.mem_map.mp hr
      have hnodes := (List.nodup_flatMap.mp hbs).1 p hp
      rcases List.mem_cons.mp hdr with rfl | hdr
      · exact nodup_batchFacts p (List.nodup_cons.mp hnodes).2
      · obtain ⟨i, hi, rfl⟩ := List.mem_mapIdx.mp hdr
        simp [entryDescription, entryFacts]
    · obtain ⟨o, ho, rfl⟩ := List.mem_map.mp hr
      have hnodes := (List.nodup_flatMap.mp hos).1 o ho
      rcases List.mem_cons.mp hdr with rfl | hdr
      · exact nodup_offerFacts o (List.nodup_cons.mp hnodes).2
      · obtain ⟨i, hi, rfl⟩ := List.mem_mapIdx.mp hdr
        unfold offeredDescription offeredFacts
        cases o.children[i].2.credentialType <;> simp

/-! ## The quads that are inserted -/

def PlacedBatch.quads (p : PlacedBatch) : List Quad :=
  batchQuads (.blank p.node) p.id p.order p.batch ++
    (p.children.mapIdx (fun i child =>
      entryQuads J (.blank p.node) (.blank child.1) i child.2)).flatten

def PlacedOffer.quads (o : PlacedOffer) : List Quad :=
  offerQuads (.blank o.node) o.id o.order o.offer ++
    (o.children.mapIdx (fun i child =>
      offeredQuads (.blank o.node) (.blank child.1) i child.2)).flatten

theorem triples_entry (node : Node) (i : ℕ) (child : ℕ × CredentialEntry) :
    entryQuads J node (.blank child.1) i child.2 =
      ⟨node, .hasCredential, .blank child.1⟩ :: (entryDescription J i child).triples := rfl

theorem triples_offered (node : Node) (i : ℕ) (child : ℕ × OfferedCredential) :
    offeredQuads node (.blank child.1) i child.2 =
      ⟨node, .offersCredential, .blank child.1⟩ :: (offeredDescription i child).triples := by
  unfold offeredQuads offeredDescription offeredFacts Description.triples
  rw [List.map_append, List.map_map]
  rfl

theorem triples_batch (p : PlacedBatch) :
    p.root.triples = batchQuads (.blank p.node) p.id p.order p.batch ++
      p.children.map (fun child => ⟨.blank p.node, .hasCredential, .blank child.1⟩) := by
  unfold PlacedBatch.root Description.triples batchFacts batchQuads
  simp [Function.comp_def]

theorem triples_offer (o : PlacedOffer) :
    o.root.triples = offerQuads (.blank o.node) o.id o.order o.offer ++
      o.children.map (fun child => ⟨.blank o.node, .offersCredential, .blank child.1⟩) := by
  unfold PlacedOffer.root Description.triples offerFacts offerQuads
  simp [Function.comp_def]

/-- Quads that come child by child, each child's with the link to it first. -/
theorem mem_childQuads {α : Type} {f : ℕ → α → List Quad} {link : α → Quad}
    {d : ℕ → α → Description Vocab} (h : ∀ i a, f i a = link a :: (d i a).triples)
    {children : List α} {t : Quad} :
    t ∈ (children.mapIdx f).flatten ↔
      t ∈ children.map link ∨ ∃ e ∈ children.mapIdx d, t ∈ e.triples := by
  rw [List.mem_flatten]
  constructor
  · rintro ⟨_, hmem, ht⟩
    obtain ⟨i, hi, rfl⟩ := List.mem_mapIdx.mp hmem
    rw [h, List.mem_cons] at ht
    rcases ht with rfl | ht
    · exact Or.inl (List.mem_map_of_mem (List.getElem_mem hi))
    · exact Or.inr ⟨_, List.mem_mapIdx.mpr ⟨i, hi, rfl⟩, ht⟩
  · rintro (ht | ⟨_, hmem, ht⟩)
    · obtain ⟨a, ha, rfl⟩ := List.mem_map.mp ht
      obtain ⟨i, hi, rfl⟩ := List.getElem_of_mem ha
      refine ⟨f i children[i], List.mem_mapIdx.mpr ⟨i, hi, rfl⟩, ?_⟩
      rw [h]
      exact List.mem_cons_self
    · obtain ⟨i, hi, rfl⟩ := List.mem_mapIdx.mp hmem
      refine ⟨f i children[i], List.mem_mapIdx.mpr ⟨i, hi, rfl⟩, ?_⟩
      rw [h]
      exact List.mem_cons_of_mem _ ht

theorem mem_recordGraph_singleton {r : Record} {t : Quad} :
    t ∈ recordGraph [r] ↔ t ∈ r.root.triples ∨ ∃ d ∈ r.children, t ∈ d.triples := by
  rw [mem_recordGraph]
  constructor
  · rintro ⟨r', hr', d, hd, ht⟩
    rw [List.mem_singleton.mp hr'] at hd
    rcases List.mem_cons.mp hd with rfl | hd
    · exact Or.inl ht
    · exact Or.inr ⟨d, hd, ht⟩
  · rintro (ht | ⟨d, hd, ht⟩)
    · exact ⟨r, List.mem_singleton_self r, r.root, r.root_mem, ht⟩
    · exact ⟨r, List.mem_singleton_self r, d, List.mem_cons_of_mem _ hd, ht⟩

/-- A batch's quads are what the graph says of its node and its credentials'. -/
theorem toFinset_quads (p : PlacedBatch) : (p.quads J).toFinset = recordGraph [p.record J] := by
  ext t
  rw [List.mem_toFinset, mem_recordGraph_singleton, PlacedBatch.quads, List.mem_append,
    mem_childQuads (triples_entry J (.blank p.node)), ← or_assoc, ← List.mem_append,
    ← triples_batch]
  rfl

/-- An offer's quads are what the graph says of its node and its credentials'. -/
theorem toFinset_offerQuads (o : PlacedOffer) : o.quads.toFinset = recordGraph [o.record] := by
  ext t
  rw [List.mem_toFinset, mem_recordGraph_singleton, PlacedOffer.quads, List.mem_append,
    mem_childQuads (triples_offered (.blank o.node)), ← or_assoc, ← List.mem_append,
    ← triples_offer]
  rfl

end IdentityHub.CredentialGraph
