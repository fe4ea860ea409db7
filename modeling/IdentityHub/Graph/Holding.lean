import IdentityHub.Graph.Writes

/-!
# A graph that holds batches and offers

`Holds` is the invariant of the methods: the triples are those of some batches and some
offers, in the order they were added, each with nodes of its own. `add_batch` and
`add_offer` keep it and change the lists as a bounded list is changed by an insertion; the
other methods read the lists off the triples.
-/

namespace IdentityHub.CredentialGraph

open Rdf (Term Triple SortedBy)

variable {J : JsonText} {bs bs' : List PlacedBatch} {os os' : List PlacedOffer} {s s' : GraphState}

/-- The triples are those of these batches and offers, and no others. -/
structure Holds (J : JsonText) (s : GraphState) (bs : List PlacedBatch) (os : List PlacedOffer) :
    Prop where
  triples : s.triples = contentGraph J bs os
  distinct : (contentNodes bs os).Nodup
  known : ∀ n ∈ contentNodes bs os, n ∈ s.nodes
  batchOrder : bs.Pairwise (fun p p' => p.order < p'.order)
  offerOrder : os.Pairwise (fun o o' => o.order < o'.order)

theorem holds_openInMemory : Holds J openInMemory [] [] where
  triples := rfl
  distinct := List.nodup_nil
  known _ h := absurd h List.not_mem_nil
  batchOrder := .nil
  offerOrder := .nil

theorem Holds.placed (h : Holds J s bs os) : WellPlaced (contentRecords J bs os) :=
  wellPlaced_content J h.distinct

/-! ## Lists of placed batches and offers -/

theorem contentNodes_perm (hbs : bs.Perm bs') (hos : os.Perm os') :
    (contentNodes bs os).Perm (contentNodes bs' os') :=
  (hbs.flatMap_right _).append (hos.flatMap_right _)

theorem contentNodes_sublist (hbs : bs'.Sublist bs) (hos : os'.Sublist os) :
    (contentNodes bs' os').Sublist (contentNodes bs os) :=
  (hbs.flatMap _).append (hos.flatMap _)

theorem contentNodes_addBatch (p : PlacedBatch) :
    (contentNodes (bs ++ [p]) os).Perm (p.nodes ++ contentNodes bs os) := by
  unfold contentNodes
  rw [List.flatMap_append, List.flatMap_singleton, ← List.append_assoc]
  exact List.perm_append_comm.append_right _

theorem contentNodes_addOffer (o : PlacedOffer) :
    (contentNodes bs (os ++ [o])).Perm (o.nodes ++ contentNodes bs os) := by
  unfold contentNodes
  rw [List.flatMap_append, List.flatMap_singleton, ← List.append_assoc]
  exact List.perm_append_comm

theorem contentGraph_addBatch (p : PlacedBatch) :
    (p.quads J).toFinset ∪ contentGraph J bs os = contentGraph J (bs ++ [p]) os := by
  rw [toFinset_quads, contentGraph, ← recordGraph_append]
  refine recordGraph_perm ?_
  rw [contentRecords, contentRecords, List.map_append, List.map_singleton, ← List.append_assoc]
  exact List.perm_append_comm.append_right _

theorem contentGraph_addOffer (o : PlacedOffer) :
    o.quads.toFinset ∪ contentGraph J bs os = contentGraph J bs (os ++ [o]) := by
  rw [toFinset_offerQuads, contentGraph, ← recordGraph_append]
  refine recordGraph_perm (List.perm_append_comm.trans (List.Perm.of_eq ?_))
  rw [contentRecords, contentRecords, List.map_append, List.map_singleton, List.append_assoc]

theorem contentRecords_perm (hbs : bs.Perm bs') (hos : os.Perm os') :
    (contentRecords J bs os).Perm (contentRecords J bs' os') :=
  (hbs.map _).append (hos.map _)

/-- New nodes do not meet the old ones. -/
theorem Holds.nodup_append (h : Holds J s bs os) {labels : List ℕ} (hnodup : labels.Nodup)
    (hfresh : ∀ n ∈ labels, n ∉ s.nodes) : (labels ++ contentNodes bs os).Nodup :=
  List.nodup_append.mpr ⟨hnodup, h.distinct,
    fun n hn n' hn' heq => hfresh n hn (heq ▸ h.known n' hn')⟩

theorem contentGraph_perm (hbs : bs.Perm bs') (hos : os.Perm os') :
    contentGraph J bs os = contentGraph J bs' os' := recordGraph_perm (contentRecords_perm hbs hos)

/-! ## Writing -/

section

variable {quads : List Quad} {events : List GraphEvent}
  (hreplays : graphEnvironment.Replays s events s') (hdistinct : (contentNodes bs os).Nodup)
  (hgraph : quads.toFinset ∪ s.triples = contentGraph J bs os)
include hreplays hdistinct hgraph

/-- The end of `add_batch` leaves the newest batches, and every offer. -/
theorem finish_batch (horder : bs.Pairwise (fun p p' => p.order < p'.order))
    (hstage : WriteStage quads .credentialBatch .hasCredential maxCredentialBatches events true) :
    s' = { s with triples := contentGraph J (bs.rtake maxCredentialBatches) os } := by
  have hswap : (contentRecords J bs os).Perm
      (os.map PlacedOffer.record ++ bs.map (PlacedBatch.record J)) := List.perm_append_comm
  have hplaced := (wellPlaced_content J hdistinct).perm hswap
  rw [contentGraph, recordGraph_perm hswap] at hgraph
  rw [replays_finish hstage hreplays hgraph (by decide) ?_ ?_ hplaced ?_ ?_]
  · refine congrArg (fun g => GraphState.mk g _ _) ?_
    rw [contentGraph, contentRecords, List.rtake, List.length_map, List.rtake, List.map_drop]
    exact recordGraph_perm List.perm_append_comm
  · intro r hr
    obtain ⟨p, -, rfl⟩ := List.mem_map.mp hr
    rfl
  · intro r hr
    obtain ⟨o, -, rfl⟩ := List.mem_map.mp hr
    intro h
    cases h
  · exact List.pairwise_map.mpr horder
  · intro r hr
    obtain ⟨p, -, rfl⟩ := List.mem_map.mp hr
    rfl

/-- The end of `add_offer` leaves the newest offers, and every batch. -/
theorem finish_offer (horder : os.Pairwise (fun o o' => o.order < o'.order))
    (hstage : WriteStage quads .acceptedCredentialOffer .offersCredential maxAcceptedOffers events
      true) :
    s' = { s with triples := contentGraph J bs (os.rtake maxAcceptedOffers) } := by
  rw [replays_finish hstage hreplays hgraph (by decide) ?_ ?_ (wellPlaced_content J hdistinct) ?_ ?_]
  · refine congrArg (fun g => GraphState.mk g _ _) ?_
    rw [contentGraph, contentRecords, List.rtake, List.length_map, List.rtake, List.map_drop]
  · intro r hr
    obtain ⟨o, -, rfl⟩ := List.mem_map.mp hr
    rfl
  · intro r hr
    obtain ⟨p, -, rfl⟩ := List.mem_map.mp hr
    intro h
    cases h
  · exact List.pairwise_map.mpr horder
  · intro r hr
    obtain ⟨o, -, rfl⟩ := List.mem_map.mp hr
    rfl

end

/-- **`add_batch`**: the new batch joins the others, and the newest stay. Where it joins
them is for its order to say: `written` is all of them by their order. -/
theorem addBatch_holds {batch : NewCredentialBatch} {id : String} (h : Holds J s bs os)
    (hrun : graphEnvironment.Runs (addBatch J batch) s id s') :
    ∃ p : PlacedBatch, p.id = id ∧ p.batch = batch ∧ p.order = s.nextOrder ∧
      ∀ written : List PlacedBatch, written.Perm (bs ++ [p]) →
        written.Pairwise (fun p p' => p.order < p'.order) →
          Holds J s' (written.rtake maxCredentialBatches) os ∧
            s'.nextOrder = (s.nextOrder + 1) % 2 ^ 64 := by
  obtain ⟨node, children, later, hitems, hnodup, hfresh, hstage, hlater⟩ := addRecord_runs hrun
  refine ⟨⟨node, s.nextOrder, id, batch, children, hitems⟩, rfl, rfl, rfl, ?_⟩
  intro written hperm horder
  have hnodes := (contentNodes_perm hperm (.refl os)).trans (contentNodes_addBatch _)
  have hdistinct : (contentNodes written os).Nodup :=
    hnodes.nodup_iff.mpr (h.nodup_append hnodup hfresh)
  have hgraph := @contentGraph_addBatch J bs os
    ⟨node, s.nextOrder, id, batch, children, hitems⟩
  rw [← h.triples, ← contentGraph_perm hperm (.refl os)] at hgraph
  have hend := finish_batch hlater hdistinct hgraph horder hstage
  have hkept : (written.rtake maxCredentialBatches).Sublist written := List.drop_sublist _ _
  refine ⟨⟨?_, hdistinct.sublist (contentNodes_sublist hkept (.refl os)), fun n hn => ?_,
    horder.sublist hkept, h.offerOrder⟩, ?_⟩
  · rw [hend]
  · rw [hend]
    have hmem := hnodes.subset ((contentNodes_sublist hkept (.refl os)).subset hn)
    rcases List.mem_append.mp hmem with hnew | hold
    · exact Finset.mem_union_left _ (List.mem_toFinset.mpr hnew)
    · exact Finset.mem_union_right _ (h.known n hold)
  · rw [hend]

/-- **`add_offer`**, likewise. -/
theorem addOffer_holds {offer : NewAcceptedOffer} {id : String} (h : Holds J s bs os)
    (hrun : graphEnvironment.Runs (addOffer offer) s id s') :
    ∃ o : PlacedOffer, o.id = id ∧ o.offer = offer ∧ o.order = s.nextOrder ∧
      ∀ written : List PlacedOffer, written.Perm (os ++ [o]) →
        written.Pairwise (fun o o' => o.order < o'.order) →
          Holds J s' bs (written.rtake maxAcceptedOffers) ∧
            s'.nextOrder = (s.nextOrder + 1) % 2 ^ 64 := by
  obtain ⟨node, children, later, hitems, hnodup, hfresh, hstage, hlater⟩ := addRecord_runs hrun
  refine ⟨⟨node, s.nextOrder, id, offer, children, hitems⟩, rfl, rfl, rfl, ?_⟩
  intro written hperm horder
  have hnodes := (contentNodes_perm (.refl bs) hperm).trans (contentNodes_addOffer _)
  have hdistinct : (contentNodes bs written).Nodup :=
    hnodes.nodup_iff.mpr (h.nodup_append hnodup hfresh)
  have hgraph := @contentGraph_addOffer J bs os
    ⟨node, s.nextOrder, id, offer, children, hitems⟩
  rw [← h.triples, ← contentGraph_perm (.refl bs) hperm] at hgraph
  have hend := finish_offer hlater hdistinct hgraph horder hstage
  have hkept : (written.rtake maxAcceptedOffers).Sublist written := List.drop_sublist _ _
  refine ⟨⟨?_, hdistinct.sublist (contentNodes_sublist (.refl bs) hkept), fun n hn => ?_,
    h.batchOrder, horder.sublist hkept⟩, ?_⟩
  · rw [hend]
  · rw [hend]
    have hmem := hnodes.subset ((contentNodes_sublist (.refl bs) hkept).subset hn)
    rcases List.mem_append.mp hmem with hnew | hold
    · exact Finset.mem_union_left _ (List.mem_toFinset.mpr hnew)
    · exact Finset.mem_union_right _ (h.known n hold)
  · rw [hend]

/-! ## Reading -/

theorem map_node_sublist (bs : List PlacedBatch) :
    (bs.map PlacedBatch.node).Sublist (bs.flatMap PlacedBatch.nodes) := by
  induction bs with
  | nil => exact .slnil
  | cons p bs ih =>
      rw [List.map_cons, List.flatMap_cons]
      exact .cons_cons _ (ih.trans (List.sublist_append_right _ _))

theorem map_offerNode_sublist (os : List PlacedOffer) :
    (os.map PlacedOffer.node).Sublist (os.flatMap PlacedOffer.nodes) := by
  induction os with
  | nil => exact .slnil
  | cons o os ih =>
      rw [List.map_cons, List.flatMap_cons]
      exact .cons_cons _ (ih.trans (List.sublist_append_right _ _))

/-- **`batches`** answers with the batches, and changes nothing. -/
theorem batches_runs (hjson : J.Invertible) (h : Holds J s bs os) {result : List CredentialBatch} :
    graphEnvironment.Runs (batches J) s result s' ↔
      result = bs.map PlacedBatch.content ∧ s' = s := by
  have hnodes : (bs.map PlacedBatch.node).Nodup :=
    (List.nodup_append.mp h.distinct).1.sublist (map_node_sublist bs)
  have hgrouped := grouped_batches hjson hnodes
  refine Environment.Runs.ask_iff.trans ⟨?_, ?_⟩
  · rintro ⟨rows, ⟨hrows, hsorted, rfl⟩, rfl⟩
    rw [h.triples] at hrows
    rw [batchRows_settled h.placed h.batchOrder hrows hsorted]
    exact ⟨hgrouped, rfl⟩
  · rintro ⟨rfl, rfl⟩
    refine ⟨bs.flatMap (PlacedBatch.rows J), ⟨?_, ?_, rfl⟩, hgrouped.symm⟩
    · rw [h.triples]
      exact (batchSolutions_content h.placed).symm
    · exact (batchRows_increasing h.batchOrder).imp le_of_lt

/-- **`offers`** answers with the offers, and changes nothing. -/
theorem offers_runs (h : Holds J s bs os) {result : List AcceptedOffer} :
    graphEnvironment.Runs offers s result s' ↔
      result = os.map PlacedOffer.content ∧ s' = s := by
  have hnodes : (os.map PlacedOffer.node).Nodup :=
    (List.nodup_append.mp h.distinct).2.1.sublist (map_offerNode_sublist os)
  have hgrouped := grouped_offers hnodes
  refine Environment.Runs.ask_iff.trans ⟨?_, ?_⟩
  · rintro ⟨rows, ⟨hrows, hsorted, rfl⟩, rfl⟩
    rw [h.triples] at hrows
    rw [offerRows_settled h.placed h.offerOrder hrows hsorted]
    exact ⟨hgrouped, rfl⟩
  · rintro ⟨rfl, rfl⟩
    refine ⟨os.flatMap PlacedOffer.rows, ⟨?_, ?_, rfl⟩, hgrouped.symm⟩
    · rw [h.triples]
      exact (offerSolutions_content h.placed).symm
    · exact (offerRows_increasing h.offerOrder).imp le_of_lt

/-- The credentials of some types among batches: those of batches that were issued. -/
def issuedOfTypes (types : List String) (stored : List CredentialBatch) : List CredentialEntry :=
  ((stored.filter (fun batch => batch.status = "ISSUED")).flatMap
    (fun batch => batch.credentials)).filter (fun entry => entry.credentialType ∈ types)

theorem issuedOfTypes_content (types : List String) :
    issuedOfTypes types (bs.map PlacedBatch.content) =
      ((bs.filter (fun p => p.batch.status = "ISSUED")).flatMap
        (fun p => p.batch.credentials)).filter (fun c => c.credentialType ∈ types) := by
  rw [issuedOfTypes, List.filter_map, List.flatMap_map]
  rfl

/-- **`credentials_of_types`** answers with the issued credentials of these types, in some
order, and changes nothing. -/
theorem credentialsOfTypes_runs (hjson : J.Invertible) (h : Holds J s bs os) (types : List String) :
    (∃ result, graphEnvironment.Runs (credentialsOfTypes J types) s result s) ∧
      ∀ result s', graphEnvironment.Runs (credentialsOfTypes J types) s result s' →
        result.Perm (issuedOfTypes types (bs.map PlacedBatch.content)) ∧ s' = s := by
  constructor
  · obtain ⟨rows, hrows⟩ := Quotient.exists_rep (credentialSolutions s.triples)
    exact ⟨_, Environment.Runs.ask_iff.mpr ⟨rows, ⟨hrows, rfl⟩, rfl⟩⟩
  · intro result s' hrun
    obtain ⟨rows, ⟨hrows, rfl⟩, rfl⟩ := Environment.Runs.ask_iff.mp hrun
    rw [h.triples] at hrows
    rw [issuedOfTypes_content]
    exact ⟨credentialEntries_perm hjson h.placed hrows types, rfl⟩

/-- Every triple is one that was inserted for one of the batches or offers. -/
theorem contentGraph_eq_quads :
    contentGraph J bs os =
      (bs.flatMap (PlacedBatch.quads J) ++ os.flatMap PlacedOffer.quads).toFinset := by
  ext t
  rw [contentGraph, mem_recordGraph, List.mem_toFinset, List.mem_append, List.mem_flatMap,
    List.mem_flatMap]
  have hbatch : ∀ p : PlacedBatch, t ∈ p.quads J ↔
      ∃ d ∈ (p.record J).descriptions, t ∈ d.triples := by
    intro p
    rw [← List.mem_toFinset, toFinset_quads, mem_recordGraph]
    simp
  have hoffer : ∀ o : PlacedOffer, t ∈ o.quads ↔ ∃ d ∈ o.record.descriptions, t ∈ d.triples := by
    intro o
    rw [← List.mem_toFinset, toFinset_offerQuads, mem_recordGraph]
    simp
  constructor
  · rintro ⟨r, hr, hdescribed⟩
    rcases List.mem_append.mp hr with hr | hr
    · obtain ⟨p, hp, rfl⟩ := List.mem_map.mp hr
      exact Or.inl ⟨p, hp, (hbatch p).mpr hdescribed⟩
    · obtain ⟨o, ho, rfl⟩ := List.mem_map.mp hr
      exact Or.inr ⟨o, ho, (hoffer o).mpr hdescribed⟩
  · rintro (⟨p, hp, ht⟩ | ⟨o, ho, ht⟩)
    · exact ⟨_, List.mem_append_left _ (List.mem_map_of_mem hp), (hbatch p).mp ht⟩
    · exact ⟨_, List.mem_append_right _ (List.mem_map_of_mem ho), (hoffer o).mp ht⟩

end IdentityHub.CredentialGraph
