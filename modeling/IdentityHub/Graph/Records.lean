import IdentityHub.Graph.Store

/-!
# Records of a graph

A record is a node of some class with an order, and the children one predicate leads to:
a batch with its credentials, an offer with the credentials it offers. Here is what the
count and the update of `trim_oldest` do on a graph that holds some records and nothing
else: the count is that of the records of the class, and the update takes whole records
away, those of least order.
-/

namespace IdentityHub.CredentialGraph

open Rdf (Term Triple Description WellDescribed SortedBy graphOf mem_graphOf)

structure Record where
  nodeClass : Vocab
  childPredicate : Vocab
  order : ℕ
  root : Description Vocab
  children : List (Description Vocab)
  classed : nodeClass ≠ .verifiableCredential
  typed : root.values .rdfType = [.iri nodeClass]
  ordered : root.values .order = [.integer order]
  linked : root.values childPredicate = children.map Description.node
  plain : ∀ d ∈ children, ∀ c ∈ d.values .rdfType, c = .iri .verifiableCredential

def Record.descriptions (r : Record) : List (Description Vocab) := r.root :: r.children

def recordGraph (rs : List Record) : Rdf.Graph Vocab := graphOf (rs.flatMap Record.descriptions)

/-- No node stands in two places. -/
def WellPlaced (rs : List Record) : Prop := WellDescribed (rs.flatMap Record.descriptions)

theorem Record.root_mem (r : Record) : r.root ∈ r.descriptions := List.mem_cons_self

theorem mem_recordGraph {rs : List Record} {t : Quad} :
    t ∈ recordGraph rs ↔ ∃ r ∈ rs, ∃ d ∈ r.descriptions, t ∈ d.triples := by
  rw [recordGraph, mem_graphOf]
  constructor
  · rintro ⟨d, hd, ht⟩
    obtain ⟨r, hr, hdr⟩ := List.mem_flatMap.mp hd
    exact ⟨r, hr, d, hdr, ht⟩
  · rintro ⟨r, hr, d, hdr, ht⟩
    exact ⟨d, List.mem_flatMap.mpr ⟨r, hr, hdr⟩, ht⟩

theorem recordGraph_perm {rs rs' : List Record} (h : rs.Perm rs') :
    recordGraph rs = recordGraph rs' := Rdf.graphOf_perm (h.flatMap_right _)

theorem recordGraph_append (rs rs' : List Record) :
    recordGraph (rs ++ rs') = recordGraph rs ∪ recordGraph rs' := by
  rw [recordGraph, List.flatMap_append, Rdf.graphOf_append]
  rfl

theorem WellPlaced.perm {rs rs' : List Record} (h : WellPlaced rs) (hperm : rs.Perm rs') :
    WellPlaced rs' := WellDescribed.perm h (hperm.flatMap_right _)

variable {rs : List Record}

theorem mem_descriptions {r : Record} (hr : r ∈ rs) {d : Description Vocab}
    (hd : d ∈ r.descriptions) : d ∈ rs.flatMap Record.descriptions :=
  List.mem_flatMap.mpr ⟨r, hr, hd⟩

/-- A node belongs to one record. -/
theorem WellPlaced.owner (h : WellPlaced rs) {r r' : Record} (hr : r ∈ rs) (hr' : r' ∈ rs)
    {d d' : Description Vocab} (hd : d ∈ r.descriptions) (hd' : d' ∈ r'.descriptions)
    (hnode : d.node = d'.node) : r = r' := by
  by_contra hne
  have hnodes := h.nodes
  rw [List.map_flatMap] at hnodes
  have hsymm : Std.Symm (Function.onFun List.Disjoint
      (fun r : Record => r.descriptions.map Description.node)) := ⟨fun _ _ hab => hab.symm⟩
  have hdisjoint := (List.nodup_flatMap.mp hnodes).2.forall hr hr' hne
  refine hdisjoint (List.mem_map_of_mem hd) ?_
  rw [hnode]
  exact List.mem_map_of_mem hd'

theorem objects_record (h : WellPlaced rs) {r : Record} (hr : r ∈ rs) {d : Description Vocab}
    (hd : d ∈ r.descriptions) (p : Vocab) : (recordGraph rs).objects d.node p = d.values p :=
  Rdf.objects_graphOf h (mem_descriptions hr hd) p

/-- The records of a class. -/
def ofClass (nodeClass : Vocab) (rs : List Record) : List Record :=
  rs.filter (fun r => r.nodeClass = nodeClass)

theorem filter_map_eq_flatMap {α β : Type} (c : α → Prop) [DecidablePred c] (f : α → β)
    (l : List α) : l.flatMap (fun a => if c a then [f a] else []) = (l.filter c).map f := by
  induction l with
  | nil => rfl
  | cons a l ih =>
      rw [List.flatMap_cons, ih, List.filter_cons]
      by_cases h : c a
      · simp [h]
      · simp [h]

/-- The nodes of a class are the roots of its records. -/
theorem subjects_class (h : WellPlaced rs) {nodeClass : Vocab}
    (hclass : nodeClass ≠ .verifiableCredential) :
    (recordGraph rs).subjects .rdfType (.iri nodeClass) =
      ((ofClass nodeClass rs).map (fun r => r.root.node) : List Node) := by
  rw [recordGraph, Rdf.subjects_graphOf h, Multiset.coe_bind, List.flatMap_assoc,
    ofClass, ← filter_map_eq_flatMap]
  refine congrArg _ (List.flatMap_congr (fun r _ => ?_))
  have hchildren : r.children.flatMap (fun d =>
      ((d.values .rdfType).filter (fun o => o = .iri nodeClass)).map (fun _ => d.node)) = [] := by
    refine List.flatMap_eq_nil_iff.mpr (fun d hd => ?_)
    rw [List.map_eq_nil_iff, List.filter_eq_nil_iff]
    rintro c hc heq
    rw [r.plain d hd c hc, decide_eq_true_eq] at heq
    exact hclass (Term.iri.inj heq).symm
  rw [Record.descriptions, List.flatMap_cons, hchildren, List.append_nil, r.typed]
  by_cases hr : r.nodeClass = nodeClass
  · simp [hr]
  · simp [hr]

theorem orderedNodes_records (h : WellPlaced rs) {nodeClass : Vocab}
    (hclass : nodeClass ≠ .verifiableCredential) :
    orderedNodes (recordGraph rs) nodeClass =
      ((ofClass nodeClass rs).map (fun r => (r.root.node, .integer r.order)) :
        List (Node × Node)) := by
  rw [orderedNodes, subjects_class h hclass, ← Multiset.map_coe, Multiset.bind_map,
    ← Multiset.map_coe, ← Multiset.bind_singleton]
  refine Multiset.bind_congr (fun r hr => ?_)
  rw [objects_record h (List.mem_of_mem_filter (Multiset.mem_coe.mp hr)) r.root_mem, r.ordered]
  rfl

/-- The records of one class come in the order of their numbers. -/
def InOrder (rs : List Record) : Prop := rs.Pairwise (fun r r' => r.order < r'.order)

theorem oldest_records (h : WellPlaced rs) {nodeClass : Vocab}
    (hclass : nodeClass ≠ .verifiableCredential) {sorted : List Record}
    (hsorted : sorted.Perm (ofClass nodeClass rs)) (horder : InOrder sorted) {excess : ℕ}
    {nodes : List Node} (hnodes : Oldest (recordGraph rs) nodeClass excess nodes) :
    nodes = (sorted.take excess).map (fun r => r.root.node) := by
  obtain ⟨rows, hrows, hrowsSorted, rfl⟩ := hnodes
  have hstrict : (sorted.map (fun r => (r.root.node, (.integer r.order : Node)))).Pairwise
      (fun a b => a.2.number < b.2.number) :=
    List.pairwise_map.mpr (horder.imp (fun hlt => WithBot.coe_lt_coe.mpr hlt))
  have hsame : (rows : Multiset (Node × Node)) =
      (sorted.map (fun r => (r.root.node, .integer r.order)) : List (Node × Node)) := by
    rw [hrows, orderedNodes_records h hclass]
    exact Multiset.coe_eq_coe.mpr ((hsorted.map _).symm)
  have hkeys : (sorted.map (fun r => (r.root.node, (.integer r.order : Node)))).map
      (fun row => row.2.number) |>.Nodup :=
    (List.pairwise_map.mpr hstrict).imp ne_of_lt
  have hsortedBy : SortedBy (fun row : Node × Node => row.2.number)
      (sorted.map (fun r => (r.root.node, .integer r.order))) := hstrict.imp le_of_lt
  have heq := hsortedBy.unique hrowsSorted hsame.symm
    (fun a ha b hb hkey => List.inj_on_of_nodup_map hkeys ha hb hkey)
  rw [← heq, ← List.map_take, List.map_map]
  rfl

/-! ## The update -/

section

variable {g : Rdf.Graph Vocab} {childPredicate : Vocab} {nodes : List Node} {t : Quad}

theorem mem_trimSolutions_fst :
    t ∈ (trimSolutions g childPredicate nodes).map Prod.fst ↔ t ∈ g ∧ t.subject ∈ nodes := by
  rw [trimSolutions, Multiset.mem_map]
  constructor
  · rintro ⟨⟨fact, childFact⟩, h, rfl⟩
    obtain ⟨node, hnode, h⟩ := Multiset.mem_bind.mp h
    obtain ⟨fact', hfact, h⟩ := Multiset.mem_bind.mp h
    obtain ⟨_, -, heq⟩ := Multiset.mem_map.mp h
    cases heq
    obtain ⟨hg, rfl⟩ := Finset.mem_filter.mp hfact
    exact ⟨hg, Multiset.mem_coe.mp hnode⟩
  · rintro ⟨hg, hnode⟩
    obtain ⟨childFact, hchild⟩ := Rdf.exists_mem_optional
      ((g.objects t.subject childPredicate).bind fun child =>
        (g.filter (fun t => t.subject = child)).val)
    refine ⟨(t, childFact), ?_, rfl⟩
    refine Multiset.mem_bind.mpr ⟨t.subject, Multiset.mem_coe.mpr hnode, ?_⟩
    refine Multiset.mem_bind.mpr ⟨t, Finset.mem_filter.mpr ⟨hg, rfl⟩, ?_⟩
    exact Multiset.mem_map.mpr ⟨childFact, hchild, rfl⟩

theorem mem_trimSolutions_snd :
    some t ∈ (trimSolutions g childPredicate nodes).map Prod.snd ↔
      t ∈ g ∧ ∃ node ∈ nodes, (∃ fact ∈ g, fact.subject = node) ∧
        t.subject ∈ g.objects node childPredicate := by
  rw [trimSolutions, Multiset.mem_map]
  constructor
  · rintro ⟨⟨fact, childFact⟩, h, rfl⟩
    obtain ⟨node, hnode, h⟩ := Multiset.mem_bind.mp h
    obtain ⟨fact', hfact, h⟩ := Multiset.mem_bind.mp h
    obtain ⟨_, hchild, heq⟩ := Multiset.mem_map.mp h
    cases heq
    obtain ⟨child, hchild, ht⟩ := Multiset.mem_bind.mp (Rdf.some_mem_optional.mp hchild)
    obtain ⟨hg, rfl⟩ := Finset.mem_filter.mp ht
    obtain ⟨hfactMem, rfl⟩ := Finset.mem_filter.mp hfact
    exact ⟨hg, _, Multiset.mem_coe.mp hnode, ⟨_, hfactMem, rfl⟩, hchild⟩
  · rintro ⟨hg, node, hnode, ⟨fact, hfact, rfl⟩, hchild⟩
    refine ⟨(fact, some t), ?_, rfl⟩
    refine Multiset.mem_bind.mpr ⟨fact.subject, Multiset.mem_coe.mpr hnode, ?_⟩
    refine Multiset.mem_bind.mpr ⟨fact, Finset.mem_filter.mpr ⟨hfact, rfl⟩, ?_⟩
    refine Multiset.mem_map.mpr ⟨some t, Rdf.some_mem_optional.mpr ?_, rfl⟩
    exact Multiset.mem_bind.mpr ⟨t.subject, hchild, Finset.mem_filter.mpr ⟨hg, rfl⟩⟩

end

/-- The update takes away the records whose roots it was given, and nothing else. -/
theorem trimmed_records (h : WellPlaced rs) {childPredicate : Vocab} {nodes : List Node}
    (hpredicate : ∀ r ∈ rs, r.root.node ∈ nodes → r.childPredicate = childPredicate)
    (hroots : ∀ node ∈ nodes, ∃ r ∈ rs, r.root.node = node) :
    trimmed (recordGraph rs) childPredicate nodes =
      recordGraph (rs.filter (fun r => r.root.node ∉ nodes)) := by
  ext t
  rw [trimmed, Finset.mem_filter, mem_trimSolutions_fst, mem_trimSolutions_snd, mem_recordGraph,
    mem_recordGraph]
  constructor
  · rintro ⟨⟨r, hr, d, hd, ht⟩, hroot, hchild⟩
    have hmem : t ∈ recordGraph rs := mem_recordGraph.mpr ⟨r, hr, d, hd, ht⟩
    refine ⟨r, List.mem_filter.mpr ⟨hr, decide_eq_true (fun hgone => ?_)⟩, d, hd, ht⟩
    rcases List.mem_cons.mp hd with rfl | hdchild
    · rw [(Description.mem_triples.mp ht).1] at hgone
      exact hroot ⟨mem_recordGraph.mp hmem, hgone⟩
    · refine hchild ⟨mem_recordGraph.mp hmem, r.root.node, hgone, ?_, ?_⟩
      · have htyped : Term.iri r.nodeClass ∈ r.root.values .rdfType := by
          rw [r.typed]
          exact List.mem_singleton_self _
        exact ⟨⟨r.root.node, .rdfType, .iri r.nodeClass⟩, mem_recordGraph.mpr
          ⟨r, hr, r.root, r.root_mem, Description.mem_triples.mpr
            ⟨rfl, Rdf.mem_valuesOf.mp htyped⟩⟩, rfl⟩
      · rw [objects_record h hr r.root_mem, ← hpredicate r hr hgone, r.linked, Multiset.mem_coe,
          ← (Description.mem_triples.mp ht).1]
        exact List.mem_map_of_mem hdchild
  · rintro ⟨r, hr, d, hd, ht⟩
    obtain ⟨hr, hkept⟩ := List.mem_filter.mp hr
    have hkept : r.root.node ∉ nodes := of_decide_eq_true hkept
    have hsubject : d.node = t.subject := (Description.mem_triples.mp ht).1
    refine ⟨⟨r, hr, d, hd, ht⟩, ?_, ?_⟩
    · rintro ⟨-, hgone⟩
      obtain ⟨r', hr', hnode⟩ := hroots _ hgone
      rw [← h.owner hr' hr r'.root_mem hd (hnode.trans hsubject.symm), hnode] at hkept
      exact hkept hgone
    · rintro ⟨-, node, hgone, -, hchild⟩
      obtain ⟨r', hr', rfl⟩ := hroots _ hgone
      rw [objects_record h hr' r'.root_mem, ← hpredicate r' hr' hgone, r'.linked,
        Multiset.mem_coe] at hchild
      obtain ⟨d', hd', hnode⟩ := List.mem_map.mp hchild
      have hsame := h.owner hr' hr (List.mem_cons_of_mem _ hd') hd (hnode.trans hsubject.symm)
      exact hkept (hsame ▸ hgone)

/-! ## One class among others -/

section

variable {nodeClass childPredicate : Vocab} {others sorted : List Record}
  (hclass : nodeClass ≠ .verifiableCredential)
  (hsorted : ∀ r ∈ sorted, r.nodeClass = nodeClass)
  (hothers : ∀ r ∈ others, r.nodeClass ≠ nodeClass)

include hsorted hothers

theorem ofClass_append : ofClass nodeClass (others ++ sorted) = sorted := by
  rw [ofClass, List.filter_append, List.filter_eq_nil_iff.mpr (fun r hr => by
    simpa using hothers r hr), List.nil_append]
  exact List.filter_eq_self.mpr (fun r hr => decide_eq_true (hsorted r hr))

include hclass

/-- The count of `count_of_type`. -/
theorem count_records (h : WellPlaced (others ++ sorted)) :
    ((recordGraph (others ++ sorted)).subjects .rdfType (.iri nodeClass)).card = sorted.length := by
  rw [subjects_class h hclass, ofClass_append hsorted hothers]
  simp

/-- The update of `trim_oldest` takes the first records of the class. -/
theorem trimmed_oldest (h : WellPlaced (others ++ sorted)) (horder : InOrder sorted)
    (hpredicate : ∀ r ∈ sorted, r.childPredicate = childPredicate) {excess : ℕ}
    {nodes : List Node}
    (hnodes : Oldest (recordGraph (others ++ sorted)) nodeClass excess nodes) :
    trimmed (recordGraph (others ++ sorted)) childPredicate nodes =
      recordGraph (others ++ sorted.drop excess) := by
  have htaken := oldest_records h hclass
    (List.Perm.of_eq (ofClass_append hsorted hothers).symm) horder hnodes
  have hgone : ∀ r ∈ others ++ sorted, r.root.node ∈ nodes → r ∈ sorted.take excess := by
    intro r hr hnode
    rw [htaken] at hnode
    obtain ⟨r', hr', hsame⟩ := List.mem_map.mp hnode
    have hmem : r' ∈ others ++ sorted := List.mem_append_right _ (List.mem_of_mem_take hr')
    rwa [h.owner hr hmem r.root_mem r'.root_mem hsame.symm]
  have hroots : ∀ node ∈ nodes, ∃ r ∈ others ++ sorted, r.root.node = node := by
    intro node hnode
    rw [htaken] at hnode
    obtain ⟨r, hr, rfl⟩ := List.mem_map.mp hnode
    exact ⟨r, List.mem_append_right _ (List.mem_of_mem_take hr), rfl⟩
  rw [trimmed_records h (fun r hr hnode => hpredicate r (List.mem_of_mem_take (hgone r hr hnode)))
    hroots]
  refine congrArg recordGraph ?_
  have hdistinct : sorted.Nodup := horder.imp (fun hlt heq => absurd (congrArg Record.order heq) hlt.ne)
  rw [List.filter_append]
  refine congrArg₂ _ (List.filter_eq_self.mpr (fun r hr => ?_)) ?_
  · refine decide_eq_true (fun hnode => ?_)
    have hmem := hgone r (List.mem_append_left _ hr) hnode
    exact hothers r hr (hsorted r (List.mem_of_mem_take hmem))
  · conv_lhs => rw [← List.take_append_drop excess sorted]
    rw [List.filter_append, List.filter_eq_nil_iff.mpr, List.nil_append]
    · refine List.filter_eq_self.mpr (fun r hr => decide_eq_true (fun hnode => ?_))
      have hmem := hgone r (List.mem_append_right _ (List.mem_of_mem_drop hr)) hnode
      exact (List.disjoint_take_drop hdistinct le_rfl) hmem hr
    · intro r hr hkept
      refine (of_decide_eq_true hkept) ?_
      rw [htaken]
      exact List.mem_map_of_mem hr

end

end IdentityHub.CredentialGraph
