import IdentityHub.Graph.Content

/-!
# What the queries read back

The three queries on a graph that holds some batches and offers and nothing else. Each
is answered record by record; where there is an `ORDER BY` the order of the answer is
settled, because the keys of its rows are all different.
-/

namespace IdentityHub.CredentialGraph

open Json (Value)
open Rdf (Term Triple Description WellDescribed SortedBy graphOf valuesOf optionalRows)

variable {J : JsonText} {bs : List PlacedBatch} {os : List PlacedOffer}

/-! ## Patterns over records -/

/-- A query that starts from `ds:order` is answered record by record, if children do not
answer it. -/
theorem bind_order {β : Type} {rs : List Record} (h : WellPlaced rs)
    {f : Node → Node → Multiset β}
    (hchildren : ∀ r ∈ rs, ∀ d ∈ r.children, ∀ o, f d.node o = 0) :
    ((recordGraph rs).facts .order).bind (fun t => f t.subject t.object) =
      (rs : Multiset Record).bind (fun r => f r.root.node (.integer r.order)) := by
  rw [recordGraph, Rdf.bind_facts h, ← Multiset.coe_bind, Multiset.bind_assoc]
  refine Multiset.bind_congr (fun r hr => ?_)
  have hzero : (r.children : Multiset (Description Vocab)).bind (fun d =>
      (d.values .order : Multiset Node).bind (fun o => f d.node o)) = 0 := by
    rw [← Multiset.bind_zero (r.children : Multiset (Description Vocab))]
    refine Multiset.bind_congr (fun d hd => ?_)
    rw [← Multiset.bind_zero (d.values .order : Multiset Node)]
    exact Multiset.bind_congr (fun o _ => hchildren r (Multiset.mem_coe.mp hr) d hd o)
  rw [Record.descriptions, ← Multiset.cons_coe, Multiset.cons_bind, hzero, add_zero, r.ordered,
    Multiset.coe_singleton, Multiset.singleton_bind]

theorem contentRecords_bind {β : Type} (f : Record → Multiset β) :
    (contentRecords J bs os : Multiset Record).bind f =
      (bs : Multiset PlacedBatch).bind (fun p => f (p.record J)) +
        (os : Multiset PlacedOffer).bind (fun o => f o.record) := by
  rw [contentRecords, ← Multiset.coe_add, Multiset.add_bind, ← Multiset.map_coe,
    ← Multiset.map_coe, Multiset.bind_map, Multiset.bind_map]

/-- A predicate that no child has. -/
theorem children_lack {q : Vocab} (hentry : ∀ i entry, valuesOf (entryFacts J i entry) q = [])
    (hoffered : ∀ i credential, valuesOf (offeredFacts i credential) q = []) {r : Record}
    (hr : r ∈ contentRecords J bs os) {d : Description Vocab} (hd : d ∈ r.children) :
    d.values q = [] := by
  rcases List.mem_append.mp hr with hr | hr
  · obtain ⟨p, hp, rfl⟩ := List.mem_map.mp hr
    obtain ⟨i, hi, rfl⟩ := List.mem_mapIdx.mp hd
    exact hentry i _
  · obtain ⟨o, ho, rfl⟩ := List.mem_map.mp hr
    obtain ⟨i, hi, rfl⟩ := List.mem_mapIdx.mp hd
    exact hoffered i _

/-- What is found under the children of a node, child by child. -/
theorem bind_children {α β : Type} {F : Node → Multiset β} {node : α → Node} {f : ℕ → α → β}
    {children : List α} (h : ∀ i (hi : i < children.length),
      F (node children[i]) = {f i children[i]}) :
    ((children.map node : List Node) : Multiset Node).bind F = children.mapIdx f := by
  induction children generalizing f with
  | nil => rfl
  | cons child children ih =>
      have hhead := h 0 (Nat.zero_lt_succ _)
      have htail := ih (f := fun i => f (i + 1)) (fun i hi => h (i + 1) (Nat.succ_lt_succ hi))
      rw [List.map_cons, ← Multiset.cons_coe, Multiset.cons_bind, htail, List.mapIdx_cons,
        ← Multiset.cons_coe, ← Multiset.singleton_add]
      exact congrArg (· + _) hhead

/-- Rows that carry the order of their record, and then grow, have keys that grow all the
way. -/
theorem increasing_rows {α ρ : Type} {key : ρ → WithBot ℕ ×ₗ WithBot ℕ} {order : α → ℕ}
    {rows : α → List ρ} {l : List α} (horder : l.Pairwise (fun a b => order a < order b))
    (hborder : ∀ a ∈ l, ∀ row ∈ rows a, (ofLex (key row)).1 = (order a : WithBot ℕ))
    (hinner : ∀ a ∈ l, (rows a).Pairwise (fun x y => key x < key y)) :
    (l.flatMap rows).Pairwise (fun x y => key x < key y) := by
  refine List.pairwise_flatMap.mpr ⟨hinner, ?_⟩
  refine horder.imp_of_mem (fun {a b} ha hb hlt x hx y hy => ?_)
  refine Prod.Lex.toLex_lt_toLex.mpr (Or.inl ?_)
  have hx := hborder a ha x hx
  have hy := hborder b hb y hy
  exact hx.trans_lt ((WithBot.coe_lt_coe.mpr hlt).trans_eq hy.symm)

/-- A sorted answer whose rows can be arranged with growing keys is that arrangement. -/
theorem settled_order {ρ : Type} {key : ρ → WithBot ℕ ×ₗ WithBot ℕ} {rows rows' : List ρ}
    (hincreasing : rows'.Pairwise (fun x y => key x < key y))
    (hsame : (rows : Multiset ρ) = rows') (hsorted : SortedBy key rows) : rows = rows' := by
  have hkeys : (rows'.map key).Nodup := (List.pairwise_map.mpr hincreasing).imp ne_of_lt
  refine (SortedBy.unique (hincreasing.imp le_of_lt) hsorted hsame.symm ?_).symm
  exact fun a ha b hb hkey => List.inj_on_of_nodup_map hkeys ha hb hkey

section

variable (h : WellPlaced (contentRecords J bs os))
include h

theorem objects_batch {p : PlacedBatch} (hp : p ∈ bs) (q : Vocab) :
    (contentGraph J bs os).objects (.blank p.node) q = p.root.values q :=
  objects_record h (List.mem_append_left _ (List.mem_map_of_mem hp)) (p.record J).root_mem q

theorem objects_offer {o : PlacedOffer} (ho : o ∈ os) (q : Vocab) :
    (contentGraph J bs os).objects (.blank o.node) q = o.root.values q :=
  objects_record h (List.mem_append_right _ (List.mem_map_of_mem ho)) o.record.root_mem q

theorem objects_entry {p : PlacedBatch} (hp : p ∈ bs) {i : ℕ} (hi : i < p.children.length)
    (q : Vocab) :
    (contentGraph J bs os).objects (.blank p.children[i].1) q =
      valuesOf (entryFacts J i p.children[i].2) q :=
  objects_record h (r := p.record J) (d := entryDescription J i p.children[i])
    (List.mem_append_left _ (List.mem_map_of_mem hp))
    (List.mem_cons_of_mem _ (List.mem_mapIdx.mpr ⟨i, hi, rfl⟩)) q

theorem objects_offered {o : PlacedOffer} (ho : o ∈ os) {i : ℕ} (hi : i < o.children.length)
    (q : Vocab) :
    (contentGraph J bs os).objects (.blank o.children[i].1) q =
      valuesOf (offeredFacts i o.children[i].2) q :=
  objects_record h (r := o.record) (d := offeredDescription i o.children[i])
    (List.mem_append_right _ (List.mem_map_of_mem ho))
    (List.mem_cons_of_mem _ (List.mem_mapIdx.mpr ⟨i, hi, rfl⟩)) q

end

/-! ## Batches -/

variable (J) in
/-- What the credential part binds for a batch's `i`-th credential. -/
def entryBinding (i : ℕ) (child : ℕ × CredentialEntry) : CredentialBinding where
  cred := .blank child.1
  corder := .integer i
  type := .literal child.2.credentialType
  format := .literal child.2.format
  payload := .literal (J.text child.2.payload)

/-- The row of a batch for one binding of the credential part. -/
def PlacedBatch.row (p : PlacedBatch) (credential : Option CredentialBinding) : BatchRow where
  batch := .blank p.node
  border := .integer p.order
  batchId := .literal p.id
  issuerPid := .literal p.batch.issuerPid
  holderPid := p.batch.holderPid.map .literal
  status := .literal p.batch.status
  rejectionReason := p.batch.rejectionReason.map .literal
  credential := credential

variable (J) in
def PlacedBatch.rows (p : PlacedBatch) : List BatchRow :=
  (optionalRows (p.children.mapIdx (entryBinding J))).map p.row

theorem credentialBindings_batch (h : WellPlaced (contentRecords J bs os)) {p : PlacedBatch}
    (hp : p ∈ bs) :
    credentialBindings (contentGraph J bs os) (.blank p.node) =
      p.children.mapIdx (entryBinding J) := by
  rw [credentialBindings, objects_batch h hp, p.root_hasCredential]
  refine bind_children (fun i hi => ?_)
  have hentry := objects_entry h hp hi
  rw [hentry, hentry, hentry, hentry]
  simp [entryFacts, entryBinding]

/-- The rows of a batch are the solutions for its node. -/
theorem batchMatches_batch (h : WellPlaced (contentRecords J bs os)) {p : PlacedBatch}
    (hp : p ∈ bs) :
    batchMatches (contentGraph J bs os) (.blank p.node) (.integer p.order) = p.rows J := by
  have hobjects := objects_batch h hp
  rw [batchMatches, hobjects, hobjects, hobjects, hobjects, hobjects, credentialBindings_batch h hp,
    p.root_batchId, p.root_issuerPid, p.root_status, p.root_holderPid, p.root_rejectionReason,
    ← Option.toList_map, ← Option.toList_map, Rdf.optional_toList, Rdf.optional_toList,
    Rdf.optional_coe]
  simp only [Multiset.coe_singleton, Multiset.singleton_bind, Multiset.map_coe]
  rfl

theorem batchMatches_other {g : Rdf.Graph Vocab} {node border : Node}
    (h : g.objects node .batchId = 0) : batchMatches g node border = 0 := by
  rw [batchMatches, h, Multiset.zero_bind]

/-- The solutions of the query of `batches`. -/
theorem batchSolutions_content (h : WellPlaced (contentRecords J bs os)) :
    batchSolutions (contentGraph J bs os) =
      (bs.flatMap (PlacedBatch.rows J) : List BatchRow) := by
  have hchildren : ∀ r ∈ contentRecords J bs os, ∀ d ∈ r.children, ∀ border,
      batchMatches (contentGraph J bs os) d.node border = 0 := by
    intro r hr d hd border
    apply batchMatches_other
    rw [contentGraph, objects_record h hr (List.mem_cons_of_mem _ hd),
      children_lack (by simp [entryFacts]) (by simp [offeredFacts]) hr hd]
    rfl
  have hoffers : (os : Multiset PlacedOffer).bind (fun o =>
      batchMatches (contentGraph J bs os) o.record.root.node (.integer o.record.order)) = 0 := by
    rw [← Multiset.bind_zero (os : Multiset PlacedOffer)]
    refine Multiset.bind_congr (fun o ho => batchMatches_other ?_)
    exact (objects_offer h (Multiset.mem_coe.mp ho) .batchId).trans (congrArg _ o.root_batchId)
  refine (bind_order h hchildren).trans ?_
  rw [contentRecords_bind, hoffers, add_zero, ← Multiset.coe_bind]
  exact Multiset.bind_congr (fun p hp => batchMatches_batch h (Multiset.mem_coe.mp hp))

/-- The rows of one batch after another. -/
theorem batchRows_increasing (horder : bs.Pairwise (fun p p' => p.order < p'.order)) :
    (bs.flatMap (PlacedBatch.rows J)).Pairwise (fun x y => BatchRow.key x < BatchRow.key y) := by
  refine increasing_rows horder ?_ (fun p _ => ?_)
  · intro p _ row hrow
    obtain ⟨c, -, rfl⟩ := List.mem_map.mp hrow
    rfl
  · unfold PlacedBatch.rows
    have hbindings : (p.children.mapIdx (entryBinding J)).Pairwise
        (fun a b => a.corder.number < b.corder.number) := by
      refine pairwise_mapIdx (fun i j a b hij => ?_) _
      exact WithBot.coe_lt_coe.mpr hij
    cases hcases : p.children.mapIdx (entryBinding J) with
    | nil => exact List.pairwise_singleton _ _
    | cons b rest =>
        rw [hcases] at hbindings
        refine List.pairwise_map.mpr (List.pairwise_map.mpr (hbindings.imp (fun hlt => ?_)))
        exact Prod.Lex.toLex_lt_toLex.mpr (Or.inr ⟨rfl, hlt⟩)

/-- The answer of the query of `batches`. -/
theorem batchRows_settled (h : WellPlaced (contentRecords J bs os))
    (horder : bs.Pairwise (fun p p' => p.order < p'.order)) {rows : List BatchRow}
    (hrows : (rows : Multiset BatchRow) = batchSolutions (contentGraph J bs os))
    (hsorted : SortedBy BatchRow.key rows) : rows = bs.flatMap (PlacedBatch.rows J) := by
  rw [batchSolutions_content h] at hrows
  exact settled_order (batchRows_increasing horder) hrows hsorted

theorem BatchRow.foldl_addTo (p : PlacedBatch) (batch : CredentialBatch)
    (bindings : List CredentialBinding) :
    ((bindings.map some).map p.row).foldl (BatchRow.addTo J) batch =
      { batch with credentials :=
          batch.credentials ++ bindings.filterMap (CredentialBinding.entry J) } := by
  induction bindings generalizing batch with
  | nil => simp
  | cons b bindings ih =>
      rw [List.map_cons, List.map_cons, List.foldl_cons, ih]
      cases hentry : CredentialBinding.entry J b with
      | none => simp [BatchRow.addTo, PlacedBatch.row, hentry]
      | some entry => simp [BatchRow.addTo, PlacedBatch.row, hentry]

section

variable (hjson : J.Invertible)
include hjson

theorem decodePayload_text (v : Value) : decodePayload J (J.text v) = v := by
  rw [decodePayload, hjson v]
  rfl

/-- The rows of a batch make the batch. -/
theorem rows_make_batch (p : PlacedBatch) : ∃ first rest, p.rows J = first :: rest ∧
    (first :: rest).foldl (BatchRow.addTo J) first.start = p.content := by
  have hstart : ∀ credential, (p.row credential).start = { p.content with credentials := [] } := by
    intro credential
    simp [BatchRow.start, PlacedBatch.row, PlacedBatch.content, literalValue, Option.bind_map,
      Function.comp_def]
  have hentries : (p.children.mapIdx (entryBinding J)).filterMap (CredentialBinding.entry J) =
      p.content.credentials := by
    rw [filterMap_mapIdx_const (k := Prod.snd)]
    · exact p.agree
    · intro i child
      simp [CredentialBinding.entry, entryBinding, literalValue, decodePayload_text hjson]
  unfold PlacedBatch.rows
  cases hcases : p.children.mapIdx (entryBinding J) with
  | nil =>
      rw [hcases] at hentries
      refine ⟨p.row none, [], rfl, ?_⟩
      rw [List.foldl_cons, List.foldl_nil, hstart]
      change { p.content with credentials := [] } = p.content
      rw [show ([] : List CredentialEntry) = p.content.credentials from hentries]
  | cons b rest =>
      refine ⟨p.row (some b), (rest.map some).map p.row, rfl, ?_⟩
      rw [hstart, ← List.map_cons, ← List.map_cons, BatchRow.foldl_addTo, ← hcases, hentries]
      rfl

/-- What `batches` makes of its rows. -/
theorem grouped_batches (hnodes : (bs.map PlacedBatch.node).Nodup) :
    ((bs.flatMap (PlacedBatch.rows J)).foldl
      (pushRow BatchRow.batch BatchRow.start (BatchRow.addTo J)) []).map Prod.snd =
      bs.map PlacedBatch.content := by
  have hnames : (bs.map (fun p => (.blank p.node : Node))).Nodup := by
    have hblank := hnodes.map (f := (Term.blank : ℕ → Node)) (fun _ _ => Term.blank.inj)
    rwa [List.map_map] at hblank
  have hname : ∀ p ∈ bs, ∀ row ∈ p.rows J, row.batch = .blank p.node := by
    intro p _ row hrow
    obtain ⟨c, -, rfl⟩ := List.mem_map.mp hrow
    rfl
  rw [foldl_groups hname
    (fun p _ => rows_make_batch hjson p) hnames (by simp), List.nil_append, List.map_map]
  rfl

end

/-! ## Credentials of some types -/

variable (J) in
def entryRow (entry : CredentialEntry) : CredentialRow where
  type := .literal entry.credentialType
  format := .literal entry.format
  payload := .literal (J.text entry.payload)

/-- The nodes of batches with a status. -/
theorem subjects_status (h : WellPlaced (contentRecords J bs os)) (status : String) :
    (contentGraph J bs os).subjects .status (.literal status) =
      ((bs.filter (fun p => p.batch.status = status)).map (fun p => .blank p.node) :
        List Node) := by
  rw [contentGraph, recordGraph, Rdf.subjects_graphOf h, Multiset.coe_bind, List.flatMap_assoc]
  have hrecord : ∀ r ∈ contentRecords J bs os, r.descriptions.flatMap (fun d =>
      ((d.values .status).filter (fun o => o = .literal status)).map (fun _ => d.node)) =
      ((r.root.values .status).filter (fun o => o = .literal status)).map
        (fun _ => r.root.node) := by
    intro r hr
    have hchildren : r.children.flatMap (fun d =>
        ((d.values .status).filter (fun o => o = .literal status)).map (fun _ => d.node)) = [] := by
      refine List.flatMap_eq_nil_iff.mpr (fun d hd => ?_)
      rw [children_lack (by simp [entryFacts]) (by simp [offeredFacts]) hr hd]
      rfl
    rw [Record.descriptions, List.flatMap_cons, hchildren, List.append_nil]
  rw [List.flatMap_congr hrecord, contentRecords, List.flatMap_append, List.flatMap_map,
    List.flatMap_map]
  have hoffers : os.flatMap (fun o =>
      ((o.record.root.values .status).filter (fun o => o = .literal status)).map
        (fun _ => o.record.root.node)) = [] := by
    refine List.flatMap_eq_nil_iff.mpr (fun o _ => ?_)
    rw [show o.record.root = o.root from rfl, o.root_status]
    rfl
  have hbatches : ∀ p ∈ bs,
      (((p.record J).root.values .status).filter (fun o => o = .literal status)).map
        (fun _ => (p.record J).root.node) =
      if p.batch.status = status then [.blank p.node] else [] := by
    intro p _
    rw [show (p.record J).root = p.root from rfl, p.root_status]
    by_cases hstatus : p.batch.status = status
    · simp [hstatus, PlacedBatch.root]
    · simp [hstatus]
  rw [hoffers, List.append_nil, List.flatMap_congr hbatches, filter_map_eq_flatMap]

/-- The solutions of the query of `credentials_of_types`. -/
theorem credentialSolutions_content (h : WellPlaced (contentRecords J bs os)) :
    credentialSolutions (contentGraph J bs os) =
      ((bs.filter (fun p => p.batch.status = "ISSUED")).flatMap
        (fun p => p.batch.credentials.map (entryRow J)) : List CredentialRow) := by
  rw [credentialSolutions, subjects_status h, ← Multiset.map_coe, Multiset.bind_map,
    ← Multiset.coe_bind]
  refine Multiset.bind_congr (fun p hp => ?_)
  have hp : p ∈ bs := List.mem_of_mem_filter (Multiset.mem_coe.mp hp)
  have hrows : p.batch.credentials.map (entryRow J) =
      p.children.mapIdx (fun _ child => entryRow J child.2) := by
    rw [← p.agree]
    exact List.ext_getElem (by simp) (by simp)
  rw [objects_batch h hp, p.root_hasCredential, hrows]
  refine bind_children (fun i hi => ?_)
  have hentry := objects_entry h hp hi
  rw [hentry, hentry, hentry]
  simp [entryFacts, entryRow]

/-- The credentials that `credentials_of_types` gives back. -/
theorem credentialEntries_perm (hjson : J.Invertible) (h : WellPlaced (contentRecords J bs os))
    {rows : List CredentialRow}
    (hrows : (rows : Multiset CredentialRow) = credentialSolutions (contentGraph J bs os))
    (types : List String) :
    (rows.filterMap (CredentialRow.entry J types)).Perm
      (((bs.filter (fun p => p.batch.status = "ISSUED")).flatMap
        (fun p => p.batch.credentials)).filter (fun c => c.credentialType ∈ types)) := by
  rw [credentialSolutions_content h] at hrows
  refine ((Multiset.coe_eq_coe.mp hrows).filterMap _).trans (List.Perm.of_eq ?_)
  rw [← List.map_flatMap, List.filterMap_map]
  generalize (bs.filter (fun p => p.batch.status = "ISSUED")).flatMap
    (fun p => p.batch.credentials) = entries
  rw [← List.filterMap_eq_filter]
  refine List.filterMap_congr (fun entry _ => ?_)
  by_cases htype : entry.credentialType ∈ types
  · simp [CredentialRow.entry, entryRow, literalValue, htype, decodePayload_text hjson]
  · simp [CredentialRow.entry, entryRow, literalValue, htype, Option.guard]

/-! ## Offers -/

/-- What the credential part binds for an offer's `i`-th credential. -/
def offeredBinding (i : ℕ) (child : ℕ × OfferedCredential) : OfferedBinding where
  oc := .blank child.1
  ocorder := .integer i
  credentialId := .literal child.2.id
  credentialType := child.2.credentialType.map .literal

/-- The row of an offer for one binding of the credential part. -/
def PlacedOffer.row (o : PlacedOffer) (credential : Option OfferedBinding) : OfferRow where
  offer := .blank o.node
  border := .integer o.order
  offerId := .literal o.id
  issuer := .literal o.offer.issuer
  credential := credential

def PlacedOffer.rows (o : PlacedOffer) : List OfferRow :=
  (optionalRows (o.children.mapIdx offeredBinding)).map o.row

theorem offeredBindings_offer (h : WellPlaced (contentRecords J bs os)) {o : PlacedOffer}
    (ho : o ∈ os) :
    offeredBindings (contentGraph J bs os) (.blank o.node) =
      o.children.mapIdx offeredBinding := by
  rw [offeredBindings, objects_offer h ho, o.root_offersCredential]
  refine bind_children (fun i hi => ?_)
  have hoffered := objects_offered h ho hi
  have htype : valuesOf (offeredFacts i o.children[i].2) .credentialType =
      (o.children[i].2.credentialType.map Term.literal).toList := by
    simp [offeredFacts, Option.toList_map]
  rw [hoffered, hoffered, hoffered, htype, Rdf.optional_toList]
  simp [offeredFacts, offeredBinding]

theorem offerMatches_offer (h : WellPlaced (contentRecords J bs os)) {o : PlacedOffer}
    (ho : o ∈ os) :
    offerMatches (contentGraph J bs os) (.blank o.node) (.integer o.order) = o.rows := by
  have hobjects := objects_offer h ho
  rw [offerMatches, hobjects, hobjects, offeredBindings_offer h ho, o.root_offerId, o.root_issuer,
    Rdf.optional_coe]
  simp only [Multiset.coe_singleton, Multiset.singleton_bind, Multiset.map_coe]
  rfl

theorem offerMatches_other {g : Rdf.Graph Vocab} {node border : Node}
    (h : g.objects node .offerId = 0) : offerMatches g node border = 0 := by
  rw [offerMatches, h, Multiset.zero_bind]

/-- The solutions of the query of `offers`. -/
theorem offerSolutions_content (h : WellPlaced (contentRecords J bs os)) :
    offerSolutions (contentGraph J bs os) = (os.flatMap PlacedOffer.rows : List OfferRow) := by
  have hchildren : ∀ r ∈ contentRecords J bs os, ∀ d ∈ r.children, ∀ border,
      offerMatches (contentGraph J bs os) d.node border = 0 := by
    intro r hr d hd border
    apply offerMatches_other
    rw [contentGraph, objects_record h hr (List.mem_cons_of_mem _ hd),
      children_lack (by simp [entryFacts]) (by simp [offeredFacts]) hr hd]
    rfl
  have hbatches : (bs : Multiset PlacedBatch).bind (fun p =>
      offerMatches (contentGraph J bs os) (p.record J).root.node
        (.integer (p.record J).order)) = 0 := by
    rw [← Multiset.bind_zero (bs : Multiset PlacedBatch)]
    refine Multiset.bind_congr (fun p hp => offerMatches_other ?_)
    exact (objects_batch h (Multiset.mem_coe.mp hp) .offerId).trans (congrArg _ p.root_offerId)
  refine (bind_order h hchildren).trans ?_
  rw [contentRecords_bind, hbatches, zero_add, ← Multiset.coe_bind]
  exact Multiset.bind_congr (fun o ho => offerMatches_offer h (Multiset.mem_coe.mp ho))

/-- The rows of one offer after another. -/
theorem offerRows_increasing (horder : os.Pairwise (fun o o' => o.order < o'.order)) :
    (os.flatMap PlacedOffer.rows).Pairwise (fun x y => OfferRow.key x < OfferRow.key y) := by
  refine increasing_rows horder ?_ (fun o _ => ?_)
  · intro o _ row hrow
    obtain ⟨c, -, rfl⟩ := List.mem_map.mp hrow
    rfl
  · unfold PlacedOffer.rows
    have hbindings : (o.children.mapIdx offeredBinding).Pairwise
        (fun a b => a.ocorder.number < b.ocorder.number) := by
      refine pairwise_mapIdx (fun i j a b hij => ?_) _
      exact WithBot.coe_lt_coe.mpr hij
    cases hcases : o.children.mapIdx offeredBinding with
    | nil => exact List.pairwise_singleton _ _
    | cons b rest =>
        rw [hcases] at hbindings
        refine List.pairwise_map.mpr (List.pairwise_map.mpr (hbindings.imp (fun hlt => ?_)))
        exact Prod.Lex.toLex_lt_toLex.mpr (Or.inr ⟨rfl, hlt⟩)

/-- The answer of the query of `offers`. -/
theorem offerRows_settled (h : WellPlaced (contentRecords J bs os))
    (horder : os.Pairwise (fun o o' => o.order < o'.order)) {rows : List OfferRow}
    (hrows : (rows : Multiset OfferRow) = offerSolutions (contentGraph J bs os))
    (hsorted : SortedBy OfferRow.key rows) : rows = os.flatMap PlacedOffer.rows := by
  rw [offerSolutions_content h] at hrows
  exact settled_order (offerRows_increasing horder) hrows hsorted

theorem OfferRow.foldl_addTo (o : PlacedOffer) (accepted : AcceptedOffer)
    (bindings : List OfferedBinding) :
    ((bindings.map some).map o.row).foldl OfferRow.addTo accepted =
      { accepted with offer := { accepted.offer with credentials :=
          accepted.offer.credentials ++ bindings.filterMap OfferedBinding.entry } } := by
  induction bindings generalizing accepted with
  | nil => simp
  | cons b bindings ih =>
      rw [List.map_cons, List.map_cons, List.foldl_cons, ih]
      cases hentry : OfferedBinding.entry b with
      | none => simp [OfferRow.addTo, PlacedOffer.row, hentry]
      | some entry => simp [OfferRow.addTo, PlacedOffer.row, hentry]

/-- The rows of an offer make the offer. -/
theorem rows_make_offer (o : PlacedOffer) : ∃ first rest, o.rows = first :: rest ∧
    (first :: rest).foldl OfferRow.addTo first.start = o.content := by
  have hstart : ∀ credential, (o.row credential).start =
      { id := o.id, offer := { o.offer with credentials := [] } } := fun _ => rfl
  have hentries : (o.children.mapIdx offeredBinding).filterMap OfferedBinding.entry =
      o.offer.credentials := by
    rw [filterMap_mapIdx_const (k := Prod.snd)]
    · exact o.agree
    · intro i child
      simp [OfferedBinding.entry, offeredBinding, literalValue, Option.bind_map, Function.comp_def]
  unfold PlacedOffer.rows
  cases hcases : o.children.mapIdx offeredBinding with
  | nil =>
      rw [hcases] at hentries
      refine ⟨o.row none, [], rfl, ?_⟩
      rw [List.foldl_cons, List.foldl_nil, hstart]
      change AcceptedOffer.mk o.id { o.offer with credentials := [] } = o.content
      rw [show ([] : List OfferedCredential) = o.offer.credentials from hentries]
      rfl
  | cons b rest =>
      refine ⟨o.row (some b), (rest.map some).map o.row, rfl, ?_⟩
      rw [hstart, ← List.map_cons, ← List.map_cons, OfferRow.foldl_addTo, ← hcases, hentries]
      rfl

/-- What `offers` makes of its rows. -/
theorem grouped_offers (hnodes : (os.map PlacedOffer.node).Nodup) :
    ((os.flatMap PlacedOffer.rows).foldl
      (pushRow OfferRow.offer OfferRow.start OfferRow.addTo) []).map Prod.snd =
      os.map PlacedOffer.content := by
  have hnames : (os.map (fun o => (.blank o.node : Node))).Nodup := by
    have hblank := hnodes.map (f := (Term.blank : ℕ → Node)) (fun _ _ => Term.blank.inj)
    rwa [List.map_map] at hblank
  have hname : ∀ o ∈ os, ∀ row ∈ o.rows, row.offer = .blank o.node := by
    intro o _ row hrow
    obtain ⟨c, -, rfl⟩ := List.mem_map.mp hrow
    rfl
  rw [foldl_groups hname
    (fun o _ => rows_make_offer o) hnames (by simp), List.nil_append, List.map_map]
  rfl

end IdentityHub.CredentialGraph
