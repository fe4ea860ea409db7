import IdentityHub.Graph.Holding
import IdentityHub.Lib.JsonText
import Mathlib.Data.Fintype.EquivFin
import Mathlib.Data.List.Sort

/-!
# One call after another

A sequence of `add_batch` and `add_offer` calls leaves the graph of the newest batches and
the newest offers, as two bounded lists would hold them, as long as the insertion counter
has not come round. It has 64 bits: the call after the last of them gets the least order
of all, and at the cap it evicts what it has just inserted.
-/

namespace IdentityHub.CredentialGraph

open Rdf (Term Triple SortedBy)

variable {J : JsonText}

/-! ## Calls and what they add -/

inductive GraphCall where
  | addBatch (batch : NewCredentialBatch)
  | addOffer (offer : NewAcceptedOffer)

def GraphCall.program (J : JsonText) : GraphCall → GraphProgram String
  | .addBatch batch => CredentialGraph.addBatch J batch
  | .addOffer offer => CredentialGraph.addOffer offer

/-- A call and the id it returned. -/
structure FinishedCall where
  call : GraphCall
  id : String

/-- The batch a call adds, under the id it returned. -/
def FinishedCall.batch (c : FinishedCall) : Option CredentialBatch :=
  match c.call with
  | .addBatch batch => some { batch with id := c.id }
  | .addOffer _ => none

def FinishedCall.offer (c : FinishedCall) : Option AcceptedOffer :=
  match c.call with
  | .addBatch _ => none
  | .addOffer offer => some { id := c.id, offer := offer }

/-- The calls so far, and the state they have led to. -/
inductive SequentialRun (J : JsonText) : List FinishedCall → GraphState → Prop
  | start : SequentialRun J [] openInMemory
  | call {done : List FinishedCall} {s s' : GraphState} (c : FinishedCall) :
      SequentialRun J done s → graphEnvironment.Runs (c.call.program J) s c.id s' →
        SequentialRun J (done ++ [c]) s'

/-- All batches that were added, in order. -/
def batchesOf (done : List FinishedCall) : List CredentialBatch :=
  done.filterMap FinishedCall.batch

def offersOf (done : List FinishedCall) : List AcceptedOffer := done.filterMap FinishedCall.offer

/-! ## Numbered calls

The counter numbers the calls. -/

/-- What some of the calls add, each with the number of its call. -/
def numbered {α : Type} (adds : FinishedCall → Option α) (done : List FinishedCall) :
    List (ℕ × α) :=
  done.zipIdx.filterMap (fun (c, i) => (adds c).map (fun a => (i, a)))

section

variable {α : Type} (adds : FinishedCall → Option α) (done : List FinishedCall)

theorem numbered_snoc (c : FinishedCall) :
    numbered adds (done ++ [c]) =
      numbered adds done ++ ((adds c).map (fun a => (done.length, a))).toList := by
  rw [numbered, List.zipIdx_append, List.filterMap_append]
  simp only [List.zipIdx_singleton, Nat.zero_add, List.filterMap_cons, List.filterMap_nil]
  cases adds c <;> rfl

/-- A call that adds nothing of the kind. -/
theorem numbered_skip {c : FinishedCall} (h : adds c = none) :
    numbered adds (done ++ [c]) = numbered adds done := by
  rw [numbered_snoc, h]
  exact List.append_nil _

theorem map_snd_numbered : (numbered adds done).map Prod.snd = done.filterMap adds := by
  induction done using List.reverseRecOn with
  | nil => rfl
  | append_singleton done c ih =>
      rw [numbered_snoc, List.map_append, ih, List.filterMap_append]
      cases hadds : adds c <;> simp [hadds]

theorem lt_of_mem_numbered {i : ℕ} {a : α} (h : (i, a) ∈ numbered adds done) : i < done.length := by
  obtain ⟨⟨c, j⟩, hmem, hadds⟩ := List.mem_filterMap.mp h
  obtain ⟨a', -, heq⟩ := Option.map_eq_some_iff.mp hadds
  cases heq
  have hlt := (List.mem_zipIdx hmem).2.1
  omega

end

/-- Keeping the newest of what was kept and what has come is keeping the newest of all. -/
theorem rtake_append_rtake {α : Type} (n : ℕ) (l l' : List α) :
    (l.rtake n ++ l').rtake n = (l ++ l').rtake n := by
  simp only [List.rtake, List.drop_append, List.drop_drop, List.length_append, List.length_drop]
  congr 2 <;> omega

/-! ## The invariant of a run -/

def PlacedBatch.stamp (p : PlacedBatch) : ℕ × CredentialBatch := (p.order, p.content)

def PlacedOffer.stamp (o : PlacedOffer) : ℕ × AcceptedOffer := (o.order, o.content)

/-- The graph holds the newest batches and offers of a run, by the numbers of their calls. -/
structure Reflects (J : JsonText) (done : List FinishedCall) (s : GraphState)
    (bs : List PlacedBatch) (os : List PlacedOffer) : Prop where
  holds : Holds J s bs os
  batches : bs.map PlacedBatch.stamp =
    (numbered FinishedCall.batch done).rtake maxCredentialBatches
  offers : os.map PlacedOffer.stamp = (numbered FinishedCall.offer done).rtake maxAcceptedOffers
  counter : s.nextOrder = done.length % 2 ^ 64

variable {done : List FinishedCall} {s s' : GraphState} {bs : List PlacedBatch}
  {os : List PlacedOffer}

theorem Reflects.batch_lt (h : Reflects J done s bs os) : ∀ p ∈ bs, p.order < done.length := by
  intro p hp
  have hmem : p.stamp ∈ bs.map PlacedBatch.stamp := List.mem_map_of_mem hp
  rw [h.batches] at hmem
  exact lt_of_mem_numbered _ done (List.mem_of_mem_drop hmem)

theorem Reflects.offer_lt (h : Reflects J done s bs os) : ∀ o ∈ os, o.order < done.length := by
  intro o ho
  have hmem : o.stamp ∈ os.map PlacedOffer.stamp := List.mem_map_of_mem ho
  rw [h.offers] at hmem
  exact lt_of_mem_numbered _ done (List.mem_of_mem_drop hmem)

/-- What the graph holds is what a bounded list would. -/
theorem Reflects.content (h : Reflects J done s bs os) :
    bs.map PlacedBatch.content = (batchesOf done).rtake maxCredentialBatches ∧
      os.map PlacedOffer.content = (offersOf done).rtake maxAcceptedOffers := by
  have hbatches := congrArg (List.map Prod.snd) h.batches
  have hoffers := congrArg (List.map Prod.snd) h.offers
  rw [List.map_map, List.rtake, List.map_drop, map_snd_numbered] at hbatches hoffers
  constructor
  · refine hbatches.trans ?_
    rw [List.rtake, ← List.length_map (f := Prod.snd), map_snd_numbered, batchesOf]
  · refine hoffers.trans ?_
    rw [List.rtake, ← List.length_map (f := Prod.snd), map_snd_numbered, offersOf]

theorem map_stamp_rtake {p : PlacedBatch} {c : FinishedCall} {n : ℕ}
    (h : bs.map PlacedBatch.stamp = (numbered FinishedCall.batch done).rtake n)
    (hp : c.batch = some p.content) (horder : p.order = done.length) :
    ((bs ++ [p]).rtake n).map PlacedBatch.stamp =
      (numbered FinishedCall.batch (done ++ [c])).rtake n := by
  rw [List.rtake, List.map_drop, ← List.length_map (f := PlacedBatch.stamp), ← List.rtake,
    List.map_append, h, rtake_append_rtake, numbered_snoc, hp, ← horder]
  rfl

theorem map_offerStamp_rtake {o : PlacedOffer} {c : FinishedCall} {n : ℕ}
    (h : os.map PlacedOffer.stamp = (numbered FinishedCall.offer done).rtake n)
    (ho : c.offer = some o.content) (horder : o.order = done.length) :
    ((os ++ [o]).rtake n).map PlacedOffer.stamp =
      (numbered FinishedCall.offer (done ++ [c])).rtake n := by
  rw [List.rtake, List.map_drop, ← List.length_map (f := PlacedOffer.stamp), ← List.rtake,
    List.map_append, h, rtake_append_rtake, numbered_snoc, ho, ← horder]
  rfl

/-- **One call** while the counter has not come round. -/
theorem Reflects.call (h : Reflects J done s bs os) (hcounter : done.length < 2 ^ 64)
    (c : FinishedCall) (hrun : graphEnvironment.Runs (c.call.program J) s c.id s') :
    ∃ bs' os', Reflects J (done ++ [c]) s' bs' os' := by
  have hnext : s.nextOrder = done.length := h.counter.trans (Nat.mod_eq_of_lt hcounter)
  have hlength : (s.nextOrder + 1) % 2 ^ 64 = (done ++ [c]).length % 2 ^ 64 := by
    rw [hnext, List.length_append, List.length_singleton]
  obtain ⟨call, id⟩ := c
  cases call with
  | addBatch batch =>
      obtain ⟨p, rfl, rfl, horder, hwritten⟩ := addBatch_holds h.holds hrun
      have hincreasing : (bs ++ [p]).Pairwise (fun p p' => p.order < p'.order) := by
        refine List.pairwise_append.mpr ⟨h.holds.batchOrder, List.pairwise_singleton _ _, ?_⟩
        intro p' hp' p'' hp''
        rw [List.mem_singleton.mp hp'', horder, hnext]
        exact h.batch_lt p' hp'
      obtain ⟨hholds, hcount⟩ := hwritten _ (.refl _) hincreasing
      refine ⟨_, os, hholds, map_stamp_rtake h.batches rfl (horder.trans hnext), ?_,
        hcount.trans hlength⟩
      rw [numbered_skip _ _ rfl, h.offers]
  | addOffer offer =>
      obtain ⟨o, rfl, rfl, horder, hwritten⟩ := addOffer_holds h.holds hrun
      have hincreasing : (os ++ [o]).Pairwise (fun o o' => o.order < o'.order) := by
        refine List.pairwise_append.mpr ⟨h.holds.offerOrder, List.pairwise_singleton _ _, ?_⟩
        intro o' ho' o'' ho''
        rw [List.mem_singleton.mp ho'', horder, hnext]
        exact h.offer_lt o' ho'
      obtain ⟨hholds, hcount⟩ := hwritten _ (.refl _) hincreasing
      refine ⟨bs, _, hholds, ?_, map_offerStamp_rtake h.offers rfl (horder.trans hnext),
        hcount.trans hlength⟩
      rw [numbered_skip _ _ rfl, h.batches]

/-- **A whole run**: the graph holds the newest of what was added. -/
theorem reflects_of_run (hrun : SequentialRun J done s) (hcounter : done.length ≤ 2 ^ 64) :
    ∃ bs os, Reflects J done s bs os := by
  induction hrun with
  | start => exact ⟨[], [], holds_openInMemory, rfl, rfl, rfl⟩
  | @call done s s' c _ hcall ih =>
      rw [List.length_append, List.length_singleton] at hcounter
      obtain ⟨bs, os, h⟩ := ih (by omega)
      exact h.call (by omega) c hcall

/-- What the methods answer after some calls: `batches` and `offers` the newest of what was
added, in order and whole; `credentials_of_types` the issued credentials of these batches that
are of these types. None changes anything, and the triples are those of these batches and
offers and no others. -/
structure TwoBoundedLists (J : JsonText) (done : List FinishedCall) (s : GraphState) : Prop where
  batches : ∀ result s', graphEnvironment.Runs (batches J) s result s' ↔
    result = (batchesOf done).rtake maxCredentialBatches ∧ s' = s
  offers : ∀ result s', graphEnvironment.Runs offers s result s' ↔
    result = (offersOf done).rtake maxAcceptedOffers ∧ s' = s
  credentials : ∀ types, (∃ result, graphEnvironment.Runs (credentialsOfTypes J types) s result s) ∧
    ∀ result s', graphEnvironment.Runs (credentialsOfTypes J types) s result s' →
      result.Perm (issuedOfTypes types ((batchesOf done).rtake maxCredentialBatches)) ∧ s' = s
  triples : ∃ (bs : List PlacedBatch) (os : List PlacedOffer),
    bs.map PlacedBatch.content = (batchesOf done).rtake maxCredentialBatches ∧
      os.map PlacedOffer.content = (offersOf done).rtake maxAcceptedOffers ∧
        (contentNodes bs os).Nodup ∧
          s.triples = (bs.flatMap (PlacedBatch.quads J) ++ os.flatMap PlacedOffer.quads).toFinset

/-- `ORDER BY ASC(?order)`. -/
def OrderLe (a b : Node × Node) : Prop := a.2.number ≤ b.2.number

instance : DecidableRel OrderLe := fun a b => inferInstanceAs (Decidable (a.2.number ≤ b.2.number))

instance : Std.Total OrderLe := ⟨fun a b => le_total a.2.number b.2.number⟩

instance : IsTrans (Node × Node) OrderLe := ⟨fun _ _ _ => le_trans⟩

/-- The inner query of `trim_oldest` has an answer. -/
theorem exists_oldest (g : Rdf.Graph Vocab) (nodeClass : Vocab) (excess : ℕ) :
    ∃ nodes, Oldest g nodeClass excess nodes := by
  obtain ⟨rows, hrows⟩ := Quotient.exists_rep (orderedNodes g nodeClass)
  refine ⟨_, rows.insertionSort OrderLe, ?_, List.pairwise_insertionSort OrderLe rows, rfl⟩
  exact (Multiset.coe_eq_coe.mpr (List.perm_insertionSort OrderLe rows)).trans hrows

theorem exists_insertAll (quads : List Quad) (s : GraphState) :
    ∃ s', graphEnvironment.Runs (insertAll quads) s () s' := by
  induction quads generalizing s with
  | nil => exact ⟨s, .of_returns (.refl _)⟩
  | cons quad quads ih =>
      obtain ⟨s', hrest⟩ := ih { s with triples := insert quad s.triples }
      have hfirst : graphEnvironment.Runs (insertQuad quad) s ()
          { s with triples := insert quad s.triples } :=
        Environment.Runs.ask_iff.mpr ⟨(), rfl, rfl⟩
      exact ⟨s', .bind hfirst hrest⟩

theorem exists_childQuads {α : Type} (quadsOf : ℕ → ℕ → α → List Quad) (i : ℕ) (items : List α)
    (s : GraphState) :
    ∃ quads s', graphEnvironment.Runs (childQuads quadsOf i items) s quads s' := by
  induction items generalizing i s with
  | nil => exact ⟨[], s, .of_returns (.refl _)⟩
  | cons item items ih =>
      obtain ⟨child, hfresh⟩ := Infinite.exists_notMem_finset s.nodes
      have hfirst : graphEnvironment.Runs newBlankNode s child
          { s with nodes := insert child s.nodes } :=
        Environment.Runs.ask_iff.mpr ⟨child, ⟨hfresh, rfl⟩, rfl⟩
      obtain ⟨quads, s', hrest⟩ := ih (i + 1) { s with nodes := insert child s.nodes }
      exact ⟨_, s', .bind hfirst (.bind hrest (.of_returns (.refl _)))⟩

theorem exists_trimOldest (nodeClass childPredicate : Vocab) (cap : ℕ) (s : GraphState) :
    ∃ s', graphEnvironment.Runs (trimOldest nodeClass childPredicate cap) s () s' := by
  obtain ⟨count, hcount⟩ : ∃ count, count = (s.triples.subjects .rdfType (.iri nodeClass)).card :=
    ⟨_, rfl⟩
  have hcounted : graphEnvironment.Runs (countOfType nodeClass) s count s :=
    Environment.Runs.ask_iff.mpr ⟨count, ⟨hcount, rfl⟩, rfl⟩
  have hdeleted : ∃ s', graphEnvironment.Runs (if 0 < count - cap then
      deleteOldest nodeClass childPredicate (count - cap) else pure ()) s () s' := by
    split
    · obtain ⟨nodes, holdest⟩ := exists_oldest s.triples nodeClass (count - cap)
      exact ⟨_, Environment.Runs.ask_iff.mpr ⟨(), ⟨nodes, holdest, rfl⟩, rfl⟩⟩
    · exact ⟨s, .of_returns (.refl _)⟩
  obtain ⟨s', hdeleted⟩ := hdeleted
  exact ⟨s', .bind hcounted hdeleted⟩

theorem exists_addRecord {α : Type} (rootQuads : Node → String → ℕ → List Quad)
    (quadsOf : Node → ℕ → ℕ → α → List Quad) (items : List α) (nodeClass childPredicate : Vocab)
    (cap : ℕ) (s : GraphState) (id : String) :
    ∃ s', graphEnvironment.Runs (addRecord rootQuads quadsOf items nodeClass childPredicate cap) s
      id s' := by
  have huuid : graphEnvironment.Runs newUuid s id s :=
    Environment.Runs.ask_iff.mpr ⟨id, rfl, rfl⟩
  obtain ⟨node, hfresh⟩ := Infinite.exists_notMem_finset s.nodes
  have hnode : graphEnvironment.Runs newBlankNode s node { s with nodes := insert node s.nodes } :=
    Environment.Runs.ask_iff.mpr ⟨node, ⟨hfresh, rfl⟩, rfl⟩
  have horder : graphEnvironment.Runs nextOrder { s with nodes := insert node s.nodes }
      s.nextOrder { s with nodes := insert node s.nodes
                           nextOrder := (s.nextOrder + 1) % 2 ^ 64 } :=
    Environment.Runs.ask_iff.mpr ⟨s.nextOrder, ⟨rfl, rfl⟩, rfl⟩
  obtain ⟨quads, s₁, hquads⟩ := exists_childQuads (quadsOf (.blank node)) 0 items
    { s with nodes := insert node s.nodes, nextOrder := (s.nextOrder + 1) % 2 ^ 64 }
  obtain ⟨s₂, hinserted⟩ := exists_insertAll (rootQuads (.blank node) id s.nextOrder ++ quads) s₁
  obtain ⟨s₃, htrimmed⟩ := exists_trimOldest nodeClass childPredicate cap s₂
  refine ⟨s₃, .bind huuid (.bind hnode (.bind horder (.bind hquads ?_)))⟩
  exact .bind hinserted (.bind htrimmed (.of_returns (.refl _)))

/-- Every call returns, under any id. -/
theorem exists_call (J : JsonText) (call : GraphCall) (s : GraphState) (id : String) :
    ∃ s', graphEnvironment.Runs (call.program J) s id s' := by
  cases call with
  | addBatch batch =>
      rw [GraphCall.program, CredentialGraph.addBatch]
      exact exists_addRecord _ _ _ _ _ _ s id
  | addOffer offer =>
      rw [GraphCall.program, CredentialGraph.addOffer]
      exact exists_addRecord _ _ _ _ _ _ s id

theorem exists_run (J : JsonText) (done : List FinishedCall) : ∃ s, SequentialRun J done s := by
  induction done using List.reverseRecOn with
  | nil => exact ⟨_, .start⟩
  | append_singleton done c ih =>
      obtain ⟨s, hrun⟩ := ih
      obtain ⟨s', hcall⟩ := exists_call J c.call s c.id
      exact ⟨s', .call c hrun hcall⟩

/-! ### When the counter has come round

The same batch is added `2 ^ 64` times, and then once more. -/

def printedJson : JsonText where
  text v := String.ofList (Json.Text.print v)
  fromStr text := Json.Text.parse text.toList

theorem printedJson_invertible : printedJson.Invertible := by
  intro v
  show Json.Text.parse (String.ofList (Json.Text.print v)).toList = some v
  rw [String.toList_ofList, Json.Text.parse_print]

def wrapBatch : NewCredentialBatch where
  issuerPid := "issuer-1"
  holderPid := none
  status := "ISSUED"
  rejectionReason := none
  credentials := []

def wrapCall (id : String) : FinishedCall where
  call := .addBatch wrapBatch
  id := id

def wrapContent (id : String) : CredentialBatch := { wrapBatch with id := id }

theorem numbered_replicate (n : ℕ) :
    numbered FinishedCall.batch (List.replicate n (wrapCall "first")) =
      (List.range n).map (fun i => (i, wrapContent "first")) := by
  induction n with
  | zero => rfl
  | succ n ih =>
      rw [List.replicate_succ', numbered_snoc, ih, List.length_replicate, List.range_succ,
        List.map_append]
      rfl

/-- The call whose order is the least inserts its batch and evicts it. -/
theorem wrapped_call_evicted {n : ℕ} {s s' : GraphState} {bs : List PlacedBatch}
    {os : List PlacedOffer} (hcap : maxCredentialBatches < n) (hround : n % 2 ^ 64 = 0)
    (h : Reflects printedJson (List.replicate n (wrapCall "first")) s bs os)
    (hrun : graphEnvironment.Runs ((wrapCall "last").call.program printedJson) s "last" s') :
    Holds printedJson s' bs os := by
  have hstamps := h.batches
  rw [numbered_replicate, List.rtake, List.length_map, List.length_range, ← List.map_drop] at hstamps
  have hlength : bs.length = maxCredentialBatches := by
    have hlengths := congrArg List.length hstamps
    rw [List.length_map, List.length_map, List.length_drop, List.length_range] at hlengths
    omega
  have hpositive : ∀ p ∈ bs, 0 < p.order := by
    intro p hp
    have hmem : p.stamp ∈ bs.map PlacedBatch.stamp := List.mem_map_of_mem hp
    rw [hstamps] at hmem
    obtain ⟨i, hi, heq⟩ := List.mem_map.mp hmem
    obtain ⟨k, hk, rfl⟩ := List.mem_drop_iff_getElem.mp hi
    have horder : n - maxCredentialBatches + k = p.order := by
      rw [List.getElem_range] at heq
      exact (Prod.ext_iff.mp heq).1
    omega
  obtain ⟨p, -, -, horder, hwritten⟩ := addBatch_holds h.holds hrun
  have hzero : p.order = 0 := by
    rw [horder, h.counter, List.length_replicate, hround]
  have hincreasing : (p :: bs).Pairwise (fun p p' => p.order < p'.order) := by
    refine List.pairwise_cons.mpr ⟨fun p' hp' => ?_, h.holds.batchOrder⟩
    rw [hzero]
    exact hpositive p' hp'
  have hholds := (hwritten (p :: bs) (List.perm_append_singleton p bs).symm hincreasing).1
  rwa [List.rtake, List.length_cons, hlength, Nat.add_sub_cancel_left, List.drop_one,
    List.tail_cons] at hholds

/-- A batch and an offer, one after the other. -/
def shortRun : List FinishedCall :=
  [wrapCall "first", { call := .addOffer { issuer := "issuer-1", credentials := [] }, id := "offer-1" }]

end IdentityHub.CredentialGraph
