import IdentityHub.Graph.Concurrent

/-!
# Calls that are not interrupted

If no operation of another call comes between the order an `add_batch` draws and its last
operation, the calls act on one list that keeps the newest batches. Nothing in the store sees
to that: a reader that comes between two inserts reads a batch without its credentials.
-/

namespace IdentityHub.CredentialGraph

variable {J : JsonText}

section

variable {ι : Type} [DecidableEq ι] {calls : ι → BatchCall} {run : ConcurrentRun J calls}
  {answer : ι → BatchAnswer} {order : List ι} {s : GraphState} {done : List FinishedCall}
  {writers : List (ι × ℕ × CredentialBatch)}

/-! ## What has returned -/

theorem returned_of_ends {call : BatchCall} {events : List GraphEvent}
    (h : (call.program J).Ends events) : ∃ a, (call.program J).Returns events a := by
  obtain ⟨q, hq, hends⟩ := h
  cases q with
  | pure a => exact ⟨a, hq⟩
  | throw e => exact e.elim
  | ask op next => exact absurd ⟨op, next, rfl⟩ hends

/-- The answer of a call that has returned. -/
def givenAnswer (run : ConcurrentRun J calls) (i : ι) : BatchAnswer :=
  match run.thread i with
  | .pure a => a
  | _ => .stored []

theorem givenAnswer_eq {i : ι} {a : BatchAnswer} (h : run.thread i = .pure a) :
    givenAnswer run i = a := by
  rw [givenAnswer, h]

theorem mem_entered_of_returned {i : ι} {a : BatchAnswer} (h : run.thread i = .pure a) :
    i ∈ entered Draws run.log := by
  have hreturns := run.evolves i
  rw [h] at hreturns
  exact mem_entered.mpr (returns_section hreturns)

/-- Of the calls whose sections have begun all have returned, but for the last, and then that is
a call of `add_batch`. -/
theorem entered_split (hended : ∀ i ∈ (entered Draws run.log).dropLast,
    ((calls i).program J).Ends (eventsOf i run.log)) :
    ∃ order rest, entered Draws run.log = order ++ rest ∧
      (∀ i ∈ order, ∃ a, run.thread i = .pure a) ∧
        ∀ i ∈ rest, (∃ new, calls i = .addBatch new) ∧ ¬ ∃ a, run.thread i = .pure a := by
  have hreturned : ∀ i ∈ (entered Draws run.log).dropLast, ∃ a, run.thread i = .pure a := by
    intro i hi
    obtain ⟨a, ha⟩ := returned_of_ends (hended i hi)
    exact ⟨a, (run.evolves i).unique ha⟩
  rcases List.eq_nil_or_concat' (entered Draws run.log) with hnil | ⟨init, last, hsplit⟩
  · exact ⟨[], [], hnil, nofun, nofun⟩
  · rw [hsplit, List.dropLast_concat] at hreturned
    by_cases hlast : ∃ a, run.thread last = .pure a
    · refine ⟨init ++ [last], [], by rw [hsplit, List.append_nil], fun i hi => ?_, nofun⟩
      rcases List.mem_append.mp hi with hi | hi
      · exact hreturned i hi
      · rwa [List.mem_singleton.mp hi]
    · refine ⟨init, [last], hsplit, hreturned, fun i hi => ?_⟩
      rw [List.mem_singleton.mp hi]
      refine ⟨?_, hlast⟩
      have hbegun : last ∈ entered Draws run.log := by
        rw [hsplit]
        exact List.mem_append_right _ (List.mem_singleton_self last)
      obtain ⟨e, he, -⟩ := mem_entered.mp hbegun
      by_contra hreads
      have hreader : (calls last).adds = false := by
        cases hcall : calls last with
        | addBatch new => exact absurd ⟨new, hcall⟩ hreads
        | batches => rfl
        | credentialsOfTypes types => rfl
      rcases reader_evolves hreader (run.evolves last) with hnil | ⟨-, hreturns⟩
      · rw [hnil] at he
        exact absurd he List.not_mem_nil
      · exact hlast hreturns

/-- Every call of `add_batch` that has returned has drawn an order. -/
theorem length_writers_le (hnodup : order.Nodup) (hreturned : ∀ i ∈ order, ∃ a, run.thread i = .pure a) :
    (order.filter (fun i => (calls i).adds)).length ≤
      (orderDraws (run.log.map Prod.snd)).length := by
  have hsubset : order.filter (fun i => (calls i).adds) ⊆
      (run.log.filter (fun entry => entry.2.op.isOrder)).map Prod.fst := by
    intro i hi
    obtain ⟨hmem, hadds⟩ := List.mem_filter.mp hi
    obtain ⟨a, ha⟩ := hreturned i hmem
    have hreturns := run.evolves i
    rw [ha] at hreturns
    cases hcall : calls i with
    | addBatch new =>
        rw [hcall] at hreturns
        obtain ⟨id, hadded, -⟩ := returns_addBatch hreturns
        obtain ⟨n, hdraws⟩ := orderDraws_addBatch hadded
        have hdrawn : orderDrawn n ∈ orderDraws (eventsOf i run.log) :=
          hdraws ▸ List.mem_singleton_self _
        have hlog := mem_eventsOf.mp (List.mem_of_mem_filter hdrawn)
        exact List.mem_map.mpr ⟨_, List.mem_filter.mpr ⟨hlog, rfl⟩, rfl⟩
    | batches =>
        rw [hcall] at hadds
        cases hadds
    | credentialsOfTypes types =>
        rw [hcall] at hadds
        cases hadds
  calc (order.filter (fun i => (calls i).adds)).length
      ≤ ((run.log.filter (fun entry => entry.2.op.isOrder)).map Prod.fst).length :=
        ((hnodup.filter _).subperm hsubset).length_le
    _ = (orderDraws (run.log.map Prod.snd)).length := by
        rw [orderDraws, List.filter_map, List.length_map, List.length_map]
        rfl

theorem pairwise_numbered (done : List FinishedCall) :
    (numbered FinishedCall.batch done).Pairwise (fun w w' => w.1 < w'.1) := by
  induction done using List.reverseRecOn with
  | nil => exact .nil
  | append_singleton done c ih =>
      rw [numbered_snoc]
      cases hbatch : c.batch with
      | none =>
          rw [Option.map_none, Option.toList_none, List.append_nil]
          exact ih
      | some batch =>
          refine List.pairwise_append.mpr ⟨ih, List.pairwise_singleton _ _, ?_⟩
          rintro ⟨n, b⟩ hw w' hw'
          rw [List.mem_singleton.mp hw']
          exact lt_of_mem_numbered _ done hw

/-- What the calls that have returned have left in the graph. -/
theorem Serial.newest (h : Serial run answer order s done writers)
    (hreturned : ∀ i a, run.thread i = .pure a → i ∈ order) (hroom : done.length ≤ 2 ^ 64)
    (htriples : run.final.triples = s.triples) : NewestRemain run := by
  obtain ⟨bs, os, hreflects⟩ := reflects_of_run h.sequential hroom
  have hoffers := hreflects.content.2
  rw [h.offers] at hoffers
  obtain rfl : os = [] := List.map_eq_nil_iff.mp hoffers
  refine ⟨writers, bs, fun i n batch => ?_, ?_, ?_, hreflects.holds.distinct, ?_⟩
  · rw [h.writers]
    refine and_iff_right_of_imp ?_
    rintro ⟨new, id, -, hthread, -⟩
    exact hreturned i _ hthread
  · have hpairwise := pairwise_numbered done
    rw [← h.stamps] at hpairwise
    exact (List.pairwise_map (f := Prod.snd)).mp hpairwise
  · rw [h.stamps]
    exact hreflects.batches
  · rw [htriples]
    exact hreflects.holds.triples

/-- The order the calls have had, and its answers. -/
theorem Serial.linearization (h : Serial run (givenAnswer run) order s done writers)
    (hstart : order <+: entered Draws run.log)
    (hreturned : ∀ i a, run.thread i = .pure a → i ∈ order) :
    Linearization run order (givenAnswer run) where
  nodup := (nodup_entered run.log).sublist hstart.sublist
  sequential := ⟨_, h.list⟩
  returned i a hthread := ⟨hreturned i a hthread, givenAnswer_eq hthread⟩
  begun i hi := by
    obtain ⟨e, he, -⟩ := mem_entered.mp (hstart.subset hi)
    exact List.ne_nil_of_mem he
  realTime pre post hlog i hi j hj hends hnone := by
    obtain ⟨a, ha⟩ := returned_of_ends hends
    have hbefore : i ∈ entered Draws pre := mem_entered.mpr (returns_section ha)
    have hafter : j ∉ entered Draws pre := by
      intro hmem
      obtain ⟨e, he, -⟩ := mem_entered.mp hmem
      rw [hnone] at he
      exact absurd he List.not_mem_nil
    have hlt := @idxOf_entered_lt graphEffects ι Draws _ _ pre post i j hbefore hafter
    obtain ⟨rest, hrest⟩ := hstart
    rw [← hlog, ← hrest, List.idxOf_append_of_mem hi, List.idxOf_append_of_mem hj] at hlt
    exact hlt

end

/-! ## A writer and a reader -/

def storedEntry : CredentialEntry where
  credentialType := "MembershipCredential"
  payload := .null
  format := "VC1_0_JWT"

/-- A batch with one credential. -/
def fullBatch : NewCredentialBatch := { wrapBatch with credentials := [storedEntry] }

def writerAndReader : Bool → BatchCall
  | true => .addBatch fullBatch
  | false => .batches

/-- What has been inserted so far is another batch, one without credentials. -/
def placedHalf : PlacedBatch where
  node := 0
  order := 0
  id := "first"
  batch := wrapBatch
  children := []
  agree := rfl

def halfEvents : List GraphEvent :=
  begun "first" 0 0 [1] ++ (batchQuads (.blank 0) "first" 0 fullBatch).map inserted

theorem exists_inserted (quads : List Quad) (s : GraphState) :
    ∃ s', graphEnvironment.Replays s (quads.map inserted) s' := by
  induction quads generalizing s with
  | nil => exact ⟨s, .nil s⟩
  | cons quad quads ih =>
      obtain ⟨s', hrest⟩ := ih { s with triples := insert quad s.triples }
      exact ⟨s', .cons rfl hrest⟩

theorem half_written : ∃ s, graphEnvironment.Replays openInMemory halfEvents s ∧
    Holds printedJson s [placedHalf] [] := by
  obtain ⟨s₁, hbegun⟩ : ∃ s, graphEnvironment.Replays openInMemory (begun "first" 0 0 [1]) s :=
    ⟨_, .cons rfl (.cons ⟨Finset.notMem_empty 0, rfl⟩ (.cons ⟨rfl, rfl⟩
      (.cons ⟨by decide, rfl⟩ (.nil _))))⟩
  obtain ⟨s₂, hinserted⟩ := exists_inserted (batchQuads (.blank 0) "first" 0 fullBatch) s₁
  refine ⟨s₂, hbegun.append hinserted, ?_⟩
  obtain ⟨-, -, -, rfl⟩ := replays_begun hbegun
  obtain rfl := replays_inserted hinserted
  have hquads : placedHalf.quads printedJson = batchQuads (.blank 0) "first" 0 fullBatch :=
    List.append_nil _
  have hgraph := @contentGraph_addBatch printedJson [] [] placedHalf
  rw [hquads] at hgraph
  exact {
    triples := hgraph
    distinct := List.nodup_singleton 0
    known := by
      intro n hn
      rw [List.mem_singleton.mp hn]
      exact Finset.mem_union_left _ (List.mem_toFinset.mpr List.mem_cons_self)
    batchOrder := List.pairwise_singleton _ _
    offerOrder := .nil }

/-- The rest of the writer. -/
def halfLeft : GraphProgram BatchAnswer := do
  let id ← finishWrite (entryQuads printedJson (.blank 0) (.blank 1) 0 storedEntry)
    .credentialBatch .hasCredential maxCredentialBatches "first"
  pure (.added id)

theorem half_evolves : ((writerAndReader true).program printedJson).Evolves halfEvents halfLeft :=
  .ask (.ask (.ask (.ask (.ask (.ask (.ask (.ask (.ask (.refl _)))))))))

theorem half_runs (s : GraphState) :
    ∃ s', graphEnvironment.Runs halfLeft s (.added "first") s' := by
  obtain ⟨s₁, hinserted⟩ :=
    exists_insertAll (entryQuads printedJson (.blank 0) (.blank 1) 0 storedEntry) s
  obtain ⟨s₂, htrimmed⟩ := exists_trimOldest .credentialBatch .hasCredential maxCredentialBatches s₁
  have hfinished : graphEnvironment.Runs (finishWrite
      (entryQuads printedJson (.blank 0) (.blank 1) 0 storedEntry) .credentialBatch .hasCredential
      maxCredentialBatches "first") s "first" s₂ :=
    .bind hinserted (.bind htrimmed (.of_returns (.refl _)))
  exact ⟨s₂, Environment.Runs.wrap_iff.mpr ⟨_, hfinished, rfl⟩⟩

end IdentityHub.CredentialGraph
