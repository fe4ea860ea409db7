import IdentityHub.Graph.Sequence
import IdentityHub.Lib.Reduction

/-!
# Calls side by side

`add_batch`, `batches` and `credentials_of_types`, any number of them, interleaved operation
by operation. `add_batch` is many operations: between the first insert and the last a batch is
there in part, and between the count and the deletion another call can have changed what was
counted. Where no other call comes in between, the calls act on one list that keeps the newest
batches.
-/

namespace IdentityHub.CredentialGraph

variable {J : JsonText}

/-! ## Calls and answers -/

inductive BatchCall where
  | addBatch (batch : NewCredentialBatch)
  | batches
  | credentialsOfTypes (types : List String)

inductive BatchAnswer where
  | added (id : String)
  | stored (batches : List CredentialBatch)
  | found (credentials : List CredentialEntry)

def BatchCall.program (J : JsonText) : BatchCall → GraphProgram BatchAnswer
  | .addBatch batch => do
      let id ← CredentialGraph.addBatch J batch
      pure (.added id)
  | .batches => do
      let stored ← CredentialGraph.batches J
      pure (.stored stored)
  | .credentialsOfTypes types => do
      let found ← CredentialGraph.credentialsOfTypes J types
      pure (.found found)

def BatchCall.adds : BatchCall → Bool
  | .addBatch _ => true
  | .batches => false
  | .credentialsOfTypes _ => false

/-- What a call does to a list that keeps the newest batches. -/
inductive ListStep : BatchCall → List CredentialBatch → BatchAnswer → List CredentialBatch → Prop
  | addBatch (batch : NewCredentialBatch) (id : String) (stored : List CredentialBatch) :
      ListStep (.addBatch batch) stored (.added id)
        ((stored ++ [({ batch with id := id } : CredentialBatch)]).rtake maxCredentialBatches)
  | batches (stored : List CredentialBatch) : ListStep .batches stored (.stored stored) stored
  | credentialsOfTypes {types : List String} {stored : List CredentialBatch}
      {found : List CredentialEntry} : found.Perm (issuedOfTypes types stored) →
      ListStep (.credentialsOfTypes types) stored (.found found) stored

section

variable {ι : Type} (calls : ι → BatchCall) (answer : ι → BatchAnswer)

/-- The calls one after another, on a list that is empty at first. -/
inductive ListRun : List ι → List CredentialBatch → Prop
  | nil : ListRun [] []
  | snoc {order : List ι} {stored stored' : List CredentialBatch} (i : ι) :
      ListRun order stored → ListStep (calls i) stored (answer i) stored' →
        ListRun (order ++ [i]) stored'

end

section

variable {ι : Type} [DecidableEq ι] {calls : ι → BatchCall}

/-- Calls side by side. -/
abbrev ConcurrentRun (J : JsonText) (calls : ι → BatchCall) :=
  Interleaving graphEnvironment openInMemory (fun i => (calls i).program J)

/-- A sequential order of the calls, with the answers they would get in it: those that have
returned are in it with the answers they got, and one that returned before another began
comes before it. -/
structure Linearization (run : ConcurrentRun J calls) (order : List ι) (answer : ι → BatchAnswer) :
    Prop where
  nodup : order.Nodup
  sequential : ∃ stored, ListRun calls answer order stored
  returned : ∀ i a, run.thread i = .pure a → i ∈ order ∧ answer i = a
  begun : ∀ i ∈ order, eventsOf i run.log ≠ []
  realTime : ∀ pre post, run.log = pre ++ post → ∀ i ∈ order, ∀ j ∈ order,
    ((calls i).program J).Ends (eventsOf i pre) → eventsOf j pre = [] →
      order.idxOf i < order.idxOf j

/-- A call of `add_batch` has returned, having drawn this order. -/
def Wrote (run : ConcurrentRun J calls) (i : ι) (order : ℕ) (batch : CredentialBatch) : Prop :=
  ∃ new id, calls i = .addBatch new ∧ run.thread i = .pure (.added id) ∧
    (i, orderDrawn order) ∈ run.log ∧ batch = { new with id := id }

/-- The triples are those of the newest of all batches whose calls have returned. -/
def NewestRemain (run : ConcurrentRun J calls) : Prop :=
  ∃ (writers : List (ι × ℕ × CredentialBatch)) (bs : List PlacedBatch),
    (∀ i order batch, (i, order, batch) ∈ writers ↔ Wrote run i order batch) ∧
      writers.Pairwise (fun w w' => w.2.1 < w'.2.1) ∧
        bs.map PlacedBatch.stamp = (writers.map Prod.snd).rtake maxCredentialBatches ∧
          (contentNodes bs []).Nodup ∧ run.final.triples = contentGraph J bs []

/-- The calls act as on a list that keeps the newest batches: there is a sequential order of
them, what `batches` reads are whole batches, and when every `add_batch` that has begun has
returned the newest batches are there and nothing else. -/
structure ActsAsList (run : ConcurrentRun J calls) : Prop where
  linearizable : ∃ order answer, Linearization run order answer
  whole : ∀ i stored, calls i = .batches → run.thread i = .pure (.stored stored) →
    ∀ batch ∈ stored, ∃ j new, calls j = .addBatch new ∧
      run.thread j = .pure (.added batch.id) ∧ batch = { new with id := batch.id }
  newest : (∀ i new, calls i = .addBatch new → eventsOf i run.log = [] ∨
    ∃ answer, run.thread i = .pure answer) → NewestRemain run

end

/-! ## Draws -/

def GraphOp.isDraw : GraphOp → Bool
  | .newUuid => true
  | .newBlankNode => true
  | _ => false

def GraphOp.isOrder : GraphOp → Bool
  | .nextOrder => true
  | _ => false

/-- An id or a blank node is drawn: neither the triples nor the insertion counter have part
in it. -/
def Draws (e : GraphEvent) : Prop := e.op.isDraw = true

instance : DecidablePred Draws := fun e => inferInstanceAs (Decidable (e.op.isDraw = true))

/-- A draw can be put off. -/
theorem graphEnvironment_putsOff : graphEnvironment.PutsOff Draws := by
  rintro s s₁ s₂ ⟨op, drawn⟩ ⟨op', given⟩ hdraws he he'
  cases op with
  | newUuid =>
      obtain rfl : s₁ = s := he
      exact ⟨s₂, he', rfl⟩
  | newBlankNode =>
      obtain ⟨hfresh, rfl⟩ := he
      cases op' with
      | newUuid =>
          obtain rfl : s₂ = _ := he'
          exact ⟨s, rfl, hfresh, rfl⟩
      | newBlankNode =>
          obtain ⟨hfresh', rfl⟩ := he'
          rw [Finset.mem_insert, not_or] at hfresh'
          refine ⟨_, ⟨hfresh'.2, rfl⟩, ?_, ?_⟩
          · intro hmem
            rcases Finset.mem_insert.mp hmem with heq | hmem
            · exact hfresh'.1 heq.symm
            · exact hfresh hmem
          · rw [Finset.insert_comm]
      | nextOrder =>
          obtain ⟨horder, rfl⟩ := he'
          exact ⟨_, ⟨horder, rfl⟩, hfresh, rfl⟩
      | insert quad =>
          obtain rfl : s₂ = _ := he'
          exact ⟨_, rfl, hfresh, rfl⟩
      | countOfType nodeClass =>
          obtain ⟨hcount, rfl⟩ := he'
          exact ⟨s, ⟨hcount, rfl⟩, hfresh, rfl⟩
      | deleteOldest nodeClass childPredicate excess =>
          obtain ⟨nodes, holdest, rfl⟩ := he'
          exact ⟨_, ⟨nodes, holdest, rfl⟩, hfresh, rfl⟩
      | selectBatches =>
          obtain ⟨hrows, hsorted, rfl⟩ := he'
          exact ⟨s, ⟨hrows, hsorted, rfl⟩, hfresh, rfl⟩
      | selectCredentials =>
          obtain ⟨hrows, rfl⟩ := he'
          exact ⟨s, ⟨hrows, rfl⟩, hfresh, rfl⟩
      | selectOffers =>
          obtain ⟨hrows, hsorted, rfl⟩ := he'
          exact ⟨s, ⟨hrows, hsorted, rfl⟩, hfresh, rfl⟩
  | nextOrder => cases hdraws
  | insert quad => cases hdraws
  | countOfType nodeClass => cases hdraws
  | deleteOldest nodeClass childPredicate excess => cases hdraws
  | selectBatches => cases hdraws
  | selectCredentials => cases hdraws
  | selectOffers => cases hdraws

/-- Draws leave the triples as they are. -/
theorem replays_draws {events : List GraphEvent} {s s' : GraphState}
    (h : graphEnvironment.Replays s events s') (hdraws : ∀ e ∈ events, Draws e) :
    s'.triples = s.triples := by
  induction h with
  | nil => rfl
  | @cons s s₁ s' e events he hrest ih =>
      rw [ih (fun e' he' => hdraws e' (List.mem_cons_of_mem _ he'))]
      have hdraw := hdraws e List.mem_cons_self
      obtain ⟨op, answer⟩ := e
      cases op <;> first | cases hdraw; done | skip
      · rw [show s₁ = s from he]
      · rw [he.2]

/-! ## One call -/

/-- The order draws among some events. -/
def orderDraws (events : List GraphEvent) : List GraphEvent := events.filter (fun e => e.op.isOrder)

theorem orderDraws_begun (id : String) (node order : ℕ) (labels : List ℕ) :
    orderDraws (begun id node order labels) = [orderDrawn order] := by
  have hlabels : (labels.map nodeDrawn).filter (fun e => e.op.isOrder) = [] := by
    rw [List.filter_eq_nil_iff]
    intro e he
    obtain ⟨label, -, rfl⟩ := List.mem_map.mp he
    exact Bool.false_ne_true
  show orderDrawn order :: (labels.map nodeDrawn).filter (fun e => e.op.isOrder) = _
  rw [hlabels]

theorem orderDraws_stage {quads : List Quad} {nodeClass childPredicate : Vocab} {cap : ℕ}
    {events : List GraphEvent} {finished : Bool}
    (h : WriteStage quads nodeClass childPredicate cap events finished) : orderDraws events = [] := by
  rw [orderDraws, List.filter_eq_nil_iff]
  intro e he
  have hinserted : ∀ {quads : List Quad}, e ∈ quads.map inserted → ¬ e.op.isOrder = true := by
    intro quads hmem
    obtain ⟨quad, -, rfl⟩ := List.mem_map.mp hmem
    exact Bool.false_ne_true
  cases h with
  | inserting => exact hinserted he
  | counted =>
      rcases List.mem_append.mp he with he | he
      · exact hinserted he
      · rw [List.mem_singleton.mp he]
        exact Bool.false_ne_true
  | kept =>
      rcases List.mem_append.mp he with he | he
      · exact hinserted he
      · rw [List.mem_singleton.mp he]
        exact Bool.false_ne_true
  | trimmed =>
      rcases List.mem_append.mp he with he | he
      · exact hinserted he
      · rcases List.mem_cons.mp he with rfl | he
        · exact Bool.false_ne_true
        · rw [List.mem_singleton.mp he]
          exact Bool.false_ne_true

/-- A call of `add_batch` that has returned has drawn one order. -/
theorem orderDraws_addBatch {batch : NewCredentialBatch} {events : List GraphEvent} {id : String}
    (h : (addBatch J batch).Returns events id) : ∃ order, orderDraws events = [orderDrawn order] := by
  rcases addRecord_evolves h with ⟨-, hasks⟩ | ⟨-, hasks⟩ |
    ⟨id', node, order, children, later, finished, -, rfl, hstage, -⟩
  · exact absurd hasks (Program.not_asks_pure id)
  · exact absurd hasks (Program.not_asks_pure id)
  · refine ⟨order, ?_⟩
    have hlater := orderDraws_stage hstage
    rw [orderDraws] at hlater ⊢
    rw [List.filter_append, hlater, List.append_nil]
    exact orderDraws_begun id' node order _

/-- It is the one the counter shows, if no other call draws one in between. -/
theorem orderDraws_replays {events : List GraphEvent} {s s' : GraphState} {order : ℕ}
    (h : graphEnvironment.Replays s events s') (horder : orderDraws events = [orderDrawn order]) :
    order = s.nextOrder := by
  induction h with
  | nil => cases horder
  | @cons s s₁ s' e events he hrest ih =>
      obtain ⟨op, answer⟩ := e
      cases op with
      | nextOrder =>
          obtain ⟨hdrawn, -⟩ := he
          have hhead : (⟨.nextOrder, answer⟩ : GraphEvent) = orderDrawn order :=
            (List.cons_eq_cons.mp horder).1
          cases hhead
          exact hdrawn
      | newUuid =>
          rw [ih horder, show s₁ = s from he]
      | newBlankNode =>
          rw [ih horder, he.2]
      | insert quad =>
          rw [ih horder, show s₁ = _ from he]
      | countOfType nodeClass =>
          rw [ih horder, he.2]
      | deleteOldest nodeClass childPredicate excess =>
          obtain ⟨nodes, -, rfl⟩ := he
          exact ih horder
      | selectBatches =>
          rw [ih horder, he.2.2]
      | selectCredentials =>
          rw [ih horder, he.2]
      | selectOffers =>
          rw [ih horder, he.2.2]

theorem returns_addBatch {batch : NewCredentialBatch} {events : List GraphEvent} {a : BatchAnswer}
    (h : ((BatchCall.addBatch batch).program J).Returns events a) :
    ∃ id, (addBatch J batch).Returns events id ∧ a = .added id := Program.returns_wrap.mp h

/-- A call that only reads has not begun, or it has returned. -/
theorem reader_evolves {call : BatchCall} (hreads : call.adds = false)
    {events : List GraphEvent} {q : GraphProgram BatchAnswer}
    (h : (call.program J).Evolves events q) :
    events = [] ∨ (∃ e, events = [e] ∧ ¬ Draws e) ∧ ∃ a, q = .pure a := by
  cases call with
  | addBatch batch => cases hreads
  | batches =>
      cases h with
      | refl => exact Or.inl rfl
      | ask hrest =>
          cases hrest
          exact Or.inr ⟨⟨_, rfl, nofun⟩, _, rfl⟩
  | credentialsOfTypes types =>
      cases h with
      | refl => exact Or.inl rfl
      | ask hrest =>
          cases hrest
          exact Or.inr ⟨⟨_, rfl, nofun⟩, _, rfl⟩

/-- A call that has returned has had its section. -/
theorem returns_section {call : BatchCall} {events : List GraphEvent} {a : BatchAnswer}
    (h : (call.program J).Returns events a) : ∃ e ∈ events, ¬ Draws e := by
  cases call with
  | addBatch batch =>
      obtain ⟨id, hreturns, -⟩ := returns_addBatch h
      obtain ⟨order, horder⟩ := orderDraws_addBatch hreturns
      have hmem : orderDrawn order ∈ orderDraws events := horder ▸ List.mem_singleton_self _
      exact ⟨_, List.mem_of_mem_filter hmem, nofun⟩
  | batches =>
      rcases reader_evolves rfl h with rfl | ⟨⟨e, rfl, he⟩, -⟩
      · cases h
      · exact ⟨e, List.mem_singleton_self e, he⟩
  | credentialsOfTypes types =>
      rcases reader_evolves rfl h with rfl | ⟨⟨e, rfl, he⟩, -⟩
      · cases h
      · exact ⟨e, List.mem_singleton_self e, he⟩

/-! ## Whole batches -/

section

variable {ι : Type} {calls : ι → BatchCall} {answer : ι → BatchAnswer} {order : List ι}

/-- One of the calls has added the batch. -/
def AddedIn (calls : ι → BatchCall) (answer : ι → BatchAnswer) (order : List ι)
    (batch : CredentialBatch) : Prop :=
  ∃ j ∈ order, ∃ new, calls j = .addBatch new ∧ answer j = .added batch.id ∧
    batch = { new with id := batch.id }

theorem AddedIn.snoc {batch : CredentialBatch} {i : ι} (h : AddedIn calls answer order batch) :
    AddedIn calls answer (order ++ [i]) batch := by
  obtain ⟨j, hj, hadded⟩ := h
  exact ⟨j, List.mem_append_left _ hj, hadded⟩

/-- What is stored, and what is read, are batches that were added. -/
theorem ListRun.whole {stored : List CredentialBatch} (h : ListRun calls answer order stored) :
    (∀ batch ∈ stored, AddedIn calls answer order batch) ∧
      ∀ i ∈ order, ∀ read, answer i = .stored read →
        ∀ batch ∈ read, AddedIn calls answer order batch := by
  induction h with
  | nil => exact ⟨nofun, nofun⟩
  | @snoc order stored stored' i _ hstep ih =>
      obtain ⟨hstored, hread⟩ := ih
      have hkept : ∀ batch ∈ stored, AddedIn calls answer (order ++ [i]) batch :=
        fun batch hmem => (hstored batch hmem).snoc
      have hboth : (∀ batch ∈ stored', AddedIn calls answer (order ++ [i]) batch) ∧
          ∀ read, answer i = .stored read →
            ∀ batch ∈ read, AddedIn calls answer (order ++ [i]) batch := by
        generalize hcall : calls i = call at hstep
        generalize hanswer : answer i = a at hstep
        cases hstep with
        | addBatch new id =>
            refine ⟨fun batch hmem => ?_, nofun⟩
            rcases List.mem_append.mp (List.mem_of_mem_drop hmem) with hmem | hmem
            · exact hkept batch hmem
            · rw [List.mem_singleton.mp hmem]
              exact ⟨i, List.mem_append_right _ (List.mem_singleton_self i), new, hcall, hanswer, rfl⟩
        | batches =>
            refine ⟨hkept, fun read heq => ?_⟩
            cases heq
            exact hkept
        | credentialsOfTypes hperm => exact ⟨hkept, nofun⟩
      refine ⟨hboth.1, fun j hj read hanswer batch hmem => ?_⟩
      rcases List.mem_append.mp hj with hj | hj
      · exact (hread j hj read hanswer batch hmem).snoc
      · rw [List.mem_singleton.mp hj] at hanswer
        exact hboth.2 read hanswer batch hmem

end

/-! ## One call after another -/

section

variable {ι : Type} [DecidableEq ι] {calls : ι → BatchCall} {run : ConcurrentRun J calls}
  {answer : ι → BatchAnswer} {order : List ι} {s s' : GraphState} {done : List FinishedCall}
  {writers : List (ι × ℕ × CredentialBatch)}

/-- What some calls of a run, one after another, have led to. -/
structure Serial (run : ConcurrentRun J calls) (answer : ι → BatchAnswer) (order : List ι)
    (s : GraphState) (done : List FinishedCall) (writers : List (ι × ℕ × CredentialBatch)) :
    Prop where
  sequential : SequentialRun J done s
  list : ListRun calls answer order ((batchesOf done).rtake maxCredentialBatches)
  offers : offersOf done = []
  length : done.length = (order.filter (fun i => (calls i).adds)).length
  stamps : writers.map Prod.snd = numbered FinishedCall.batch done
  writers : ∀ i n batch, (i, n, batch) ∈ writers ↔ i ∈ order ∧ Wrote run i n batch

theorem serial_nil : Serial run answer [] openInMemory [] [] where
  sequential := .start
  list := .nil
  offers := rfl
  length := rfl
  stamps := rfl
  writers _ _ _ := ⟨nofun, fun h => absurd h.1 List.not_mem_nil⟩

/-- A call that only reads. -/
theorem Serial.read {i : ι} (h : Serial run answer order s done writers)
    (hreads : (calls i).adds = false)
    (hstep : ListStep (calls i) ((batchesOf done).rtake maxCredentialBatches) (answer i)
      ((batchesOf done).rtake maxCredentialBatches)) :
    Serial run answer (order ++ [i]) s done writers where
  sequential := h.sequential
  list := .snoc i h.list hstep
  offers := h.offers
  length := by
    rw [h.length, List.filter_append, List.filter_cons_of_neg (by simp [hreads]), List.filter_nil,
      List.append_nil]
  stamps := h.stamps
  writers j n batch := by
    rw [h.writers, List.mem_append, List.mem_singleton, or_and_right]
    refine ⟨Or.inl, fun hj => hj.elim id ?_⟩
    rintro ⟨rfl, new, id, hcall, -⟩
    rw [hcall] at hreads
    cases hreads

/-- A call of `add_batch`, while the counter has not come round. -/
theorem Serial.write {i : ι} {batch : NewCredentialBatch} {id : String}
    (h : Serial run answer order s done writers) (hcall : calls i = .addBatch batch)
    (hthread : run.thread i = .pure (answer i)) (hanswer : answer i = .added id)
    (hreturns : (addBatch J batch).Returns (eventsOf i run.log) id)
    (hreplays : graphEnvironment.Replays s (eventsOf i run.log) s') (hcounter : s.nextOrder = done.length) :
    Serial run answer (order ++ [i]) s' (done ++ [⟨.addBatch batch, id⟩])
      (writers ++ [(i, done.length, { batch with id := id })]) := by
  obtain ⟨n, horder⟩ := orderDraws_addBatch hreturns
  have hn : n = done.length := (orderDraws_replays hreplays horder).trans hcounter
  have hdrawn : ∀ m, (i, orderDrawn m) ∈ run.log ↔ m = n := by
    intro m
    have hmem : (i, orderDrawn m) ∈ run.log ↔ orderDrawn m ∈ orderDraws (eventsOf i run.log) := by
      rw [← mem_eventsOf, orderDraws, List.mem_filter]
      exact ⟨fun hm => ⟨hm, rfl⟩, fun hm => hm.1⟩
    rw [hmem, horder, List.mem_singleton]
    refine ⟨fun heq => ?_, fun heq => heq ▸ rfl⟩
    cases heq
    rfl
  constructor
  · exact .call _ h.sequential ⟨_, hreturns, hreplays⟩
  · have hlist : (batchesOf (done ++ [⟨.addBatch batch, id⟩])).rtake maxCredentialBatches =
        ((batchesOf done).rtake maxCredentialBatches ++
          [({ batch with id := id } : CredentialBatch)]).rtake maxCredentialBatches := by
      rw [rtake_append_rtake, batchesOf, List.filterMap_append]
      rfl
    rw [hlist]
    refine .snoc i h.list ?_
    rw [hcall, hanswer]
    exact .addBatch batch id _
  · rw [offersOf, List.filterMap_append]
    exact List.append_eq_nil_iff.mpr ⟨h.offers, rfl⟩
  · rw [List.length_append, List.filter_append, List.length_append, h.length,
      List.filter_cons_of_pos (by rw [hcall]; rfl)]
    rfl
  · rw [List.map_append, h.stamps, numbered_snoc]
    rfl
  · intro j m b
    rw [List.mem_append, h.writers, List.mem_append, or_and_right, List.mem_singleton,
      List.mem_singleton]
    refine or_congr_right ⟨?_, ?_⟩
    · intro heq
      cases heq
      exact ⟨rfl, batch, id, hcall, hthread.trans (congrArg _ hanswer), (hdrawn _).mpr hn.symm, rfl⟩
    · rintro ⟨rfl, new, id', hcall', hthread', hlog, rfl⟩
      have hbatch : batch = new := BatchCall.addBatch.inj (hcall.symm.trans hcall')
      rw [hthread, hanswer] at hthread'
      cases hthread'
      rw [(hdrawn m).mp hlog, hn, hbatch]

/-- **One more call.** -/
theorem Serial.step {i : ι} (hjson : J.Invertible) (h : Serial run answer order s done writers)
    (hthread : run.thread i = .pure (answer i))
    (hreplays : graphEnvironment.Replays s (eventsOf i run.log) s')
    (hroom : ((order ++ [i]).filter (fun i => (calls i).adds)).length ≤ 2 ^ 64) :
    ∃ done' writers', Serial run answer (order ++ [i]) s' done' writers' := by
  have hreturns : ((calls i).program J).Returns (eventsOf i run.log) (answer i) := by
    have hevolves := run.evolves i
    rwa [hthread] at hevolves
  rw [List.filter_append, List.length_append, ← h.length] at hroom
  obtain ⟨bs, os, hreflects⟩ := reflects_of_run h.sequential (by omega)
  have hcontent := hreflects.content.1
  cases hcall : calls i with
  | addBatch batch =>
      have hadds : ([i].filter (fun i => (calls i).adds)).length = 1 := by
        rw [List.filter_cons_of_pos (by rw [hcall]; rfl)]
        rfl
      have hcounter : s.nextOrder = done.length :=
        hreflects.counter.trans (Nat.mod_eq_of_lt (by omega))
      rw [hcall] at hreturns
      obtain ⟨id, hadded, hanswer⟩ := returns_addBatch hreturns
      exact ⟨_, _, h.write hcall hthread hanswer hadded hreplays hcounter⟩
  | batches =>
      rw [hcall] at hreturns
      obtain ⟨stored, hstored, hanswer⟩ := Program.returns_wrap.mp hreturns
      obtain ⟨rfl, rfl⟩ := (batches_runs hjson hreflects.holds).mp ⟨_, hstored, hreplays⟩
      refine ⟨done, writers, h.read (by rw [hcall]; rfl) ?_⟩
      rw [hcall, hanswer, hcontent]
      exact .batches _
  | credentialsOfTypes types =>
      rw [hcall] at hreturns
      obtain ⟨found, hfound, hanswer⟩ := Program.returns_wrap.mp hreturns
      obtain ⟨hperm, rfl⟩ :=
        (credentialsOfTypes_runs hjson hreflects.holds types).2 _ _ ⟨_, hfound, hreplays⟩
      refine ⟨done, writers, h.read (by rw [hcall]; rfl) ?_⟩
      rw [hcall, hanswer, ← hcontent]
      exact .credentialsOfTypes hperm

/-- **All of them.** -/
theorem serial_of_replays (hjson : J.Invertible) (hthread : ∀ i ∈ order, run.thread i = .pure (answer i))
    (hreplays : graphEnvironment.Replays openInMemory (order.flatMap (fun i => eventsOf i run.log)) s)
    (hroom : (order.filter (fun i => (calls i).adds)).length ≤ 2 ^ 64) :
    ∃ done writers, Serial run answer order s done writers := by
  induction order using List.reverseRecOn generalizing s with
  | nil =>
      cases hreplays
      exact ⟨[], [], serial_nil⟩
  | append_singleton order i ih =>
      rw [List.flatMap_append, List.flatMap_singleton] at hreplays
      obtain ⟨s₁, hbefore, hlast⟩ := hreplays.split
      have hfewer : (order.filter (fun i => (calls i).adds)).length ≤ 2 ^ 64 := by
        rw [List.filter_append, List.length_append] at hroom
        omega
      obtain ⟨done, writers, h⟩ :=
        ih (fun j hj => hthread j (List.mem_append_left _ hj)) hbefore hfewer
      exact h.step hjson (hthread i (List.mem_append_right _ (List.mem_singleton_self i))) hlast hroom

end

end IdentityHub.CredentialGraph
