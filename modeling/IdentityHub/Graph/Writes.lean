import IdentityHub.Graph.Queries
import Mathlib.Data.List.DropRight

/-!
# What a write does

A run of `add_batch` or `add_offer`, step by step: it draws an id, a node, an order and a
node for each child, then inserts its quads one after another, then counts, and deletes
if there are too many. `WriteStage` is how far the second part has come, and
`addRecord_evolves` tells it of every run, finished or not. The rest is what a finished
write makes of the triples: its quads are among them, and then the oldest records of its
class are gone.
-/

namespace IdentityHub.CredentialGraph

open Rdf (Term Triple)

/-! ## Inserting and trimming -/

/-- The end of a write: `quads` are inserted, and the oldest nodes deleted. -/
def finishWrite (quads : List Quad) (nodeClass childPredicate : Vocab) (cap : ℕ) (id : String) :
    GraphProgram String := do
  insertAll quads
  trimOldest nodeClass childPredicate cap
  pure id

/-- How far the end of a write has come, and whether it is over. -/
inductive WriteStage (quads : List Quad) (nodeClass childPredicate : Vocab) (cap : ℕ) :
    List GraphEvent → Bool → Prop
  | inserting {done rest : List Quad} : quads = done ++ rest →
      WriteStage quads nodeClass childPredicate cap (done.map inserted) false
  | counted {count : ℕ} : cap < count →
      WriteStage quads nodeClass childPredicate cap
        (quads.map inserted ++ [counted nodeClass count]) false
  | kept {count : ℕ} : count ≤ cap →
      WriteStage quads nodeClass childPredicate cap
        (quads.map inserted ++ [counted nodeClass count]) true
  | trimmed {count : ℕ} : cap < count →
      WriteStage quads nodeClass childPredicate cap
        (quads.map inserted ++
          [counted nodeClass count, deletedOldest nodeClass childPredicate (count - cap)]) true

theorem insertAll_evolves {quads : List Quad} {events : List GraphEvent} {q : GraphProgram Unit}
    (h : (insertAll quads).Evolves events q) :
    ∃ done rest, quads = done ++ rest ∧ events = done.map inserted ∧ q = insertAll rest := by
  induction quads generalizing events with
  | nil =>
      cases h
      exact ⟨[], [], rfl, rfl, rfl⟩
  | cons quad quads ih =>
      change (Program.ask (GraphOp.insert quad) (fun _ => insertAll quads)).Evolves events q at h
      cases h with
      | refl => exact ⟨[], quad :: quads, rfl, rfl, rfl⟩
      | ask hrest =>
          obtain ⟨done, rest, rfl, rfl, rfl⟩ := ih hrest
          exact ⟨quad :: done, rest, rfl, rfl, rfl⟩

theorem insertAll_asks {quad : Quad} {quads : List Quad} : (insertAll (quad :: quads)).Asks :=
  ⟨GraphOp.insert quad, fun _ => insertAll quads, rfl⟩

theorem finishWrite_asks {quads : List Quad} {nodeClass childPredicate : Vocab} {cap : ℕ}
    {id : String} : (finishWrite quads nodeClass childPredicate cap id).Asks := by
  cases quads with
  | nil => exact ⟨GraphOp.countOfType nodeClass, _, rfl⟩
  | cons quad quads => exact insertAll_asks.bind

theorem finishWrite_evolves {quads : List Quad} {nodeClass childPredicate : Vocab} {cap : ℕ}
    {id : String} {events : List GraphEvent} {q : GraphProgram String}
    (h : (finishWrite quads nodeClass childPredicate cap id).Evolves events q) :
    (WriteStage quads nodeClass childPredicate cap events false ∧ q.Asks) ∨
      (WriteStage quads nodeClass childPredicate cap events true ∧ q = pure id) := by
  rcases Program.evolves_bind h with ⟨p', hp, rfl⟩ | ⟨before, _, after, rfl, hbefore, hafter⟩
  · obtain ⟨done, rest, hquads, rfl, rfl⟩ := insertAll_evolves hp
    exact Or.inl ⟨.inserting hquads, finishWrite_asks⟩
  · obtain ⟨done, rest, rfl, rfl, hdone⟩ := insertAll_evolves hbefore
    cases rest with
    | cons quad rest => cases hdone
    | nil =>
        rw [List.append_nil]
        change (Program.ask (GraphOp.countOfType nodeClass) (fun count =>
          (if 0 < count - cap then deleteOldest nodeClass childPredicate (count - cap)
            else pure ()) >>= fun _ => pure id)).Evolves after q at hafter
        cases hafter with
        | refl =>
            rw [List.append_nil]
            exact Or.inl ⟨.inserting (List.append_nil done).symm, _, _, rfl⟩
        | @ask _ _ answer _ _ hrest =>
            obtain ⟨count, rfl⟩ : ∃ count : ℕ, count = answer := ⟨answer, rfl⟩
            change ((if 0 < count - cap then deleteOldest nodeClass childPredicate (count - cap)
              else pure ()) >>= fun _ => pure id).Evolves _ q at hrest
            by_cases hcount : 0 < count - cap
            · rw [if_pos hcount] at hrest
              change (Program.ask (GraphOp.deleteOldest nodeClass childPredicate (count - cap))
                (fun _ => Pure.pure id)).Evolves _ q at hrest
              cases hrest with
              | refl => exact Or.inl ⟨.counted (by omega), _, _, rfl⟩
              | ask hlast =>
                  cases hlast
                  exact Or.inr ⟨.trimmed (by omega), rfl⟩
            · rw [if_neg hcount] at hrest
              cases hrest
              exact Or.inr ⟨.kept (by omega), rfl⟩

/-! ## The whole write -/

section

variable {α : Type}

/-- The events of a write up to its last node. -/
def begun (id : String) (node order : ℕ) (labels : List ℕ) : List GraphEvent :=
  uuidDrawn id :: nodeDrawn node :: orderDrawn order :: labels.map nodeDrawn

theorem childQuads_evolves {quadsOf : ℕ → ℕ → α → List Quad} {i : ℕ} {items : List α}
    {events : List GraphEvent} {q : GraphProgram (List Quad)}
    (h : (childQuads quadsOf i items).Evolves events q) :
    (∃ labels : List ℕ, events = labels.map nodeDrawn ∧ q.Asks) ∨
      ∃ children : List (ℕ × α), children.map Prod.snd = items ∧
        events = (children.map Prod.fst).map nodeDrawn ∧
        q = pure (children.mapIdx (fun j child => quadsOf child.1 (i + j) child.2)).flatten := by
  induction items generalizing i events q with
  | nil =>
      cases h
      exact Or.inr ⟨[], rfl, rfl, rfl⟩
  | cons item items ih =>
      change (Program.ask GraphOp.newBlankNode (fun child =>
        childQuads quadsOf (i + 1) items >>= fun quads =>
          pure (quadsOf child i item ++ quads))).Evolves events q at h
      cases h with
      | refl => exact Or.inl ⟨[], rfl, _, _, rfl⟩
      | @ask _ _ child _ _ hrest =>
          have hshift : ∀ children : List (ℕ × α), quadsOf child i item ++
              (children.mapIdx (fun j child => quadsOf child.1 (i + 1 + j) child.2)).flatten =
              (((child, item) :: children).mapIdx
                (fun j child => quadsOf child.1 (i + j) child.2)).flatten := by
            intro children
            rw [List.mapIdx_cons, List.flatten_cons]
            simp only [Nat.add_zero, Nat.add_comm, Nat.add_left_comm]
          rcases Program.evolves_bind hrest with ⟨p', hp, rfl⟩ | ⟨before, quads, after, rfl, hb, ha⟩
          · rcases ih hp with ⟨labels, rfl, hasks⟩ | ⟨children, rfl, rfl, rfl⟩
            · exact Or.inl ⟨child :: labels, rfl, hasks.bind⟩
            · refine Or.inr ⟨(child, item) :: children, rfl, rfl, ?_⟩
              rw [Program.pure_bind, hshift]
          · cases ha
            rcases ih hb with ⟨labels, -, hasks⟩ | ⟨children, rfl, rfl, hquads⟩
            · exact absurd hasks (Program.not_asks_pure quads)
            · cases hquads
              refine Or.inr ⟨(child, item) :: children, rfl, by rw [List.append_nil]; rfl, ?_⟩
              rw [hshift]

variable {rootQuads : Node → String → ℕ → List Quad} {quadsOf : Node → ℕ → ℕ → α → List Quad}
  {items : List α} {nodeClass childPredicate : Vocab} {cap : ℕ} {events : List GraphEvent}
  {q : GraphProgram String}

/-- Every run of a write: it has not drawn an order, or it is drawing nodes, or it has come
to one of the stages of its end. -/
theorem addRecord_evolves
    (h : (addRecord rootQuads quadsOf items nodeClass childPredicate cap).Evolves events q) :
    ((∃ id node, events <+: [uuidDrawn id, nodeDrawn node]) ∧ q.Asks) ∨
    ((∃ id node order labels, events = begun id node order labels) ∧ q.Asks) ∨
    ∃ (id : String) (node order : ℕ) (children : List (ℕ × α)) (later : List GraphEvent)
      (finished : Bool), children.map Prod.snd = items ∧
        events = begun id node order (children.map Prod.fst) ++ later ∧
        WriteStage (rootQuads (.blank node) id order ++
          (children.mapIdx (fun i child => quadsOf (.blank node) child.1 i child.2)).flatten)
          nodeClass childPredicate cap later finished ∧
        if finished then q = pure id else q.Asks := by
  change (Program.ask GraphOp.newUuid (fun id => Program.ask GraphOp.newBlankNode (fun node =>
    Program.ask GraphOp.nextOrder (fun order =>
      childQuads (quadsOf (.blank node)) 0 items >>= fun quads =>
        finishWrite (rootQuads (.blank node) id order ++ quads) nodeClass childPredicate cap
          id)))).Evolves events q at h
  cases h with
  | refl => exact Or.inl ⟨⟨"", 0, List.nil_prefix⟩, _, _, rfl⟩
  | @ask _ _ id _ _ h =>
      cases h with
      | refl => exact Or.inl ⟨⟨id, 0, [nodeDrawn 0], rfl⟩, _, _, rfl⟩
      | @ask _ _ node _ _ h =>
          cases h with
          | refl => exact Or.inl ⟨⟨id, node, [], rfl⟩, _, _, rfl⟩
          | @ask _ _ order _ _ h =>
              refine Or.inr ?_
              rcases Program.evolves_bind h with ⟨p', hp, rfl⟩ | ⟨before, quads, after, rfl, hb, ha⟩
              · rcases childQuads_evolves hp with ⟨labels, rfl, hasks⟩ |
                  ⟨children, hitems, rfl, rfl⟩
                · exact Or.inl ⟨⟨id, node, order, labels, rfl⟩, hasks.bind⟩
                · refine Or.inr ⟨id, node, order, children, [], false, hitems, ?_, ?_, ?_⟩
                  · rw [List.append_nil]
                    rfl
                  · rw [← List.map_nil (f := inserted)]
                    exact .inserting rfl
                  · exact finishWrite_asks
              · rcases childQuads_evolves hb with ⟨labels, -, hasks⟩ |
                  ⟨children, hitems, rfl, hquads⟩
                · exact absurd hasks (Program.not_asks_pure quads)
                · have hquads : quads = (children.mapIdx (fun i child =>
                      quadsOf (.blank node) child.1 i child.2)).flatten := by
                    cases hquads
                    simp only [Nat.zero_add]
                  subst hquads
                  rcases finishWrite_evolves ha with ⟨hstage, hasks⟩ | ⟨hstage, hover⟩
                  · exact Or.inr ⟨id, node, order, children, after, false, hitems, rfl, hstage, hasks⟩
                  · exact Or.inr ⟨id, node, order, children, after, true, hitems, rfl, hstage, hover⟩

end

/-! ## What the events of a write do -/

variable {s s' : GraphState}

theorem replays_nodes {labels : List ℕ}
    (h : graphEnvironment.Replays s (labels.map nodeDrawn) s') :
    labels.Nodup ∧ (∀ n ∈ labels, n ∉ s.nodes) ∧
      s' = { s with nodes := labels.toFinset ∪ s.nodes } := by
  induction labels generalizing s with
  | nil =>
      cases h
      exact ⟨List.nodup_nil, by simp, by simp⟩
  | cons label labels ih =>
      cases h with
      | cons he hrest =>
          obtain ⟨hfresh, rfl⟩ := he
          obtain ⟨hnodup, hnew, rfl⟩ := ih hrest
          refine ⟨List.nodup_cons.mpr ⟨fun hmem => ?_, hnodup⟩, fun n hn => ?_, ?_⟩
          · exact hnew label hmem (Finset.mem_insert_self _ _)
          · rcases List.mem_cons.mp hn with rfl | hn
            · exact hfresh
            · exact fun hknown => hnew n hn (Finset.mem_insert_of_mem hknown)
          · rw [List.toFinset_cons, Finset.insert_union, Finset.union_insert]

/-- The nodes of a write are new ones, and its order is the one the counter shows. -/
theorem replays_begun {id : String} {node order : ℕ} {labels : List ℕ}
    (h : graphEnvironment.Replays s (begun id node order labels) s') :
    order = s.nextOrder ∧ (node :: labels).Nodup ∧ (∀ n ∈ node :: labels, n ∉ s.nodes) ∧
      s' = { s with nextOrder := (s.nextOrder + 1) % 2 ^ 64
                    nodes := (node :: labels).toFinset ∪ s.nodes } := by
  cases h with
  | cons hid h =>
      cases h with
      | cons hnode h =>
          cases h with
          | cons horder h =>
              cases hid
              obtain ⟨hfresh, rfl⟩ := hnode
              obtain ⟨rfl, rfl⟩ := horder
              obtain ⟨hnodup, hnew, rfl⟩ := replays_nodes h
              refine ⟨rfl, List.nodup_cons.mpr ⟨fun hmem => ?_, hnodup⟩, fun n hn => ?_, ?_⟩
              · exact hnew node hmem (Finset.mem_insert_self _ _)
              · rcases List.mem_cons.mp hn with rfl | hn
                · exact hfresh
                · exact fun hknown => hnew n hn (Finset.mem_insert_of_mem hknown)
              · rw [List.toFinset_cons, Finset.insert_union, Finset.union_insert]

theorem replays_inserted {quads : List Quad}
    (h : graphEnvironment.Replays s (quads.map inserted) s') :
    s' = { s with triples := quads.toFinset ∪ s.triples } := by
  induction quads generalizing s with
  | nil =>
      cases h
      simp
  | cons quad quads ih =>
      cases h with
      | cons he hrest =>
          rw [show _ = _ from he] at hrest
          rw [ih hrest, List.toFinset_cons, Finset.insert_union, Finset.union_insert]

/-- **The end of a write** on a graph that is then that of some records: of those of its
class the newest are left. -/
theorem replays_finish {quads : List Quad} {nodeClass childPredicate : Vocab} {cap : ℕ}
    {events : List GraphEvent} (hstage : WriteStage quads nodeClass childPredicate cap events true)
    (h : graphEnvironment.Replays s events s') {others written : List Record}
    (hgraph : quads.toFinset ∪ s.triples = recordGraph (others ++ written))
    (hclass : nodeClass ≠ .verifiableCredential) (hwritten : ∀ r ∈ written, r.nodeClass = nodeClass)
    (hothers : ∀ r ∈ others, r.nodeClass ≠ nodeClass) (hplaced : WellPlaced (others ++ written))
    (horder : InOrder written) (hpredicate : ∀ r ∈ written, r.childPredicate = childPredicate) :
    s' = { s with triples := recordGraph (others ++ written.rtake cap) } := by
  have hcount := count_records hclass hwritten hothers hplaced
  cases hstage with
  | @kept count hle =>
      obtain ⟨s₁, hinserted, hlast⟩ := h.split
      obtain rfl := replays_inserted hinserted
      cases hlast with
      | cons he hnil =>
          cases hnil
          obtain ⟨hanswer, rfl⟩ := he
          rw [hgraph, hcount] at hanswer
          rw [hgraph, List.rtake, Nat.sub_eq_zero_of_le (hanswer ▸ hle), List.drop_zero]
  | @trimmed count hlt =>
      obtain ⟨s₁, hinserted, hlast⟩ := h.split
      obtain rfl := replays_inserted hinserted
      cases hlast with
      | cons he hlast =>
          obtain ⟨hanswer, rfl⟩ := he
          rw [hgraph, hcount] at hanswer
          cases hlast with
          | cons he hnil =>
              cases hnil
              obtain ⟨nodes, holdest, rfl⟩ := he
              dsimp only at holdest ⊢
              rw [hgraph] at holdest ⊢
              rw [trimmed_oldest hclass hwritten hothers hplaced horder hpredicate holdest, hanswer]
              rfl

/-- **A finished write**: where its nodes come from, and its end. -/
theorem addRecord_runs {α : Type} {rootQuads : Node → String → ℕ → List Quad}
    {quadsOf : Node → ℕ → ℕ → α → List Quad} {items : List α} {nodeClass childPredicate : Vocab}
    {cap : ℕ} {id : String}
    (h : graphEnvironment.Runs (addRecord rootQuads quadsOf items nodeClass childPredicate cap) s
      id s') :
    ∃ (node : ℕ) (children : List (ℕ × α)) (later : List GraphEvent),
      children.map Prod.snd = items ∧ (node :: children.map Prod.fst).Nodup ∧
        (∀ n ∈ node :: children.map Prod.fst, n ∉ s.nodes) ∧
          WriteStage (rootQuads (.blank node) id s.nextOrder ++
            (children.mapIdx (fun i child => quadsOf (.blank node) child.1 i child.2)).flatten)
            nodeClass childPredicate cap later true ∧
          graphEnvironment.Replays { s with
            nextOrder := (s.nextOrder + 1) % 2 ^ 64
            nodes := (node :: children.map Prod.fst).toFinset ∪ s.nodes } later s' := by
  obtain ⟨events, hreturns, hreplays⟩ := h
  rcases addRecord_evolves hreturns with ⟨-, hasks⟩ | ⟨-, hasks⟩ |
    ⟨id', node, order, children, later, finished, hitems, rfl, hstage, hleft⟩
  · exact absurd hasks (Program.not_asks_pure id)
  · exact absurd hasks (Program.not_asks_pure id)
  · cases finished with
    | false => exact absurd hleft (Program.not_asks_pure id)
    | true =>
        obtain ⟨s₁, hbegun, hend⟩ := hreplays.split
        obtain ⟨rfl, hnodup, hfresh, rfl⟩ := replays_begun hbegun
        cases hleft
        exact ⟨node, children, later, hitems, hnodup, hfresh, hstage, hend⟩

end IdentityHub.CredentialGraph
