import Mathlib.Algebra.Order.Monoid.Unbundled.WithTop
import Mathlib.Data.Finset.Card
import Mathlib.Data.Finset.Dedup
import Mathlib.Data.Finset.Filter
import Mathlib.Data.Finset.Lattice.Lemmas
import Mathlib.Data.Multiset.Bind

/-!
# Graphs of triples

A graph is a set of triples over a vocabulary `V` of predicates and classes. A query
is answered by the bag of its solutions, built by joining one pattern after another:
`facts` and `subjects` start a pattern, `objects` goes on from a node, `optional` keeps
a solution whose optional part has none. `SortedBy` is what `ORDER BY` promises of a
result.

A graph that says of some nodes what is so of each, and nothing else, is `graphOf` their
descriptions. On such a graph a pattern is answered node by node (`bind_facts`,
`objects_graphOf`), whatever order the triples came in.
-/

namespace Rdf

inductive Term (V : Type*) where
  | blank (label : ℕ)
  | iri (name : V)
  | literal (text : String)
  | integer (n : ℕ)
deriving DecidableEq

structure Triple (V : Type*) where
  subject : Term V
  predicate : V
  object : Term V
deriving DecidableEq

abbrev Graph (V : Type*) := Finset (Triple V)

variable {V α β : Type*}

/-- What a term counts for in `ORDER BY`: integers by their value. Where nothing is
bound, and for any other term, the least. -/
def Term.number : Term V → WithBot ℕ
  | .integer n => n
  | _ => ⊥

/-- The order of a result whose rows are ordered by `key`; rows with one key stand in
any order. -/
def SortedBy [LE β] (key : α → β) (rows : List α) : Prop :=
  rows.Pairwise (fun a b => key a ≤ key b)

/-- Where no two rows have one key the order is settled. -/
theorem SortedBy.unique [PartialOrder β] {key : α → β} {rows rows' : List α}
    (h : SortedBy key rows) (h' : SortedBy key rows') (hsame : (rows : Multiset α) = rows')
    (hkey : ∀ a ∈ rows, ∀ b ∈ rows, key a = key b → a = b) : rows = rows' := by
  have hperm : rows.Perm rows' := Multiset.coe_eq_coe.mp hsame
  refine List.Perm.eq_of_pairwise (fun a b ha hb hab hba => ?_) h h' hperm
  exact hkey a ha b (hperm.mem_iff.mpr hb) (le_antisymm hab hba)

/-- `OPTIONAL`: no solution is one solution in which nothing is bound. -/
def optional (solutions : Multiset α) : Multiset (Option α) :=
  if solutions.card = 0 then {none} else solutions.map some

/-- The rows of an optional part, in order. -/
def optionalRows : List α → List (Option α)
  | [] => [none]
  | rows => rows.map some

theorem optional_coe (rows : List α) :
    optional (rows : Multiset α) = (optionalRows rows : Multiset (Option α)) := by
  cases rows with
  | nil => rfl
  | cons a rows => rfl

theorem exists_mem_optional (solutions : Multiset α) : ∃ o, o ∈ optional solutions := by
  unfold optional
  split
  · exact ⟨none, Multiset.mem_singleton_self none⟩
  · rename_i h
    obtain ⟨a, ha⟩ := Multiset.card_pos_iff_exists_mem.mp (Nat.pos_of_ne_zero h)
    exact ⟨some a, Multiset.mem_map_of_mem _ ha⟩

theorem some_mem_optional {solutions : Multiset α} {a : α} :
    some a ∈ optional solutions ↔ a ∈ solutions := by
  unfold optional
  split
  · rename_i h
    rw [Multiset.card_eq_zero.mp h]
    simp
  · simp

theorem optional_toList (o : Option α) : optional (o.toList : Multiset α) = {o} := by
  cases o with
  | none => rfl
  | some a => rfl

/-! ## Graphs that describe nodes -/

/-- What is so of one node. -/
structure Description (V : Type*) where
  node : Term V
  facts : List (V × Term V)
deriving DecidableEq

def Description.triples (d : Description V) : List (Triple V) :=
  d.facts.map (fun f => ⟨d.node, f.1, f.2⟩)

theorem Description.mem_triples {d : Description V} {t : Triple V} :
    t ∈ d.triples ↔ d.node = t.subject ∧ (t.predicate, t.object) ∈ d.facts := by
  obtain ⟨s, p, o⟩ := t
  constructor
  · intro h
    obtain ⟨f, hf, heq⟩ := List.mem_map.mp h
    cases heq
    exact ⟨rfl, hf⟩
  · rintro ⟨rfl, hf⟩
    exact List.mem_map.mpr ⟨(p, o), hf, rfl⟩

/-- Each node is described once, and no fact is told twice. -/
structure WellDescribed (ds : List (Description V)) : Prop where
  nodes : (ds.map Description.node).Nodup
  facts : ∀ d ∈ ds, d.facts.Nodup

theorem WellDescribed.perm {ds ds' : List (Description V)} (h : WellDescribed ds)
    (hperm : ds.Perm ds') : WellDescribed ds' where
  nodes := (hperm.map _).nodup h.nodes
  facts d hd := h.facts d (hperm.mem_iff.mpr hd)

theorem WellDescribed.sublist {ds ds' : List (Description V)} (h : WellDescribed ds)
    (hsub : ds'.Sublist ds) : WellDescribed ds' where
  nodes := h.nodes.sublist (hsub.map _)
  facts d hd := h.facts d (hsub.subset hd)

variable {ds : List (Description V)}

/-- One description for each node. -/
theorem WellDescribed.same (h : WellDescribed ds) {d d' : Description V} (hd : d ∈ ds)
    (hd' : d' ∈ ds) (hnode : d.node = d'.node) : d = d' :=
  List.inj_on_of_nodup_map h.nodes hd hd' hnode

theorem WellDescribed.nodup_triples (h : WellDescribed ds) :
    (ds.flatMap Description.triples).Nodup := by
  refine List.nodup_flatMap.mpr ⟨fun d hd => ?_, ?_⟩
  · refine (List.nodup_map_iff_inj_on (h.facts d hd)).mpr ?_
    rintro ⟨p, o⟩ - ⟨p', o'⟩ - heq
    cases heq
    rfl
  · refine (List.pairwise_map.mp h.nodes).imp (fun {d d'} hne => ?_)
    intro t ht ht'
    exact hne ((Description.mem_triples.mp ht).1.trans (Description.mem_triples.mp ht').1.symm)

section

variable [DecidableEq V]

def graphOf (ds : List (Description V)) : Graph V := (ds.flatMap Description.triples).toFinset

/-! ## Patterns -/

/-- `?s p ?o`. -/
def Graph.facts (g : Graph V) (p : V) : Multiset (Triple V) :=
  (g.filter (fun t => t.predicate = p)).val

/-- `?s p o`. -/
def Graph.subjects (g : Graph V) (p : V) (o : Term V) : Multiset (Term V) :=
  (g.filter (fun t => t.predicate = p ∧ t.object = o)).val.map Triple.subject

/-- `s p ?o`. -/
def Graph.objects (g : Graph V) (s : Term V) (p : V) : Multiset (Term V) :=
  (g.filter (fun t => t.subject = s ∧ t.predicate = p)).val.map Triple.object

/-- The objects of one predicate among some facts. -/
def valuesOf (facts : List (V × Term V)) (p : V) : List (Term V) :=
  (facts.filter (fun f => f.1 = p)).map Prod.snd

@[simp] theorem valuesOf_nil (p : V) : valuesOf ([] : List (V × Term V)) p = [] := rfl

@[simp] theorem valuesOf_cons (q p : V) (o : Term V) (facts : List (V × Term V)) :
    valuesOf ((q, o) :: facts) p = if q = p then o :: valuesOf facts p else valuesOf facts p := by
  unfold valuesOf
  by_cases h : q = p
  · simp [h]
  · simp [h]

@[simp] theorem valuesOf_append (facts facts' : List (V × Term V)) (p : V) :
    valuesOf (facts ++ facts') p = valuesOf facts p ++ valuesOf facts' p := by
  rw [valuesOf, List.filter_append, List.map_append]
  rfl

@[simp] theorem valuesOf_map (q p : V) (f : α → Term V) (l : List α) :
    valuesOf (l.map (fun a => (q, f a))) p = if q = p then l.map f else [] := by
  unfold valuesOf
  rw [List.filter_map, List.map_map]
  by_cases h : q = p
  · simp [h, Function.comp_def]
  · simp [h, Function.comp_def]

theorem mem_valuesOf {facts : List (V × Term V)} {p : V} {o : Term V} :
    o ∈ valuesOf facts p ↔ (p, o) ∈ facts := by
  simp [valuesOf]

def Description.values (d : Description V) (p : V) : List (Term V) := valuesOf d.facts p

/-! ## Patterns on a graph of descriptions -/

theorem mem_graphOf {ds : List (Description V)} {t : Triple V} :
    t ∈ graphOf ds ↔ ∃ d ∈ ds, t ∈ d.triples := by
  rw [graphOf, List.mem_toFinset, List.mem_flatMap]

theorem graphOf_perm {ds ds' : List (Description V)} (h : ds.Perm ds') :
    graphOf ds = graphOf ds' := by
  ext t
  rw [mem_graphOf, mem_graphOf]
  exact exists_congr (fun d => and_congr_left (fun _ => h.mem_iff))

theorem graphOf_append (ds ds' : List (Description V)) :
    graphOf (ds ++ ds') = graphOf ds ∪ graphOf ds' := by
  rw [graphOf, List.flatMap_append, List.toFinset_append]
  rfl

theorem val_graphOf (h : WellDescribed ds) :
    (graphOf ds).val = (ds.flatMap Description.triples : List (Triple V)) := by
  rw [graphOf, List.toFinset_val, List.dedup_eq_self.mpr h.nodup_triples]

theorem Description.filter_triples (d : Description V) (p : V) :
    d.triples.filter (fun t => t.predicate = p) =
      (d.values p).map (fun o => ⟨d.node, p, o⟩) := by
  unfold Description.triples Description.values
  induction d.facts with
  | nil => rfl
  | cons f facts ih =>
      obtain ⟨q, o⟩ := f
      rw [List.map_cons, List.filter_cons, valuesOf_cons, ih]
      by_cases hp : q = p
      · simp [hp]
      · simp [hp]

/-- A pattern that starts with `?s p ?o` is answered node by node. -/
theorem bind_facts (h : WellDescribed ds) (p : V) (f : Triple V → Multiset β) :
    ((graphOf ds).facts p).bind f =
      (ds : Multiset (Description V)).bind
        (fun d => (d.values p : Multiset (Term V)).bind (fun o => f ⟨d.node, p, o⟩)) := by
  rw [Graph.facts, Finset.filter_val, val_graphOf h, ← Multiset.coe_bind, Multiset.filter_bind,
    Multiset.bind_assoc]
  refine Multiset.bind_congr (fun d _ => ?_)
  rw [Multiset.filter_coe, Description.filter_triples, ← Multiset.map_coe, Multiset.bind_map]

theorem objects_graphOf (h : WellDescribed ds) {d : Description V} (hd : d ∈ ds) (p : V) :
    (graphOf ds).objects d.node p = d.values p := by
  have hown : (graphOf ds).filter (fun t => t.subject = d.node ∧ t.predicate = p) =
      (d.triples.filter (fun t => t.predicate = p)).toFinset := by
    ext t
    rw [Finset.mem_filter, mem_graphOf, List.mem_toFinset, List.mem_filter, decide_eq_true_eq]
    constructor
    · rintro ⟨⟨d', hd', ht⟩, hsubject, hp⟩
      have hnode : d'.node = d.node := (Description.mem_triples.mp ht).1.trans hsubject
      rw [h.same hd' hd hnode] at ht
      exact ⟨ht, hp⟩
    · rintro ⟨ht, hp⟩
      exact ⟨⟨d, hd, ht⟩, (Description.mem_triples.mp ht).1.symm, hp⟩
  have hnodup : (d.triples.filter (fun t => t.predicate = p)).Nodup :=
    ((List.nodup_flatMap.mp h.nodup_triples).1 d hd).filter _
  rw [Graph.objects, hown, List.toFinset_val, List.dedup_eq_self.mpr hnodup,
    Description.filter_triples, Multiset.map_coe, List.map_map]
  exact congrArg _ (List.map_id _)

theorem subjects_graphOf (h : WellDescribed ds) (p : V) (o : Term V) :
    (graphOf ds).subjects p o =
      (ds : Multiset (Description V)).bind
        (fun d => ((d.values p).filter (fun o' => o' = o)).map (fun _ => d.node)) := by
  have hfilter : (graphOf ds).filter (fun t => t.predicate = p ∧ t.object = o) =
      ((graphOf ds).filter (fun t => t.predicate = p)).filter (fun t => t.object = o) := by
    rw [Finset.filter_filter]
  rw [Graph.subjects, hfilter, Finset.filter_val, Finset.filter_val, val_graphOf h,
    ← Multiset.coe_bind, Multiset.filter_bind, Multiset.filter_bind, Multiset.map_bind]
  refine Multiset.bind_congr (fun d _ => ?_)
  rw [Multiset.filter_coe, Description.filter_triples, Multiset.filter_coe, List.filter_map,
    Multiset.map_coe, List.map_map]
  rfl

end

end Rdf
