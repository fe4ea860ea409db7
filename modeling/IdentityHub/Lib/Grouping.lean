import Mathlib.Data.List.Nodup

/-!
# Rows of one group in a row

A joined query gives a parent once for each of its children. Its rows are grouped again
by one pass: a row whose node is that of the group before it extends that group, and any
other row starts a new one. `foldl_groups` is the result where the rows of each group come
together and no two groups have one node.

The last part is about lists whose elements are made from their place in the list.
-/

variable {R N A B : Type*}

section

variable [DecidableEq N] (node : R → N) (start : R → A) (extend : A → R → A)

/-- One turn of the pass. -/
def pushRow (out : List (N × A)) (row : R) : List (N × A) :=
  match out.getLast? with
  | some (last, group) =>
      if last = node row then out.dropLast ++ [(last, extend group row)]
      else out ++ [(node row, extend (start row) row)]
  | none => [(node row, extend (start row) row)]

variable {node start extend}

theorem pushRow_same {n : N} {row : R} (h : node row = n) (out : List (N × A)) (group : A) :
    pushRow node start extend (out ++ [(n, group)]) row = out ++ [(n, extend group row)] := by
  simp [pushRow, h]

theorem pushRow_new {row : R} {out : List (N × A)} (h : ∀ e ∈ out, e.1 ≠ node row) :
    pushRow node start extend out row = out ++ [(node row, extend (start row) row)] := by
  unfold pushRow
  cases hlast : out.getLast? with
  | none =>
      rw [List.getLast?_eq_none_iff.mp hlast]
      rfl
  | some e =>
      have hne : e.1 ≠ node row := h e (List.mem_of_getLast? hlast)
      simp only [if_neg hne]

theorem foldl_same {n : N} {rows : List R} (h : ∀ row ∈ rows, node row = n)
    (out : List (N × A)) (group : A) :
    rows.foldl (pushRow node start extend) (out ++ [(n, group)]) =
      out ++ [(n, rows.foldl extend group)] := by
  induction rows generalizing group with
  | nil => rfl
  | cons row rows ih =>
      rw [List.foldl_cons, pushRow_same (h row List.mem_cons_self),
        ih (fun r hr => h r (List.mem_cons_of_mem _ hr)), List.foldl_cons]

/-- The pass over the rows of different groups, each group's rows together. -/
theorem foldl_groups {rows : B → List R} {name : B → N} {value : B → A} {bs : List B}
    (hname : ∀ b ∈ bs, ∀ row ∈ rows b, node row = name b)
    (hvalue : ∀ b ∈ bs, ∃ first rest, rows b = first :: rest ∧
      (first :: rest).foldl extend (start first) = value b)
    (hnodup : (bs.map name).Nodup) {out : List (N × A)}
    (hnew : ∀ b ∈ bs, ∀ e ∈ out, e.1 ≠ name b) :
    (bs.flatMap rows).foldl (pushRow node start extend) out =
      out ++ bs.map (fun b => (name b, value b)) := by
  induction bs generalizing out with
  | nil => simp
  | cons b bs ih =>
      obtain ⟨hb, hrest⟩ := List.nodup_cons.mp hnodup
      obtain ⟨first, rest, hrows, hgroup⟩ := hvalue b List.mem_cons_self
      have hnames := hname b List.mem_cons_self
      rw [hrows] at hnames
      have hfirst : node first = name b := hnames first List.mem_cons_self
      have hpush : (first :: rest).foldl (pushRow node start extend) out =
          out ++ [(name b, value b)] := by
        have hstart : pushRow node start extend out first =
            out ++ [(name b, extend (start first) first)] := by
          rw [← hfirst]
          exact pushRow_new (fun e he => hfirst ▸ hnew b List.mem_cons_self e he)
        rw [List.foldl_cons, hstart,
          foldl_same (fun row hrow => hnames row (List.mem_cons_of_mem _ hrow)), ← hgroup]
        rfl
      rw [List.flatMap_cons, List.foldl_append, hrows, hpush,
        ih (fun b' hb' => hname b' (List.mem_cons_of_mem _ hb'))
          (fun b' hb' => hvalue b' (List.mem_cons_of_mem _ hb')) hrest, List.map_cons,
        List.append_assoc]
      · rfl
      · intro b' hb' e he
        rcases List.mem_append.mp he with he | he
        · exact hnew b' (List.mem_cons_of_mem _ hb') e he
        · rw [List.mem_singleton.mp he]
          intro heq
          have hname : name b = name b' := heq
          rw [hname] at hb
          exact hb (List.mem_map_of_mem hb')

end

/-! ## Elements made from their place -/

theorem map_mapIdx_const {f : ℕ → A → B} {g : B → R} {k : A → R} (h : ∀ i a, g (f i a) = k a)
    (l : List A) : (l.mapIdx f).map g = l.map k := by
  refine List.ext_getElem (by simp) (fun i hi hi' => ?_)
  simp [h]

theorem filterMap_mapIdx_const {f : ℕ → A → B} {g : B → Option R} {k : A → R}
    (h : ∀ i a, g (f i a) = some (k a)) (l : List A) : (l.mapIdx f).filterMap g = l.map k := by
  induction l generalizing f with
  | nil => rfl
  | cons a l ih => rw [List.mapIdx_cons, List.filterMap_cons_some (h 0 a), ih (fun i a => h (i + 1) a),
      List.map_cons]

theorem pairwise_mapIdx {f : ℕ → A → B} {r : B → B → Prop}
    (h : ∀ i j a b, i < j → r (f i a) (f j b)) (l : List A) : (l.mapIdx f).Pairwise r := by
  rw [List.pairwise_iff_getElem]
  intro i j hi hj hij
  rw [List.getElem_mapIdx, List.getElem_mapIdx]
  exact h i j _ _ hij
