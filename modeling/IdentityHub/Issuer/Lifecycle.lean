import IdentityHub.Issuer.Moves
import IdentityHub.Lib.KeyedList

/-!
# The life of an issuance process

`Standing` ties the request table to the delivery tasks: a SUBMITTED process has
no task, an APPROVED one has exactly one task that has not ended and that has
claimed it exactly when `delivery_started` is set, and a task that ended after a
claim left its process DELIVERED or ERRORED. It holds in every reachable state
(`standing_of_reachable`).

From it: which states a process can go to and by whom, that it is claimed and
posted at most once, and that a rejected one is never posted.
-/

namespace IdentityHub

open StepSystem (Machine Reachable Steps anyStep)

variable {X : External} {service : IssuerService X} {start : ℕ}

/-- The agreement between the request table and the delivery tasks. -/
structure Standing (s : IssuerSys) : Prop where
  holderKeys : s.app.holders.Keyed
  processKeys : ∀ k p, s.app.requests.get k = some p → p.id = k ∧ k ∈ s.drawn
  taskKeys : (s.deliveries.map (·.processId)).Nodup
  taskDrawn : ∀ t ∈ s.deliveries, t.processId ∈ s.drawn
  sound : ∀ t ∈ s.deliveries, t.Sound
  submitted : ∀ k p, s.app.requests.get k = some p → p.state = .submitted →
    p.deliveryStarted = false ∧ ∀ t ∈ s.deliveries, t.processId ≠ k
  approved : ∀ k p, s.app.requests.get k = some p → p.state = .approved →
    ∃ t ∈ s.deliveries, t.processId = k ∧ t.phase.isDone = false ∧ t.claimed = p.deliveryStarted
  working : ∀ t ∈ s.deliveries, t.claimed = true → t.phase.isDone = false →
    ∃ p, s.app.requests.get t.processId = some p ∧ p.state = .approved ∧
      p.deliveryStarted = true
  settled : ∀ t ∈ s.deliveries, t.claimed = true → t.phase.isDone = true →
    ∀ p, s.app.requests.get t.processId = some p → p.state = .delivered ∨ p.state = .errored

theorem standing_start : Standing (IssuerSys.start start) where
  holderKeys k holder h := by
    rw [show (IssuerSys.start start).app.holders = .empty from rfl,
      HolderRegistry.get_empty] at h
    cases h
  processKeys k p h := by
    rw [show (IssuerSys.start start).app.requests = .new maxTrackedRequests from rfl,
      RequestTable.get_new] at h
    cases h
  taskKeys := List.nodup_nil
  taskDrawn t ht := absurd ht List.not_mem_nil
  sound t ht := absurd ht List.not_mem_nil
  submitted k p h := by
    rw [show (IssuerSys.start start).app.requests = .new maxTrackedRequests from rfl,
      RequestTable.get_new] at h
    cases h
  approved k p h := by
    rw [show (IssuerSys.start start).app.requests = .new maxTrackedRequests from rfl,
      RequestTable.get_new] at h
    cases h
  working t ht := absurd ht List.not_mem_nil
  settled t ht := absurd ht List.not_mem_nil

/-! ## The invariant is preserved, move by move

`s'` is the state after the move; what was drawn only grows, and what the move
draws was not drawn before. -/

section Preserved

variable {s s' : IssuerSys} {a : IssuerAction X}

/-- What can be read in a table after an insertion. -/
theorem get_after_insert {table table' : RequestTable} {p q : IssuanceProcess} {k : String}
    (hins : table.insert p.id p = .ok table') (h : table'.get k = some q) :
    k = p.id ∧ q = p ∨ k ≠ p.id ∧ table.get k = some q := by
  obtain ⟨hp, hrest⟩ := RequestTable.insert_eq_ok hins
  by_cases hk : k = p.id
  · subst hk
    rw [hp] at h
    exact Or.inl ⟨rfl, (Option.some_inj.mp h).symm⟩
  · rcases hrest k hk with hsame | ⟨hgone, -⟩
    · exact Or.inr ⟨hk, hsame ▸ h⟩
    · rw [hgone] at h
      cases h

/-- An insertion evicts no process that is still active. -/
theorem active_after_insert {table table' : RequestTable} {p q : IssuanceProcess} {k : String}
    (hins : table.insert p.id p = .ok table') (hk : k ≠ p.id) (h : table.get k = some q)
    (hq : q.state.isActive) : table'.get k = some q := by
  rcases (RequestTable.insert_eq_ok hins).2 k hk with hsame | ⟨-, hend⟩
  · rw [hsame, h]
  · have := hend q h
    rw [ProcessState.isTerminal, hq] at this
    cases this

theorem Standing.quiet (hs : Standing s)
    (hm : HoldersMove service s.app.holders s.vouched s'.app.holders s'.vouched)
    (hr : s'.app.requests = s.app.requests) (hd : s'.deliveries = s.deliveries)
    (hdrawn : s'.drawn = a.draws ++ s.drawn) : Standing s' where
  holderKeys := hm.keyed hs.holderKeys
  processKeys k p h := by
    rw [hr] at h
    exact ⟨(hs.processKeys k p h).1,
      hdrawn ▸ List.mem_append_right _ (hs.processKeys k p h).2⟩
  taskKeys := hd ▸ hs.taskKeys
  taskDrawn t ht := hdrawn ▸ List.mem_append_right _ (hs.taskDrawn t (hd ▸ ht))
  sound t ht := hs.sound t (hd ▸ ht)
  submitted k p h := by
    rw [hr] at h
    rw [hd]
    exact hs.submitted k p h
  approved k p h := by
    rw [hr] at h
    rw [hd]
    exact hs.approved k p h
  working t ht := by
    rw [hr]
    exact hs.working t (hd ▸ ht)
  settled t ht := by
    rw [hr]
    exact hs.settled t (hd ▸ ht)

/-- A new process, with its task when it starts APPROVED and none otherwise. -/
theorem Standing.inserted (hs : Standing s) {p : IssuanceProcess}
    (hkeys : s'.app.holders.Keyed) (hid : p.id ∈ a.draws)
    (hins : s.app.requests.insert p.id p = .ok s'.app.requests)
    (hstarted : p.state.isActive → p.deliveryStarted = false)
    (hd : s'.deliveries =
      s.deliveries ++ (if p.state = .approved then [Delivery.new p.id] else []))
    (hfresh : ∀ u ∈ a.draws, u ∉ s.drawn) (hdrawn : s'.drawn = a.draws ++ s.drawn) :
    Standing s' := by
  have hnew : p.id ∉ s.drawn := hfresh p.id hid
  have htask : ∀ t ∈ s.deliveries, t.processId ≠ p.id := by
    rintro t ht e
    exact hnew (e ▸ hs.taskDrawn t ht)
  have hold : ∀ t ∈ s'.deliveries,
      t ∈ s.deliveries ∨ p.state = .approved ∧ t = Delivery.new p.id := by
    intro t ht
    rw [hd, List.mem_append] at ht
    rcases ht with ht | ht
    · exact Or.inl ht
    · split at ht
      · rename_i hstate
        exact Or.inr ⟨hstate, List.mem_singleton.mp ht⟩
      · exact absurd ht List.not_mem_nil
  have hkeep : ∀ t ∈ s.deliveries, t ∈ s'.deliveries :=
    fun t ht => hd ▸ List.mem_append_left _ ht
  refine
    { holderKeys := hkeys
      processKeys := fun k q h => ?_
      taskKeys := ?_
      taskDrawn := fun t ht => ?_
      sound := fun t ht => ?_
      submitted := fun k q h hq => ?_
      approved := fun k q h hq => ?_
      working := fun t ht hc hdone => ?_
      settled := fun t ht hc hdone q h => ?_ }
  · rcases get_after_insert hins h with ⟨rfl, rfl⟩ | ⟨-, h⟩
    · exact ⟨rfl, hdrawn ▸ List.mem_append_left _ hid⟩
    · exact ⟨(hs.processKeys k q h).1,
        hdrawn ▸ List.mem_append_right _ (hs.processKeys k q h).2⟩
  · rw [hd, List.map_append, List.nodup_append]
    refine ⟨hs.taskKeys, by split <;> simp, ?_⟩
    intro k hk k' hk' e
    obtain ⟨t, ht, rfl⟩ := List.mem_map.mp hk
    split at hk'
    · rw [List.map_singleton, List.mem_singleton] at hk'
      exact htask t ht (e.trans hk')
    · exact absurd hk' List.not_mem_nil
  · rw [hdrawn, List.mem_append]
    rcases hold t ht with ht | ⟨-, rfl⟩
    · exact Or.inr (hs.taskDrawn t ht)
    · exact Or.inl hid
  · rcases hold t ht with ht | ⟨-, rfl⟩
    · exact hs.sound t ht
    · exact Delivery.sound_new p.id
  · rcases get_after_insert hins h with ⟨rfl, rfl⟩ | ⟨hk, h⟩
    · refine ⟨hstarted (by rw [hq]; rfl), fun t ht => ?_⟩
      rcases hold t ht with ht | ⟨happ, -⟩
      · exact htask t ht
      · rw [hq] at happ
        cases happ
    · refine ⟨(hs.submitted k q h hq).1, fun t ht => ?_⟩
      rcases hold t ht with ht | ⟨-, rfl⟩
      · exact (hs.submitted k q h hq).2 t ht
      · exact Ne.symm hk
  · rcases get_after_insert hins h with ⟨rfl, rfl⟩ | ⟨-, h⟩
    · refine ⟨Delivery.new q.id, ?_, rfl, rfl, (hstarted (by rw [hq]; rfl)).symm⟩
      rw [hd, if_pos hq]
      exact List.mem_append_right _ (List.mem_singleton.mpr rfl)
    · obtain ⟨t, ht, hrest⟩ := hs.approved k q h hq
      exact ⟨t, hkeep t ht, hrest⟩
  · rcases hold t ht with ht | ⟨-, rfl⟩
    · obtain ⟨q, hq, hstate, hst⟩ := hs.working t ht hc hdone
      exact ⟨q, active_after_insert hins (htask t ht) hq (by rw [hstate]; rfl), hstate, hst⟩
    · cases hc
  · rcases hold t ht with ht | ⟨-, rfl⟩
    · rcases get_after_insert hins h with ⟨hk, -⟩ | ⟨-, h⟩
      · exact absurd hk (htask t ht)
      · exact hs.settled t ht hc hdone q h
    · cases hc

/-! A decision. -/

theorem isDecided_iff {holderId : String} {next : ProcessState} {p : IssuanceProcess} :
    isDecided holderId next p ↔ p.holderId = holderId ∧
      (p.state = .submitted ∨
        next = .rejected ∧ p.state = .approved ∧ p.deliveryStarted = false) := by
  simp [isDecided, and_assoc]

/-- The ids of the stored processes are distinct, whichever are selected. -/
theorem selected_ids_nodup {table : RequestTable}
    (hids : ∀ k p, table.get k = some p → p.id = k) (c : IssuanceProcess → Bool) :
    (((KeyedTable.values table.records).filter c).map (·.id)).Nodup := by
  have hall : (KeyedTable.values table.records).map (·.id) = table.records.keys := by
    show (table.records.entries.map Sigma.snd).map (·.id) = table.records.entries.map Sigma.fst
    rw [List.map_map]
    apply List.map_congr_left
    rintro ⟨k, p⟩ hm
    exact hids k p (AList.mem_lookup_iff.mpr hm)
  exact (hall ▸ table.records.keys_nodup).sublist (List.filter_sublist.map _)

theorem mem_approvedTasks (hs : Standing s) {holderId : String} {next : ProcessState}
    {t : Delivery} :
    t ∈ approvedTasks s holderId next ↔ next = .approved ∧
      ∃ k p, s.app.requests.get k = some p ∧ isDecided holderId next p ∧ t = Delivery.new k := by
  unfold approvedTasks
  by_cases hn : next = .approved
  · rw [if_pos hn]
    simp only [List.mem_map, List.mem_filter, RequestTable.mem_values, hn, true_and]
    constructor
    · rintro ⟨k, ⟨p, ⟨⟨k', hp⟩, hdec⟩, rfl⟩, rfl⟩
      exact ⟨k', p, hp, hdec, by rw [(hs.processKeys k' p hp).1]⟩
    · rintro ⟨k, p, hp, hdec, rfl⟩
      exact ⟨k, ⟨p, ⟨⟨k, hp⟩, hdec⟩, (hs.processKeys k p hp).1⟩, rfl⟩
  · rw [if_neg hn]
    simp [hn]

/-- A decision keeps every process under its id and moves the selected ones. -/
theorem get_decided {table table' : RequestTable} {holderId k : String} {next : ProcessState}
    {now : ℕ} {q : IssuanceProcess}
    (hr : table' = table.mapRecords
      (fun p => if isDecided holderId next p then p.transition next now else p))
    (h : table'.get k = some q) :
    ∃ p, table.get k = some p ∧
      (isDecided holderId next p ∧ q = p.transition next now ∨
        isDecided holderId next p = false ∧ q = p) := by
  rw [hr, RequestTable.get_mapRecords] at h
  obtain ⟨p, hp, rfl⟩ := Option.map_eq_some_iff.mp h
  refine ⟨p, hp, ?_⟩
  cases hdec : isDecided holderId next p with
  | false => exact Or.inr ⟨rfl, if_neg (by simp)⟩
  | true => exact Or.inl ⟨rfl, if_pos rfl⟩

theorem Standing.decided (hs : Standing s) {holderId : String} {status : HolderStatus}
    {next : ProcessState} {now : ℕ}
    (hnext : next = .approved ∨ next = .rejected)
    (hh : s'.app.holders = s.app.holders.modify holderId (fun h => { h with status := status }))
    (hr : s'.app.requests = s.app.requests.mapRecords
      (fun p => if isDecided holderId next p then p.transition next now else p))
    (hd : s'.deliveries = s.deliveries ++ approvedTasks s holderId next)
    (hdrawn : s'.drawn = a.draws ++ s.drawn) : Standing s' := by
  have hold : ∀ t ∈ s'.deliveries, t ∈ s.deliveries ∨ next = .approved ∧
      ∃ k p, s.app.requests.get k = some p ∧ p.state = .submitted ∧ p.holderId = holderId ∧
        t = Delivery.new k := by
    intro t ht
    rw [hd, List.mem_append, mem_approvedTasks hs] at ht
    rcases ht with ht | ⟨hn, k, p, hp, hdec, rfl⟩
    · exact Or.inl ht
    · obtain ⟨hholder, hsub | ⟨hrej, -⟩⟩ := isDecided_iff.mp hdec
      · exact Or.inr ⟨hn, k, p, hp, hsub, hholder, rfl⟩
      · rw [hn] at hrej
        cases hrej
  have hkeep : ∀ t ∈ s.deliveries, t ∈ s'.deliveries :=
    fun t ht => hd ▸ List.mem_append_left _ ht
  have hget : ∀ k p, s.app.requests.get k = some p → isDecided holderId next p = false →
      s'.app.requests.get k = some p := by
    intro k p hp hdec
    rw [hr, RequestTable.get_mapRecords, hp, Option.map_some, if_neg (by simp [hdec])]
  refine
    { holderKeys := ?_
      processKeys := fun k q h => ?_
      taskKeys := ?_
      taskDrawn := fun t ht => ?_
      sound := fun t ht => ?_
      submitted := fun k q h hq => ?_
      approved := fun k q h hq => ?_
      working := fun t ht hc hdone => ?_
      settled := fun t ht hc hdone q h => ?_ }
  · rw [hh]
    exact hs.holderKeys.modify holderId (fun _ => rfl)
  · obtain ⟨p, hp, hq⟩ := get_decided hr h
    obtain ⟨hid, hk⟩ := hs.processKeys k p hp
    refine ⟨?_, hdrawn ▸ List.mem_append_right _ hk⟩
    rcases hq with ⟨-, rfl⟩ | ⟨-, rfl⟩ <;> exact hid
  · rw [hd, List.map_append, List.nodup_append]
    refine ⟨hs.taskKeys, ?_, ?_⟩
    · unfold approvedTasks
      split
      · rw [List.map_map]
        exact (List.map_id _).symm ▸
          selected_ids_nodup (fun k p hp => (hs.processKeys k p hp).1) _
      · exact List.nodup_nil
    · intro k hk k' hk' e
      obtain ⟨t, ht, rfl⟩ := List.mem_map.mp hk
      obtain ⟨t', ht', rfl⟩ := List.mem_map.mp hk'
      obtain ⟨hn, j, p, hp, hdec, rfl⟩ := (mem_approvedTasks hs).mp ht'
      obtain ⟨-, hsub | ⟨hrej, -⟩⟩ := isDecided_iff.mp hdec
      · exact (hs.submitted j p hp hsub).2 t ht e
      · rw [hn] at hrej
        cases hrej
  · rw [hdrawn, List.mem_append]
    rcases hold t ht with ht | ⟨-, k, p, hp, -, -, rfl⟩
    · exact Or.inr (hs.taskDrawn t ht)
    · exact Or.inr (hs.processKeys k p hp).2
  · rcases hold t ht with ht | ⟨-, k, p, -, -, -, rfl⟩
    · exact hs.sound t ht
    · exact Delivery.sound_new k
  · -- what is still SUBMITTED was not selected
    obtain ⟨p, hp, ⟨-, rfl⟩ | ⟨hdec, rfl⟩⟩ := get_decided hr h
    · rcases hnext with rfl | rfl <;> cases hq
    · refine ⟨(hs.submitted k q hp hq).1, fun t ht => ?_⟩
      rcases hold t ht with ht | ⟨hn, j, p, hp', hsub, hholder, rfl⟩
      · exact (hs.submitted k q hp hq).2 t ht
      · rintro (rfl : j = k)
        rw [hp] at hp'
        cases hp'
        rw [isDecided_iff.mpr ⟨hholder, Or.inl hsub⟩] at hdec
        cases hdec
  · obtain ⟨p, hp, ⟨hdec, rfl⟩ | ⟨-, rfl⟩⟩ := get_decided hr h
    · -- newly approved: the handler's own task
      have hn : next = .approved := hq
      obtain ⟨hholder, hsub | ⟨hrej, -⟩⟩ := isDecided_iff.mp hdec
      · refine ⟨Delivery.new k, ?_, rfl, rfl, ?_⟩
        · rw [hd, List.mem_append, mem_approvedTasks hs]
          exact Or.inr ⟨hn, k, p, hp, hdec, rfl⟩
        · exact (hs.submitted k p hp hsub).1.symm
      · rw [hn] at hrej
        cases hrej
    · obtain ⟨t, ht, hrest⟩ := hs.approved k q hp hq
      exact ⟨t, hkeep t ht, hrest⟩
  · rcases hold t ht with ht | ⟨-, k, p, -, -, -, rfl⟩
    · obtain ⟨p, hp, hstate, hst⟩ := hs.working t ht hc hdone
      refine ⟨p, hget _ p hp ?_, hstate, hst⟩
      rw [← Bool.not_eq_true, isDecided_iff, hstate, hst]
      simp
    · cases hc
  · rcases hold t ht with ht | ⟨-, k, p, -, -, -, rfl⟩
    · obtain ⟨p, hp, hq⟩ := get_decided hr h
      have hend := hs.settled t ht hc hdone p hp
      rcases hq with ⟨hdec, rfl⟩ | ⟨-, rfl⟩
      · obtain ⟨-, hsub | ⟨-, happ, -⟩⟩ := isDecided_iff.mp hdec
        · rcases hend with hend | hend <;> rw [hsub] at hend <;> cases hend
        · rcases hend with hend | hend <;> rw [happ] at hend <;> cases hend
      · exact hend
    · cases hc

/-! A step of one task: everything about the other processes is as before, so
only the task's own process is left to look at. -/

/-- What has to hold of a task and its own process after the task's step. -/
structure OwnProcess (s' : IssuerSys) (t' : Delivery) : Prop where
  key : ∀ q, s'.app.requests.get t'.processId = some q → q.id = t'.processId
  submitted : ∀ q, s'.app.requests.get t'.processId = some q → q.state ≠ .submitted
  approved : ∀ q, s'.app.requests.get t'.processId = some q → q.state = .approved →
    t'.phase.isDone = false ∧ t'.claimed = q.deliveryStarted
  working : t'.claimed = true → t'.phase.isDone = false →
    ∃ q, s'.app.requests.get t'.processId = some q ∧ q.state = .approved ∧
      q.deliveryStarted = true
  settled : t'.claimed = true → t'.phase.isDone = true →
    ∀ q, s'.app.requests.get t'.processId = some q → q.state = .delivered ∨ q.state = .errored

theorem Standing.stepTask (hs : Standing s) {i : ℕ} {t t' : Delivery}
    (ht : s.deliveries[i]? = some t) (hpid : t'.processId = t.processId) (hsound : t'.Sound)
    (hh : s'.app.holders = s.app.holders) (hd : s'.deliveries = s.deliveries.set i t')
    (hother : ∀ k, k ≠ t.processId → s'.app.requests.get k = s.app.requests.get k)
    (hown : OwnProcess s' t') (hdrawn : s'.drawn = a.draws ++ s.drawn) : Standing s' := by
  have hmem : t ∈ s.deliveries := List.mem_of_getElem? ht
  have hset : ∀ {x : Delivery},
      x ∈ s'.deliveries ↔ x = t' ∨ x ∈ s.deliveries ∧ x.processId ≠ t.processId := by
    intro x
    rw [hd]
    exact KeyedList.mem_set hs.taskKeys ht hpid
  have hdr : ∀ u ∈ s.drawn, u ∈ s'.drawn := fun u hu => hdrawn ▸ List.mem_append_right _ hu
  refine
    { holderKeys := hh ▸ hs.holderKeys
      processKeys := fun k q h => ?_
      taskKeys := ?_
      taskDrawn := fun x hx => ?_
      sound := fun x hx => ?_
      submitted := fun k q h hq => ?_
      approved := fun k q h hq => ?_
      working := fun x hx hc hdone => ?_
      settled := fun x hx hc hdone q h => ?_ }
  · by_cases hk : k = t.processId
    · rw [hk, ← hpid] at h
      rw [hk]
      exact ⟨(hown.key q h).trans hpid, hdr _ (hs.taskDrawn t hmem)⟩
    · rw [hother k hk] at h
      exact ⟨(hs.processKeys k q h).1, hdr _ (hs.processKeys k q h).2⟩
  · rw [hd, KeyedList.map_set ht hpid]
    exact hs.taskKeys
  · rcases hset.mp hx with rfl | ⟨hx, -⟩
    · rw [hpid]
      exact hdr _ (hs.taskDrawn t hmem)
    · exact hdr _ (hs.taskDrawn x hx)
  · rcases hset.mp hx with rfl | ⟨hx, -⟩
    · exact hsound
    · exact hs.sound x hx
  · by_cases hk : k = t.processId
    · rw [hk, ← hpid] at h
      exact absurd hq (hown.submitted q h)
    · rw [hother k hk] at h
      refine ⟨(hs.submitted k q h hq).1, fun x hx => ?_⟩
      rcases hset.mp hx with rfl | ⟨hx, -⟩
      · rw [hpid]
        exact fun e => hk e.symm
      · exact (hs.submitted k q h hq).2 x hx
  · by_cases hk : k = t.processId
    · rw [hk, ← hpid] at h
      obtain ⟨hdone, hc⟩ := hown.approved q h hq
      exact ⟨t', hset.mpr (Or.inl rfl), hpid.trans hk.symm, hdone, hc⟩
    · rw [hother k hk] at h
      obtain ⟨x, hx, hxk, hrest⟩ := hs.approved k q h hq
      exact ⟨x, hset.mpr (Or.inr ⟨hx, fun e => hk (hxk.symm.trans e)⟩), hxk, hrest⟩
  · rcases hset.mp hx with rfl | ⟨hx, hne⟩
    · exact hown.working hc hdone
    · rw [hother _ hne]
      exact hs.working x hx hc hdone
  · rcases hset.mp hx with rfl | ⟨hx, hne⟩
    · exact hown.settled hc hdone q h
    · rw [hother _ hne] at h
      exact hs.settled x hx hc hdone q h

/-- A task that neither claims nor ends stands to its process as before. -/
theorem Standing.ownProcess_same (hs : Standing s) {t t' : Delivery} (ht : t ∈ s.deliveries)
    (hpid : t'.processId = t.processId) (hr : s'.app.requests = s.app.requests)
    (hdone : t'.phase.isDone = t.phase.isDone) (hc : t'.claimed = t.claimed) :
    OwnProcess s' t' where
  key q h := by
    rw [hr] at h
    exact (hs.processKeys _ q h).1
  submitted q h hq := by
    rw [hr, hpid] at h
    exact (hs.submitted _ q h hq).2 t ht rfl
  approved q h hq := by
    rw [hr, hpid] at h
    obtain ⟨x, hx, hxk, hrest⟩ := hs.approved _ q h hq
    obtain rfl := KeyedList.eq_of_key hs.taskKeys hx ht hxk
    rw [hdone, hc]
    exact hrest
  working h h' := by
    rw [hr, hpid]
    exact hs.working t ht (hc ▸ h) (hdone ▸ h')
  settled h h' q hq := by
    rw [hr, hpid] at hq
    exact hs.settled t ht (hc ▸ h) (hdone ▸ h') q hq

theorem Standing.ownProcess (hs : Standing s) {i : ℕ} {t t' : Delivery}
    {event : DeliveryEvent X} (ht : s.deliveries[i]? = some t)
    (hpid : t'.processId = t.processId) (hm : TaskMove s.app t event s'.app t') :
    OwnProcess s' t' ∧
      ∀ k, k ≠ t.processId → s'.app.requests.get k = s.app.requests.get k := by
  have hmem : t ∈ s.deliveries := List.mem_of_getElem? ht
  have hsound := hs.sound t hmem
  cases hm with
  | progress hr hdone hc =>
      exact ⟨hs.ownProcess_same hmem hpid hr hdone hc, fun k _ => by rw [hr]⟩
  | claim p hphase hp hstate happ hc hdone =>
      have hget : ∀ k, s'.app.requests.get k = if k = t.processId then
          (s.app.requests.get k).map (fun p => { p with deliveryStarted := true })
          else s.app.requests.get k := by
        intro k
        rw [happ]
        exact RequestTable.get_modify ..
      have hself : s'.app.requests.get t'.processId =
          some { p with deliveryStarted := true } := by
        rw [hget, hpid, if_pos rfl, hp]
        rfl
      refine ⟨?_, fun k hk => by rw [hget, if_neg hk]⟩
      refine
        { key := fun q h => ?_
          submitted := fun q h hq => ?_
          approved := fun q h _ => ?_
          working := fun _ _ => ⟨_, hself, hstate, rfl⟩
          settled := fun _ h => ?_ }
      · rw [hself] at h
        cases h
        rw [hpid]
        exact (hs.processKeys _ p hp).1
      · rw [hself] at h
        cases h
        exact absurd (hstate.symm.trans hq) (by decide)
      · rw [hself] at h
        cases h
        exact ⟨hdone, hc⟩
      · rw [hdone] at h
        cases h
  | abandon hphase hnot hr hc hdone =>
      have hunclaimed : t'.claimed = false := by
        rw [hc]
        exact hsound.unclaimed (by rw [hphase]; rfl)
      refine ⟨?_, fun k _ => by rw [hr]⟩
      refine
        { key := fun q h => ?_
          submitted := fun q h hq => ?_
          approved := fun q h hq => ?_
          working := fun h => ?_
          settled := fun h => ?_ }
      · rw [hr] at h
        exact (hs.processKeys _ q h).1
      · rw [hr, hpid] at h
        exact (hs.submitted _ q h hq).2 t hmem rfl
      · rw [hr, hpid] at h
        exact absurd hq (hnot q h)
      · rw [hunclaimed] at h
        cases h
      · rw [hunclaimed] at h
        cases h
  | close state errorDetail now hevent hphase happ hc hdone =>
      have hclaimed : t.claimed = true :=
        hsound.working (by rw [hphase]; rfl) (by rw [hphase]; rfl)
      obtain ⟨p, hp, -, -⟩ := hs.working t hmem hclaimed (by rw [hphase]; rfl)
      have hget : ∀ k, s'.app.requests.get k = if k = t.processId then
          (s.app.requests.get k).map
            (fun p => { p.transition state now with errorDetail := errorDetail })
          else s.app.requests.get k := by
        intro k
        rw [happ]
        exact RequestTable.get_modify ..
      have hself : s'.app.requests.get t'.processId =
          some { p.transition state now with errorDetail := errorDetail } := by
        rw [hget, hpid, if_pos rfl, hp]
        rfl
      have hout := hsound.outcome state errorDetail hphase
      refine ⟨?_, fun k hk => by rw [hget, if_neg hk]⟩
      refine
        { key := fun q h => ?_
          submitted := fun q h hq => ?_
          approved := fun q h hq => ?_
          working := fun _ h => ?_
          settled := fun _ _ q h => ?_ }
      · rw [hself] at h
        cases h
        rw [hpid]
        exact (hs.processKeys _ p hp).1
      · rw [hself] at h
        cases h
        rcases hout with rfl | rfl <;> cases hq
      · rw [hself] at h
        cases h
        rcases hout with rfl | rfl <;> cases hq
      · rw [hdone] at h
        cases h
      · rw [hself] at h
        cases h
        exact hout

/-- **Every move preserves the agreement.** -/
theorem Standing.move (hs : Standing s) (hm : Move service s a s')
    (hfresh : ∀ u ∈ a.draws, u ∉ s.drawn) (hdrawn : s'.drawn = a.draws ++ s.drawn) :
    Standing s' := by
  cases hm with
  | quiet hh hr hd => exact hs.quiet hh hr hd hdrawn
  | accepted p holder hh hget hstate hstarted hid hins hd =>
      exact hs.inserted (hh.keyed hs.holderKeys) hid hins (fun _ => hstarted) hd hfresh hdrawn
  | recorded p hh hv hstate hid hins hd =>
      refine hs.inserted (hh ▸ hs.holderKeys) hid hins (fun h => ?_) ?_ hfresh hdrawn
      · rw [hstate] at h
        cases h
      · rw [hstate, if_neg (by decide), List.append_nil]
        exact hd
  | decided holderId status next now holder hget hpair hh hr hd =>
      refine hs.decided ?_ hh hr hd hdrawn
      rcases hpair with ⟨-, h, -⟩ | ⟨-, h, -⟩
      · exact Or.inl h
      · exact Or.inr h
  | task i t t' event ha ht hh hv hpid _ hsound hmove hd =>
      obtain ⟨hown, hother⟩ := hs.ownProcess ht hpid hmove
      exact hs.stepTask ht hpid (hsound (hs.sound t (List.mem_of_getElem? ht))) hh hd hother
        hown hdrawn
  | answered i t t' ht hpid hphase hc _ hsound happ hv hd =>
      have hmem : t ∈ s.deliveries := List.mem_of_getElem? ht
      refine hs.stepTask ht hpid (hsound (hs.sound t hmem)) (by rw [happ]) hd
        (fun k _ => by rw [happ]) ?_ hdrawn
      exact hs.ownProcess_same hmem hpid (by rw [happ]) (by rw [hphase]) hc

end Preserved

/-- **The agreement holds in every reachable state.** -/
theorem standing_of_reachable {s : IssuerSys} (h : Reachable (issuer service start) s) :
    Standing s := by
  refine h.invariant standing_start (fun s₁ a s₂ hs hstep => ?_)
  obtain ⟨-, hfresh, s₃, -, heq⟩ := issuer_step_eq_some hstep
  exact hs.move (issuer_step_move hs.holderKeys hstep) hfresh (by rw [heq])

/-- The move behind a step from a reachable state. -/
theorem move_of_reachable {s s' : IssuerSys} {a : IssuerAction X}
    (h : Reachable (issuer service start) s) (hstep : (issuer service start).step s a = some s') :
    Move service s a s' :=
  issuer_step_move (standing_of_reachable h).holderKeys hstep

/-! ## How a process may change -/

/-- The ways the state of the process stored under `k` may change in one step. -/
inductive Advance (s : IssuerSys) (a : IssuerAction X) (k : String)
    (p p' : IssuanceProcess) : Prop
  | stay : p'.state = p.state → Advance s a k p p'
  | approve : p.state = .submitted → p'.state = .approved → Advance s a k p p'
  | reject : p.state = .submitted → p'.state = .rejected → Advance s a k p p'
  | rejectQueued :
      p.state = .approved → p.deliveryStarted = false → p'.state = .rejected →
        Advance s a k p p'
  | close (i : ℕ) (t : Delivery) (now : ℕ) :
      p.state = .approved → a = .delivery i (.finish now) → s.deliveries[i]? = some t →
        t.processId = k → t.claimed = true → (p'.state = .delivered ∨ p'.state = .errored) →
          Advance s a k p p'

/-- A terminal state is never left. -/
theorem Advance.terminal {s : IssuerSys} {a : IssuerAction X} {k : String}
    {p p' : IssuanceProcess} (h : Advance s a k p p') (hp : p.state.isTerminal) :
    p'.state = p.state := by
  cases h with
  | stay h => exact h
  | approve h => rw [h] at hp; cases hp
  | reject h => rw [h] at hp; cases hp
  | rejectQueued h => rw [h] at hp; cases hp
  | close _ _ _ h => rw [h] at hp; cases hp

section

variable {s s' : IssuerSys} {a : IssuerAction X}

/-- A process found after a step was there before and advanced, or is new. -/
theorem Move.process_back (hm : Move service s a s') (hs : Standing s) {k : String}
    {p' : IssuanceProcess} (h : s'.app.requests.get k = some p') :
    (∃ p, s.app.requests.get k = some p ∧ Advance s a k p p') ∨ k ∈ a.draws := by
  cases hm with
  | quiet _ hr => exact Or.inl ⟨p', hr ▸ h, .stay rfl⟩
  | accepted p _ _ _ _ _ hid hins =>
      rcases get_after_insert hins h with ⟨rfl, -⟩ | ⟨-, h⟩
      · exact Or.inr hid
      · exact Or.inl ⟨p', h, .stay rfl⟩
  | recorded p _ _ _ hid hins =>
      rcases get_after_insert hins h with ⟨rfl, -⟩ | ⟨-, h⟩
      · exact Or.inr hid
      · exact Or.inl ⟨p', h, .stay rfl⟩
  | decided holderId status next now holder _ hpair _ hr =>
      left
      obtain ⟨p, hp, ⟨hdec, rfl⟩ | ⟨-, rfl⟩⟩ := get_decided hr h
      · refine ⟨p, hp, ?_⟩
        obtain ⟨-, hsub | ⟨hrej, happ, hst⟩⟩ := isDecided_iff.mp hdec
        · rcases hpair with ⟨-, rfl, -⟩ | ⟨-, rfl, -⟩
          · exact .approve hsub rfl
          · exact .reject hsub rfl
        · exact .rejectQueued happ hst hrej
      · exact ⟨_, hp, .stay rfl⟩
  | task i t t' event ha ht _ _ hpid _ _ hmove _ =>
      left
      have hmem : t ∈ s.deliveries := List.mem_of_getElem? ht
      cases hmove with
      | progress hr => exact ⟨p', hr ▸ h, .stay rfl⟩
      | abandon _ _ hr => exact ⟨p', hr ▸ h, .stay rfl⟩
      | claim p _ _ _ happ =>
          rw [happ] at h
          change (s.app.requests.modify _ _).get k = some p' at h
          rw [RequestTable.get_modify] at h
          split at h
          · obtain ⟨q, hq, rfl⟩ := Option.map_eq_some_iff.mp h
            exact ⟨q, hq, .stay rfl⟩
          · exact ⟨p', h, .stay rfl⟩
      | close state errorDetail now hevent hphase happ =>
          rw [happ] at h
          change (s.app.requests.modify _ _).get k = some p' at h
          rw [RequestTable.get_modify] at h
          split at h
          · rename_i hk
            obtain ⟨q, hq, rfl⟩ := Option.map_eq_some_iff.mp h
            have hsound := hs.sound t hmem
            have hclaimed : t.claimed = true :=
              hsound.working (by rw [hphase]; rfl) (by rw [hphase]; rfl)
            obtain ⟨p, hp, hstate, -⟩ := hs.working t hmem hclaimed (by rw [hphase]; rfl)
            obtain rfl : q = p := Option.some_inj.mp (hq.symm.trans (hk ▸ hp))
            refine ⟨q, hq, .close i t now hstate ?_ ht hk.symm hclaimed
              (hsound.outcome state errorDetail hphase)⟩
            rw [ha, hevent]
          · exact ⟨p', h, .stay rfl⟩
  | answered i t t' _ _ _ _ _ _ happ => exact Or.inl ⟨p', happ ▸ h, .stay rfl⟩

/-- A stored process stays stored, unless it has ended. -/
theorem Move.process_kept (hm : Move service s a s') (hs : Standing s)
    (hfresh : ∀ u ∈ a.draws, u ∉ s.drawn) {k : String} {p : IssuanceProcess}
    (h : s.app.requests.get k = some p) :
    (∃ p', s'.app.requests.get k = some p') ∨
      s'.app.requests.get k = none ∧ p.state.isTerminal := by
  have inserted : ∀ {q : IssuanceProcess}, q.id ∈ a.draws →
      s.app.requests.insert q.id q = .ok s'.app.requests →
        (∃ p', s'.app.requests.get k = some p') ∨
          s'.app.requests.get k = none ∧ p.state.isTerminal := by
    intro q hid hins
    have hk : k ≠ q.id := by
      rintro rfl
      exact hfresh _ hid (hs.processKeys _ p h).2
    rcases (RequestTable.insert_eq_ok hins).2 k hk with hsame | ⟨hgone, hend⟩
    · exact Or.inl ⟨p, hsame.trans h⟩
    · exact Or.inr ⟨hgone, hend p h⟩
  cases hm with
  | quiet _ hr => exact Or.inl ⟨p, hr ▸ h⟩
  | accepted q _ _ _ _ _ hid hins => exact inserted hid hins
  | recorded q _ _ _ hid hins => exact inserted hid hins
  | decided _ _ _ _ _ _ _ _ hr =>
      left
      rw [hr, RequestTable.get_mapRecords, h]
      exact ⟨_, rfl⟩
  | task i t t' event _ _ _ _ _ _ _ hmove _ =>
      left
      cases hmove with
      | progress hr => exact ⟨p, hr ▸ h⟩
      | abandon _ _ hr => exact ⟨p, hr ▸ h⟩
      | claim _ _ _ _ happ =>
          rw [happ]
          change ∃ p', (s.app.requests.modify _ _).get k = some p'
          rw [RequestTable.get_modify, h]
          split <;> exact ⟨_, rfl⟩
      | close _ _ _ _ _ happ =>
          rw [happ]
          change ∃ p', (s.app.requests.modify _ _).get k = some p'
          rw [RequestTable.get_modify, h]
          split <;> exact ⟨_, rfl⟩
  | answered _ _ _ _ _ _ _ _ _ happ => exact Or.inl ⟨p, happ ▸ h⟩

/-- A task found past the end of the pool is a new one, of a process that is now
APPROVED and that is new or was SUBMITTED. -/
theorem Move.delivery_new (hm : Move service s a s') (hs : Standing s) {j : ℕ} {t' : Delivery}
    (hold : s.deliveries[j]? = none) (h : s'.deliveries[j]? = some t') :
    ∃ k, t' = Delivery.new k ∧ (∀ p', s'.app.requests.get k = some p' → p'.state = .approved) ∧
      (k ∈ a.draws ∨ ∃ p, s.app.requests.get k = some p ∧ p.state = .submitted) := by
  have hlen : s.deliveries.length ≤ j := List.getElem?_eq_none_iff.mp hold
  have appended : ∀ {new : List Delivery}, s'.deliveries = s.deliveries ++ new → t' ∈ new := by
    intro new hd
    rw [hd, List.getElem?_append_right hlen] at h
    exact List.mem_of_getElem? h
  have kept : s'.deliveries.length ≠ s.deliveries.length := by
    intro hd
    have := (List.getElem?_eq_some_iff.mp h).1
    omega
  cases hm with
  | quiet _ _ hd => exact absurd (by rw [hd]) kept
  | recorded _ _ _ _ _ _ hd => exact absurd (by rw [hd]) kept
  | task _ _ _ _ _ _ _ _ _ _ _ _ hd => exact absurd (by rw [hd, List.length_set]) kept
  | answered _ _ _ _ _ _ _ _ _ _ _ hd => exact absurd (by rw [hd, List.length_set]) kept
  | accepted p _ _ _ _ _ hid hins hd =>
      have ht' := appended hd
      split at ht'
      · rename_i hstate
        refine ⟨p.id, List.mem_singleton.mp ht', fun p' hp' => ?_, Or.inl hid⟩
        rw [(RequestTable.insert_eq_ok hins).1] at hp'
        cases hp'
        exact hstate
      · cases ht'
  | decided _ _ _ _ _ _ _ _ hr hd =>
      obtain ⟨rfl, k, p, hp, hdec, rfl⟩ := (mem_approvedTasks hs).mp (appended hd)
      obtain ⟨-, hsub | ⟨hrej, -⟩⟩ := isDecided_iff.mp hdec
      · refine ⟨k, rfl, fun p' hp' => ?_, Or.inr ⟨p, hp, hsub⟩⟩
        rw [hr, RequestTable.get_mapRecords, hp, Option.map_some, if_pos hdec] at hp'
        cases hp'
        rfl
      · cases hrej

/-- A task found claimed after a step was claimed before, or claimed an
APPROVED process in this step. -/
theorem Move.claimed_back (hm : Move service s a s') (hs : Standing s) {t' : Delivery}
    (ht' : t' ∈ s'.deliveries) (hc : t'.claimed = true) :
    (∃ t ∈ s.deliveries, t.processId = t'.processId ∧ t.claimed = true) ∨
      ∃ p, s.app.requests.get t'.processId = some p ∧ p.state = .approved ∧
        p.deliveryStarted = false := by
  cases hm with
  | quiet _ _ hd => exact Or.inl ⟨t', hd ▸ ht', rfl, hc⟩
  | accepted p _ _ _ _ _ _ _ hd =>
      rw [hd, List.mem_append] at ht'
      rcases ht' with ht' | ht'
      · exact Or.inl ⟨t', ht', rfl, hc⟩
      · split at ht'
        · obtain rfl := List.mem_singleton.mp ht'
          cases hc
        · exact absurd ht' List.not_mem_nil
  | recorded _ _ _ _ _ _ hd => exact Or.inl ⟨t', hd ▸ ht', rfl, hc⟩
  | decided _ _ _ _ _ _ _ _ _ hd =>
      rw [hd, List.mem_append, mem_approvedTasks hs] at ht'
      rcases ht' with ht' | ⟨-, k, p, -, -, rfl⟩
      · exact Or.inl ⟨t', ht', rfl, hc⟩
      · cases hc
  | task i t x event _ ht _ _ hpid _ _ hmove hd =>
      have hmem : t ∈ s.deliveries := List.mem_of_getElem? ht
      rw [hd, KeyedList.mem_set hs.taskKeys ht hpid] at ht'
      rcases ht' with rfl | ⟨ht', -⟩
      · cases hmove with
        | progress _ _ hsame => exact Or.inl ⟨t, hmem, hpid.symm, hsame ▸ hc⟩
        | abandon _ _ _ hsame => exact Or.inl ⟨t, hmem, hpid.symm, hsame ▸ hc⟩
        | close _ _ _ _ _ _ hsame => exact Or.inl ⟨t, hmem, hpid.symm, hsame ▸ hc⟩
        | claim p hphase hp hstate =>
            refine Or.inr ⟨p, hpid ▸ hp, hstate, ?_⟩
            obtain ⟨x, hx, hxk, -, hxc⟩ := hs.approved _ p hp hstate
            obtain rfl := KeyedList.eq_of_key hs.taskKeys hx hmem hxk
            rw [← hxc]
            exact (hs.sound x hx).unclaimed (by rw [hphase]; rfl)
      · exact Or.inl ⟨t', ht', rfl, hc⟩
  | answered i t x ht hpid _ hsame _ _ _ _ hd =>
      rw [hd, KeyedList.mem_set hs.taskKeys ht hpid] at ht'
      rcases ht' with rfl | ⟨ht', -⟩
      · exact Or.inl ⟨t, List.mem_of_getElem? ht, hpid.symm, hsame ▸ hc⟩
      · exact Or.inl ⟨t', ht', rfl, hc⟩

end

/-! ## Along a run -/

section

variable {s s' : IssuerSys}

/-- A state that has ended is kept for as long as the process is stored. -/
theorem terminal_kept (h : Reachable (issuer service start) s)
    (hss : Steps (issuer service start) anyStep s s') {k : String} {p : IssuanceProcess}
    (hp : s.app.requests.get k = some p) (hend : p.state.isTerminal) :
    k ∈ s'.drawn ∧ ∀ p', s'.app.requests.get k = some p' → p'.state = p.state := by
  refine hss.mono (R := fun _ s₁ => k ∈ s₁.drawn ∧
    ∀ p', s₁.app.requests.get k = some p' → p'.state = p.state) h ?_ ?_
  · refine ⟨((standing_of_reachable h).processKeys k p hp).2, fun p' hp' => ?_⟩
    rw [hp] at hp'
    cases hp'
    rfl
  · rintro s₁ a s₂ hr - hstep ⟨hk, hsame⟩
    obtain ⟨-, hfresh, s₃, -, rfl⟩ := issuer_step_eq_some hstep
    refine ⟨List.mem_append_right _ hk, fun p' hp' => ?_⟩
    rcases (move_of_reachable hr hstep).process_back (standing_of_reachable hr) hp' with
      ⟨q, hq, hadv⟩ | hnew
    · rw [hadv.terminal (by rw [hsame q hq]; exact hend), hsame q hq]
    · exact absurd hk (hfresh k hnew)

/-- The task of a rejected process never claims it, then or later. -/
theorem rejected_never_claimed (h : Reachable (issuer service start) s)
    (hss : Steps (issuer service start) anyStep s s') {k : String} {p : IssuanceProcess}
    (hp : s.app.requests.get k = some p) (hrej : p.state = .rejected) :
    ∀ t ∈ s'.deliveries, t.processId = k → t.claimed = false := by
  have hend : p.state.isTerminal := by rw [hrej]; rfl
  have hlater : Steps (issuer service start) anyStep s s' ∧
      ∀ t ∈ s'.deliveries, t.processId = k → t.claimed = false := by
    refine hss.mono (R := fun s s₁ => Steps (issuer service start) anyStep s s₁ ∧
      ∀ t ∈ s₁.deliveries, t.processId = k → t.claimed = false) h ⟨.refl, ?_⟩ ?_
    · rintro t ht rfl
      have hs := standing_of_reachable h
      by_contra hc
      rw [Bool.not_eq_false] at hc
      cases hdone : t.phase.isDone with
      | false =>
          obtain ⟨q, hq, hstate, -⟩ := hs.working t ht hc hdone
          rw [hp] at hq
          cases hq
          rw [hrej] at hstate
          cases hstate
      | true =>
          rcases hs.settled t ht hc hdone p hp with hq | hq <;> rw [hrej] at hq <;> cases hq
    · rintro s₁ a s₂ hr - hstep ⟨hsteps, hbefore⟩
      refine ⟨hsteps.tail a trivial hstep, fun t' ht' hk => ?_⟩
      by_contra hc
      rw [Bool.not_eq_false] at hc
      rcases (move_of_reachable hr hstep).claimed_back (standing_of_reachable hr) ht' hc with
        ⟨t, ht, htk, htc⟩ | ⟨q, hq, hstate, -⟩
      · rw [hbefore t ht (htk.trans hk)] at htc
        cases htc
      · rw [hk] at hq
        have hq' := (terminal_kept h hsteps hp hend).2 q hq
        rw [hstate, hrej] at hq'
        cases hq'
  exact hlater.2

/-- `t'` is `t` later on: the same task, its claim and its posts still on
record. -/
structure Delivery.Later (t t' : Delivery) : Prop where
  processId : t'.processId = t.processId
  claimed : t.claimed = true → t'.claimed = true
  posts : t.posts.length ≤ t'.posts.length

theorem Delivery.Later.refl (t : Delivery) : t.Later t := ⟨rfl, id, le_rfl⟩

theorem Delivery.Later.trans {t₁ t₂ t₃ : Delivery} (h : t₁.Later t₂) (h' : t₂.Later t₃) :
    t₁.Later t₃ :=
  ⟨h'.processId.trans h.processId, fun hc => h'.claimed (h.claimed hc), h.posts.trans h'.posts⟩

/-- A task keeps its place, its process, its claim and its posts. -/
theorem task_history (h : Reachable (issuer service start) s)
    (hss : Steps (issuer service start) anyStep s s') {i : ℕ} {t : Delivery}
    (ht : s.deliveries[i]? = some t) : ∃ t', s'.deliveries[i]? = some t' ∧ t.Later t' := by
  refine hss.mono (R := fun _ s₁ => ∃ t', s₁.deliveries[i]? = some t' ∧ t.Later t') h
    ⟨t, ht, .refl t⟩ ?_
  rintro s₁ a s₂ hr - hstep ⟨t₁, ht₁, hlater⟩
  have appended : ∀ {new : List Delivery}, s₂.deliveries = s₁.deliveries ++ new →
      s₂.deliveries[i]? = some t₁ := by
    intro new hd
    rw [hd, List.getElem?_append_left (List.getElem?_eq_some_iff.mp ht₁).1]
    exact ht₁
  have replaced : ∀ {j : ℕ} {x x' : Delivery}, s₁.deliveries[j]? = some x →
      s₂.deliveries = s₁.deliveries.set j x' → x.Later x' →
        ∃ t', s₂.deliveries[i]? = some t' ∧ t.Later t' := by
    intro j x x' hx hd hxx
    by_cases hij : j = i
    · subst hij
      rw [ht₁] at hx
      cases hx
      refine ⟨x', ?_, hlater.trans hxx⟩
      rw [hd, List.getElem?_set_self (List.getElem?_eq_some_iff.mp ht₁).1]
    · refine ⟨t₁, ?_, hlater⟩
      rw [hd, List.getElem?_set_ne hij]
      exact ht₁
  cases move_of_reachable hr hstep with
  | quiet _ _ hd => exact ⟨t₁, hd ▸ ht₁, hlater⟩
  | accepted _ _ _ _ _ _ _ _ hd => exact ⟨t₁, appended hd, hlater⟩
  | recorded _ _ _ _ _ _ hd => exact ⟨t₁, hd ▸ ht₁, hlater⟩
  | decided _ _ _ _ _ _ _ _ _ hd => exact ⟨t₁, appended hd, hlater⟩
  | task j x x' event _ hx _ _ hpid hposts _ hmove hd =>
      refine replaced hx hd ⟨hpid, fun h => ?_, hposts⟩
      cases hmove with
      | progress _ _ hsame => exact hsame.trans h
      | claim _ _ _ _ _ hclaimed => exact hclaimed
      | abandon _ _ _ hsame => exact hsame.trans h
      | close _ _ _ _ _ _ hsame => exact hsame.trans h
  | answered j x x' hx hpid _ hsame hposts _ _ _ hd =>
      exact replaced hx hd ⟨hpid, fun h => hsame.trans h, hposts.ge⟩

/-- The posts of a process, over all its tasks. -/
def postsOf (s : IssuerSys) (processId : String) : List StorageCall :=
  (s.deliveries.filter (fun t => t.processId = processId)).flatMap (·.posts)

theorem length_postsOf_le_one (hs : Standing s) (k : String) : (postsOf s k).length ≤ 1 := by
  have hcount : (s.deliveries.filter (fun t => t.processId = k)).length ≤ 1 := by
    rw [← List.countP_eq_length_filter]
    simpa using KeyedList.countP_key_le_one hs.taskKeys k (fun _ => true)
  unfold postsOf
  cases hf : s.deliveries.filter (fun t => t.processId = k) with
  | nil => exact Nat.zero_le 1
  | cons t rest =>
      rw [hf, List.length_cons] at hcount
      obtain rfl : rest = [] := List.length_eq_zero_iff.mp (by omega)
      have ht : t ∈ s.deliveries := (List.mem_filter.mp (hf ▸ List.mem_cons_self)).1
      rw [List.flatMap_cons, List.flatMap_nil, List.append_nil]
      exact (hs.sound t ht).onePost

end

/-- **The life of a process, and its single delivery.** In every reachable
state: a step advances a stored process only along `Advance` or drops it once
it has ended; an ended process never changes again; an APPROVED process has
exactly one task that has not ended; tasks stay on record with their claim and
their posts, at most one task has ever claimed a process and at most one post
was ever made for it; and from the moment a process is REJECTED no post is ever
made for it, none before and none after. -/
theorem process_lifecycle {s : IssuerSys} (h : Reachable (issuer service start) s) :
    (∀ a s' k p, (issuer service start).step s a = some s' → s.app.requests.get k = some p →
      (∃ p', s'.app.requests.get k = some p' ∧ Advance s a k p p') ∨
        s'.app.requests.get k = none ∧ p.state.isTerminal) ∧
    (∀ s' k p, Steps (issuer service start) anyStep s s' → s.app.requests.get k = some p →
      p.state.isTerminal → ∀ p', s'.app.requests.get k = some p' → p'.state = p.state) ∧
    (∀ k p, s.app.requests.get k = some p → p.state = .approved →
      s.deliveries.countP
        (fun t => Decidable.decide (t.processId = k) && !t.phase.isDone) = 1) ∧
    (∀ (s' : IssuerSys) (i : ℕ) (t : Delivery), Steps (issuer service start) anyStep s s' →
      s.deliveries[i]? = some t → ∃ t', s'.deliveries[i]? = some t' ∧ t.Later t') ∧
    (∀ k, s.deliveries.countP
      (fun t => Decidable.decide (t.processId = k) && t.claimed) ≤ 1) ∧
    (∀ k, (postsOf s k).length ≤ 1) ∧
    (∀ s' k p, Steps (issuer service start) anyStep s s' → s.app.requests.get k = some p →
      p.state = .rejected → postsOf s' k = []) := by
  have hs := standing_of_reachable h
  refine ⟨?_, ?_, ?_, ?_, ?_, ?_, ?_⟩
  · intro a s' k p hstep hp
    have hm := move_of_reachable h hstep
    obtain ⟨-, hfresh, -⟩ := issuer_step_eq_some hstep
    rcases hm.process_kept hs hfresh hp with ⟨p', hp'⟩ | hgone
    · left
      rcases hm.process_back hs hp' with ⟨q, hq, hadv⟩ | hnew
      · rw [hp] at hq
        cases hq
        exact ⟨p', hp', hadv⟩
      · exact absurd (hs.processKeys k p hp).2 (hfresh k hnew)
    · exact Or.inr hgone
  · intro s' k p hss hp hend
    exact (terminal_kept h hss hp hend).2
  · intro k p hp hstate
    obtain ⟨t, ht, hk, hdone, -⟩ := hs.approved k p hp hstate
    exact KeyedList.countP_key_eq_one hs.taskKeys ht hk (by rw [hdone]; rfl)
  · exact fun s' i t hss ht => task_history h hss ht
  · exact fun k => KeyedList.countP_key_le_one hs.taskKeys k _
  · exact fun k => length_postsOf_le_one hs k
  · intro s' k p hss hp hrej
    have hs' := standing_of_reachable (h.trans hss)
    unfold postsOf
    rw [List.flatMap_eq_nil_iff]
    intro t ht
    obtain ⟨ht, hk⟩ := List.mem_filter.mp ht
    exact (hs'.sound t ht).posts_of_unclaimed
      (rejected_never_claimed h hss hp hrej t ht (of_decide_eq_true hk))

/-- Two requests approved together: one is delivered, the other rejected while
its task is queued. -/
def deliverOneRejectOne : List (IssuerAction reference) :=
  [sampleRequest "p1" "acme" 10, sampleRequest "p2" "unused" 11, .approveHolder "acme" 12] ++
    (sampleDelivery 0 "c1" "j1" 13 ++
      [.delivery 1 .spawn, .rejectHolder "acme" 14, .delivery 1 .acquire, .delivery 1 .claim])

set_option maxRecDepth 4000 in
/-- The theorem at the end of that schedule. -/
theorem process_lifecycle_sample :
    ∃ s, Reachable (issuer (sampleIssuer .manual) 0) s ∧
      (s.app.requests.get "p2").map (·.state) = some .delivered ∧
        (s.app.requests.get "p1").map (·.state) = some .rejected ∧
          (postsOf s "p2").length = 1 ∧
            ∀ s', Steps (issuer (sampleIssuer .manual) 0) anyStep s s' →
              (postsOf s' "p2").length ≤ 1 ∧ postsOf s' "p1" = [] := by
  obtain ⟨s, hr, hp⟩ := StepSystem.exists_reachable_of_run
    (M := issuer (sampleIssuer .manual) 0) deliverOneRejectOne
    (p := fun s => (s.app.requests.get "p2").map (·.state) = some .delivered ∧
      (s.app.requests.get "p1").map (·.state) = some .rejected ∧ (postsOf s "p2").length = 1)
    (by decide +kernel)
  obtain ⟨hp₁, hp₂, hpost⟩ := of_decide_eq_true hp
  refine ⟨s, hr, hp₁, hp₂, hpost, fun s' hss => ⟨?_, ?_⟩⟩
  · exact (process_lifecycle (hr.trans hss)).2.2.2.2.2.1 "p2"
  · obtain ⟨p, hp, hstate⟩ := Option.map_eq_some_iff.mp hp₂
    exact (process_lifecycle hr).2.2.2.2.2.2 s' "p1" p hss hp hstate

end IdentityHub
