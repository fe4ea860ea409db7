import IdentityHub.Issuer.HandedOut
import IdentityHub.Issuer.RejectedRedemptions

/-!
# Processes and their records

A delivery mints, posts, records and closes its process in four separate
sections. `Tallied` says how many records a process has in between: those of all
its definitions once its task has recorded, none before, and none if the task
fails. It says so without looking at the operator's decisions, which never move
a process that a task has claimed.
-/

namespace IdentityHub

open StepSystem (Reachable Steps anyStep)

variable {X : External} {service : IssuerService X} {start : ℕ}

/-- The definitions of the records that name a process, in the list's order. -/
def recordedDefinitions (s : IssuerSys) (processId : String) : List String :=
  (s.app.issued.all.filter (fun r => r.issuanceProcessId = processId)).map
    (·.credentialDefinitionId)

/-- The definitions a task has recorded for its process. -/
def Delivery.tally (t : Delivery) (p : IssuanceProcess) : List String :=
  match t.phase with
  | .finishing .delivered _ => p.credentialDefinitions
  | .done => if p.state = .delivered then p.credentialDefinitions else []
  | _ => []

theorem Delivery.tally_congr {t t' : Delivery} {p p' : IssuanceProcess}
    (hphase : t'.phase = t.phase) (hids : p'.credentialDefinitions = p.credentialDefinitions)
    (hstate : t.phase.isDone → (p'.state = .delivered ↔ p.state = .delivered)) :
    t'.tally p' = t.tally p := by
  unfold Delivery.tally
  rw [hphase]
  cases hp : t.phase with
  | done =>
      rw [hp] at hstate
      simp only [hstate rfl, hids]
  | finishing state errorDetail => cases state <;> simp only [hids]
  | _ => rfl

/-! ## What a step records for a process -/

section

variable {s s' : IssuerSys} {a : IssuerAction X}

/-- The process of a task that has been answered, and the records it made. -/
theorem answered_for (h : Reachable (issuer service start) s) {t : Delivery}
    (ht : t ∈ s.deliveries) {records : List IssuedCredential}
    (hphase : t.phase = .answered records) :
    ∃ p, s.app.requests.get t.processId = some p ∧ p.state = .approved ∧
      p.id = t.processId ∧ RecordsFor records p := by
  have hs := standing_of_reachable h
  have hclaimed : t.claimed = true :=
    (hs.sound t ht).working (by rw [hphase]; rfl) (by rw [hphase]; rfl)
  obtain ⟨p, hp, hstate, -⟩ := hs.working t ht hclaimed (by rw [hphase]; rfl)
  have hfor := copies_of_reachable h t ht p hp
  rw [hphase] at hfor
  exact ⟨p, hp, hstate, (hs.processKeys _ p hp).1, hfor⟩

theorem revokedIn_fields (id : String) (r : IssuedCredential) :
    (IssuedCredentials.revokedIn id r).issuanceProcessId = r.issuanceProcessId ∧
      (IssuedCredentials.revokedIn id r).credentialDefinitionId = r.credentialDefinitionId := by
  unfold IssuedCredentials.revokedIn
  split <;> exact ⟨rfl, rfl⟩

/-- Appending the records of one process. -/
theorem recordedDefinitions_append {processId : String} {records : List IssuedCredential}
    (hall : s'.app.issued.all = s.app.issued.all ++ records)
    (hproc : ∀ r ∈ records, r.issuanceProcessId = processId) (k : String) :
    recordedDefinitions s' k = recordedDefinitions s k ++
      if processId = k then records.map (·.credentialDefinitionId) else [] := by
  unfold recordedDefinitions
  rw [hall, List.filter_append, List.map_append]
  split
  · rename_i hk
    rw [List.filter_eq_self.mpr (fun r hr => decide_eq_true ((hproc r hr).trans hk))]
  · rename_i hk
    rw [List.filter_eq_nil_iff.mpr
      (fun r hr hr' => hk ((hproc r hr).symm.trans (of_decide_eq_true hr')) :
        ∀ r ∈ records, ¬ decide (r.issuanceProcessId = k) = true), List.map_nil]

/-- A step records nothing for a process, unless its delivery records its
answer or it is the process of a redemption. -/
theorem recorded_step (h : Reachable (issuer service start) s)
    (hstep : (issuer service start).step s a = some s') (k : String) :
    recordedDefinitions s' k = recordedDefinitions s k ∨
      (∃ i t, a = .delivery i .record ∧ s.deliveries[i]? = some t ∧ t.processId = k) ∨
        ∃ job holderId index, RedemptionPhase.recording job holderId index k ∈ s.redemptions := by
  cases list_move h hstep with
  | same hall =>
      left
      unfold recordedDefinitions
      rw [hall]
  | revoked id hall =>
      left
      unfold recordedDefinitions
      rw [hall, List.filter_map, List.map_map]
      have hproc : ((fun r : IssuedCredential => decide (r.issuanceProcessId = k)) ∘
          IssuedCredentials.revokedIn id) = fun r => decide (r.issuanceProcessId = k) :=
        funext fun r => by rw [Function.comp_apply, (revokedIn_fields id r).1]
      have hdef : ((·.credentialDefinitionId) ∘ IssuedCredentials.revokedIn id) =
          fun r : IssuedCredential => r.credentialDefinitionId :=
        funext fun r => (revokedIn_fields id r).2
      rw [hproc, hdef]
  | delivered i t records ha ht hphase hall =>
      obtain ⟨p, -, -, hid, hfor⟩ := answered_for h (List.mem_of_getElem? ht) hphase
      have happend := recordedDefinitions_append hall
        (fun r hr => (hfor.each r hr).processId.trans hid) k
      by_cases hk : t.processId = k
      · rw [if_pos hk] at happend
        exact Or.inr (Or.inl ⟨i, t, ha, ht, hk⟩)
      · rw [if_neg hk, List.append_nil] at happend
        exact Or.inl happend
  | redeemed i job holderId processId index now uuid ha hred hphases hall =>
      have hproc : ∀ r ∈ [redemptionRecord job holderId processId index (mintCredential service
          job.definition job.holderDid (some index) now uuid)], r.issuanceProcessId = processId := by
        intro r hr
        rw [List.mem_singleton.mp hr]
        rfl
      have happend := recordedDefinitions_append hall hproc k
      by_cases hk : processId = k
      · rw [hk] at hred
        exact Or.inr (Or.inr ⟨job, holderId, index, List.mem_of_getElem? hred⟩)
      · rw [if_neg hk, List.append_nil] at happend
        exact Or.inl happend

/-- The section that records an answered delivery. -/
theorem record_step (h : Reachable (issuer service start) s) {i : ℕ} {t : Delivery}
    {records : List IssuedCredential}
    (hstep : (issuer service start).step s (.delivery i .record) = some s')
    (ht : s.deliveries[i]? = some t) (hphase : t.phase = .answered records) :
    s'.deliveries = s.deliveries.set i { t with phase := .finishing .delivered none } ∧
      s'.app.requests = s.app.requests ∧ s'.app.issued.all = s.app.issued.all ++ records := by
  obtain ⟨-, -, s₁, hp, rfl⟩ := issuer_step_eq_some hstep
  obtain ⟨t₁, ht₁, hp⟩ := Option.bind_eq_some_iff.mp hp
  obtain ⟨⟨app, t'⟩, hout, rfl⟩ := Option.map_eq_some_iff.mp hp
  rw [ht] at ht₁
  cases ht₁
  simp only [deliveryStep, hphase, Option.some.injEq, Prod.mk.injEq] at hout
  obtain ⟨rfl, rfl⟩ := hout
  exact ⟨rfl, rfl, (IssuedCredentials.all_foldl_insert (listed_of_reachable h)
    ((accounts_of_reachable h).answered_nodup ht hphase)).2⟩

end

/-- A redemption gets to its record by inserting a new DELIVERED process. -/
theorem redemptionStep_recording {app app' : AppState} {r : RedemptionPhase}
    {event : RedemptionEvent} {job : RedemptionJob} {holderId k : String} {index : ℕ}
    (h : redemptionStep service app r event = some (app', .recording job holderId index k)) :
    event.draws = [k] ∧
      app.requests.insert k (redemptionProcess job holderId k) = .ok app'.requests := by
  cases event with
  | insert processId =>
      simp only [redemptionStep] at h
      split at h
      · split at h
        · cases h
        · rename_i requests hins
          cases h
          exact ⟨rfl, hins⟩
      · cases h
  | _ =>
      simp only [redemptionStep] at h
      repeat' split at h
      all_goals cases h

/-! ## The invariant -/

structure Tallied (s : IssuerSys) : Prop where
  known : ∀ r ∈ s.app.issued.all, r.issuanceProcessId ∈ s.drawn
  redeeming : ∀ job holderId index k, RedemptionPhase.recording job holderId index k ∈ s.redemptions →
    k ∈ s.drawn ∧ (∀ t ∈ s.deliveries, t.processId ≠ k) ∧
      ∀ p, s.app.requests.get k = some p → p.state = .delivered
  unclaimed : ∀ t ∈ s.deliveries, t.claimed = false →
    ∀ p, s.app.requests.get t.processId = some p → p.state ≠ .delivered
  tally : ∀ t ∈ s.deliveries, ∀ p, s.app.requests.get t.processId = some p →
    recordedDefinitions s t.processId = t.tally p
  untasked : ∀ k p, s.app.requests.get k = some p → p.state ≠ .delivered →
    (∀ t ∈ s.deliveries, t.processId ≠ k) → recordedDefinitions s k = []

theorem recordedDefinitions_eq_nil {s : IssuerSys} {k : String}
    (h : ∀ r ∈ s.app.issued.all, r.issuanceProcessId ≠ k) : recordedDefinitions s k = [] := by
  unfold recordedDefinitions
  rw [List.filter_eq_nil_iff.mpr, List.map_nil]
  exact fun r hr hk => h r hr (of_decide_eq_true hk)

theorem Tallied.unknown {s : IssuerSys} (hs : Tallied s) {k : String} (hk : k ∉ s.drawn) :
    recordedDefinitions s k = [] :=
  recordedDefinitions_eq_nil (fun r hr e => hk (e ▸ hs.known r hr))

theorem tallied_start : Tallied (IssuerSys.start start) where
  known r hr := absurd hr List.not_mem_nil
  redeeming _ _ _ _ h := absurd h List.not_mem_nil
  unclaimed t ht := absurd ht List.not_mem_nil
  tally t ht := absurd ht List.not_mem_nil
  untasked k p h := by
    rw [show (IssuerSys.start start).app.requests = .new maxTrackedRequests from rfl,
      RequestTable.get_new] at h
    cases h

section

variable {s s' : IssuerSys} {a : IssuerAction X}

/-- A step becomes DELIVERED by the close of the process's own claimed task. -/
theorem Advance.delivered {k : String} {p p' : IssuanceProcess} (h : Advance s a k p p')
    (hp' : p'.state = .delivered) :
    p.state = .delivered ∨
      ∃ t ∈ s.deliveries, t.processId = k ∧ t.claimed = true ∧ p.state = .approved := by
  cases h with
  | stay hstate => exact Or.inl (hstate ▸ hp')
  | approve _ hstate => rw [hstate] at hp'; cases hp'
  | reject _ hstate => rw [hstate] at hp'; cases hp'
  | rejectQueued _ _ hstate => rw [hstate] at hp'; cases hp'
  | close i t now hstate _ ht hk hclaimed _ =>
      exact Or.inr ⟨t, List.mem_of_getElem? ht, hk, hclaimed, hstate⟩

variable (h : Reachable (issuer service start) s)
  (hstep : (issuer service start).step s a = some s')

include h hstep

/-- Where a stored process comes from, with what may have become of it. -/
theorem process_origin {k : String} {p' : IssuanceProcess}
    (hp' : s'.app.requests.get k = some p') :
    (∃ p, s.app.requests.get k = some p ∧ p.Edited p' ∧ Advance s a k p p') ∨ k ∈ a.draws := by
  rcases (requests_move h hstep).origin hp' with ⟨p, hp, hedit⟩ | ⟨-, hdraw, -⟩
  · rcases (move_of_reachable h hstep).process_back (standing_of_reachable h) hp' with
      ⟨q, hq, hadv⟩ | hdraw
    · rw [hp] at hq
      cases hq
      exact Or.inl ⟨p, hp, hedit, hadv⟩
    · exact Or.inr hdraw
  · exact Or.inr hdraw

/-- The process of a task is no new one. -/
theorem process_of_task' {t : Delivery} (ht : t ∈ s.deliveries) {p' : IssuanceProcess}
    (hp' : s'.app.requests.get t.processId = some p') :
    ∃ p, s.app.requests.get t.processId = some p ∧ p.Edited p' ∧
      Advance s a t.processId p p' := by
  rcases process_origin h hstep hp' with hold | hdraw
  · exact hold
  · obtain ⟨-, hfresh, -⟩ := issuer_step_eq_some hstep
    exact absurd ((standing_of_reachable h).taskDrawn t ht) (hfresh _ hdraw)

theorem Tallied.known_step (hs : Tallied s) :
    ∀ r ∈ s'.app.issued.all, r.issuanceProcessId ∈ s'.drawn := by
  have hdrawn : ∀ u ∈ s.drawn, u ∈ s'.drawn := by
    obtain ⟨-, -, s₁, -, rfl⟩ := issuer_step_eq_some hstep
    exact fun u hu => List.mem_append_right _ hu
  intro r hr
  cases list_move h hstep with
  | same hall => exact hdrawn _ (hs.known r (hall ▸ hr))
  | revoked id hall =>
      rw [hall] at hr
      obtain ⟨old, hold, rfl⟩ := List.mem_map.mp hr
      rw [(revokedIn_fields id old).1]
      exact hdrawn _ (hs.known old hold)
  | delivered i t records ha ht hphase hall =>
      rw [hall] at hr
      rcases List.mem_append.mp hr with hold | hnew
      · exact hdrawn _ (hs.known r hold)
      · have hmem := List.mem_of_getElem? ht
        obtain ⟨p, -, -, hid, hfor⟩ := answered_for h hmem hphase
        rw [(hfor.each r hnew).processId, hid]
        exact hdrawn _ ((standing_of_reachable h).taskDrawn t hmem)
  | redeemed i job holderId processId index now uuid ha hred hphases hall =>
      rw [hall] at hr
      rcases List.mem_append.mp hr with hold | hnew
      · exact hdrawn _ (hs.known r hold)
      · rw [List.mem_singleton.mp hnew]
        exact hdrawn _ (hs.redeeming job holderId index processId (List.mem_of_getElem? hred)).1

/-- A new task is not for a process that was drawn before, unless it was
SUBMITTED. -/
theorem Tallied.task_ne {k : String} (hk : k ∈ s.drawn)
    (htask : ∀ t ∈ s.deliveries, t.processId ≠ k)
    (hsub : ∀ p, s.app.requests.get k = some p → p.state ≠ .submitted) :
    ∀ t' ∈ s'.deliveries, t'.processId ≠ k := by
  intro t' ht' he
  rcases task_origin h hstep ht' with hold | ⟨k', rfl, -, hdraw | ⟨p, hp, hstate⟩⟩ |
    ⟨i, event, t, -, ht, hout⟩ | ⟨status, t, ht, hanswer⟩
  · exact htask t' hold he
  · obtain ⟨-, hfresh, -⟩ := issuer_step_eq_some hstep
    obtain rfl : k' = k := he
    exact hfresh k' hdraw hk
  · obtain rfl : k' = k := he
    exact hsub p hp hstate
  · exact htask t (List.mem_of_getElem? ht) ((deliveryStep_move hout).2.1.symm.trans he)
  · obtain ⟨call, earlier, -, -, rfl⟩ := Delivery.answer_eq_some hanswer
    exact htask t ht he

theorem Tallied.redeeming_step (hs : Tallied s) {job : RedemptionJob} {holderId : String}
    {index : ℕ} {k : String}
    (hr' : RedemptionPhase.recording job holderId index k ∈ s'.redemptions) :
    k ∈ s'.drawn ∧ (∀ t ∈ s'.deliveries, t.processId ≠ k) ∧
      ∀ p, s'.app.requests.get k = some p → p.state = .delivered := by
  obtain ⟨-, hfresh, s₁, hp, hs'⟩ := issuer_step_eq_some hstep
  rcases redemption_origin hstep hr' with hold | ⟨definition, did, heq⟩ |
    ⟨i, event, r, ha, hr, hout⟩
  · obtain ⟨hk, htask, hstate⟩ := hs.redeeming job holderId index k hold
    refine ⟨?_, Tallied.task_ne h hstep hk htask (fun p hp hsub => ?_), fun p' hp' => ?_⟩
    · rw [hs']
      exact List.mem_append_right _ hk
    · rw [hstate p hp] at hsub
      cases hsub
    · rcases process_origin h hstep hp' with ⟨p, hp, -, hadv⟩ | hdraw
      · rw [hadv.terminal (by rw [hstate p hp]; rfl), hstate p hp]
      · exact absurd hk (hfresh k hdraw)
  · cases heq
  · have hdeliveries : s'.deliveries = s.deliveries := by
      rcases redemption_at hstep hr with hsame | ⟨event', r', ha', -, hd, -⟩
      · rw [ha] at hp
        obtain ⟨r₁, -, hp⟩ := Option.bind_eq_some_iff.mp hp
        obtain ⟨out, -, rfl⟩ := Option.map_eq_some_iff.mp hp
        rw [hs']
      · exact hd
    obtain ⟨hdraws, hins⟩ := redemptionStep_recording hout
    have hnew : k ∈ a.draws := by
      rw [ha]
      show k ∈ event.draws
      rw [hdraws]
      exact List.mem_singleton.mpr rfl
    refine ⟨?_, ?_, fun p' hp' => ?_⟩
    · rw [hs']
      exact List.mem_append_left _ hnew
    · rw [hdeliveries]
      rintro t ht rfl
      exact hfresh _ hnew ((standing_of_reachable h).taskDrawn t ht)
    · rw [(RequestTable.insert_eq_ok hins).1] at hp'
      cases hp'
      rfl

theorem Tallied.unclaimed_step (hs : Tallied s) {t' : Delivery} (ht' : t' ∈ s'.deliveries)
    (hc : t'.claimed = false) {p' : IssuanceProcess}
    (hp' : s'.app.requests.get t'.processId = some p') : p'.state ≠ .delivered := by
  have hstand := standing_of_reachable h
  -- the task was unclaimed before, and only a claimed one closes its process
  have before : ∀ t ∈ s.deliveries, t.claimed = false → t.processId = t'.processId →
      p'.state ≠ .delivered := by
    intro t ht hunclaimed hk hdelivered
    rw [← hk] at hp'
    obtain ⟨p, hp, -, hadv⟩ := process_of_task' h hstep ht hp'
    rcases hadv.delivered hdelivered with hold | ⟨x, hx, hxk, hxc, -⟩
    · exact hs.unclaimed t ht hunclaimed p hp hold
    · obtain rfl := KeyedList.eq_of_key hstand.taskKeys hx ht hxk
      rw [hunclaimed] at hxc
      cases hxc
  rcases task_origin h hstep ht' with hold | ⟨k, rfl, happroved, -⟩ |
    ⟨i, event, t, -, ht, hout⟩ | ⟨status, t, ht, hanswer⟩
  · exact before t' hold hc rfl
  · rw [happroved p' hp']
    exact nofun
  · obtain ⟨-, hpid, -, hmove⟩ := deliveryStep_move hout
    refine before t (List.mem_of_getElem? ht) ?_ hpid.symm
    cases hmove with
    | progress _ _ hsame => exact hsame.symm.trans hc
    | claim _ _ _ _ _ hclaimed => rw [hclaimed] at hc; cases hc
    | abandon _ _ _ hsame => exact hsame.symm.trans hc
    | close _ _ _ _ _ _ hsame => exact hsame.symm.trans hc
  · obtain ⟨call, earlier, -, -, rfl⟩ := Delivery.answer_eq_some hanswer
    exact before t ht hc rfl

omit h hstep in
/-- **What a task has recorded does not change in its other steps.** -/
theorem deliveryStep_tally {permitFree : Bool} {app app' : AppState} {t t' : Delivery}
    {event : DeliveryEvent X} {p p' : IssuanceProcess} (hevent : event ≠ .record)
    (hp : app.requests.get t.processId = some p) (hp' : app'.requests.get t.processId = some p')
    (hunclaimed : t.phase = .permitted → p.state ≠ .delivered)
    (hout : deliveryStep service permitFree app t event = some (app', t')) :
    t'.tally p' = t.tally p := by
  cases event with
  | claim =>
      simp only [deliveryStep] at hout
      split at hout
      · rename_i hphase
        rw [hp] at hout
        dsimp only at hout
        split at hout
        · cases hout
          simp only [Delivery.tally, hphase]
        · cases hout
          rw [hp] at hp'
          cases hp'
          simp only [Delivery.tally, hphase, if_neg (hunclaimed hphase)]
      · cases hout
  | finish now =>
      simp only [deliveryStep] at hout
      split at hout
      · rename_i state errorDetail hphase
        cases hout
        change (app.requests.modify _ _).get t.processId = some p' at hp'
        rw [RequestTable.get_modify, if_pos rfl, hp, Option.map_some] at hp'
        cases hp'
        cases state <;> simp [Delivery.tally, hphase, IssuanceProcess.transition]
      · cases hout
  | record => exact absurd rfl hevent
  | _ =>
      simp only [deliveryStep] at hout
      repeat' split at hout
      all_goals cases hout
      all_goals simp_all [Delivery.tally]

/-- What a task has recorded stays, in a step of anything else. -/
theorem Tallied.tally_stay (hs : Tallied s) {t t' : Delivery} (ht : t ∈ s.deliveries)
    (ht' : t' ∈ s'.deliveries) (hpid : t'.processId = t.processId) (hphase : t'.phase = t.phase)
    {p' : IssuanceProcess} (hp' : s'.app.requests.get t.processId = some p') :
    recordedDefinitions s' t.processId = t'.tally p' := by
  have hstand := standing_of_reachable h
  obtain ⟨p, hp, hedit, hadv⟩ := process_of_task' h hstep ht hp'
  have hsame : recordedDefinitions s' t.processId = recordedDefinitions s t.processId := by
    rcases recorded_step h hstep t.processId with hsame | ⟨i, x, rfl, hx, hxk⟩ |
      ⟨job, holderId, index, hrec⟩
    · exact hsame
    · -- the task that records is not in the phase it was in
      exfalso
      obtain rfl := KeyedList.eq_of_key hstand.taskKeys (List.mem_of_getElem? hx) ht hxk
      obtain ⟨-, -, s₁, hperform, -⟩ := issuer_step_eq_some hstep
      obtain ⟨x₁, hx₁, hperform⟩ := Option.bind_eq_some_iff.mp hperform
      obtain ⟨out, hout, -⟩ := Option.map_eq_some_iff.mp hperform
      rw [hx] at hx₁
      cases hx₁
      simp only [deliveryStep] at hout
      split at hout
      · rename_i records hanswered
        obtain ⟨hd, -, -⟩ := record_step h hstep hx hanswered
        rw [hd] at ht'
        rcases (KeyedList.mem_set (b := { x with phase := .finishing .delivered none })
          hstand.taskKeys hx rfl).mp ht' with rfl | ⟨-, hne⟩
        · rw [hanswered] at hphase
          cases hphase
        · exact hne hpid
      · cases hout
    · exact absurd rfl ((hs.redeeming job holderId index _ hrec).2.1 t ht)
  rw [hsame, hs.tally t ht p hp]
  refine (Delivery.tally_congr hphase hedit.same.credentialDefinitions (fun hdone => ?_)).symm
  constructor
  · intro hdelivered
    rcases hadv.delivered hdelivered with hold | ⟨x, hx, hxk, hxc, happroved⟩
    · exact hold
    · obtain rfl := KeyedList.eq_of_key hstand.taskKeys hx ht hxk
      rcases hstand.settled x hx hxc hdone p hp with hend | hend <;>
        rw [happroved] at hend <;> cases hend
  · intro hdelivered
    rw [hadv.terminal (by rw [hdelivered]; rfl), hdelivered]

theorem Tallied.tally_step (hs : Tallied s) {t' : Delivery} (ht' : t' ∈ s'.deliveries)
    {p' : IssuanceProcess} (hp' : s'.app.requests.get t'.processId = some p') :
    recordedDefinitions s' t'.processId = t'.tally p' := by
  have hstand := standing_of_reachable h
  rcases task_origin h hstep ht' with hold | ⟨k, rfl, -, hnew⟩ |
    ⟨i, event, t, ha, ht, hout⟩ | ⟨status, t, ht, hanswer⟩
  · exact hs.tally_stay h hstep hold ht' rfl rfl hp'
  · show recordedDefinitions s' k = []
    have hbefore : recordedDefinitions s k = [] ∧ (∀ t ∈ s.deliveries, t.processId ≠ k) ∧
        ∀ job holderId index, RedemptionPhase.recording job holderId index k ∉ s.redemptions := by
      rcases hnew with hdraw | ⟨p, hp, hsub⟩
      · obtain ⟨-, hfresh, -⟩ := issuer_step_eq_some hstep
        refine ⟨hs.unknown (hfresh k hdraw), ?_, fun job holderId index hrec =>
          hfresh k hdraw (hs.redeeming job holderId index k hrec).1⟩
        rintro t ht rfl
        exact hfresh _ hdraw (hstand.taskDrawn t ht)
      · have htask := (hstand.submitted k p hp hsub).2
        refine ⟨hs.untasked k p hp (by rw [hsub]; exact nofun) htask, htask,
          fun job holderId index hrec => ?_⟩
        have := (hs.redeeming job holderId index k hrec).2.2 p hp
        rw [hsub] at this
        cases this
    obtain ⟨hnone, htask, hrec⟩ := hbefore
    rcases recorded_step h hstep k with hsame | ⟨i, x, -, hx, hxk⟩ | ⟨job, holderId, index, hr⟩
    · rw [hsame, hnone]
    · exact absurd hxk (htask x (List.mem_of_getElem? hx))
    · exact absurd hr (hrec job holderId index)
  · have hmem := List.mem_of_getElem? ht
    obtain ⟨-, hpid, -, -⟩ := deliveryStep_move hout
    rw [hpid] at hp' ⊢
    obtain ⟨p, hp, -, -⟩ := process_of_task' h hstep hmem hp'
    by_cases hevent : event = .record
    · subst ha hevent
      simp only [deliveryStep] at hout
      split at hout
      · rename_i records hphase
        obtain ⟨-, hreq, hall⟩ := record_step h hstep ht hphase
        obtain ⟨p₁, hp₁, -, hid, hfor⟩ := answered_for h hmem hphase
        rw [hreq] at hp'
        rw [hp'] at hp hp₁
        cases hp
        cases hp₁
        have htally := hs.tally t hmem p' hp'
        simp only [Delivery.tally, hphase] at htally
        rw [recordedDefinitions_append hall (fun r hr => (hfor.each r hr).processId.trans hid),
          if_pos rfl, htally, List.nil_append, hfor.ids, ← (Prod.mk.inj (Option.some_inj.mp hout)).2]
        rfl
      · cases hout
    · have hsame : recordedDefinitions s' t.processId = recordedDefinitions s t.processId := by
        rcases recorded_step h hstep t.processId with hsame | ⟨j, x, ha', -⟩ |
          ⟨job, holderId, index, hrec⟩
        · exact hsame
        · rw [ha] at ha'
          cases ha'
          exact absurd rfl hevent
        · exact absurd rfl ((hs.redeeming job holderId index _ hrec).2.1 t hmem)
      rw [hsame, hs.tally t hmem p hp]
      refine (deliveryStep_tally hevent hp hp' (fun hphase => ?_) hout).symm
      exact hs.unclaimed t hmem ((hstand.sound t hmem).unclaimed (by rw [hphase]; rfl)) p hp
  · obtain ⟨call, earlier, -, -, rfl⟩ := Delivery.answer_eq_some hanswer
    exact hs.tally_stay h hstep ht ht' rfl rfl hp'

theorem Tallied.untasked_step (hs : Tallied s) {k : String} {p' : IssuanceProcess}
    (hp' : s'.app.requests.get k = some p') (hstate : p'.state ≠ .delivered)
    (htask : ∀ t ∈ s'.deliveries, t.processId ≠ k) : recordedDefinitions s' k = [] := by
  have hstand := standing_of_reachable h
  have hbefore : ∀ t ∈ s.deliveries, t.processId ≠ k := by
    intro t ht hk
    obtain ⟨j, hj⟩ := List.getElem?_of_mem ht
    obtain ⟨t', ht', hlater⟩ := task_history h (Steps.refl.tail a trivial hstep) hj
    exact htask t' (List.mem_of_getElem? ht') (hlater.processId.trans hk)
  have hnone : recordedDefinitions s k = [] ∧
      ∀ job holderId index, RedemptionPhase.recording job holderId index k ∉ s.redemptions := by
    rcases process_origin h hstep hp' with ⟨p, hp, -, hadv⟩ | hdraw
    · have hp₀ : p.state ≠ .delivered := by
        intro hdelivered
        exact hstate ((hadv.terminal (by rw [hdelivered]; rfl)).trans hdelivered)
      exact ⟨hs.untasked k p hp hp₀ hbefore, fun job holderId index hrec =>
        hp₀ ((hs.redeeming job holderId index k hrec).2.2 p hp)⟩
    · obtain ⟨-, hfresh, -⟩ := issuer_step_eq_some hstep
      exact ⟨hs.unknown (hfresh k hdraw), fun job holderId index hrec =>
        hfresh k hdraw (hs.redeeming job holderId index k hrec).1⟩
  rcases recorded_step h hstep k with hsame | ⟨i, x, -, hx, hxk⟩ | ⟨job, holderId, index, hr⟩
  · rw [hsame, hnone.1]
  · exact absurd hxk (hbefore x (List.mem_of_getElem? hx))
  · exact absurd hr (hnone.2 job holderId index)

end

/-- **The records are tallied in every reachable state.** -/
theorem tallied_of_reachable {s : IssuerSys} (h : Reachable (issuer service start) s) :
    Tallied s := by
  refine h.invariant_of (J := fun s => Reachable (issuer service start) s) (I := Tallied)
    (fun _ hs => hs) tallied_start ?_
  intro s₁ a s₂ hr hs hstep
  exact
    { known := hs.known_step hr hstep
      redeeming := fun _ _ _ _ hrec => hs.redeeming_step hr hstep hrec
      unclaimed := fun _ ht hc _ hp => hs.unclaimed_step hr hstep ht hc hp
      tally := fun _ ht _ hp => hs.tally_step hr hstep ht hp
      untasked := fun _ _ hp hstate htask => hs.untasked_step hr hstep hp hstate htask }

/-! ## Processes that were requested -/

/-- A Credential Request created the process `k`. -/
def Requested (service : IssuerService X) (start : ℕ) (s : IssuerSys) (k : String) : Prop :=
  ∃ s₀ s₁ claims message now uuid, Reachable (issuer service start) s₀ ∧
    (issuer service start).step s₀ (.credentialRequest claims message now k uuid) = some s₁ ∧
      Steps (issuer service start) anyStep s₁ s

/-- A Credential Request creates no DELIVERED process. -/
theorem requested_undelivered {s s' : IssuerSys} {claims : Json.Value}
    {message : CredentialRequestMessage} {now : ℕ} {k uuid : String}
    (h : Reachable (issuer service start) s)
    (hstep : (issuer service start).step s (.credentialRequest claims message now k uuid) = some s') :
    k ∈ s'.drawn ∧ ∀ p, s'.app.requests.get k = some p → p.state ≠ .delivered := by
  have hs := standing_of_reachable h
  obtain ⟨-, hfresh, s₁, hp, rfl⟩ := issuer_step_eq_some hstep
  cases hp
  refine ⟨List.mem_append_left _ List.mem_cons_self, fun p' hp' hdelivered => ?_⟩
  obtain ⟨-, ⟨-, hr⟩ | ⟨p, holder, -, hstate, -, rfl, hins, -⟩⟩ :=
    credentialRequest_cases s.vouched hs.holderKeys
      (rfl : credentialRequest service s.app claims message now k uuid = _)
  · rw [hr] at hp'
    exact hfresh k List.mem_cons_self (hs.processKeys k p' hp').2
  · rw [(RequestTable.insert_eq_ok hins).1] at hp'
    cases hp'
    rw [hdelivered] at hstate
    cases hholder : holder.status <;> rw [hholder] at hstate <;> cases hstate

/-- A process that was requested and is DELIVERED has had a task. -/
theorem task_of_requested {s : IssuerSys} {k : String} (h : Requested service start s k)
    {p : IssuanceProcess} (hp : s.app.requests.get k = some p) (hstate : p.state = .delivered) :
    ∃ t ∈ s.deliveries, t.processId = k := by
  obtain ⟨s₀, s₁, claims, message, now, uuid, hr₀, hrequest, hsteps⟩ := h
  obtain ⟨hdrawn, hundelivered⟩ := requested_undelivered hr₀ hrequest
  have hrun : k ∈ s.drawn ∧ ∀ p, s.app.requests.get k = some p → p.state = .delivered →
      ∃ t ∈ s.deliveries, t.processId = k := by
    refine hsteps.mono (R := fun _ s : IssuerSys => k ∈ s.drawn ∧
      ∀ p, s.app.requests.get k = some p → p.state = .delivered →
        ∃ t ∈ s.deliveries, t.processId = k) (hr₀.step hrequest)
      ⟨hdrawn, fun p hp hdelivered => absurd hdelivered (hundelivered p hp)⟩ ?_
    rintro s₂ a s₃ hr - hstep ⟨hk, hbefore⟩
    obtain ⟨-, hfresh, _, -, hs₃⟩ := issuer_step_eq_some hstep
    refine ⟨hs₃ ▸ List.mem_append_right _ hk, fun p' hp' hdelivered => ?_⟩
    have later : (∃ t ∈ s₂.deliveries, t.processId = k) →
        ∃ t ∈ s₃.deliveries, t.processId = k := by
      rintro ⟨t, ht, htk⟩
      obtain ⟨j, hj⟩ := List.getElem?_of_mem ht
      obtain ⟨t', ht', hlater⟩ := task_history hr (Steps.refl.tail a trivial hstep) hj
      exact ⟨t', List.mem_of_getElem? ht', hlater.processId.trans htk⟩
    rcases process_origin hr hstep hp' with ⟨p₂, hp₂, -, hadv⟩ | hdraw
    · rcases hadv.delivered hdelivered with hold | ⟨t, ht, htk, -, -⟩
      · exact later (hbefore p₂ hp₂ hold)
      · exact later ⟨t, ht, htk⟩
    · exact absurd hk (hfresh k hdraw)
  exact hrun.2 p hp hstate

/-! ## Records match what was issued -/

theorem Delivery.tally_undelivered (t : Delivery) {p : IssuanceProcess}
    (hstate : p.state ≠ .delivered) :
    t.tally p = [] ∨ ∃ errorDetail, t.phase = .finishing .delivered errorDetail := by
  unfold Delivery.tally
  split
  · rename_i errorDetail hphase
    exact Or.inr ⟨errorDetail, hphase⟩
  · rw [if_neg hstate]
    exact Or.inl rfl
  · exact Or.inl rfl

section

variable {s : IssuerSys} {k : String} {p : IssuanceProcess}

/-- A process that is not DELIVERED has records only while its task is about to
mark it so. -/
theorem recorded_undelivered (h : Reachable (issuer service start) s)
    (hp : s.app.requests.get k = some p) (hstate : p.state ≠ .delivered) :
    recordedDefinitions s k = [] ∨
      p.state = .approved ∧ ∃ t ∈ s.deliveries, t.processId = k ∧
        t.phase = .finishing .delivered none ∧ ∃ call ∈ t.posts, call.isAccepted := by
  have hs := standing_of_reachable h
  have ht := tallied_of_reachable h
  by_cases htask : ∀ t ∈ s.deliveries, t.processId ≠ k
  · exact Or.inl (ht.untasked k p hp hstate htask)
  · rw [not_forall₂] at htask
    obtain ⟨t, hmem, hk⟩ := htask
    rw [not_not] at hk
    subst hk
    rcases t.tally_undelivered hstate with hnone | ⟨errorDetail, hphase⟩
    · exact Or.inl ((ht.tally t hmem p hp).trans hnone)
    · right
      have hclaimed : t.claimed = true :=
        (hs.sound t hmem).working (by rw [hphase]; rfl) (by rw [hphase]; rfl)
      obtain ⟨q, hq, happroved, -⟩ := hs.working t hmem hclaimed (by rw [hphase]; rfl)
      rw [hp] at hq
      cases hq
      obtain ⟨rfl, hcall⟩ := (faithful_of_reachable h t hmem).delivered errorDetail hphase
      exact ⟨happroved, t, hmem, rfl, hphase, hcall⟩

theorem recorded_delivered (h : Reachable (issuer service start) s)
    (hrequested : Requested service start s k) (hp : s.app.requests.get k = some p)
    (hstate : p.state = .delivered) : recordedDefinitions s k = p.credentialDefinitions := by
  have hs := standing_of_reachable h
  have ht := tallied_of_reachable h
  obtain ⟨t, hmem, rfl⟩ := task_of_requested hrequested hp hstate
  have hclaimed : t.claimed = true := by
    by_contra hc
    exact ht.unclaimed t hmem (Bool.not_eq_true _ ▸ hc) p hp hstate
  rw [ht.tally t hmem p hp]
  cases hphase : t.phase with
  | done =>
      simp only [Delivery.tally, hphase]
      exact if_pos hstate
  | _ =>
      obtain ⟨q, hq, happroved, -⟩ := hs.working t hmem hclaimed (by rw [hphase]; rfl)
      rw [hp] at hq
      cases hq
      rw [hstate] at happroved
      cases happroved

end

/-- **Records match what was issued.** In every reachable state: a requested
process that is DELIVERED has exactly one record for each definition it names, in
that order; one that is SUBMITTED, REJECTED or ERRORED has none; one that is
APPROVED has none unless its task has had a 2xx answer and is about to mark it
DELIVERED. Every record, of a delivery or of a redemption, agrees with the signed
credential that was handed out, and the list has each record exactly once. -/
theorem records_match {s : IssuerSys} (h : Reachable (issuer service start) s) :
    (∀ k p, s.app.requests.get k = some p →
      (p.state = .delivered → Requested service start s k →
          recordedDefinitions s k = p.credentialDefinitions) ∧
        (p.state = .submitted ∨ p.state = .rejected ∨ p.state = .errored →
          recordedDefinitions s k = []) ∧
          (p.state = .approved → recordedDefinitions s k ≠ [] →
            ∃ t ∈ s.deliveries, t.processId = k ∧ t.phase = .finishing .delivered none ∧
              ∃ call ∈ t.posts, call.isAccepted)) ∧
      (∀ record ∈ s.app.issued.all, record.HandedOut service s) ∧
        (s.app.issued.all.map (·.id)).Nodup ∧
          ∀ record, record ∈ s.app.issued.all ↔ ∃ id, s.app.issued.get id = some record := by
  have hl := listed_of_reachable h
  have hkeyed := (accounts_of_reachable h).keyed
  refine ⟨fun k p hp => ⟨fun hstate hrequested => recorded_delivered h hrequested hp hstate,
    fun hstate => ?_, fun hstate hsome => ?_⟩, handedOut_of_reachable h, ?_,
    fun record => IssuedCredentials.mem_all hl⟩
  · have hundelivered : p.state ≠ .delivered := by
      rcases hstate with hstate | hstate | hstate <;> rw [hstate] <;> exact nofun
    rcases recorded_undelivered h hp hundelivered with hnone | ⟨happroved, -⟩
    · exact hnone
    · rcases hstate with hstate | hstate | hstate <;> rw [hstate] at happroved <;> cases happroved
  · rcases recorded_undelivered h hp (by rw [hstate]; exact nofun) with hnone | ⟨-, htask⟩
    · exact absurd hnone hsome
    · exact htask
  · have hids : s.app.issued.all.map (·.id) = s.app.issued.order := by
      show (s.app.issued.order.filterMap s.app.issued.get).map (·.id) = _
      rw [List.map_filterMap]
      have hsome : s.app.issued.order.filterMap (fun k => (s.app.issued.get k).map (·.id)) =
          s.app.issued.order.filterMap some := by
        apply List.filterMap_congr
        intro k hk
        obtain ⟨r, hr⟩ := KeyedTable.exists_lookup ((hl.mem k).mp hk)
        have hget : s.app.issued.get k = some r := hr
        rw [hget, Option.map_some, hkeyed k r hget]
      rw [hsome, List.filterMap_some]
    rw [hids]
    exact hl.nodup

/-- A delivery, from the request to the record. -/
theorem records_match_sample :
    ∃ s p, Reachable (issuer (sampleIssuer .auto) 0) s ∧ s.app.requests.get "p1" = some p ∧
      p.state = .delivered ∧ recordedDefinitions s "p1" = ["membership-credential"] := by
  have hrun : ((issuer (sampleIssuer .auto) 0).run (issuer (sampleIssuer .auto) 0).init
      (sampleRequest "p1" "acme" 10 :: sampleDelivery 0 "c1" "j1" 11)).any (fun s =>
        (s.app.requests.get "p1").any (fun p => p.state = .delivered ∧
          p.credentialDefinitions = ["membership-credential"])) = true := by
    decide +kernel
  obtain ⟨s, hs, hp⟩ := (Option.any_eq_true _ _).mp hrun
  obtain ⟨p, hget, hfacts⟩ := (Option.any_eq_true _ _).mp hp
  obtain ⟨hstate, hids⟩ := of_decide_eq_true hfacts
  have hr := StepSystem.reachable_of_run hs
  rw [StepSystem.run_cons, Option.bind_eq_some_iff] at hs
  obtain ⟨s₁, hrequest, hrest⟩ := hs
  refine ⟨s, p, hr, hget, hstate, hids ▸ ((records_match hr).1 "p1" p hget).1 hstate ?_⟩
  exact ⟨_, s₁, _, _, _, _, .refl, hrequest, StepSystem.steps_of_run hrest⟩

end IdentityHub
