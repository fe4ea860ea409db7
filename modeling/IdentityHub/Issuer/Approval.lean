import IdentityHub.Issuer.Lifecycle

/-!
# No delivery without a standing approval

A process is waiting while it is SUBMITTED, or APPROVED and not yet claimed. A
waiting process is in the state its holder's status gives: the holder is
registered, pending for a SUBMITTED process and approved for an APPROVED one.
This couples two tables with a lock each, and holds in every reachable state.

A claim takes an APPROVED process that is waiting, so the holder is approved at
the moment of the claim. Under manual approval a holder becomes approved only
through the operator.
-/

namespace IdentityHub

open StepSystem (Reachable Steps)

variable {X : External} {service : IssuerService X} {start : ℕ}

/-- SUBMITTED, or APPROVED and not claimed. -/
def IssuanceProcess.isWaiting (p : IssuanceProcess) : Bool :=
  p.state = .submitted || (p.state = .approved && !p.deliveryStarted)

/-- The process is in the state its holder's status gives. -/
def Backed (app : AppState) (p : IssuanceProcess) : Prop :=
  ∃ holder, app.holders.get p.holderId = some holder ∧
    holder.status.processState = some p.state

/-- The agreement between the two tables, and where approvals come from. -/
structure Approvals (service : IssuerService X) (s : IssuerSys) : Prop where
  waiting : ∀ k p, s.app.requests.get k = some p → p.isWaiting → Backed s.app p
  vouched : service.holderApproval = .manual →
    ∀ k holder, s.app.holders.get k = some holder → holder.status = .approved → k ∈ s.vouched

theorem approvals_start : Approvals service (IssuerSys.start start) where
  waiting k p h := by
    rw [show (IssuerSys.start start).app.requests = .new maxTrackedRequests from rfl,
      RequestTable.get_new] at h
    cases h
  vouched _ k holder h := by
    rw [show (IssuerSys.start start).app.holders = .empty from rfl,
      HolderRegistry.get_empty] at h
    cases h

/-! ## The invariant is preserved -/

section Preserved

variable {s s' : IssuerSys} {a : IssuerAction X}

theorem Backed.of_status {app app' : AppState} {p : IssuanceProcess} (h : Backed app p)
    (hstatus : ∀ k holder, app.holders.get k = some holder →
      ∃ holder', app'.holders.get k = some holder' ∧ holder'.status = holder.status) :
    Backed app' p := by
  obtain ⟨holder, hget, hstate⟩ := h
  obtain ⟨holder', hget', hsame⟩ := hstatus _ holder hget
  exact ⟨holder', hget', by rw [hsame, hstate]⟩

/-- First contact, registration and edits respect the operator's list. -/
theorem HoldersMove.vouched {holders holders' : HolderRegistry} {vouched vouched' : List String}
    (hm : HoldersMove service holders vouched holders' vouched')
    (hmanual : service.holderApproval = .manual)
    (h : ∀ k holder, holders.get k = some holder → holder.status = .approved → k ∈ vouched) :
    ∀ k holder, holders'.get k = some holder → holder.status = .approved → k ∈ vouched' := by
  intro k holder hget hstatus
  cases hm with
  | same => exact h k holder hget hstatus
  | contact new hins hnew =>
      rw [HolderRegistry.get_insert hins] at hget
      split at hget
      · -- a first contact is pending under manual approval
        cases hget
        rw [hnew, hmanual] at hstatus
        cases hstatus
      · exact h k holder hget hstatus
  | register new hins hnew =>
      rw [HolderRegistry.get_insert hins] at hget
      split at hget
      · rename_i hk
        rw [hk]
        exact List.mem_cons_self
      · exact List.mem_cons_of_mem _ (h k holder hget hstatus)
  | edit holderId f hf =>
      rw [HolderRegistry.get_modify] at hget
      split at hget
      · obtain ⟨old, hold, rfl⟩ := Option.map_eq_some_iff.mp hget
        rw [(hf old).2.2] at hstatus
        exact h k old hold hstatus
      · exact h k holder hget hstatus

theorem isWaiting_of_decided {holderId : String} {next : ProcessState} {p : IssuanceProcess}
    (hp : p.isWaiting) (hholder : p.holderId = holderId) (hdec : isDecided holderId next p = false) :
    p.state = .approved ∧ next ≠ .rejected := by
  unfold IssuanceProcess.isWaiting at hp
  simp only [isDecided, hholder, decide_true, Bool.true_and] at hdec
  cases hstate : p.state <;> simp_all

theorem Approvals.decided (hs : Approvals service s) {holderId : String} {status : HolderStatus}
    {next : ProcessState} {now : ℕ} {holder : Holder}
    (hget : s.app.holders.get holderId = some holder)
    (hpair : status = .approved ∧ next = .approved ∧ s'.vouched = holderId :: s.vouched ∨
      status = .rejected ∧ next = .rejected ∧ s'.vouched = s.vouched)
    (hh : s'.app.holders = s.app.holders.modify holderId (fun h => { h with status := status }))
    (hr : s'.app.requests = s.app.requests.mapRecords
      (fun p => if isDecided holderId next p then p.transition next now else p)) :
    Approvals service s' := by
  have hself : s'.app.holders.get holderId = some { holder with status := status } := by
    rw [hh, HolderRegistry.get_modify, if_pos rfl, hget]
    rfl
  have hother : ∀ k, k ≠ holderId → s'.app.holders.get k = s.app.holders.get k := by
    intro k hk
    rw [hh, HolderRegistry.get_modify, if_neg hk]
  refine { waiting := fun k q h hq => ?_, vouched := fun hmanual k h' hk hstatus => ?_ }
  · obtain ⟨p, hp, ⟨hdec, rfl⟩ | ⟨hdec, rfl⟩⟩ := get_decided hr h
    · obtain ⟨hholder, -⟩ := isDecided_iff.mp hdec
      rcases hpair with ⟨rfl, rfl, -⟩ | ⟨-, rfl, -⟩
      · exact ⟨_, hholder ▸ hself, rfl⟩
      · cases hq
    · by_cases hholder : q.holderId = holderId
      · obtain ⟨hstate, hnext⟩ := isWaiting_of_decided hq hholder hdec
        rcases hpair with ⟨rfl, -, -⟩ | ⟨-, h, -⟩
        · exact ⟨_, hholder ▸ hself, by rw [hstate]; rfl⟩
        · exact absurd h hnext
      · obtain ⟨old, hold, hstate⟩ := hs.waiting k q hp hq
        exact ⟨old, (hother _ hholder).trans hold, hstate⟩
  · by_cases hkk : k = holderId
    · subst hkk
      rw [hself] at hk
      cases hk
      rcases hpair with ⟨-, -, hv⟩ | ⟨rfl, -, -⟩
      · rw [hv]
        exact List.mem_cons_self
      · cases hstatus
    · have hin := hs.vouched hmanual k h' ((hother k hkk).symm.trans hk) hstatus
      rcases hpair with ⟨-, -, hv⟩ | ⟨-, -, hv⟩
      · rw [hv]
        exact List.mem_cons_of_mem _ hin
      · exact hv ▸ hin

/-- A task's own step makes no process wait. -/
theorem TaskMove.waiting_back {t t' : Delivery} {event : DeliveryEvent X} (hsound : t.Sound)
    (hm : TaskMove s.app t event s'.app t') {k : String} {p : IssuanceProcess}
    (h : s'.app.requests.get k = some p) (hp : p.isWaiting) :
    s.app.requests.get k = some p := by
  cases hm with
  | progress hr => exact hr ▸ h
  | abandon _ _ hr => exact hr ▸ h
  | claim q _ hq hstate happ =>
      rw [happ] at h
      change (s.app.requests.modify _ _).get k = some p at h
      rw [RequestTable.get_modify] at h
      split at h
      · -- the claimed process is APPROVED and started
        rename_i hk
        rw [hk, hq] at h
        cases h
        rw [IssuanceProcess.isWaiting, hstate] at hp
        cases hp
      · exact h
  | close state errorDetail now _ hphase happ =>
      rw [happ] at h
      change (s.app.requests.modify _ _).get k = some p at h
      rw [RequestTable.get_modify] at h
      split at h
      · obtain ⟨q, -, rfl⟩ := Option.map_eq_some_iff.mp h
        rcases hsound.outcome state errorDetail hphase with rfl | rfl <;> cases hp
      · exact h

/-- **Every move preserves the agreement.** -/
theorem Approvals.move (hs : Approvals service s) (hstand : Standing s)
    (hm : Move service s a s') : Approvals service s' := by
  cases hm with
  | quiet hh hr _ =>
      refine { waiting := fun k p h hp => ?_, vouched := fun hmanual => ?_ }
      · exact (hs.waiting k p (hr ▸ h) hp).of_status (fun _ _ => hh.get_status)
      · exact hh.vouched hmanual (hs.vouched hmanual)
  | accepted p holder hh hget hstate _ _ hins _ =>
      refine { waiting := fun k q h hq => ?_, vouched := fun hmanual => ?_ }
      · rcases get_after_insert hins h with ⟨-, rfl⟩ | ⟨-, h⟩
        · exact ⟨holder, hget, hstate⟩
        · exact (hs.waiting k q h hq).of_status (fun _ _ => hh.get_status)
      · exact hh.vouched hmanual (hs.vouched hmanual)
  | recorded p hh hv hstate _ hins _ =>
      refine { waiting := fun k q h hq => ?_, vouched := fun hmanual => ?_ }
      · rcases get_after_insert hins h with ⟨-, rfl⟩ | ⟨-, h⟩
        · rw [IssuanceProcess.isWaiting, hstate] at hq
          cases hq
        · exact (hs.waiting k q h hq).of_status (fun _ old hold => ⟨old, hh ▸ hold, rfl⟩)
      · rw [hh, hv]
        exact hs.vouched hmanual
  | decided holderId status next now holder hget hpair hh hr _ =>
      exact hs.decided hget hpair hh hr
  | task i t t' event _ ht hh hv _ _ _ hmove _ =>
      have hsound := hstand.sound t (List.mem_of_getElem? ht)
      refine { waiting := fun k p h hp => ?_, vouched := fun hmanual => ?_ }
      · exact (hs.waiting k p (hmove.waiting_back hsound h hp) hp).of_status
          (fun _ old hold => ⟨old, hh ▸ hold, rfl⟩)
      · rw [hh, hv]
        exact hs.vouched hmanual
  | answered i t t' _ _ _ _ _ _ happ hv _ =>
      refine { waiting := fun k p h hp => ?_, vouched := fun hmanual => ?_ }
      · rw [happ] at h ⊢
        exact hs.waiting k p h hp
      · rw [happ, hv]
        exact hs.vouched hmanual

end Preserved

theorem approvals_of_reachable {s : IssuerSys} (h : Reachable (issuer service start) s) :
    Approvals service s := by
  refine h.invariant_of (fun _ => standing_of_reachable) approvals_start ?_
  intro s₁ a s₂ hstand hs hstep
  exact hs.move hstand (issuer_step_move hstand.holderKeys hstep)

theorem Backed.pending {app : AppState} {p : IssuanceProcess} (h : Backed app p)
    (hp : p.state = .submitted) :
    ∃ holder, app.holders.get p.holderId = some holder ∧ holder.status = .pending := by
  obtain ⟨holder, hget, hstate⟩ := h
  refine ⟨holder, hget, ?_⟩
  rw [hp] at hstate
  cases hs : holder.status <;> rw [hs] at hstate <;> first | rfl | cases hstate

theorem Backed.approved {app : AppState} {p : IssuanceProcess} (h : Backed app p)
    (hp : p.state = .approved) :
    ∃ holder, app.holders.get p.holderId = some holder ∧ holder.status = .approved := by
  obtain ⟨holder, hget, hstate⟩ := h
  refine ⟨holder, hget, ?_⟩
  rw [hp] at hstate
  cases hs : holder.status <;> rw [hs] at hstate <;> first | rfl | cases hstate

/-- A step in which the task at `i` claims its process finds that process
APPROVED and unclaimed. -/
theorem claims_waiting {s s' : IssuerSys} {a : IssuerAction X} {i : ℕ} {t t' : Delivery}
    (h : Reachable (issuer service start) s) (hstep : (issuer service start).step s a = some s')
    (ht : s.deliveries[i]? = some t) (ht' : s'.deliveries[i]? = some t')
    (hbefore : t.claimed = false) (hafter : t'.claimed = true) :
    ∃ p, s.app.requests.get t.processId = some p ∧ p.state = .approved ∧
      p.deliveryStarted = false := by
  obtain ⟨t'', ht'', hlater⟩ := task_history h (Steps.refl.tail a trivial hstep) ht
  obtain rfl : t'' = t' := Option.some_inj.mp (ht''.symm.trans ht')
  have hs := standing_of_reachable h
  rcases (move_of_reachable h hstep).claimed_back hs (List.mem_of_getElem? ht') hafter with
    ⟨t₀, ht₀, hk, hc⟩ | hp
  · have hsame := KeyedList.eq_of_key hs.taskKeys ht₀ (List.mem_of_getElem? ht)
      (hk.trans hlater.processId)
    rw [hsame, hbefore] at hc
    cases hc
  · rwa [hlater.processId] at hp

/-- **No delivery without a standing approval.** In every reachable state a
SUBMITTED process has a registered, pending holder and an APPROVED process that
is not started a registered, approved one. So a task that claims its process
does so for a holder who is approved at that moment and, under manual approval,
whom the operator registered or approved. -/
theorem standing_approval {s : IssuerSys} (h : Reachable (issuer service start) s) :
    (∀ k p, s.app.requests.get k = some p → p.state = .submitted →
      ∃ holder, s.app.holders.get p.holderId = some holder ∧ holder.status = .pending) ∧
    (∀ k p, s.app.requests.get k = some p → p.state = .approved → p.deliveryStarted = false →
      ∃ holder, s.app.holders.get p.holderId = some holder ∧ holder.status = .approved) ∧
    (∀ (a : IssuerAction X) (s' : IssuerSys) (i : ℕ) (t t' : Delivery),
      (issuer service start).step s a = some s' → s.deliveries[i]? = some t →
        s'.deliveries[i]? = some t' → t.claimed = false → t'.claimed = true →
          ∃ p holder, s.app.requests.get t.processId = some p ∧
            s.app.holders.get p.holderId = some holder ∧ holder.status = .approved ∧
              (service.holderApproval = .manual → p.holderId ∈ s.vouched)) := by
  have hs := approvals_of_reachable h
  refine ⟨?_, ?_, ?_⟩
  · intro k p hp hstate
    refine (hs.waiting k p hp ?_).pending hstate
    rw [IssuanceProcess.isWaiting, hstate]
    rfl
  · intro k p hp hstate hstarted
    refine (hs.waiting k p hp ?_).approved hstate
    rw [IssuanceProcess.isWaiting, hstate, hstarted]
    rfl
  · intro a s' i t t' hstep ht ht' hbefore hafter
    obtain ⟨p, hp, hstate, hstarted⟩ := claims_waiting h hstep ht ht' hbefore hafter
    have hwait : p.isWaiting := by
      rw [IssuanceProcess.isWaiting, hstate, hstarted]
      rfl
    obtain ⟨holder, hget, happ⟩ := (hs.waiting _ p hp hwait).approved hstate
    exact ⟨p, holder, hp, hget, happ, fun hm => hs.vouched hm p.holderId holder hget happ⟩

set_option maxRecDepth 4000 in
/-- A request waits for the operator, is approved, and its task claims it. -/
theorem standing_approval_sample :
    ∃ s, Reachable (issuer (sampleIssuer .manual) 0) s ∧
      (s.app.requests.get "p1").map (·.state) = some .approved ∧
        s.deliveries.map (·.phase.holdsPermit) = [true] ∧
          ∀ s' t', (issuer (sampleIssuer .manual) 0).step s (.delivery 0 .claim) = some s' →
            s'.deliveries[0]? = some t' → t'.claimed = true →
              ∃ holder, s.app.holders.get "acme" = some holder ∧ holder.status = .approved ∧
                "acme" ∈ s.vouched := by
  obtain ⟨s, hr, hp⟩ := StepSystem.exists_reachable_of_run
    (M := issuer (sampleIssuer .manual) 0)
    [sampleRequest "p1" "acme" 10, .approveHolder "acme" 11,
      .delivery 0 .spawn, .delivery 0 .acquire]
    (p := fun s => (s.app.requests.get "p1").map (fun p => (p.state, p.holderId)) =
        some (.approved, "acme") ∧
      s.deliveries.map (fun t => (t.processId, t.claimed, t.phase.holdsPermit)) =
        [("p1", false, true)])
    (by decide +kernel)
  obtain ⟨hp₁, htask⟩ := of_decide_eq_true hp
  obtain ⟨p, hp, hfields⟩ := Option.map_eq_some_iff.mp hp₁
  obtain ⟨hstate, hholder⟩ := Prod.mk.inj hfields
  obtain ⟨t, htasks, hfields⟩ := List.map_eq_singleton_iff.mp htask
  obtain ⟨hpid, hrest⟩ := Prod.mk.inj hfields
  obtain ⟨hclaimed, hpermit⟩ := Prod.mk.inj hrest
  refine ⟨s, hr, by rw [hp, Option.map_some, hstate], by rw [htasks, List.map_singleton, hpermit],
    fun s' t' hstep ht' hc => ?_⟩
  obtain ⟨q, holder, hq, hget, happ, hv⟩ := (standing_approval hr).2.2 _ s' 0 t t' hstep
    (by rw [htasks]; rfl) ht' hclaimed hc
  rw [hpid, hp] at hq
  cases hq
  rw [hholder] at hget hv
  exact ⟨holder, hget, happ, hv rfl⟩

end IdentityHub
