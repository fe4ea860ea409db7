import IdentityHub.Issuer.Requests

/-!
# What a delivery works from

A delivery never holds a lock across the network: it works from a copy of the
process it claimed, then from a job made of the copy, then from what it signed.
`Phase.WorksFor` says what these have to do with the stored process. Whatever
happens to the process in the meantime, its request does not change, so the
copies stay what they were (`copies_of_reachable`).
-/

namespace IdentityHub

open Json (Value)
open StepSystem (Reachable)

variable {X : External} {service : IssuerService X} {start : ℕ}

/-! ## Where a process and a task come from -/

section

variable {s s' : IssuerSys} {a : IssuerAction X}

/-- A process found after a step was there before with the same request, or it
is the one the step inserted. -/
theorem RequestsMove.origin {requests' : RequestTable} (hm : RequestsMove s a requests')
    {k : String} {p' : IssuanceProcess} (h : requests'.get k = some p') :
    (∃ p, s.app.requests.get k = some p ∧ p.Edited p') ∨
      k = p'.id ∧ k ∈ a.draws ∧
        (p'.state.isActive → ∀ id ∈ p'.credentialDefinitions,
          (s.app.definitions.get id).isSome) := by
  cases hm with
  | change f hf hr =>
      left
      rw [hr] at h
      change (KeyedTable.map f s.app.requests.records).lookup k = some p' at h
      rw [KeyedTable.lookup_map] at h
      obtain ⟨p, hp, rfl⟩ := Option.map_eq_some_iff.mp h
      exact ⟨p, hp, hf k p hp⟩
  | insert p hid _ hids hins =>
      rcases get_after_insert hins h with ⟨rfl, rfl⟩ | ⟨-, hold⟩
      · exact Or.inr ⟨rfl, hid, hids⟩
      · exact Or.inl ⟨p', hold, .refl p'⟩

/-- A task found after a step was there before, is new, took a step of its own,
or had its post answered. -/
theorem task_origin (h : Reachable (issuer service start) s)
    (hstep : (issuer service start).step s a = some s') {t' : Delivery}
    (ht' : t' ∈ s'.deliveries) :
    t' ∈ s.deliveries ∨
      (∃ k, t' = Delivery.new k ∧
        (∀ p', s'.app.requests.get k = some p' → p'.state = .approved) ∧
          (k ∈ a.draws ∨ ∃ p, s.app.requests.get k = some p ∧ p.state = .submitted)) ∨
      (∃ i event t, a = .delivery i event ∧ s.deliveries[i]? = some t ∧
        deliveryStep service (permitFree s) s.app t event = some (s'.app, t')) ∨
      ∃ status, ∃ t ∈ s.deliveries, t.answer status = some t' := by
  obtain ⟨j, hj⟩ := List.getElem?_of_mem ht'
  cases hold : s.deliveries[j]? with
  | none =>
      exact Or.inr (Or.inl ((move_of_reachable h hstep).delivery_new (standing_of_reachable h)
        hold hj))
  | some t =>
      have hlt := (List.getElem?_eq_some_iff.mp hold).1
      rcases delivery_at hstep hold with hsame | ⟨event, x, ha, hd, -, hout⟩ |
        ⟨status, x, -, hd, hanswer⟩
      · rw [hsame] at hj
        cases hj
        exact Or.inl (List.mem_of_getElem? hold)
      · rw [hd, List.getElem?_set_self hlt] at hj
        cases hj
        exact Or.inr (Or.inr (Or.inl ⟨j, event, t, ha, hold, hout⟩))
      · rw [hd, List.getElem?_set_self hlt] at hj
        cases hj
        exact Or.inr (Or.inr (Or.inr ⟨status, t, List.mem_of_getElem? hold, hanswer⟩))

end

/-! ## The definitions a job names -/

theorem id_of_get {catalog : DefinitionCatalog} {id : String} {definition : CredentialDefinition}
    (h : catalog.get id = some definition) : definition.id = id := by
  have hfound := List.find?_some h
  exact beq_iff_eq.mp hfound

theorem collectDefinitions_ids {catalog : DefinitionCatalog} :
    ∀ {ids : List String} {definitions : List CredentialDefinition},
      collectDefinitions catalog ids = .ok definitions → definitions.map (·.id) = ids
  | [], definitions, h => by
      cases h
      rfl
  | id :: ids, definitions, h => by
      rw [collectDefinitions] at h
      split at h
      · cases h
      · rename_i definition hget
        cases hrest : collectDefinitions catalog ids with
        | error e =>
            rw [hrest] at h
            cases h
        | ok rest =>
            rw [hrest] at h
            cases h
            rw [List.map_cons, id_of_get hget, collectDefinitions_ids hrest]

theorem collectDefinitions_isOk {catalog : DefinitionCatalog} :
    ∀ {ids : List String}, (∀ id ∈ ids, (catalog.get id).isSome) →
      ∃ definitions, collectDefinitions catalog ids = .ok definitions
  | [], _ => ⟨[], rfl⟩
  | id :: ids, h => by
      obtain ⟨definition, hget⟩ := Option.isSome_iff_exists.mp (h id List.mem_cons_self)
      obtain ⟨rest, hrest⟩ := collectDefinitions_isOk
        (fun id hid => h id (List.mem_cons_of_mem _ hid))
      refine ⟨definition :: rest, ?_⟩
      rw [collectDefinitions, hget]
      dsimp only
      rw [hrest]
      rfl

/-! ## The copies of one task -/

/-- The job is for the process. -/
structure DeliveryJob.For (job : DeliveryJob) (p : IssuanceProcess) : Prop where
  processId : job.processId = p.id
  holderId : job.holderId = p.holderId
  holderDid : job.holderDid = p.holderDid
  definitions : job.definitions.map (·.id) = p.credentialDefinitions

/-- The record is one of the process. -/
structure IssuedCredential.For (record : IssuedCredential) (p : IssuanceProcess) : Prop where
  processId : record.issuanceProcessId = p.id
  holderId : record.holderId = p.holderId
  holderDid : record.holderDid = p.holderDid

/-- The records are those of the process, one for each definition it names. -/
structure RecordsFor (records : List IssuedCredential) (p : IssuanceProcess) : Prop where
  ids : records.map (·.credentialDefinitionId) = p.credentialDefinitions
  each : ∀ r ∈ records, r.For p

/-- What a task's local variables have to do with its process. -/
def Phase.WorksFor (p : IssuanceProcess) : Phase → Prop
  | .claimed process => p.SameRequest process
  | .resolving job => job.For p
  | .minting job _ todo minted =>
      job.For p ∧ (∀ r ∈ minted.map (·.record), r.For p) ∧
        minted.map (·.record.credentialDefinitionId) ++ todo.map (·.id) = p.credentialDefinitions
  | .waiting minted => RecordsFor (minted.map (·.record)) p
  | .answered records => RecordsFor records p
  | _ => True

section

variable {p p' : IssuanceProcess}

theorem IssuanceProcess.SameRequest.symm (h : p.SameRequest p') : p'.SameRequest p :=
  ⟨h.id.symm, h.holderId.symm, h.holderDid.symm, h.credentialDefinitions.symm⟩

theorem IssuanceProcess.SameRequest.trans {p'' : IssuanceProcess} (h : p.SameRequest p')
    (h' : p'.SameRequest p'') : p.SameRequest p'' :=
  ⟨h'.id.trans h.id, h'.holderId.trans h.holderId, h'.holderDid.trans h.holderDid,
    h'.credentialDefinitions.trans h.credentialDefinitions⟩

theorem DeliveryJob.For.congr {job : DeliveryJob} (h : job.For p) (hp : p.SameRequest p') :
    job.For p' where
  processId := h.processId.trans hp.id.symm
  holderId := h.holderId.trans hp.holderId.symm
  holderDid := h.holderDid.trans hp.holderDid.symm
  definitions := h.definitions.trans hp.credentialDefinitions.symm

theorem IssuedCredential.For.congr {record : IssuedCredential} (h : record.For p)
    (hp : p.SameRequest p') : record.For p' where
  processId := h.processId.trans hp.id.symm
  holderId := h.holderId.trans hp.holderId.symm
  holderDid := h.holderDid.trans hp.holderDid.symm

theorem RecordsFor.congr {records : List IssuedCredential} (h : RecordsFor records p)
    (hp : p.SameRequest p') : RecordsFor records p' where
  ids := h.ids.trans hp.credentialDefinitions.symm
  each r hr := (h.each r hr).congr hp

/-- The copies do not depend on what may change in a process. -/
theorem Phase.WorksFor.congr {phase : Phase} (h : phase.WorksFor p) (hp : p.SameRequest p') :
    phase.WorksFor p' := by
  cases phase with
  | claimed process => exact hp.symm.trans h
  | resolving job => exact DeliveryJob.For.congr h hp
  | minting job endpoint todo minted =>
      obtain ⟨hjob, heach, hids⟩ := h
      exact ⟨hjob.congr hp, fun r hr => (heach r hr).congr hp,
        hids.trans hp.credentialDefinitions.symm⟩
  | waiting minted => exact RecordsFor.congr h hp
  | answered records => exact RecordsFor.congr h hp
  | _ => trivial

/-- **Step lemma, for one task.** A claim copies the stored process; every later
step works from the copies. -/
theorem deliveryStep_worksFor {permitFree : Bool} {app app' : AppState} {t t' : Delivery}
    {event : DeliveryEvent X} (hp : app.requests.get t.processId = some p)
    (hw : t.phase.WorksFor p)
    (h : deliveryStep service permitFree app t event = some (app', t')) : t'.phase.WorksFor p := by
  cases event with
  | claim =>
      simp only [deliveryStep] at h
      split at h
      · rw [hp] at h
        dsimp only at h
        split at h
        · cases h
          exact ⟨rfl, rfl, rfl, rfl⟩
        · cases h
          trivial
      · cases h
  | readDefinitions =>
      simp only [deliveryStep] at h
      split at h
      · rename_i process hphase
        rw [hphase] at hw
        split at h
        · cases h
          trivial
        · rename_i definitions hdefs
          cases h
          exact ⟨hw.id, hw.holderId, hw.holderDid,
            (collectDefinitions_ids hdefs).trans hw.credentialDefinitions⟩
      · cases h
  | resolve answer =>
      simp only [deliveryStep] at h
      split at h
      · rename_i job hphase
        rw [hphase] at hw
        split at h
        · cases h
          trivial
        · cases h
          exact ⟨hw, fun r hr => absurd hr List.not_mem_nil, hw.definitions⟩
      · cases h
  | mint now uuid =>
      simp only [deliveryStep] at h
      split at h
      · rename_i job endpoint definition todo minted hphase
        rw [hphase] at hw
        obtain ⟨hjob, heach, hids⟩ := hw
        split at h
        · cases h
          trivial
        · cases h
          refine ⟨hjob, fun r hr => ?_, ?_⟩
          · rw [List.map_append, List.mem_append] at hr
            rcases hr with hr | hr
            · exact heach r hr
            · rw [List.mem_singleton.mp hr]
              exact ⟨hjob.processId, hjob.holderId, hjob.holderDid⟩
          · rw [List.map_append, List.append_assoc]
            exact hids
      · cases h
  | post now jti =>
      simp only [deliveryStep] at h
      split at h
      · rename_i job endpoint minted hphase
        rw [hphase] at hw
        obtain ⟨-, heach, hids⟩ := hw
        cases h
        rw [List.map_nil, List.append_nil] at hids
        exact ⟨(List.map_map ..).trans hids, heach⟩
      · cases h
  | receive =>
      simp only [deliveryStep] at h
      split at h
      · rename_i hphase hposts
        rw [hphase] at hw
        split at h
        · cases h
          exact hw
        · cases h
          trivial
      · cases h
  | _ =>
      simp only [deliveryStep] at h
      repeat' split at h
      all_goals cases h
      all_goals trivial

end

/-! ## In every reachable state -/

/-- Every task works for its process. -/
def Copies (s : IssuerSys) : Prop :=
  ∀ t ∈ s.deliveries, ∀ p, s.app.requests.get t.processId = some p → t.phase.WorksFor p

/-- The process of a task was there before the step, with the same request. -/
theorem process_of_task {s s' : IssuerSys} {a : IssuerAction X}
    (h : Reachable (issuer service start) s)
    (hstep : (issuer service start).step s a = some s') {t : Delivery} (ht : t ∈ s.deliveries)
    {p' : IssuanceProcess} (hp' : s'.app.requests.get t.processId = some p') :
    ∃ p, s.app.requests.get t.processId = some p ∧ p.Edited p' := by
  rcases (requests_move h hstep).origin hp' with hold | ⟨-, hdraw, -⟩
  · exact hold
  · obtain ⟨-, hfresh, -⟩ := issuer_step_eq_some hstep
    exact absurd ((standing_of_reachable h).taskDrawn t ht) (hfresh _ hdraw)

theorem copies_of_reachable {s : IssuerSys} (h : Reachable (issuer service start) s) :
    Copies s := by
  refine h.invariant_of (J := fun s => Reachable (issuer service start) s) (I := Copies)
    (fun _ hs => hs) (fun t ht => absurd ht List.not_mem_nil) ?_
  intro s₁ a s₂ hr hc hstep t' ht' p' hp'
  rcases task_origin hr hstep ht' with hold | ⟨k, rfl, -⟩ | ⟨i, event, t, ha, ht, hout⟩ |
    ⟨status, t, ht, hanswer⟩
  · obtain ⟨p, hp, hedit⟩ := process_of_task hr hstep hold hp'
    exact (hc t' hold p hp).congr hedit.same
  · trivial
  · have hmem : t ∈ s₁.deliveries := List.mem_of_getElem? ht
    have hpid : t'.processId = t.processId := (deliveryStep_move hout).2.1
    rw [hpid] at hp'
    obtain ⟨p, hp, hedit⟩ := process_of_task hr hstep hmem hp'
    exact (deliveryStep_worksFor hp (hc t hmem p hp) hout).congr hedit.same
  · obtain ⟨call, earlier, -, -, rfl⟩ := Delivery.answer_eq_some hanswer
    obtain ⟨p, hp, hedit⟩ := process_of_task hr hstep ht hp'
    exact (hc t ht p hp).congr hedit.same

end IdentityHub
