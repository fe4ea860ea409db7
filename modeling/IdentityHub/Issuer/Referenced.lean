import IdentityHub.Issuer.Copies

/-!
# The catalog and the processes that refer to it

A process names its definitions by id and reads them when its delivery starts,
maybe much later. The operator may edit the catalog at any time; what holds it
together is that a definition an active process names cannot be removed, and
that a process is only created with ids of the catalog.
-/

namespace IdentityHub

open StepSystem (Reachable Steps)

/-! ## The catalog by itself -/

namespace DefinitionCatalog

variable {catalog catalog' : DefinitionCatalog}

/-- Distinct ids, and no more of them than the catalog may hold. -/
structure WellFormed (catalog : DefinitionCatalog) : Prop where
  distinct : (catalog.definitions.map (·.id)).Nodup
  bounded : catalog.definitions.length ≤ maxCredentialDefinitions

theorem wellFormed_seeded (now : ℕ) : (seeded now).WellFormed where
  distinct := List.nodup_singleton _
  bounded := by
    show 1 ≤ 256
    omega

theorem create_eq_ok {definition : CredentialDefinition}
    (h : catalog.create definition = .ok catalog') :
    catalog.get definition.id = none ∧
      catalog.definitions.length < maxCredentialDefinitions ∧
        catalog'.definitions = catalog.definitions ++ [definition] := by
  unfold create at h
  split at h
  · cases h
  · rename_i hnew
    split at h
    · cases h
    · rename_i hroom
      cases h
      rw [Option.isSome_iff_ne_none, not_not] at hnew
      exact ⟨hnew, not_le.mp hroom, rfl⟩

theorem get_create {definition : CredentialDefinition}
    (h : catalog.create definition = .ok catalog') (k : String) :
    catalog'.get k = if k = definition.id then some definition else catalog.get k := by
  obtain ⟨hnew, -, hd⟩ := create_eq_ok h
  unfold get
  rw [hd]
  exact KeyedList.find?_key_append_new hnew k

theorem WellFormed.create (hw : catalog.WellFormed) {definition : CredentialDefinition}
    (h : catalog.create definition = .ok catalog') : catalog'.WellFormed := by
  obtain ⟨hnew, hroom, hd⟩ := create_eq_ok h
  constructor
  · rw [hd, List.map_append, List.nodup_append]
    refine ⟨hw.distinct, List.nodup_singleton _, ?_⟩
    rintro k hk k' hk' rfl
    rw [List.map_singleton, List.mem_singleton] at hk'
    rw [hk'] at hk
    exact KeyedList.notMem_keys_of_find? hnew hk
  · rw [hd, List.length_append]
    exact hroom

/-- An update replaces one definition, under its id, and keeps its `createdAt`. -/
theorem update_eq_ok {definition updated : CredentialDefinition}
    (h : catalog.update definition = .ok (updated, catalog')) :
    ∃ existing, catalog.get definition.id = some existing ∧
      updated = { definition with createdAt := existing.createdAt } ∧
        updated.id = definition.id ∧
          catalog'.definitions = catalog.definitions.replaceF
            (fun d => if d.id == definition.id then some updated else none) := by
  unfold update at h
  split at h
  · cases h
  · rename_i existing hget
    cases h
    exact ⟨existing, hget, rfl, rfl, rfl⟩

theorem get_update {definition updated : CredentialDefinition}
    (h : catalog.update definition = .ok (updated, catalog')) (k : String) :
    catalog'.get k =
      if k = definition.id then
        (catalog.get k).map (fun d => { definition with createdAt := d.createdAt })
      else catalog.get k := by
  obtain ⟨existing, hget, hupdated, hid, hd⟩ := update_eq_ok h
  unfold get at hget ⊢
  rw [hd, KeyedList.find?_key_replaceF hid k]
  split
  · rename_i hk
    rw [hk, hget, hupdated]
    rfl
  · rfl

theorem WellFormed.update (hw : catalog.WellFormed) {definition updated : CredentialDefinition}
    (h : catalog.update definition = .ok (updated, catalog')) : catalog'.WellFormed := by
  obtain ⟨existing, -, -, hid, hd⟩ := update_eq_ok h
  constructor
  · rw [hd, KeyedList.map_key_replaceF hid]
    exact hw.distinct
  · rw [hd, List.length_replaceF]
    exact hw.bounded

theorem get_remove (id k : String) :
    (catalog.remove id).get k = if k = id then none else catalog.get k :=
  KeyedList.find?_key_filter_ne k

theorem WellFormed.remove (hw : catalog.WellFormed) (id : String) :
    (catalog.remove id).WellFormed where
  distinct := hw.distinct.sublist (List.filter_sublist.map _)
  bounded := (List.length_filter_le _ _).trans hw.bounded

end DefinitionCatalog

/-! ## One step of the service -/

variable {X : External} {service : IssuerService X} {start : ℕ}

/-- What a step does to the catalog. An edit leaves the processes alone, and
removes only what no active process names. -/
inductive CatalogMove (s s' : IssuerSys) : Prop
  | same : s'.app.definitions = s.app.definitions → CatalogMove s s'
  | create (definition : CredentialDefinition) :
      s.app.definitions.create definition = .ok s'.app.definitions →
        s'.app.requests = s.app.requests → CatalogMove s s'
  | update (definition updated : CredentialDefinition) :
      s.app.definitions.update definition = .ok (updated, s'.app.definitions) →
        s'.app.requests = s.app.requests → CatalogMove s s'
  | remove (id : String) :
      s'.app.definitions = s.app.definitions.remove id →
        (∀ p ∈ s.app.requests.iter, p.state.isActive → id ∉ p.credentialDefinitions) →
          s'.app.requests = s.app.requests → CatalogMove s s'

theorem credentialRequest_definitions {app : AppState} {claims : Json.Value}
    {message : CredentialRequestMessage} {now : ℕ} {processId holderUuid : String} :
    (credentialRequest service app claims message now processId holderUuid).app.definitions =
      app.definitions := by
  unfold credentialRequest
  repeat' split
  all_goals try rfl
  unfold admitRequest
  repeat' split
  all_goals rfl

theorem deliveryStep_definitions {permitFree : Bool} {app app' : AppState} {t t' : Delivery}
    {event : DeliveryEvent X}
    (h : deliveryStep service permitFree app t event = some (app', t')) :
    app'.definitions = app.definitions := by
  cases event <;> simp only [deliveryStep] at h
  all_goals repeat' split at h
  all_goals cases h
  all_goals rfl

theorem redemptionStep_definitions {app app' : AppState} {r r' : RedemptionPhase}
    {event : RedemptionEvent} (h : redemptionStep service app r event = some (app', r')) :
    app'.definitions = app.definitions := by
  cases event <;> simp only [redemptionStep] at h
  all_goals repeat' split at h
  all_goals cases h
  all_goals rfl

/-- **Inversion, from the catalog's side.** -/
theorem catalog_move {s s' : IssuerSys} {a : IssuerAction X}
    (hstep : (issuer service start).step s a = some s') : CatalogMove s s' := by
  obtain ⟨-, -, s₁, hp, rfl⟩ := issuer_step_eq_some hstep
  cases a with
  | credentialRequest claims message now processId holderUuid =>
      cases hp
      exact .same credentialRequest_definitions
  | createDefinition input now =>
      cases hp
      cases hr : createDefinition s.app input now with
      | error e => exact .same rfl
      | ok app =>
          obtain ⟨definitions, rfl, definition, hc⟩ := createDefinition_eq_ok hr
          exact .create definition hc rfl
  | updateDefinition input now =>
      cases hp
      cases hr : updateDefinition s.app input now with
      | error e => exact .same rfl
      | ok app =>
          obtain ⟨definitions, rfl, definition, updated, hc⟩ := updateDefinition_eq_ok hr
          exact .update definition updated hc rfl
  | deleteDefinition id =>
      cases hp
      cases hr : deleteDefinition s.app id with
      | error e => exact .same rfl
      | ok app =>
          obtain ⟨definitions, rfl, rfl, hunused⟩ := deleteDefinition_eq_ok hr
          exact .remove id rfl hunused rfl
  | registerHolder registration now uuid =>
      simp only [issuerPerform] at hp
      split at hp
      · cases hp
        exact .same rfl
      · rename_i holder app happ
        cases hp
        obtain ⟨-, holders, -, rfl⟩ := registerHolder_eq_ok happ
        exact .same rfl
  | updateHolder update =>
      cases hp
      cases hr : updateHolder s.app update with
      | error e => exact .same rfl
      | ok app =>
          obtain ⟨f, -, rfl⟩ := updateHolder_eq_ok hr
          exact .same rfl
  | approveHolder holderId now =>
      cases hp
      refine .same ?_
      show (operatorDecision s holderId .approved .approved now).app.definitions = _
      unfold operatorDecision decideHolder
      cases s.app.holders.get holderId <;> rfl
  | rejectHolder holderId now =>
      cases hp
      refine .same ?_
      show (operatorDecision s holderId .rejected .rejected now).app.definitions = _
      unfold operatorDecision decideHolder
      cases s.app.holders.get holderId <;> rfl
  | revokeCredential id =>
      cases hp
      cases hrev : revokeCredential s.app id with
      | error e => exact .same rfl
      | ok r =>
          obtain ⟨issued, -, hr⟩ := revokeCredential_eq_ok hrev
          refine .same ?_
          show r.2.definitions = s.app.definitions
          rw [hr]
  | fetchStatusList now =>
      cases hp
      refine .same ?_
      show (statusList service s.app now).2.definitions = s.app.definitions
      unfold statusList
      split <;> rfl
  | redeem configId holderDid =>
      obtain ⟨definition, -, rfl⟩ := Option.map_eq_some_iff.mp hp
      exact .same rfl
  | redemption i event =>
      obtain ⟨phase, -, hp⟩ := Option.bind_eq_some_iff.mp hp
      obtain ⟨⟨app, phase'⟩, hout, rfl⟩ := Option.map_eq_some_iff.mp hp
      exact .same (redemptionStep_definitions hout)
  | delivery i event =>
      obtain ⟨t, -, hp⟩ := Option.bind_eq_some_iff.mp hp
      obtain ⟨⟨app, t'⟩, hout, rfl⟩ := Option.map_eq_some_iff.mp hp
      exact .same (deliveryStep_definitions hout)
  | storageAnswers i status =>
      obtain ⟨t, -, hp⟩ := Option.bind_eq_some_iff.mp hp
      obtain ⟨t', -, rfl⟩ := Option.map_eq_some_iff.mp hp
      exact .same rfl

section

variable {s s' : IssuerSys}

theorem CatalogMove.wellFormed (hm : CatalogMove s s') (hw : s.app.definitions.WellFormed) :
    s'.app.definitions.WellFormed := by
  cases hm with
  | same hd =>
      rw [hd]
      exact hw
  | create definition hc => exact hw.create hc
  | update definition updated hu => exact hw.update hu
  | remove id hd =>
      rw [hd]
      exact hw.remove id

/-- A definition that is there before and after a step keeps its `createdAt`. -/
theorem CatalogMove.createdAt (hm : CatalogMove s s') {id : String}
    {d d' : CredentialDefinition} (h : s.app.definitions.get id = some d)
    (h' : s'.app.definitions.get id = some d') : d'.createdAt = d.createdAt := by
  cases hm with
  | same hd =>
      rw [hd, h] at h'
      cases h'
      rfl
  | create definition hc =>
      rw [DefinitionCatalog.get_create hc] at h'
      split at h'
      · rename_i hk
        obtain ⟨hnew, -⟩ := DefinitionCatalog.create_eq_ok hc
        rw [← hk, h] at hnew
        cases hnew
      · rw [h] at h'
        cases h'
        rfl
  | update definition updated hu =>
      rw [DefinitionCatalog.get_update hu, h] at h'
      split at h'
      · cases h'
        rfl
      · cases h'
        rfl
  | remove id' hd =>
      rw [hd, DefinitionCatalog.get_remove, h] at h'
      split at h' <;> cases h'
      rfl

end

/-! ## In every reachable state -/

/-- Every definition an active process names is in the catalog. -/
def Referenced (s : IssuerSys) : Prop :=
  ∀ k p, s.app.requests.get k = some p → p.state.isActive →
    ∀ id ∈ p.credentialDefinitions, (s.app.definitions.get id).isSome

/-- The stored processes are the ones the operator's check looks at. -/
theorem mem_iter_of_get {s : IssuerSys} (hc : Capped s) {k : String} {p : IssuanceProcess}
    (hp : s.app.requests.get k = some p) : p ∈ s.app.requests.iter := by
  obtain ⟨inserted, hrun, -⟩ := hc.run
  rw [RequestTable.iter, List.mem_filterMap]
  exact ⟨k, (hrun.kept.queued.mem k).mpr (KeyedTable.mem_of_lookup hp), hp⟩

theorem Referenced.step {s s' : IssuerSys} {a : IssuerAction X} (hr : Referenced s)
    (h : Reachable (issuer service start) s)
    (hstep : (issuer service start).step s a = some s') : Referenced s' := by
  intro k p' hp' hactive id hid
  cases catalog_move hstep with
  | same hd =>
      rw [hd]
      rcases (requests_move h hstep).origin hp' with ⟨p, hp, hedit⟩ | ⟨-, -, hids⟩
      · rw [hedit.same.credentialDefinitions] at hid
        exact hr k p hp (hedit.active hactive) id hid
      · exact hids hactive id hid
  | create definition hc hsame =>
      rw [hsame] at hp'
      rw [DefinitionCatalog.get_create hc]
      split
      · rfl
      · exact hr k p' hp' hactive id hid
  | update definition updated hu hsame =>
      rw [hsame] at hp'
      rw [DefinitionCatalog.get_update hu]
      split
      · rw [Option.isSome_map]
        exact hr k p' hp' hactive id hid
      · exact hr k p' hp' hactive id hid
  | remove removed hd hunused hsame =>
      rw [hsame] at hp'
      rw [hd, DefinitionCatalog.get_remove]
      split
      · rename_i hk
        rw [hk] at hid
        exact absurd hid (hunused p' (mem_iter_of_get (capped_of_reachable h) hp') hactive)
      · exact hr k p' hp' hactive id hid

theorem referenced_of_reachable {s : IssuerSys} (h : Reachable (issuer service start) s) :
    Referenced s := by
  refine h.invariant_of (J := fun s => Reachable (issuer service start) s) (I := Referenced)
    (fun _ hs => hs) (fun k p hp => ?_) (fun s₁ a s₂ hreach hr hstep => hr.step hreach hstep)
  rw [show (issuer service start).init.app.requests = .new maxTrackedRequests from rfl,
    RequestTable.get_new] at hp
  cases hp

/-- The definitions of a process that is being delivered are all there. -/
theorem collects_of_claimed {s : IssuerSys} (h : Reachable (issuer service start) s)
    {t : Delivery} (ht : t ∈ s.deliveries) {process : IssuanceProcess}
    (hphase : t.phase = .claimed process) :
    ∃ definitions,
      collectDefinitions s.app.definitions process.credentialDefinitions = .ok definitions := by
  have hs := standing_of_reachable h
  have hclaimed : t.claimed = true :=
    (hs.sound t ht).working (by rw [hphase]; rfl) (by rw [hphase]; rfl)
  obtain ⟨p, hp, hstate, -⟩ := hs.working t ht hclaimed (by rw [hphase]; rfl)
  have hcopy := copies_of_reachable h t ht p hp
  rw [hphase] at hcopy
  apply collectDefinitions_isOk
  intro id hid
  rw [hcopy.credentialDefinitions] at hid
  exact referenced_of_reachable h _ p hp (by rw [hstate]; rfl) id hid

/-- **The catalog has what the processes refer to.** In every reachable state
the ids of the catalog are distinct and at most `maxCredentialDefinitions`; a
definition keeps its `createdAt` for as long as it stays in the catalog; every
id an active process lists is in the catalog; and a delivery that reads its
definitions finds them all, so it never ends because one no longer exists. -/
theorem catalog_referenced {s : IssuerSys} (h : Reachable (issuer service start) s) :
    ((s.app.definitions.definitions.map (·.id)).Nodup ∧
        s.app.definitions.definitions.length ≤ maxCredentialDefinitions) ∧
      (∀ id d s' d', s.app.definitions.get id = some d →
        Steps (issuer service start) (fun s₁ _ => (s₁.app.definitions.get id).isSome) s s' →
          s'.app.definitions.get id = some d' → d'.createdAt = d.createdAt) ∧
        (∀ k p, s.app.requests.get k = some p → p.state = .submitted ∨ p.state = .approved →
          ∀ id ∈ p.credentialDefinitions, (s.app.definitions.get id).isSome) ∧
          ∀ t ∈ s.deliveries, ∀ process, t.phase = .claimed process →
            ∃ definitions,
              collectDefinitions s.app.definitions process.credentialDefinitions =
                .ok definitions := by
  have hw : s.app.definitions.WellFormed := h.invariant
    (I := fun s => s.app.definitions.WellFormed) (DefinitionCatalog.wellFormed_seeded start)
    (fun s₁ a s₂ hw hstep => (catalog_move hstep).wellFormed hw)
  refine ⟨⟨hw.distinct, hw.bounded⟩, fun id d s' d' hd hsteps => ?_, fun k p hp hstate => ?_,
    fun t ht process hphase => collects_of_claimed h ht hphase⟩
  · refine hsteps.mono (R := fun s s' : IssuerSys => ∀ d', s'.app.definitions.get id = some d' →
      d'.createdAt = d.createdAt) h (fun d' hd' => ?_) ?_ d'
    · rw [hd] at hd'
      cases hd'
      rfl
    · intro s₁ a s₂ _ hstays hstep hbefore d₂ hd₂
      obtain ⟨d₁, hd₁⟩ := Option.isSome_iff_exists.mp hstays
      exact ((catalog_move hstep).createdAt hd₁ hd₂).trans (hbefore d₁ hd₁)
  · refine referenced_of_reachable h k p hp ?_
    rcases hstate with hstate | hstate <;> rw [hstate] <;> rfl

/-- An APPROVED process waits for its delivery; its definition is there. -/
theorem catalog_referenced_sample :
    ∃ s p, Reachable (issuer (sampleIssuer .auto) 0) s ∧
      s.app.requests.get "process-1" = some p ∧ p.state = .approved ∧
        (s.app.definitions.get "membership-credential").isSome := by
  obtain ⟨s, hr, hp⟩ := StepSystem.exists_reachable_of_run
    (M := issuer (sampleIssuer .auto) 0) [sampleRequest "process-1" "holder-1" 5]
    (p := fun s => (s.app.requests.get "process-1").any (fun p =>
      p.state = .approved ∧ "membership-credential" ∈ p.credentialDefinitions))
    (by decide +kernel)
  obtain ⟨p, hget, hfacts⟩ := Option.any_eq_true _ _ |>.mp hp
  obtain ⟨hstate, hid⟩ := of_decide_eq_true hfacts
  exact ⟨s, p, hr, hget, hstate,
    (catalog_referenced hr).2.2.1 "process-1" p hget (Or.inr hstate) _ hid⟩

end IdentityHub
