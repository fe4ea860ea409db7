import IdentityHub.Issuer.System

/-!
# What a step can do to holders, processes and delivery tasks

Most steps of the Issuer Service leave the three alone. This file says once what
the others do: `Move` has one case for each way a step changes them, and
`issuer_step_move` puts every step of the machine into one of the cases. The
invariants of the next files are proved from `Move`, never from the step
function.

`Delivery.Sound` is the part of the story one task can tell by itself: it has
claimed its process before it mints, and it posts at most once.
-/

namespace IdentityHub

open StepSystem (Machine)

variable {X : External} {service : IssuerService X} {start : ℕ}

/-! ## One task -/

/-- The task has not got past the claim. -/
def Phase.beforeClaim : Phase → Bool
  | .toSpawn | .queued | .permitted => true
  | _ => false

/-- The task has not got past its post. -/
def Phase.beforePost : Phase → Bool
  | .claimed _ | .resolving _ | .minting .. => true
  | phase => phase.beforeClaim

/-- What a task's phase says about its flag and its posts. -/
structure Delivery.Sound (task : Delivery) : Prop where
  unclaimed : task.phase.beforeClaim → task.claimed = false
  working : task.phase.beforeClaim = false → task.phase.isDone = false → task.claimed = true
  noPost : task.phase.beforePost → task.posts = []
  onePost : task.posts.length ≤ 1
  posts_of_unclaimed : task.claimed = false → task.posts = []
  outcome : ∀ state errorDetail, task.phase = .finishing state errorDetail →
    state = .delivered ∨ state = .errored

theorem Delivery.sound_new (processId : String) : (Delivery.new processId).Sound where
  unclaimed _ := rfl
  working h _ := nomatch h
  noPost _ := rfl
  onePost := Nat.zero_le 1
  posts_of_unclaimed _ := rfl
  outcome _ _ h := nomatch h

/-- What one step of a task does to the processes and to its own standing. -/
inductive TaskMove (app : AppState) (task : Delivery) (event : DeliveryEvent X)
    (app' : AppState) (task' : Delivery) : Prop
  | progress :
      app'.requests = app.requests → task'.phase.isDone = task.phase.isDone →
        task'.claimed = task.claimed → TaskMove app task event app' task'
  | claim (p : IssuanceProcess) :
      task.phase = .permitted → app.requests.get task.processId = some p →
        p.state = .approved → app' = startDelivery app task.processId →
          task'.claimed = true → task'.phase.isDone = false →
            TaskMove app task event app' task'
  | abandon :
      task.phase = .permitted →
        (∀ p, app.requests.get task.processId = some p → p.state ≠ .approved) →
          app'.requests = app.requests → task'.claimed = task.claimed →
            task'.phase.isDone = true → TaskMove app task event app' task'
  | close (state : ProcessState) (errorDetail : Option String) (now : ℕ) :
      event = .finish now → task.phase = .finishing state errorDetail →
        app' = closeProcess app task.processId state errorDetail now →
          task'.claimed = task.claimed → task'.phase.isDone = true →
            TaskMove app task event app' task'

/-- A task's step leaves the holders alone, keeps its process id and its posts;
what else it does is one of the moves. -/
theorem deliveryStep_move {permitFree : Bool} {app app' : AppState} {task task' : Delivery}
    {event : DeliveryEvent X}
    (h : deliveryStep service permitFree app task event = some (app', task')) :
    app'.holders = app.holders ∧ task'.processId = task.processId ∧
      task.posts.length ≤ task'.posts.length ∧ TaskMove app task event app' task' := by
  cases event with
  | claim =>
      simp only [deliveryStep] at h
      split at h
      · rename_i hphase
        split at h
        · rename_i p hp
          split at h
          · rename_i hstate
            cases h
            exact ⟨rfl, rfl, le_rfl, .claim p hphase hp hstate rfl rfl rfl⟩
          · rename_i hstate
            cases h
            refine ⟨rfl, rfl, le_rfl, .abandon hphase (fun q hq => ?_) rfl rfl rfl⟩
            rw [hp] at hq
            cases hq
            exact hstate
        · rename_i hp
          cases h
          refine ⟨rfl, rfl, le_rfl, .abandon hphase (fun q hq => ?_) rfl rfl rfl⟩
          rw [hp] at hq
          cases hq
      · cases h
  | finish now =>
      simp only [deliveryStep] at h
      split at h
      · rename_i state errorDetail hphase
        cases h
        exact ⟨rfl, rfl, le_rfl, .close state errorDetail now rfl hphase rfl rfl rfl⟩
      · cases h
  | _ =>
      -- every other step moves on inside the task
      simp only [deliveryStep] at h
      repeat' split at h
      all_goals cases h
      all_goals refine ⟨rfl, rfl, ?_, .progress rfl ?_ rfl⟩
      all_goals simp_all [Phase.isDone]

theorem deliveryStep_sound {permitFree : Bool} {app app' : AppState} {task task' : Delivery}
    {event : DeliveryEvent X} (hs : task.Sound)
    (h : deliveryStep service permitFree app task event = some (app', task')) : task'.Sound := by
  obtain ⟨hu, hw, hn, ho, hp, hout⟩ := hs
  cases event with
  | post now jti =>
      simp only [deliveryStep] at h
      split at h
      · rename_i hphase
        cases h
        rw [hphase] at hw hn
        have hclaimed : task.claimed = true := hw rfl rfl
        have hposts : task.posts = [] := hn rfl
        exact
          { unclaimed := fun h => nomatch h
            working := fun _ _ => hclaimed
            noPost := fun h => nomatch h
            onePost := by simp [hposts]
            posts_of_unclaimed := fun hc => absurd (hclaimed.symm.trans hc) (by decide)
            outcome := fun _ _ h => nomatch h }
      · cases h
  | _ =>
      simp only [deliveryStep] at h
      repeat' split at h
      all_goals cases h
      all_goals constructor
      all_goals simp_all [Phase.beforeClaim, Phase.beforePost, Phase.isDone]

/-! ## The holders -/

/-- Every record is stored under its own id. -/
def HolderRegistry.Keyed (registry : HolderRegistry) : Prop :=
  ∀ k holder, registry.get k = some holder → holder.holderId = k

theorem HolderRegistry.Keyed.modify {registry : HolderRegistry} (hkeys : registry.Keyed)
    (holderId : String) {f : Holder → Holder} (hf : ∀ h, (f h).holderId = h.holderId) :
    (registry.modify holderId f).Keyed := by
  intro k holder h
  rw [HolderRegistry.get_modify] at h
  split at h
  · obtain ⟨old, hold, rfl⟩ := Option.map_eq_some_iff.mp h
    rw [hf old]
    exact hkeys k old hold
  · exact hkeys k holder h

/-- What becomes of the holders and of the operator's list, a decision apart:
nothing, a first contact, a registration, or an edit of a record's other
fields. -/
inductive HoldersMove (service : IssuerService X) (holders : HolderRegistry)
    (vouched : List String) : HolderRegistry → List String → Prop
  | same : HoldersMove service holders vouched holders vouched
  | contact (holder : Holder) {holders' : HolderRegistry} :
      holders.insert holder = .ok (holder, holders') →
        holder.status = service.holderApproval.firstStatus →
          HoldersMove service holders vouched holders' vouched
  | register (holder : Holder) {holders' : HolderRegistry} :
      holders.insert holder = .ok (holder, holders') → holder.status = .approved →
        HoldersMove service holders vouched holders' (holder.holderId :: vouched)
  | edit (holderId : String) (f : Holder → Holder) :
      (∀ h, (f h).holderId = h.holderId ∧ (f h).did = h.did ∧ (f h).status = h.status) →
        HoldersMove service holders vouched (holders.modify holderId f) vouched

section

variable {holders holders' : HolderRegistry} {vouched vouched' : List String}

/-- What is already registered keeps its id, its DID and its status. -/
theorem HoldersMove.get_kept (hm : HoldersMove service holders vouched holders' vouched')
    {k : String} {holder : Holder} (h : holders.get k = some holder) :
    ∃ holder', holders'.get k = some holder' ∧ holder'.holderId = holder.holderId ∧
      holder'.did = holder.did ∧ holder'.status = holder.status := by
  have inserted : ∀ {new : Holder} {r : HolderRegistry},
      holders.insert new = .ok (new, r) → r.get k = some holder := by
    intro new r hr
    obtain ⟨-, hnew, -⟩ := HolderRegistry.insert_eq_ok hr
    rw [HolderRegistry.get_insert hr, if_neg, h]
    rintro rfl
    rw [h] at hnew
    cases hnew
  cases hm with
  | same => exact ⟨holder, h, rfl, rfl, rfl⟩
  | contact new hr => exact ⟨holder, inserted hr, rfl, rfl, rfl⟩
  | register new hr => exact ⟨holder, inserted hr, rfl, rfl, rfl⟩
  | edit holderId f hf =>
      rw [HolderRegistry.get_modify]
      by_cases hk : k = holderId
      · rw [if_pos hk, h]
        exact ⟨f holder, rfl, hf holder⟩
      · rw [if_neg hk, h]
        exact ⟨holder, rfl, rfl, rfl, rfl⟩

theorem HoldersMove.get_status (hm : HoldersMove service holders vouched holders' vouched')
    {k : String} {holder : Holder} (h : holders.get k = some holder) :
    ∃ holder', holders'.get k = some holder' ∧ holder'.status = holder.status := by
  obtain ⟨holder', hget, -, -, hstatus⟩ := hm.get_kept h
  exact ⟨holder', hget, hstatus⟩

theorem HoldersMove.keyed (hm : HoldersMove service holders vouched holders' vouched')
    (hkeys : holders.Keyed) : holders'.Keyed := by
  have inserted : ∀ {new : Holder} {r : HolderRegistry},
      holders.insert new = .ok (new, r) → r.Keyed := by
    intro new r hr k holder h
    rw [HolderRegistry.get_insert hr] at h
    split at h
    · rename_i hk
      cases h
      exact hk.symm
    · exact hkeys k holder h
  cases hm with
  | same => exact hkeys
  | contact new hr => exact inserted hr
  | register new hr => exact inserted hr
  | edit holderId f hf => exact hkeys.modify holderId (fun h => (hf h).1)

/-- The record a request works with is the registered one. -/
theorem findOrInsertHolder_eq_ok {did uuid : String} {now : ℕ} {holder : Holder}
    (hkeys : holders.Keyed)
    (h : findOrInsertHolder service holders did now uuid = .ok (holder, holders')) :
    holders'.get holder.holderId = some holder ∧
      HoldersMove service holders vouched holders' vouched := by
  unfold findOrInsertHolder at h
  split at h
  · rename_i found hfound
    cases h
    obtain ⟨k, -, hk⟩ := HolderRegistry.get_of_byDid hfound
    rw [hkeys k _ hk]
    exact ⟨hk, .same⟩
  · have hnew := (HolderRegistry.insert_eq_ok h).1
    dsimp only at hnew
    have hget := HolderRegistry.get_insert h holder.holderId
    rw [← hnew] at h hget
    rw [if_pos rfl] at hget
    refine ⟨hget, .contact holder h ?_⟩
    rw [hnew]

end

/-! ## One step of the service -/

/-- The processes a decision is about to be delivered for. -/
def approvedTasks (s : IssuerSys) (holderId : String) (next : ProcessState) : List Delivery :=
  if next = .approved then
    (((KeyedTable.values s.app.requests.records).filter (isDecided holderId next)).map
      (·.id)).map Delivery.new
  else []

/-- What one step does to the holders, the processes and the tasks. -/
inductive Move (service : IssuerService X) (s : IssuerSys) (a : IssuerAction X)
    (s' : IssuerSys) : Prop
  /-- Processes and tasks stay as they are. -/
  | quiet :
      HoldersMove service s.app.holders s.vouched s'.app.holders s'.vouched →
        s'.app.requests = s.app.requests → s'.deliveries = s.deliveries →
          Move service s a s'
  /-- A Credential Request is accepted. -/
  | accepted (p : IssuanceProcess) (holder : Holder) :
      HoldersMove service s.app.holders s.vouched s'.app.holders s'.vouched →
        s'.app.holders.get p.holderId = some holder →
          holder.status.processState = some p.state → p.deliveryStarted = false →
            p.id ∈ a.draws → s.app.requests.insert p.id p = .ok s'.app.requests →
              s'.deliveries =
                  s.deliveries ++ (if p.state = .approved then [Delivery.new p.id] else []) →
                Move service s a s'
  /-- An OID4VCI redemption records its process. -/
  | recorded (p : IssuanceProcess) :
      s'.app.holders = s.app.holders → s'.vouched = s.vouched → p.state = .delivered →
        p.id ∈ a.draws → s.app.requests.insert p.id p = .ok s'.app.requests →
          s'.deliveries = s.deliveries → Move service s a s'
  /-- The operator approves or rejects a holder. -/
  | decided (holderId : String) (status : HolderStatus) (next : ProcessState) (now : ℕ)
      (holder : Holder) :
      s.app.holders.get holderId = some holder →
        status = .approved ∧ next = .approved ∧ s'.vouched = holderId :: s.vouched ∨
            status = .rejected ∧ next = .rejected ∧ s'.vouched = s.vouched →
          s'.app.holders =
              s.app.holders.modify holderId (fun h => { h with status := status }) →
            s'.app.requests = s.app.requests.mapRecords
                (fun p => if isDecided holderId next p then p.transition next now else p) →
              s'.deliveries = s.deliveries ++ approvedTasks s holderId next →
                (status = .approved → a = .approveHolder holderId now) → Move service s a s'
  /-- A delivery task takes a step. -/
  | task (i : ℕ) (t t' : Delivery) (event : DeliveryEvent X) :
      a = .delivery i event → s.deliveries[i]? = some t →
        s'.app.holders = s.app.holders → s'.vouched = s.vouched →
          t'.processId = t.processId → t.posts.length ≤ t'.posts.length →
            (t.Sound → t'.Sound) → TaskMove s.app t event s'.app t' →
              s'.deliveries = s.deliveries.set i t' → Move service s a s'
  /-- A Storage API answers a post. -/
  | answered (i : ℕ) (t t' : Delivery) :
      s.deliveries[i]? = some t → t'.processId = t.processId → t'.phase = t.phase →
        t'.claimed = t.claimed → t'.posts.length = t.posts.length →
          (t.Sound → t'.Sound) → s'.app = s.app → s'.vouched = s.vouched →
            s'.deliveries = s.deliveries.set i t' → Move service s a s'

theorem Delivery.answer_eq_some {task task' : Delivery} {status : ℕ}
    (h : task.answer status = some task') :
    ∃ call earlier, task.posts = call :: earlier ∧ call.answer = none ∧
      task' = { task with posts := { call with answer := some status } :: earlier } := by
  unfold Delivery.answer at h
  split at h
  · rename_i call earlier hposts
    split at h
    · rename_i hnone
      cases h
      exact ⟨call, earlier, hposts, hnone, rfl⟩
    · cases h
  · cases h

theorem Delivery.Sound.answer {task task' : Delivery} {status : ℕ} (hs : task.Sound)
    (h : task.answer status = some task') : task'.Sound := by
  obtain ⟨call, earlier, hposts, -, rfl⟩ := Delivery.answer_eq_some h
  obtain ⟨hu, hw, hn, ho, hp, hout⟩ := hs
  rw [hposts] at hn ho hp
  exact
    { unclaimed := hu
      working := hw
      noPost := fun h => nomatch hn h
      onePost := ho
      posts_of_unclaimed := fun h => nomatch hp h
      outcome := hout }

/-- **A Credential Request, from the tables' side**: no process and no delivery,
or one new process of a registered holder in the state its status gives. -/
theorem credentialRequest_cases {app : AppState} (vouched : List String)
    {claims : Json.Value} {message : CredentialRequestMessage} {now : ℕ}
    {processId holderUuid : String} {out : RequestOutcome} (hkeys : app.holders.Keyed)
    (h : credentialRequest service app claims message now processId holderUuid = out) :
    HoldersMove service app.holders vouched out.app.holders vouched ∧
      ((out.deliverNow = false ∧ out.app.requests = app.requests) ∨
        ∃ p holder, out.app.holders.get p.holderId = some holder ∧
          holder.status.processState = some p.state ∧ p.deliveryStarted = false ∧
            p.id = processId ∧ app.requests.insert p.id p = .ok out.app.requests ∧
              out.deliverNow = Decidable.decide (p.state = .approved)) := by
  unfold credentialRequest at h
  split at h
  · subst h
    exact ⟨.same, Or.inl ⟨rfl, rfl⟩⟩
  · split at h
    · subst h
      exact ⟨.same, Or.inl ⟨rfl, rfl⟩⟩
    · split at h
      · subst h
        exact ⟨.same, Or.inl ⟨rfl, rfl⟩⟩
      · rename_i holder holders hfind
        obtain ⟨hget, hmove⟩ := findOrInsertHolder_eq_ok hkeys hfind
        unfold admitRequest at h
        split at h
        · subst h
          exact ⟨hmove, Or.inl ⟨rfl, rfl⟩⟩
        · rename_i state hstate
          split at h
          · subst h
            exact ⟨hmove, Or.inl ⟨rfl, rfl⟩⟩
          · split at h
            · subst h
              exact ⟨hmove, Or.inl ⟨rfl, rfl⟩⟩
            · rename_i requests hins
              subst h
              exact ⟨hmove, Or.inr ⟨requestedProcess processId state holder _ message _ _ now,
                holder, hget, hstate, rfl, rfl, hins, rfl⟩⟩

/-- The handlers that only edit the catalog, the credentials or a holder's
descriptive fields. -/
theorem settle_quiet (service : IssuerService X) {s : IssuerSys} {r : Except IssuerError AppState}
    (h : ∀ app, r = .ok app → app.requests = s.app.requests ∧
      HoldersMove service s.app.holders s.vouched app.holders s.vouched) :
    HoldersMove service s.app.holders s.vouched (s.settle r).app.holders (s.settle r).vouched ∧
      (s.settle r).app.requests = s.app.requests ∧ (s.settle r).deliveries = s.deliveries := by
  cases r with
  | error e => exact ⟨.same, rfl, rfl⟩
  | ok app => exact ⟨(h app rfl).2, (h app rfl).1, rfl⟩

theorem createDefinition_eq_ok {app app' : AppState} {input : CredentialDefinitionInput}
    {now : ℕ} (h : createDefinition app input now = .ok app') :
    ∃ definitions, app' = { app with definitions := definitions } ∧
      ∃ definition, app.definitions.create definition = .ok definitions := by
  unfold createDefinition at h
  cases hd : input.intoDefinition now with
  | error e => simp [hd, bind, Except.bind] at h
  | ok definition =>
      cases hc : app.definitions.create definition with
      | error e => simp [hd, hc, bind, Except.bind] at h
      | ok definitions =>
          simp only [hd, hc, bind, Except.bind, pure, Except.pure, Except.ok.injEq] at h
          exact ⟨definitions, h.symm, definition, hc⟩

theorem updateDefinition_eq_ok {app app' : AppState} {input : CredentialDefinitionInput}
    {now : ℕ} (h : updateDefinition app input now = .ok app') :
    ∃ definitions, app' = { app with definitions := definitions } ∧
      ∃ definition updated, app.definitions.update definition = .ok (updated, definitions) := by
  unfold updateDefinition at h
  cases hd : input.intoDefinition now with
  | error e => simp [hd, bind, Except.bind] at h
  | ok definition =>
      cases hc : app.definitions.update definition with
      | error e => simp [hd, hc, bind, Except.bind] at h
      | ok updated =>
          simp only [hd, hc, bind, Except.bind, pure, Except.pure, Except.ok.injEq] at h
          exact ⟨updated.2, h.symm, definition, updated.1, hc⟩

theorem deleteDefinition_eq_ok {app app' : AppState} {id : String}
    (h : deleteDefinition app id = .ok app') :
    ∃ definitions, app' = { app with definitions := definitions } ∧
      definitions = app.definitions.remove id ∧
        ∀ p ∈ app.requests.iter, p.state.isActive → id ∉ p.credentialDefinitions := by
  unfold deleteDefinition at h
  split at h
  · cases h
  · split at h
    · cases h
    · rename_i hunused
      cases h
      refine ⟨_, rfl, rfl, fun p hp hactive hid => hunused ?_⟩
      rw [List.any_eq_true]
      exact ⟨p, hp, Bool.and_eq_true_iff.mpr ⟨hactive, List.contains_iff_mem.mpr hid⟩⟩

theorem revokeCredential_eq_ok {app : AppState} {id : String} {r : IssuedCredential × AppState}
    (h : revokeCredential app id = .ok r) :
    ∃ issued, app.issued.revoke id = some (r.1, issued) ∧
      r.2 = { app with issued := issued } := by
  unfold revokeCredential at h
  split at h
  · rename_i record issued hrevoke
    cases h
    exact ⟨issued, hrevoke, rfl⟩
  · cases h

theorem registerHolder_eq_ok {app : AppState} {registration : HolderRegistration} {now : ℕ}
    {uuid : String} {r : Holder × AppState} (h : registerHolder app registration now uuid = .ok r) :
    r.1.status = .approved ∧ ∃ holders, app.holders.insert r.1 = .ok (r.1, holders) ∧
      r.2 = { app with holders := holders } := by
  unfold registerHolder at h
  split at h
  · cases h
  · split at h
    · cases h
    · simp only [bind, Except.bind] at h
      split at h
      · cases h
      · rename_i inserted hins
        cases h
        have hnew := (HolderRegistry.insert_eq_ok hins).1
        refine ⟨by rw [hnew], inserted.2, ?_, rfl⟩
        show app.holders.insert inserted.1 = .ok (inserted.1, inserted.2)
        rw [← hins, hnew]

theorem updateHolder_eq_ok {app app' : AppState} {update : HolderUpdate}
    (h : updateHolder app update = .ok app') :
    ∃ f : Holder → Holder,
      (∀ x, (f x).holderId = x.holderId ∧ (f x).did = x.did ∧ (f x).status = x.status) ∧
        app' = { app with holders := app.holders.modify update.holderId f } := by
  unfold updateHolder at h
  split at h
  · cases h
  · cases h
    let f : Holder → Holder := fun h =>
      { h with
        name := update.name.or h.name
        properties := update.properties.getD h.properties }
    exact ⟨f, fun _ => ⟨rfl, rfl, rfl⟩, rfl⟩

/-- A section of a redemption leaves everything alone, registers the holder on
first contact, or records its DELIVERED process. -/
theorem redemptionStep_cases {app app' : AppState} {phase phase' : RedemptionPhase}
    {event : RedemptionEvent} (vouched : List String) (hkeys : app.holders.Keyed)
    (h : redemptionStep service app phase event = some (app', phase')) :
    (HoldersMove service app.holders vouched app'.holders vouched ∧
        app'.requests = app.requests) ∨
      (app'.holders = app.holders ∧ ∃ p : IssuanceProcess, p.state = .delivered ∧
        p.id ∈ event.draws ∧ app.requests.insert p.id p = .ok app'.requests) := by
  cases event with
  | govern now uuid =>
      left
      simp only [redemptionStep] at h
      split at h
      · split at h
        · split at h <;> cases h <;> exact ⟨.same, rfl⟩
        · split at h
          · cases h
            exact ⟨.same, rfl⟩
          · rename_i holder holders hfind
            cases h
            exact ⟨(findOrInsertHolder_eq_ok hkeys hfind).2, rfl⟩
      · cases h
  | insert processId =>
      simp only [redemptionStep] at h
      split at h
      · rename_i job holderId index
        split at h
        · cases h
          exact Or.inl ⟨.same, rfl⟩
        · rename_i requests hins
          cases h
          exact Or.inr ⟨rfl, redemptionProcess job holderId processId, rfl,
            List.mem_singleton.mpr rfl, hins⟩
      · cases h
  | _ =>
      left
      simp only [redemptionStep] at h
      repeat' split at h
      all_goals cases h
      all_goals exact ⟨.same, rfl⟩

/-- A decision, from the tables' side. -/
theorem operatorDecision_move {s : IssuerSys} {a : IssuerAction X} {holderId : String}
    {status : HolderStatus} {next : ProcessState} {now : ℕ} {drawn : List String}
    (hpair : status = .approved ∧ next = .approved ∨ status = .rejected ∧ next = .rejected)
    (ha : status = .approved → a = .approveHolder holderId now) :
    Move service s a { operatorDecision s holderId status next now with drawn := drawn } := by
  unfold operatorDecision decideHolder
  cases hget : s.app.holders.get holderId with
  | none => exact .quiet .same rfl rfl
  | some holder =>
      refine .decided holderId status next now holder hget ?_ rfl rfl rfl ha
      rcases hpair with ⟨rfl, rfl⟩ | ⟨rfl, rfl⟩
      · exact Or.inl ⟨rfl, rfl, rfl⟩
      · exact Or.inr ⟨rfl, rfl, rfl⟩

/-- **Inversion.** Every step of the service is one of the moves. -/
theorem issuer_step_move {s s' : IssuerSys} {a : IssuerAction X}
    (hkeys : s.app.holders.Keyed) (h : (issuer service start).step s a = some s') :
    Move service s a s' := by
  obtain ⟨-, -, s₁, hp, rfl⟩ := issuer_step_eq_some h
  cases a with
  | credentialRequest claims message now processId holderUuid =>
      cases hp
      obtain ⟨hmove, ⟨hd, hr⟩ | ⟨p, holder, hget, hstate, hstarted, rfl, hins, hd⟩⟩ :=
        credentialRequest_cases s.vouched hkeys
          (rfl : credentialRequest service s.app claims message now processId holderUuid = _)
      · exact .quiet hmove hr (by simp [hd])
      · exact .accepted p holder hmove hget hstate hstarted List.mem_cons_self hins
          (by simp [hd])
  | createDefinition input now =>
      cases hp
      obtain ⟨hm, hr, hd⟩ := settle_quiet service (s := s)
        (r := createDefinition s.app input now) (fun app happ => by
          obtain ⟨_, rfl, -⟩ := createDefinition_eq_ok happ
          exact ⟨rfl, .same⟩)
      exact .quiet hm hr hd
  | updateDefinition input now =>
      cases hp
      obtain ⟨hm, hr, hd⟩ := settle_quiet service (s := s)
        (r := updateDefinition s.app input now) (fun app happ => by
          obtain ⟨_, rfl, -⟩ := updateDefinition_eq_ok happ
          exact ⟨rfl, .same⟩)
      exact .quiet hm hr hd
  | deleteDefinition id =>
      cases hp
      obtain ⟨hm, hr, hd⟩ := settle_quiet service (s := s)
        (r := deleteDefinition s.app id) (fun app happ => by
          obtain ⟨_, rfl, -⟩ := deleteDefinition_eq_ok happ
          exact ⟨rfl, .same⟩)
      exact .quiet hm hr hd
  | registerHolder registration now uuid =>
      simp only [issuerPerform] at hp
      split at hp
      · cases hp
        exact .quiet .same rfl rfl
      · rename_i holder app happ
        cases hp
        obtain ⟨hstatus, holders, hins, rfl⟩ := registerHolder_eq_ok happ
        exact .quiet (.register holder hins hstatus) rfl rfl
  | updateHolder update =>
      cases hp
      obtain ⟨hm, hr, hd⟩ := settle_quiet service (s := s)
        (r := updateHolder s.app update) (fun app happ => by
          obtain ⟨f, hf, rfl⟩ := updateHolder_eq_ok happ
          exact ⟨rfl, .edit _ f hf⟩)
      exact .quiet hm hr hd
  | approveHolder holderId now =>
      cases hp
      exact operatorDecision_move (Or.inl ⟨rfl, rfl⟩) (fun _ => rfl)
  | rejectHolder holderId now =>
      cases hp
      exact operatorDecision_move (Or.inr ⟨rfl, rfl⟩) (fun h => by cases h)
  | revokeCredential id =>
      cases hp
      obtain ⟨hm, hr, hd⟩ := settle_quiet service (s := s)
        (r := (revokeCredential s.app id).map (·.2)) (fun app happ => by
          cases hrev : revokeCredential s.app id with
          | error e =>
              rw [hrev] at happ
              cases happ
          | ok r =>
              rw [hrev] at happ
              obtain ⟨issued, -, hr⟩ := revokeCredential_eq_ok hrev
              cases happ
              show r.2.requests = _ ∧ HoldersMove service _ _ r.2.holders _
              rw [hr]
              exact ⟨rfl, .same⟩)
      exact .quiet hm hr hd
  | fetchStatusList now =>
      cases hp
      have happ : (statusList service s.app now).2.holders = s.app.holders ∧
          (statusList service s.app now).2.requests = s.app.requests := by
        unfold statusList
        split <;> exact ⟨rfl, rfl⟩
      refine .quiet ?_ happ.2 rfl
      show HoldersMove service _ _ (statusList service s.app now).2.holders _
      rw [happ.1]
      exact .same
  | redeem configId holderDid =>
      obtain ⟨definition, -, rfl⟩ := Option.map_eq_some_iff.mp hp
      exact .quiet .same rfl rfl
  | redemption i event =>
      obtain ⟨phase, -, hp⟩ := Option.bind_eq_some_iff.mp hp
      obtain ⟨⟨app, phase'⟩, hout, rfl⟩ := Option.map_eq_some_iff.mp hp
      rcases redemptionStep_cases s.vouched hkeys hout with
        ⟨hm, hr⟩ | ⟨hh, p, hstate, hid, hins⟩
      · exact .quiet hm hr rfl
      · exact .recorded p hh rfl hstate hid hins rfl
  | delivery i event =>
      obtain ⟨t, ht, hp⟩ := Option.bind_eq_some_iff.mp hp
      obtain ⟨⟨app, t'⟩, hout, rfl⟩ := Option.map_eq_some_iff.mp hp
      obtain ⟨hh, hpid, hposts, hmove⟩ := deliveryStep_move hout
      exact .task i t t' event rfl ht hh rfl hpid hposts
        (fun hs => deliveryStep_sound hs hout) hmove rfl
  | storageAnswers i status =>
      obtain ⟨t, ht, hp⟩ := Option.bind_eq_some_iff.mp hp
      obtain ⟨t', hanswer, rfl⟩ := Option.map_eq_some_iff.mp hp
      obtain ⟨call, earlier, hposts, -, ht'⟩ := Delivery.answer_eq_some hanswer
      refine .answered i t t' ht ?_ ?_ ?_ ?_ (fun hs => hs.answer hanswer) rfl rfl rfl
      · rw [ht']
      · rw [ht']
      · rw [ht']
      · rw [ht', hposts]
        rfl

/-! ## One position of the pools -/

@[simp] theorem settle_deliveries {s : IssuerSys} {r : Except IssuerError AppState} :
    (s.settle r).deliveries = s.deliveries := by
  cases r <;> rfl

@[simp] theorem settle_redemptions {s : IssuerSys} {r : Except IssuerError AppState} :
    (s.settle r).redemptions = s.redemptions := by
  cases r <;> rfl

theorem operatorDecision_deliveries {s : IssuerSys} {holderId : String} {status : HolderStatus}
    {next : ProcessState} {now : ℕ} :
    (∃ new, (operatorDecision s holderId status next now).deliveries = s.deliveries ++ new) ∧
      (operatorDecision s holderId status next now).redemptions = s.redemptions := by
  unfold operatorDecision
  split
  · exact ⟨⟨[], (List.append_nil _).symm⟩, rfl⟩
  · exact ⟨⟨_, rfl⟩, rfl⟩

/-- A task stays as it is, takes a step of its own, or its post is answered. -/
theorem delivery_at {s s' : IssuerSys} {a : IssuerAction X} {j : ℕ} {t : Delivery}
    (h : (issuer service start).step s a = some s') (ht : s.deliveries[j]? = some t) :
    s'.deliveries[j]? = some t ∨
      (∃ event t', a = .delivery j event ∧ s'.deliveries = s.deliveries.set j t' ∧
        s'.redemptions = s.redemptions ∧
          deliveryStep service (permitFree s) s.app t event = some (s'.app, t')) ∨
      ∃ status t', a = .storageAnswers j status ∧ s'.deliveries = s.deliveries.set j t' ∧
        t.answer status = some t' := by
  obtain ⟨-, -, s₁, hp, rfl⟩ := issuer_step_eq_some h
  have hlt := (List.getElem?_eq_some_iff.mp ht).1
  have kept : ∀ {new : List Delivery}, s₁.deliveries = s.deliveries ++ new →
      s₁.deliveries[j]? = some t := by
    intro new hd
    rw [hd, List.getElem?_append_left hlt, ht]
  have same : s₁.deliveries = s.deliveries → s₁.deliveries[j]? = some t :=
    fun hd => hd ▸ ht
  cases a with
  | delivery i event =>
      obtain ⟨x, hx, hp⟩ := Option.bind_eq_some_iff.mp hp
      obtain ⟨⟨app, x'⟩, hout, rfl⟩ := Option.map_eq_some_iff.mp hp
      by_cases hij : i = j
      · subst hij
        rw [ht] at hx
        cases hx
        exact Or.inr (Or.inl ⟨event, x', rfl, rfl, rfl, hout⟩)
      · left
        show (s.deliveries.set i x')[j]? = _
        rw [List.getElem?_set_ne hij, ht]
  | storageAnswers i status =>
      obtain ⟨x, hx, hp⟩ := Option.bind_eq_some_iff.mp hp
      obtain ⟨x', hanswer, rfl⟩ := Option.map_eq_some_iff.mp hp
      by_cases hij : i = j
      · subst hij
        rw [ht] at hx
        cases hx
        exact Or.inr (Or.inr ⟨status, x', rfl, rfl, hanswer⟩)
      · left
        show (s.deliveries.set i x')[j]? = _
        rw [List.getElem?_set_ne hij, ht]
  | redemption i event =>
      obtain ⟨r, -, hp⟩ := Option.bind_eq_some_iff.mp hp
      obtain ⟨out, -, rfl⟩ := Option.map_eq_some_iff.mp hp
      exact Or.inl ht
  | redeem configId holderDid =>
      obtain ⟨definition, -, rfl⟩ := Option.map_eq_some_iff.mp hp
      exact Or.inl ht
  | registerHolder registration now uuid =>
      simp only [issuerPerform] at hp
      split at hp <;> cases hp <;> exact Or.inl ht
  | credentialRequest claims message now processId holderUuid =>
      cases hp
      exact Or.inl (kept rfl)
  | approveHolder holderId now =>
      cases hp
      obtain ⟨⟨new, hd⟩, -⟩ := operatorDecision_deliveries (s := s)
      exact Or.inl (kept hd)
  | rejectHolder holderId now =>
      cases hp
      obtain ⟨⟨new, hd⟩, -⟩ := operatorDecision_deliveries (s := s)
      exact Or.inl (kept hd)
  | fetchStatusList now =>
      cases hp
      exact Or.inl ht
  | _ =>
      cases hp
      exact Or.inl (same settle_deliveries)

/-- A redemption stays as it is or takes a step of its own. -/
theorem redemption_at {s s' : IssuerSys} {a : IssuerAction X} {j : ℕ} {r : RedemptionPhase}
    (h : (issuer service start).step s a = some s') (hr : s.redemptions[j]? = some r) :
    s'.redemptions[j]? = some r ∨
      ∃ event r', a = .redemption j event ∧ s'.redemptions = s.redemptions.set j r' ∧
        s'.deliveries = s.deliveries ∧ redemptionStep service s.app r event = some (s'.app, r') := by
  obtain ⟨-, -, s₁, hp, rfl⟩ := issuer_step_eq_some h
  have hlt := (List.getElem?_eq_some_iff.mp hr).1
  have same : s₁.redemptions = s.redemptions → s₁.redemptions[j]? = some r :=
    fun hd => hd ▸ hr
  cases a with
  | redemption i event =>
      obtain ⟨x, hx, hp⟩ := Option.bind_eq_some_iff.mp hp
      obtain ⟨⟨app, x'⟩, hout, rfl⟩ := Option.map_eq_some_iff.mp hp
      by_cases hij : i = j
      · subst hij
        rw [hr] at hx
        cases hx
        exact Or.inr ⟨event, x', rfl, rfl, rfl, hout⟩
      · left
        show (s.redemptions.set i x')[j]? = _
        rw [List.getElem?_set_ne hij, hr]
  | redeem configId holderDid =>
      obtain ⟨definition, -, rfl⟩ := Option.map_eq_some_iff.mp hp
      left
      show (s.redemptions ++ _)[j]? = _
      rw [List.getElem?_append_left hlt, hr]
  | delivery i event =>
      obtain ⟨t, -, hp⟩ := Option.bind_eq_some_iff.mp hp
      obtain ⟨out, -, rfl⟩ := Option.map_eq_some_iff.mp hp
      exact Or.inl hr
  | storageAnswers i status =>
      obtain ⟨t, -, hp⟩ := Option.bind_eq_some_iff.mp hp
      obtain ⟨t', -, rfl⟩ := Option.map_eq_some_iff.mp hp
      exact Or.inl hr
  | registerHolder registration now uuid =>
      simp only [issuerPerform] at hp
      split at hp <;> cases hp <;> exact Or.inl hr
  | credentialRequest claims message now processId holderUuid =>
      cases hp
      exact Or.inl hr
  | approveHolder holderId now =>
      cases hp
      exact Or.inl (same operatorDecision_deliveries.2)
  | rejectHolder holderId now =>
      cases hp
      exact Or.inl (same operatorDecision_deliveries.2)
  | fetchStatusList now =>
      cases hp
      exact Or.inl hr
  | _ =>
      cases hp
      exact Or.inl (same settle_redemptions)

end IdentityHub
