import IdentityHub.Issuer.AllOrNothing
import IdentityHub.Lib.Draining

/-!
# Deliveries and redemptions come to an end

A delivery waits for a permit of the semaphore, for the holder's DID document and for
the answer of the holder's Storage API. `Phase.work` counts the steps a task has before
it at most, an outcome of the network included; a request names a bounded number of
definitions, so a new task has a bounded number. A task that waits for a permit finds
`maxInFlightDeliveries` others holding one, each of which can go on.

So tasks and redemptions never wait for one another in a circle: left alone, they reach
a state where all are closed, and in every run they take no more steps than the account
`StepSystem.Pays` allows.
-/

namespace IdentityHub

open StepSystem (Machine Reachable)

variable {X : External} {service : IssuerService X} {start : ℕ}

/-! ## The steps ahead -/

/-- How many steps a task in this phase takes at most. -/
def Phase.work : Phase → ℕ
  | .toSpawn => 25
  | .queued => 24
  | .permitted => 23
  | .claimed process => process.credentialDefinitions.length + 6
  | .resolving job => job.definitions.length + 5
  | .minting _ _ todo _ => todo.length + 4
  | .waiting _ => 3
  | .failed _ _ | .answered _ => 2
  | .finishing _ _ => 1
  | .done => 0

/-- How many sections of `record_and_mint` are to come at most. -/
def RedemptionPhase.work : RedemptionPhase → ℕ
  | .governing _ _ => 4
  | .allocating _ _ => 3
  | .inserting _ _ _ => 2
  | .refusing _ | .recording _ _ _ _ => 1
  | .refused _ _ | .issued _ => 0

def RedemptionPhase.isClosed : RedemptionPhase → Bool
  | .refused _ _ | .issued _ => true
  | _ => false

namespace IssuerSys

/-- The steps ahead of all tasks and redemptions. -/
def work (s : IssuerSys) : ℕ :=
  (s.deliveries.map (·.phase.work)).sum + (s.redemptions.map (·.work)).sum

/-- The steps ahead of them when they were new. -/
def budget (s : IssuerSys) : ℕ := 25 * s.deliveries.length + 4 * s.redemptions.length

/-- No task and no redemption is under way. -/
def Quiet (s : IssuerSys) : Prop :=
  (∀ t ∈ s.deliveries, t.phase.isDone = true) ∧ ∀ r ∈ s.redemptions, r.isClosed = true

end IssuerSys

/-- A step of a task or of a redemption. -/
def IssuerAction.isWork : IssuerAction X → Bool
  | .delivery _ _ | .redemption _ _ => true
  | _ => false

def IssuerAction.cost (a : IssuerAction X) : ℕ := if a.isWork then 1 else 0

theorem IssuerAction.cost_of_handler {a : IssuerAction X} (h : a.isWork = false) : a.cost = 0 := by
  simp [cost, h]

theorem sum_cost (as : List (IssuerAction X)) :
    (as.map IssuerAction.cost).sum = as.countP (fun a => a.isWork) := by
  induction as with
  | nil => rfl
  | cons a as ih =>
      rw [List.map_cons, List.sum_cons, ih, List.countP_cons, IssuerAction.cost, Nat.add_comm]

theorem sum_map_set {α : Type*} {l : List α} {i : ℕ} {x y : α} (f : α → ℕ)
    (h : l[i]? = some x) : ((l.set i y).map f).sum + f x = (l.map f).sum + f y := by
  induction l generalizing i with
  | nil => simp at h
  | cons z l ih =>
      cases i with
      | zero =>
          simp only [List.getElem?_cons_zero, Option.some_inj] at h
          subst h
          simp only [List.set_cons_zero, List.map_cons, List.sum_cons]
          omega
      | succ i =>
          have hrest := ih (i := i) (by simpa using h)
          simp only [List.set_cons_succ, List.map_cons, List.sum_cons]
          omega

/-! ## What a request names -/

theorem RequestTable.Added.get_eq_some {table table' : RequestTable} {id k : String}
    {p p' : IssuanceProcess} (h : table.Added id p table') (hp' : table'.get k = some p') :
    p' = p ∨ table.get k = some p' := by
  by_cases hk : k = id
  · subst hk
    left
    cases h <;> simpa [RequestTable.get] using hp'.symm
  · right
    cases h with
    | room => simpa [RequestTable.get, hk] using hp'
    | evicted oldest ended _ _ =>
        by_cases hold : k = oldest
        · subst hold
          simp [RequestTable.get, hk] at hp'
        · simpa [RequestTable.get, hk, hold] using hp'

/-- The process a redemption adds names one definition. -/
theorem redemptionStep_few {app app' : AppState} {phase phase' : RedemptionPhase}
    {event : RedemptionEvent} (h : redemptionStep service app phase event = some (app', phase'))
    {k : String} {p' : IssuanceProcess} (hp' : app'.requests.get k = some p') :
    app.requests.get k = some p' ∨ p'.credentialDefinitions.length ≤ maxRequestCredentials := by
  cases event with
  | insert processId =>
      simp only [redemptionStep] at h
      split at h
      · rename_i job holderId index
        split at h
        · cases h
          exact Or.inl hp'
        · rename_i requests hins
          cases h
          rcases get_after_insert (p := redemptionProcess job holderId processId) hins hp'
            with ⟨-, rfl⟩ | ⟨-, hold⟩
          · right
            simp [redemptionProcess, maxRequestCredentials]
          · exact Or.inl hold
      · cases h
  | _ =>
      simp only [redemptionStep] at h
      repeat' split at h
      all_goals cases h
      all_goals exact Or.inl hp'

/-- What a task's step leaves of a process. -/
theorem TaskMove.process {app app' : AppState} {t t' : Delivery} {event : DeliveryEvent X}
    (h : TaskMove app t event app' t') {k : String} {p' : IssuanceProcess}
    (hp' : app'.requests.get k = some p') :
    ∃ p, app.requests.get k = some p ∧ p.SameRequest p' := by
  cases h with
  | progress hr _ _ => exact ⟨p', hr ▸ hp', .refl p'⟩
  | abandon _ _ hr _ _ => exact ⟨p', hr ▸ hp', .refl p'⟩
  | claim p _ _ _ happ _ _ =>
      rw [happ, startDelivery, RequestTable.get_modify] at hp'
      split at hp'
      · obtain ⟨q, hq, rfl⟩ := Option.map_eq_some_iff.mp hp'
        exact ⟨q, hq, rfl, rfl, rfl, rfl⟩
      · exact ⟨p', hp', .refl p'⟩
  | close state errorDetail now _ _ happ _ _ =>
      rw [happ, closeProcess, RequestTable.get_modify] at hp'
      split at hp'
      · obtain ⟨q, hq, rfl⟩ := Option.map_eq_some_iff.mp hp'
        exact ⟨q, hq, rfl, rfl, rfl, rfl⟩
      · exact ⟨p', hp', .refl p'⟩

/-- A process found after a step was there before, or names few definitions. -/
theorem few_definitions_step {s s' : IssuerSys} {a : IssuerAction X}
    (h : Reachable (issuer service start) s) (hstep : (issuer service start).step s a = some s')
    {k : String} {p' : IssuanceProcess} (hp' : s'.app.requests.get k = some p') :
    (∃ p, s.app.requests.get k = some p ∧ p.SameRequest p') ∨
      p'.credentialDefinitions.length ≤ maxRequestCredentials := by
  have same : s'.app.requests = s.app.requests →
      ∃ p, s.app.requests.get k = some p ∧ p.SameRequest p' := by
    intro hr
    rw [hr] at hp'
    exact ⟨p', hp', .refl p'⟩
  rcases (requests_move h hstep).origin hp' with ⟨p, hp, hedit⟩ | ⟨-, hdraw, -⟩
  · exact Or.inl ⟨p, hp, hedit.same⟩
  · -- the step drew the id of the process
    obtain ⟨-, hfresh, s₁, hperform, rfl⟩ := issuer_step_eq_some hstep
    cases a with
    | credentialRequest claims message now processId holderUuid =>
        cases hperform
        have hnew : processId ∉ s.drawn := hfresh processId List.mem_cons_self
        rcases credential_request_atomic h hnew claims message now holderUuid with
          ⟨-, did, holder, p, -, hadmitted⟩ | ⟨-, hrefused⟩
        · rcases hadmitted.added.get_eq_some hp' with rfl | hold
          · right
            rw [hadmitted.ids]
            exact hadmitted.few.2
          · exact Or.inl ⟨p', hold, .refl p'⟩
        · exact Or.inl (same hrefused.requests)
    | registerHolder registration now uuid =>
        simp only [issuerPerform] at hperform
        split at hperform
        · cases hperform
          exact Or.inl (same rfl)
        · rename_i holder app happ
          cases hperform
          obtain ⟨-, holders, -, rfl⟩ := registerHolder_eq_ok happ
          exact Or.inl (same rfl)
    | redemption i event =>
        obtain ⟨phase, -, hperform⟩ := Option.bind_eq_some_iff.mp hperform
        obtain ⟨⟨app, phase'⟩, hout, rfl⟩ := Option.map_eq_some_iff.mp hperform
        rcases redemptionStep_few hout hp' with hold | hfew
        · exact Or.inl ⟨p', hold, .refl p'⟩
        · exact Or.inr hfew
    | delivery i event =>
        obtain ⟨t, -, hperform⟩ := Option.bind_eq_some_iff.mp hperform
        obtain ⟨⟨app, t'⟩, hout, rfl⟩ := Option.map_eq_some_iff.mp hperform
        obtain ⟨-, -, -, hmove⟩ := deliveryStep_move hout
        exact Or.inl (hmove.process hp')
    | _ => exact absurd hdraw List.not_mem_nil

theorem few_definitions {s : IssuerSys} (h : Reachable (issuer service start) s) :
    ∀ k p, s.app.requests.get k = some p →
      p.credentialDefinitions.length ≤ maxRequestCredentials := by
  refine h.invariant_of (J := fun s => Reachable (issuer service start) s)
    (I := fun s => ∀ k p, s.app.requests.get k = some p →
      p.credentialDefinitions.length ≤ maxRequestCredentials) (fun _ hs => hs) ?_ ?_
  · intro k p hp
    change (RequestTable.new maxTrackedRequests).get k = some p at hp
    rw [RequestTable.get_new] at hp
    cases hp
  · intro s₁ a s₂ hr hfew hstep k p' hp'
    rcases few_definitions_step hr hstep hp' with ⟨p, hp, hsame⟩ | hnew
    · rw [hsame.credentialDefinitions]
      exact hfew k p hp
    · exact hnew

/-- The definitions a task has still to work through. -/
def Phase.ahead : Phase → ℕ
  | .claimed process => process.credentialDefinitions.length
  | .resolving job => job.definitions.length
  | .minting _ _ todo _ => todo.length
  | _ => 0

/-- A task has a request's definitions ahead of it at most. -/
theorem ahead_le {s : IssuerSys} (h : Reachable (issuer service start) s) {t : Delivery}
    (ht : t ∈ s.deliveries) : t.phase.ahead ≤ maxRequestCredentials := by
  have hs := standing_of_reachable h
  by_cases hbefore : t.phase.beforeClaim = true ∨ t.phase.isDone = true
  · have hzero : t.phase.ahead = 0 := by
      cases hphase : t.phase <;> rw [hphase] at hbefore <;>
        simp_all [Phase.ahead, Phase.beforeClaim, Phase.isDone]
    omega
  · rw [not_or, Bool.not_eq_true, Bool.not_eq_true] at hbefore
    -- a task at work has its process in the table
    have hclaimed := (hs.sound t ht).working hbefore.1 hbefore.2
    obtain ⟨p, hp, -, -⟩ := hs.working t ht hclaimed hbefore.2
    have hfew := few_definitions h t.processId p hp
    have hworks := copies_of_reachable h t ht p hp
    cases hphase : t.phase with
    | claimed process =>
        rw [hphase] at hworks
        have hids := hworks.credentialDefinitions
        simpa [Phase.ahead, hids] using hfew
    | resolving job =>
        rw [hphase] at hworks
        have hids := congrArg List.length hworks.definitions
        rw [List.length_map] at hids
        simpa [Phase.ahead, hids] using hfew
    | minting job endpoint todo minted =>
        rw [hphase] at hworks
        have hids := congrArg List.length hworks.2.2
        rw [List.length_append, List.length_map, List.length_map] at hids
        simp only [Phase.ahead]
        omega
    | _ => simp [Phase.ahead]

/-! ## One step of one worker -/

/-- Every step of a task takes one off. -/
theorem deliveryStep_work {permitFree : Bool} {app app' : AppState} {t t' : Delivery}
    {event : DeliveryEvent X} (hfew : t'.phase.ahead ≤ maxRequestCredentials)
    (h : deliveryStep service permitFree app t event = some (app', t')) :
    t'.phase.work < t.phase.work := by
  cases event with
  | claim =>
      simp only [deliveryStep] at h
      split at h
      · rename_i hphase
        rw [hphase]
        repeat' split at h
        all_goals cases h
        all_goals simp_all [Phase.work, Phase.ahead, maxRequestCredentials]
        omega
      · cases h
  | readDefinitions =>
      simp only [deliveryStep] at h
      split at h
      · rename_i process hphase
        rw [hphase]
        split at h
        · cases h
          simp [Phase.work]
        · rename_i definitions hdefs
          cases h
          have hids := congrArg List.length (collectDefinitions_ids hdefs)
          rw [List.length_map] at hids
          simp [Phase.work, hids]
      · cases h
  | _ =>
      simp only [deliveryStep] at h
      repeat' split at h
      all_goals cases h
      all_goals simp_all [Phase.work]

theorem redemptionStep_work {app app' : AppState} {r r' : RedemptionPhase}
    {event : RedemptionEvent} (h : redemptionStep service app r event = some (app', r')) :
    r'.work < r.work := by
  cases event <;> simp only [redemptionStep] at h
  all_goals repeat' split at h
  all_goals cases h
  all_goals simp [RedemptionPhase.work]

/-- A task that is not done can go on, unless it waits for a permit. `u` is an
identifier to draw. -/
theorem exists_delivery_event (service : IssuerService X) (permitFree : Bool) (app : AppState)
    {t : Delivery} (hdone : t.phase.isDone = false)
    (hpermit : t.phase = .queued → permitFree = true) (u : String) :
    ∃ event out, (event.draws = [] ∨ event.draws = [u]) ∧
      deliveryStep service permitFree app t event = some out := by
  cases hphase : t.phase with
  | toSpawn =>
      refine ⟨.spawn, ?_⟩
      simp [deliveryStep, hphase, DeliveryEvent.draws]
  | queued =>
      refine ⟨.acquire, ?_⟩
      simp [deliveryStep, hphase, hpermit hphase, DeliveryEvent.draws]
  | permitted =>
      refine ⟨.claim, ?_⟩
      simp only [deliveryStep, hphase, DeliveryEvent.draws, true_or, true_and]
      repeat' split
      all_goals exact ⟨_, rfl⟩
  | claimed process =>
      refine ⟨.readDefinitions, ?_⟩
      simp only [deliveryStep, hphase, DeliveryEvent.draws, true_or, true_and]
      split
      all_goals exact ⟨_, rfl⟩
  | resolving job =>
      refine ⟨.resolve (.error "no answer"), ?_⟩
      simp only [deliveryStep, hphase, DeliveryEvent.draws, true_or, true_and]
      split
      all_goals exact ⟨_, rfl⟩
  | minting job endpoint todo minted =>
      cases todo with
      | nil =>
          refine ⟨.post 0 u, ?_⟩
          simp [deliveryStep, hphase, DeliveryEvent.draws]
      | cons definition todo =>
          refine ⟨.mint 0 u, ?_⟩
          simp only [deliveryStep, hphase, DeliveryEvent.draws, or_true, true_and]
          split
          all_goals exact ⟨_, rfl⟩
  | waiting minted =>
      -- the client gives up at its timeout
      refine ⟨.lose "timed out", ?_⟩
      simp [deliveryStep, hphase, DeliveryEvent.draws]
  | failed allocated error =>
      refine ⟨.release, ?_⟩
      simp [deliveryStep, hphase, DeliveryEvent.draws]
  | answered records =>
      refine ⟨.record, ?_⟩
      simp [deliveryStep, hphase, DeliveryEvent.draws]
  | finishing state errorDetail =>
      refine ⟨.finish 0, ?_⟩
      simp [deliveryStep, hphase, DeliveryEvent.draws]
  | done =>
      rw [hphase] at hdone
      cases hdone

theorem exists_redemption_event (service : IssuerService X) (app : AppState)
    {r : RedemptionPhase} (hopen : r.isClosed = false) (u : String) :
    ∃ event out, (event.draws = [] ∨ event.draws = [u]) ∧
      redemptionStep service app r event = some out := by
  cases r with
  | governing definition holderDid =>
      refine ⟨.govern 0 u, ?_⟩
      simp only [redemptionStep, RedemptionEvent.draws, or_true, true_and]
      repeat' split
      all_goals exact ⟨_, rfl⟩
  | allocating job holderId =>
      refine ⟨.allocate, ?_⟩
      simp only [redemptionStep, RedemptionEvent.draws, true_or, true_and]
      split
      all_goals exact ⟨_, rfl⟩
  | inserting job holderId index =>
      refine ⟨.insert u, ?_⟩
      simp only [redemptionStep, RedemptionEvent.draws, or_true, true_and]
      split
      all_goals exact ⟨_, rfl⟩
  | refusing index =>
      refine ⟨.release, ?_⟩
      simp [redemptionStep, RedemptionEvent.draws]
  | recording job holderId index processId =>
      refine ⟨.record 0 u, ?_⟩
      simp [redemptionStep, RedemptionEvent.draws]
  | refused status description => cases hopen
  | issued jws => cases hopen

/-! ## One step of the service, from the pools' side -/

/-- What a step does to the tasks and the redemptions. -/
inductive PoolMove (service : IssuerService X) (s : IssuerSys) (a : IssuerAction X)
    (s' : IssuerSys) : Prop
  | spawned (processIds : List String) :
      a.isWork = false → s'.deliveries = s.deliveries ++ processIds.map Delivery.new →
        s'.redemptions = s.redemptions → PoolMove service s a s'
  | opened (definition : CredentialDefinition) (holderDid : String) :
      a.isWork = false → s'.deliveries = s.deliveries →
        s'.redemptions = s.redemptions ++ [.governing definition holderDid] →
          PoolMove service s a s'
  | answered (i : ℕ) (t t' : Delivery) :
      a.isWork = false → s.deliveries[i]? = some t → t'.phase = t.phase →
        s'.deliveries = s.deliveries.set i t' → s'.redemptions = s.redemptions →
          PoolMove service s a s'
  | task (i : ℕ) (event : DeliveryEvent X) (t t' : Delivery) :
      a = .delivery i event → s.deliveries[i]? = some t →
        deliveryStep service (permitFree s) s.app t event = some (s'.app, t') →
          s'.deliveries = s.deliveries.set i t' → s'.redemptions = s.redemptions →
            PoolMove service s a s'
  | redemption (i : ℕ) (event : RedemptionEvent) (r r' : RedemptionPhase) :
      a = .redemption i event → s.redemptions[i]? = some r →
        redemptionStep service s.app r event = some (s'.app, r') →
          s'.deliveries = s.deliveries → s'.redemptions = s.redemptions.set i r' →
            PoolMove service s a s'

theorem operatorDecision_pool (s : IssuerSys) (holderId : String) (status : HolderStatus)
    (next : ProcessState) (now : ℕ) :
    ∃ ids : List String, (operatorDecision s holderId status next now).deliveries =
      s.deliveries ++ ids.map Delivery.new := by
  unfold operatorDecision
  split
  · exact ⟨[], by simp⟩
  · rename_i moved app _
    by_cases hnext : next = .approved
    · exact ⟨moved, by simp [hnext]⟩
    · exact ⟨[], by simp [hnext]⟩

/-- **Inversion, from the pools' side.** -/
theorem pool_move {s s' : IssuerSys} {a : IssuerAction X}
    (hstep : (issuer service start).step s a = some s') : PoolMove service s a s' := by
  obtain ⟨-, -, s₁, hp, rfl⟩ := issuer_step_eq_some hstep
  have same : ∀ {b : IssuerAction X}, b.isWork = false → s₁.deliveries = s.deliveries →
      s₁.redemptions = s.redemptions →
        PoolMove service s b { s₁ with drawn := a.draws ++ s.drawn } :=
    fun hb hd hr => .spawned [] hb (by simp [hd]) hr
  cases a with
  | credentialRequest claims message now processId holderUuid =>
      cases hp
      dsimp only
      by_cases hdeliver :
          (credentialRequest service s.app claims message now processId holderUuid).deliverNow
      · exact .spawned [processId] rfl (by simp [hdeliver]) rfl
      · exact .spawned [] rfl (by simp [hdeliver]) rfl
  | approveHolder holderId now =>
      cases hp
      obtain ⟨ids, hd⟩ := operatorDecision_pool s holderId _ _ now
      exact .spawned ids rfl hd operatorDecision_deliveries.2
  | rejectHolder holderId now =>
      cases hp
      obtain ⟨ids, hd⟩ := operatorDecision_pool s holderId _ _ now
      exact .spawned ids rfl hd operatorDecision_deliveries.2
  | redeem configId holderDid =>
      obtain ⟨definition, -, rfl⟩ := Option.map_eq_some_iff.mp hp
      exact .opened definition holderDid rfl rfl rfl
  | redemption i event =>
      obtain ⟨r, hr, hp⟩ := Option.bind_eq_some_iff.mp hp
      obtain ⟨⟨app, r'⟩, hout, rfl⟩ := Option.map_eq_some_iff.mp hp
      exact .redemption i event r r' rfl hr hout rfl rfl
  | delivery i event =>
      obtain ⟨t, ht, hp⟩ := Option.bind_eq_some_iff.mp hp
      obtain ⟨⟨app, t'⟩, hout, rfl⟩ := Option.map_eq_some_iff.mp hp
      exact .task i event t t' rfl ht hout rfl rfl
  | storageAnswers i status =>
      obtain ⟨t, ht, hp⟩ := Option.bind_eq_some_iff.mp hp
      obtain ⟨t', hanswer, rfl⟩ := Option.map_eq_some_iff.mp hp
      obtain ⟨call, earlier, -, -, ht'⟩ := Delivery.answer_eq_some hanswer
      exact .answered i t t' rfl ht (by rw [ht']) rfl rfl
  | registerHolder registration now uuid =>
      simp only [issuerPerform] at hp
      split at hp <;> cases hp <;> exact same rfl rfl rfl
  | fetchStatusList now =>
      cases hp
      exact same rfl rfl rfl
  | _ =>
      cases hp
      exact same rfl settle_deliveries settle_redemptions

/-! ## The semaphore -/

/-- How many tasks are between acquiring a permit and dropping it. -/
def IssuerSys.permits (s : IssuerSys) : ℕ :=
  (s.deliveries.map (fun t => if t.phase.holdsPermit then 1 else 0)).sum

theorem length_filter_holdsPermit (s : IssuerSys) :
    (s.deliveries.filter (fun t => t.phase.holdsPermit)).length = s.permits := by
  unfold IssuerSys.permits
  induction s.deliveries with
  | nil => rfl
  | cons t ts ih =>
      by_cases ht : t.phase.holdsPermit
      · simp [ht, ih, Nat.add_comm]
      · simp [ht, ih]

/-- A task comes by a permit only when one is free. -/
theorem deliveryStep_permit {permitFree : Bool} {app app' : AppState} {t t' : Delivery}
    {event : DeliveryEvent X} (h : deliveryStep service permitFree app t event = some (app', t'))
    (hholds : t'.phase.holdsPermit = true) : t.phase.holdsPermit = true ∨ permitFree = true := by
  cases event <;> simp only [deliveryStep] at h
  all_goals repeat' split at h
  all_goals cases h
  all_goals simp_all [Phase.holdsPermit]

/-- **The semaphore keeps its bound.** -/
theorem permits_le {s : IssuerSys} (h : Reachable (issuer service start) s) :
    s.permits ≤ maxInFlightDeliveries := by
  refine h.invariant (I := fun s => s.permits ≤ maxInFlightDeliveries) (Nat.zero_le _) ?_
  intro s₁ a s₂ hle hstep
  cases pool_move hstep with
  | spawned ids _ hd _ =>
      have hnew : ((ids.map Delivery.new).map
          (fun t => if t.phase.holdsPermit then 1 else 0)).sum = 0 := by
        rw [List.sum_eq_zero]
        simp [Delivery.new, Phase.holdsPermit]
      rw [IssuerSys.permits, hd, List.map_append, List.sum_append, hnew]
      exact hle
  | opened _ _ _ hd _ =>
      rw [IssuerSys.permits, hd]
      exact hle
  | answered i t t' _ ht hphase hd _ =>
      have hset := sum_map_set (y := t') (fun t => if t.phase.holdsPermit then 1 else 0) ht
      rw [hphase] at hset
      rw [IssuerSys.permits, hd]
      unfold IssuerSys.permits at hle
      omega
  | task i event t t' _ ht hout hd _ =>
      have hset := sum_map_set (y := t') (fun t => if t.phase.holdsPermit then 1 else 0) ht
      have hfree : permitFree s₁ = true ↔ s₁.permits < maxInFlightDeliveries := by
        rw [permitFree, length_filter_holdsPermit, decide_eq_true_iff]
      have hpermit := deliveryStep_permit hout
      rw [hfree] at hpermit
      rw [IssuerSys.permits, hd]
      unfold IssuerSys.permits at hle hpermit
      by_cases hholds : t'.phase.holdsPermit = true
      · rcases hpermit hholds with hbefore | hroom
        · simp only [hholds, hbefore] at hset
          omega
        · rw [if_pos hholds] at hset
          omega
      · rw [if_neg hholds] at hset
        omega
  | redemption _ _ _ _ _ _ _ hd _ =>
      rw [IssuerSys.permits, hd]
      exact hle

/-! ## The account -/

theorem work_le_budget {s : IssuerSys} (h : Reachable (issuer service start) s) :
    s.work ≤ s.budget := by
  have htask : ∀ t ∈ s.deliveries, t.phase.work ≤ 25 := by
    intro t ht
    have hfew := ahead_le h ht
    cases hphase : t.phase <;> rw [hphase] at hfew <;>
      simp [Phase.work, Phase.ahead, maxRequestCredentials] at hfew ⊢ <;> omega
  have hredemption : ∀ r ∈ s.redemptions, r.work ≤ 4 := by
    intro r _
    cases r <;> simp [RedemptionPhase.work]
  have hdeliveries := List.sum_le_card_nsmul (s.deliveries.map (·.phase.work)) 25
    (by simpa using htask)
  have hredemptions := List.sum_le_card_nsmul (s.redemptions.map (·.work)) 4
    (by simpa using hredemption)
  simp only [List.length_map, smul_eq_mul] at hdeliveries hredemptions
  unfold IssuerSys.work IssuerSys.budget
  omega

/-- **Step lemma.** A step of a worker takes one off the steps ahead at least; what a
handler adds to them is on the budget. -/
theorem issuer_pays :
    StepSystem.Pays (issuer service start) (Reachable (issuer service start)) IssuerAction.cost
      IssuerSys.work IssuerSys.budget where
  keeps s a s' hs hstep := hs.step hstep
  pays s a s' hs hstep := by
    unfold IssuerSys.work IssuerSys.budget
    cases pool_move hstep with
    | spawned ids ha hd hr =>
        have hnew : ((ids.map Delivery.new).map (·.phase.work)).sum = 25 * ids.length := by
          simp [Function.comp_def, Delivery.new, Phase.work, Nat.mul_comm]
        rw [IssuerAction.cost_of_handler ha, hd, hr, List.map_append, List.sum_append, hnew,
          List.length_append, List.length_map]
        omega
    | opened definition holderDid ha hd hr =>
        have hnew : ([RedemptionPhase.governing definition holderDid].map (·.work)).sum = 4 := rfl
        rw [IssuerAction.cost_of_handler ha, hd, hr, List.map_append, List.sum_append, hnew,
          List.length_append, List.length_singleton]
        omega
    | answered i t t' ha ht hphase hd hr =>
        have hset := sum_map_set (y := t') (·.phase.work) ht
        rw [hphase] at hset
        rw [IssuerAction.cost_of_handler ha, hd, hr, List.length_set]
        omega
    | task i event t t' ha ht hout hd hr =>
        have hmem : t' ∈ s'.deliveries := by
          rw [hd]
          exact List.mem_set (List.getElem?_eq_some_iff.mp ht).1 t'
        have hlower := deliveryStep_work (ahead_le (hs.step hstep) hmem) hout
        have hset := sum_map_set (y := t') (·.phase.work) ht
        have hcost : a.cost = 1 := by rw [ha]; rfl
        rw [hcost, hd, hr, List.length_set]
        omega
    | redemption i event r r' ha hr₀ hout hd hr =>
        have hlower := redemptionStep_work hout
        have hset := sum_map_set (y := r') (·.work) hr₀
        have hcost : a.cost = 1 := by rw [ha]; rfl
        rw [hcost, hd, hr, List.length_set]
        omega

/-! ## Left alone, the workers finish -/

theorem exists_fresh (drawn : List String) : ∃ u, u ∉ drawn := by
  have hinj : Function.Injective (fun n : ℕ => String.ofList (List.replicate n 'u')) := by
    intro m n h
    have hlength := congrArg String.length h
    simpa using hlength
  have : Infinite String := Infinite.of_injective _ hinj
  obtain ⟨u, hu⟩ := Infinite.exists_notMem_finset drawn.toFinset
  exact ⟨u, fun hmem => hu (List.mem_toFinset.mpr hmem)⟩

theorem issuer_step_of_perform {s s₁ : IssuerSys} {a : IssuerAction X}
    (hfresh : a.draws.Nodup ∧ ∀ u ∈ a.draws, u ∉ s.drawn)
    (hperform : issuerPerform service s a = some s₁) :
    (issuer service start).step s a = some { s₁ with drawn := a.draws ++ s.drawn } := by
  show issuerStep service s a = _
  rw [issuerStep, if_pos hfresh, hperform]
  rfl

/-- While a worker is not closed, some worker has a step it can take. -/
theorem exists_work_step {s : IssuerSys} (hnot : ¬ s.Quiet) :
    ∃ a s', a.isWork = true ∧ (issuer service start).step s a = some s' := by
  obtain ⟨u, hu⟩ := exists_fresh s.drawn
  have fresh : ∀ {draws : List String}, draws = [] ∨ draws = [u] →
      draws.Nodup ∧ ∀ d ∈ draws, d ∉ s.drawn := by
    rintro draws (rfl | rfl)
    · simp
    · simpa using hu
  have task : ∀ {t : Delivery}, t ∈ s.deliveries → t.phase.isDone = false →
      (t.phase = .queued → permitFree s = true) →
        ∃ a s', a.isWork = true ∧ (issuer service start).step s a = some s' := by
    intro t ht hdone hpermit
    obtain ⟨i, hi⟩ := List.getElem?_of_mem ht
    obtain ⟨event, out, hdraws, hout⟩ :=
      exists_delivery_event service (permitFree s) s.app hdone hpermit u
    have hperform : issuerPerform service s (.delivery i event) =
        some { s with app := out.1, deliveries := s.deliveries.set i out.2 } := by
      rw [issuerPerform, hi, Option.bind_some, hout]
      rfl
    exact ⟨.delivery i event, _, rfl, issuer_step_of_perform (fresh hdraws) hperform⟩
  by_cases hdeliveries : ∀ t ∈ s.deliveries, t.phase.isDone = true
  · have hopen : ∃ r ∈ s.redemptions, r.isClosed = false := by
      by_contra hnone
      simp only [not_exists, not_and, Bool.not_eq_false] at hnone
      exact hnot ⟨hdeliveries, hnone⟩
    obtain ⟨r, hr, hopen⟩ := hopen
    obtain ⟨i, hi⟩ := List.getElem?_of_mem hr
    obtain ⟨event, out, hdraws, hout⟩ := exists_redemption_event service s.app hopen u
    have hperform : issuerPerform service s (.redemption i event) =
        some { s with app := out.1, redemptions := s.redemptions.set i out.2 } := by
      rw [issuerPerform, hi, Option.bind_some, hout]
      rfl
    exact ⟨.redemption i event, _, rfl, issuer_step_of_perform (fresh hdraws) hperform⟩
  · simp only [not_forall, Bool.not_eq_true] at hdeliveries
    obtain ⟨t, ht, hdone⟩ := hdeliveries
    by_cases hfree : permitFree s = true
    · exact task ht hdone (fun _ => hfree)
    · -- the permits are all held, and a task that holds one can go on
      rw [permitFree, decide_eq_true_iff, not_lt] at hfree
      have hpos : 0 < (s.deliveries.filter (fun t => t.phase.holdsPermit)).length :=
        lt_of_lt_of_le (by decide) hfree
      obtain ⟨holder, hholder⟩ := List.exists_mem_of_length_pos hpos
      obtain ⟨hmem, hholds⟩ := List.mem_filter.mp hholder
      apply task hmem
      · cases hphase : holder.phase <;> rw [hphase] at hholds <;>
          simp_all [Phase.holdsPermit, Phase.isDone]
      · intro hqueued
        rw [hqueued] at hholds
        cases hholds

/-- A worker's step leaves a process as it is, or DELIVERED or ERRORED. -/
theorem process_after_work {s s' : IssuerSys} {a : IssuerAction X}
    (h : Reachable (issuer service start) s) (hwork : a.isWork = true)
    (hstep : (issuer service start).step s a = some s') {k : String} {p' : IssuanceProcess}
    (hp' : s'.app.requests.get k = some p') :
    p'.state = .delivered ∨ p'.state = .errored ∨
      ∃ p, s.app.requests.get k = some p ∧ p'.state = p.state := by
  have hs := standing_of_reachable h
  cases pool_move hstep with
  | spawned _ ha => rw [hwork] at ha; cases ha
  | opened _ _ ha => rw [hwork] at ha; cases ha
  | answered _ _ _ ha => rw [hwork] at ha; cases ha
  | task i event t t' _ ht hout _ _ =>
      obtain ⟨-, -, -, hmove⟩ := deliveryStep_move hout
      cases hmove with
      | progress hr _ _ => exact Or.inr (Or.inr ⟨p', hr ▸ hp', rfl⟩)
      | abandon _ _ hr _ _ => exact Or.inr (Or.inr ⟨p', hr ▸ hp', rfl⟩)
      | claim p _ _ _ happ _ _ =>
          rw [happ, startDelivery, RequestTable.get_modify] at hp'
          split at hp'
          · obtain ⟨q, hq, rfl⟩ := Option.map_eq_some_iff.mp hp'
            exact Or.inr (Or.inr ⟨q, hq, rfl⟩)
          · exact Or.inr (Or.inr ⟨p', hp', rfl⟩)
      | close state errorDetail now _ hphase happ _ _ =>
          rw [happ, closeProcess, RequestTable.get_modify] at hp'
          split at hp'
          · obtain ⟨q, hq, rfl⟩ := Option.map_eq_some_iff.mp hp'
            rcases (hs.sound t (List.mem_of_getElem? ht)).outcome state errorDetail hphase with
              rfl | rfl
            · exact Or.inl rfl
            · exact Or.inr (Or.inl rfl)
          · exact Or.inr (Or.inr ⟨p', hp', rfl⟩)
  | redemption i event r r' _ _ hout _ _ =>
      rcases redemptionStep_cases s.vouched hs.holderKeys hout with
        ⟨-, hr⟩ | ⟨-, p, hstate, -, hins⟩
      · exact Or.inr (Or.inr ⟨p', hr ▸ hp', rfl⟩)
      · rcases get_after_insert hins hp' with ⟨-, rfl⟩ | ⟨-, hold⟩
        · exact Or.inl hstate
        · exact Or.inr (Or.inr ⟨p', hold, rfl⟩)

/-- The processes APPROVED in `s₀` have got no further than their delivery's end. -/
def Carried (s₀ s : IssuerSys) : Prop :=
  ∀ k p p', s₀.app.requests.get k = some p → p.state = .approved →
    s.app.requests.get k = some p' →
      p'.state = .approved ∨ p'.state = .delivered ∨ p'.state = .errored

theorem issuer_drains (s₀ : IssuerSys) :
    StepSystem.Drains (issuer service start) (fun a => a.isWork = true)
      (fun s => Reachable (issuer service start) s ∧ Carried s₀ s) IssuerSys.work
        IssuerSys.Quiet where
  keeps := by
    rintro s a s' ⟨hs, hcarried⟩ hwork hstep
    refine ⟨hs.step hstep, ?_⟩
    intro k p p' hp hstate hp'
    rcases process_after_work hs hwork hstep hp' with h | h | ⟨q, hq, h⟩
    · exact Or.inr (Or.inl h)
    · exact Or.inr (Or.inr h)
    · rw [h]
      exact hcarried k p q hp hstate hq
  lowers := by
    rintro s a s' ⟨hs, -⟩ hwork hstep
    have hpays := issuer_pays.pays s a s' hs hstep
    have hcost : a.cost = 1 := by simp [IssuerAction.cost, hwork]
    have hbudget : s'.budget = s.budget := by
      unfold IssuerSys.budget
      cases pool_move hstep with
      | spawned _ ha => rw [hwork] at ha; cases ha
      | opened _ _ ha => rw [hwork] at ha; cases ha
      | answered _ _ _ ha => rw [hwork] at ha; cases ha
      | task _ _ _ _ _ _ _ hd hr => rw [hd, hr, List.length_set]
      | redemption _ _ _ _ _ _ _ hd hr => rw [hd, hr, List.length_set]
    omega
  goesOn s _ hnot := exists_work_step hnot

/-- What holds when no worker is under way. -/
structure Settled (s₀ s : IssuerSys) : Prop where
  quiet : s.Quiet
  noneApproved : ∀ k p, s.app.requests.get k = some p → p.state ≠ .approved
  ended : ∀ k p p', s₀.app.requests.get k = some p → p.state = .approved →
    s.app.requests.get k = some p' → p'.state = .delivered ∨ p'.state = .errored
  noneHeld : ↑s.app.issued.statusList.free.toList + s.recorded =
    Multiset.range s.app.issued.statusList.nextIndex

theorem settled_of_quiet {s₀ s : IssuerSys} (h : Reachable (issuer service start) s)
    (hcarried : Carried s₀ s) (hquiet : s.Quiet) : Settled s₀ s := by
  have happroved : ∀ k p, s.app.requests.get k = some p → p.state ≠ .approved := by
    intro k p hp hstate
    obtain ⟨t, ht, -, hdone, -⟩ := (standing_of_reachable h).approved k p hp hstate
    rw [hquiet.1 t ht] at hdone
    cases hdone
  refine ⟨hquiet, happroved, ?_, ?_⟩
  · intro k p p' hp hstate hp'
    exact (hcarried k p p' hp hstate hp').resolve_left (happroved k p' hp')
  · have hdeliveries : s.deliveries.flatMap (·.phase.held) = [] := by
      rw [List.flatMap_eq_nil_iff]
      intro t ht
      have hdone := hquiet.1 t ht
      cases hphase : t.phase <;> rw [hphase] at hdone <;> simp_all [Phase.isDone, Phase.held]
    have hredemptions : s.redemptions.flatMap (·.held) = [] := by
      rw [List.flatMap_eq_nil_iff]
      intro r hr
      have hclosed := hquiet.2 r hr
      cases r <;> simp_all [RedemptionPhase.isClosed, RedemptionPhase.held]
    have hpartition := (index_ownership h).1
    unfold IssuerSys.held at hpartition
    rw [hdeliveries, hredemptions] at hpartition
    simpa using hpartition

/-- **Deliveries and redemptions come to an end.** In every reachable state at most
`maxInFlightDeliveries` tasks hold a permit. In every run the steps of tasks and
redemptions are at most 25 for a task and 4 for a redemption, those still ahead
included, and in each state those ahead are within that. When none of them can take a
step, whatever the network answers, they are all closed, no process is APPROVED any more
and every index handed out is free or of a stored record; and some schedule of their
steps alone leads there, every process that was APPROVED being DELIVERED or ERRORED. -/
theorem workers_finish {s : IssuerSys} (h : Reachable (issuer service start) s) :
    (s.deliveries.filter (fun t => t.phase.holdsPermit)).length ≤ maxInFlightDeliveries ∧
    s.work ≤ 25 * s.deliveries.length + 4 * s.redemptions.length ∧
    (∀ as s', (issuer service start).run s as = some s' →
      as.countP (fun a => a.isWork) + s'.work +
          (25 * s.deliveries.length + 4 * s.redemptions.length) ≤
        s.work + (25 * s'.deliveries.length + 4 * s'.redemptions.length)) ∧
    ((∀ a, a.isWork = true → (issuer service start).step s a = none) → Settled s s) ∧
    (∃ as s', (∀ a ∈ as, a.isWork = true) ∧ (issuer service start).run s as = some s' ∧
      Settled s s') := by
  have hself : Carried s s := by
    intro k p p' hp hstate hp'
    rw [hp] at hp'
    cases hp'
    exact Or.inl hstate
  have hdrains : StepSystem.Drains (issuer service start) _ _ _ _ := issuer_drains s
  refine ⟨?_, work_le_budget h, ?_, ?_, ?_⟩
  · rw [length_filter_holdsPermit]
    exact permits_le h
  · intro as s' hrun
    have hpaid := issuer_pays.run h hrun
    rw [sum_cost] at hpaid
    exact hpaid
  · intro hstuck
    exact settled_of_quiet h hself (hdrains.goal_of_stuck ⟨h, hself⟩ hstuck)
  · obtain ⟨as, s', hwork, hrun, ⟨hreach, hcarried⟩, hquiet⟩ := hdrains.exists_run ⟨h, hself⟩
    exact ⟨as, s', hwork, hrun, settled_of_quiet hreach hcarried hquiet⟩

/-- A delivery whose post is not answered, one that was never spawned, and a redemption
that has its index. -/
def workersUnderWay : List (IssuerAction reference) :=
  [sampleRequest "p1" "acme" 10, sampleRequest "p2" "unused" 11] ++
    samplePosting 0 "c1" "j1" 12 ++
      [.redeem "membership-credential" "did:web:acme.example",
        .redemption 0 (.govern 14 "unused-2"), .redemption 0 .allocate]

set_option maxRecDepth 4000 in
/-- The theorem at the end of that schedule. -/
theorem workers_finish_sample :
    ∃ s, Reachable (issuer (sampleIssuer .auto) 0) s ∧ s.work = 3 + 25 + 2 ∧
      s.deliveries.map (·.phase.held) = [[0], []] ∧ s.redemptions.map (·.held) = [[1]] ∧
        ∃ as s', (∀ a ∈ as, a.isWork = true) ∧
          (issuer (sampleIssuer .auto) 0).run s as = some s' ∧ Settled s s' := by
  obtain ⟨s, hr, hp⟩ := StepSystem.exists_reachable_of_run
    (M := issuer (sampleIssuer .auto) 0) workersUnderWay
    (p := fun s => s.work = 3 + 25 + 2 ∧ s.deliveries.map (·.phase.held) = [[0], []] ∧
      s.redemptions.map (·.held) = [[1]])
    (by decide +kernel)
  obtain ⟨hwork, hdeliveries, hredemptions⟩ := of_decide_eq_true hp
  exact ⟨s, hr, hwork, hdeliveries, hredemptions, (workers_finish hr).2.2.2.2⟩

end IdentityHub
