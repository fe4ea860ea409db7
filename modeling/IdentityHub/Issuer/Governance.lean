import IdentityHub.Issuer.Admin

/-!
# What the admin token guards

Every request of the admin API is at most one step of the issuer, and a request that is
refused is none. The operator's decisions are behind the token: in a run in which nobody
presents it, the catalog stays the seeded one, every holder stays in the status it was
first met with, nothing is revoked and, under manual approval, nothing is ever delivered.
-/

namespace IdentityHub

open Json (Value Number)
open StepSystem (Machine Reachable ReachableBy Guard Refines)

variable {X : External}

/-! ## The token -/

/-- The header carries the token: the scheme in any case, then one or more spaces. -/
def Carries (authorization : Option String) (token : String) : Prop :=
  ∃ scheme spaces : List Char,
    authorization.map String.toList = some (scheme ++ ' ' :: (spaces ++ token.toList)) ∧
      scheme.map Char.toLower = "bearer".toList ∧ (∀ c ∈ spaces, c = ' ') ∧
        token.toList.head? ≠ some ' '

theorem bearerToken_eq_some {value token : String} :
    bearerToken value = some token ↔ Carries (some value) token := by
  have hlower : ∀ scheme : List Char, scheme.map Char.toLower = "bearer".toList →
      ' ' ∉ scheme := by
    intro scheme hscheme hmem
    have himage : Char.toLower ' ' ∈ scheme.map Char.toLower := List.mem_map_of_mem hmem
    rw [hscheme] at himage
    exact absurd himage (by decide)
  unfold bearerToken Carries
  rw [Option.bind_eq_some_iff]
  constructor
  · rintro ⟨⟨scheme, rest⟩, hsplit, hif⟩
    obtain ⟨hvalue, -⟩ := Text.splitOnce_eq_some.mp hsplit
    dsimp only at hif
    split at hif
    · rename_i hscheme
      cases hif
      refine ⟨scheme.toList, rest.toList.takeWhile (· == ' '), ?_, ?_, ?_, ?_⟩
      · simp [hvalue]
      · have hchars := congrArg String.toList hscheme
        simpa [Text.asciiLower] using hchars
      · intro c hc
        have hspace := List.mem_takeWhile_imp hc
        simpa using hspace
      · have hhead := List.head?_dropWhile_not (· == ' ') rest.toList
        intro heq
        rw [String.toList_ofList] at heq
        rw [heq] at hhead
        simp at hhead
    · cases hif
  · rintro ⟨scheme, spaces, hvalue, hscheme, hspaces, htoken⟩
    rw [Option.map_some, Option.some_inj] at hvalue
    refine ⟨(String.ofList scheme, String.ofList (spaces ++ token.toList)), ?_, ?_⟩
    · rw [Text.splitOnce_eq_some]
      simpa [hvalue] using hlower scheme hscheme
    · have hpass : Text.asciiLower (String.ofList scheme) = "bearer" := by
        rw [Text.asciiLower, String.toList_ofList, hscheme, String.ofList_toList]
      have hdrop : (spaces ++ token.toList).dropWhile (· == ' ') = token.toList := by
        rw [List.dropWhile_append_of_pos (by simpa using hspaces)]
        cases hchars : token.toList with
        | nil => rfl
        | cons c rest =>
            rw [hchars] at htoken
            simp only [List.head?_cons, ne_eq, Option.some_inj] at htoken
            simp [htoken]
      dsimp only
      rw [if_pos hpass, String.toList_ofList, hdrop, String.ofList_toList]

/-- **The check passes for the configured token alone**, and never where none is
configured. -/
theorem AdminApi.requireAdminToken_eq_none {api : AdminApi X} {authorization : Option String} :
    api.requireAdminToken authorization = none ↔
      ∃ token, api.adminToken = some token ∧ token ≠ "" ∧ Carries authorization token := by
  unfold requireAdminToken
  cases htoken : api.adminToken.filter (fun token => token ≠ "") with
  | none =>
      simp only [reduceCtorEq, false_iff, not_exists, not_and]
      intro token hsome hne
      rw [hsome, Option.filter_some, if_pos (by simpa using hne)] at htoken
      cases htoken
  | some expected =>
      obtain ⟨hsome, hne⟩ := Option.filter_eq_some_iff.mp htoken
      rw [decide_eq_true_iff] at hne
      have hbearer : authorization.bind bearerToken = some expected ↔
          Carries authorization expected := by
        cases authorization with
        | none => simp [Carries]
        | some value => exact bearerToken_eq_some
      have hright : (∃ token, api.adminToken = some token ∧ token ≠ "" ∧
          Carries authorization token) ↔ authorization.bind bearerToken = some expected := by
        rw [hbearer, hsome]
        constructor
        · rintro ⟨token, heq, -, hcarries⟩
          cases heq
          exact hcarries
        · exact fun hcarries => ⟨expected, rfl, hne, hcarries⟩
      rw [hright]
      dsimp only
      cases authorization.bind bearerToken with
      | none => simp
      | some presented =>
          have hsame : utf8Bytes presented = utf8Bytes expected ↔ presented = expected := by
            constructor
            · intro h
              have hread : fromUtf8 (utf8Bytes presented) = some presented := fromUtf8_eq_some.mpr rfl
              rw [h, fromUtf8_eq_some.mpr rfl] at hread
              exact (Option.some_inj.mp hread).symm
            · intro h
              rw [h]
          dsimp only
          by_cases heq : presented = expected
          · rw [if_pos (constantTimeEq_iff.mpr (hsame.mpr heq)), heq]
            simp
          · rw [if_neg (fun h => heq (hsame.mp (constantTimeEq_iff.mp h)))]
            simpa using heq

/-! ## One request -/

/-- What a request ends in: an answer that is no error, or a refusal that changes nothing.
A query that panics has no answer and changes nothing. -/
inductive AdminOutcome (s : IssuerSys) : Option AdminResponse × IssuerSys → Prop
  | done (response : AdminResponse) (s' : IssuerSys) :
      response.status ∈ [200, 201, 204] → AdminOutcome s (some response, s')
  | refused (status : ℕ) (message : String) :
      status ∈ [400, 401, 404, 405, 409, 503] →
        AdminOutcome s (some (adminError status message), s)
  | panicked : AdminOutcome s (none, s)

namespace AdminApi

variable {api : AdminApi X} {s : IssuerSys} {body : List UInt8} {now : ℕ} {uuid : String}

theorem route_error {request : AdminRequest} {refusal : AdminResponse}
    (h : api.route request = .error refusal) :
    ∃ status message, refusal = adminError status message ∧ status ∈ [400, 401, 404, 405] := by
  unfold route at h
  split at h
  · rename_i r hrefusal
    cases h
    unfold requireAdminToken at hrefusal
    repeat' split at hrefusal
    all_goals cases hrefusal
    all_goals exact ⟨_, _, rfl, by simp⟩
  · repeat' split at h
    all_goals cases h
    all_goals exact ⟨_, _, rfl, by simp⟩

theorem runQuery_ok {items : List Value} {response : AdminResponse}
    (h : api.runQuery body items = some (.ok response)) : response.status = 200 := by
  unfold runQuery at h
  split at h
  · cases h
  · obtain ⟨page, -, hpage⟩ := Option.map_eq_some_iff.mp h
    cases page <;> cases hpage
    rfl

/-- What a handler answers that does not refuse. -/
theorem call_ok {target : AdminCall} {response : AdminResponse} {s' : IssuerSys}
    (h : api.call s body now uuid target = some (.ok (response, s'))) :
    response.status ∈ [200, 201, 204] := by
  have query : ∀ {items : List Value},
      (api.runQuery body items).map (·.map (fun response => (response, s))) =
        some (.ok (response, s')) → response.status ∈ [200, 201, 204] := by
    intro items hsome
    obtain ⟨answer, hanswer, hmap⟩ := Option.map_eq_some_iff.mp hsome
    cases answer with
    | error e => cases hmap
    | ok answer =>
        cases hmap
        rw [runQuery_ok hanswer]
        simp
  have read : ∀ {r : Except IssuerError AdminResponse},
      (∀ answer, r = .ok answer → answer.status = 200) →
        some (r.map (fun response => (response, s))) = some (.ok (response, s')) →
          response.status ∈ [200, 201, 204] := by
    intro r hr hsome
    cases r with
    | error e => cases hsome
    | ok answer =>
        cases hsome
        rw [hr _ rfl]
        simp
  cases target with
  | queryDefinitions => exact query h
  | queryHolders => exact query h
  | queryProcesses => exact query h
  | queryCredentials => exact query h
  | participant =>
      cases h
      simp [participant]
  | getDefinition id =>
      refine read (fun answer hanswer => ?_) h
      unfold getDefinition at hanswer
      split at hanswer <;> cases hanswer
      rfl
  | getHolder holderId =>
      refine read (fun answer hanswer => ?_) h
      unfold getHolder at hanswer
      split at hanswer <;> cases hanswer
      rfl
  | getProcess id =>
      refine read (fun answer hanswer => ?_) h
      unfold getProcess at hanswer
      split at hanswer <;> cases hanswer
      rfl
  | credentialStatus id =>
      refine read (fun answer hanswer => ?_) h
      unfold credentialStatus at hanswer
      split at hanswer <;> cases hanswer
      rfl
  | _ =>
      -- the writes: all but the last step of each refuses
      simp only [call, createDefinition, updateDefinition, deleteDefinition, registerHolder,
        updateHolder, decideHolder, revokeCredential, bind, Except.bind, pure, Except.pure,
        Option.some_inj] at h
      repeat' split at h
      all_goals cases h
      all_goals simp

/-- **Every request ends in one of the outcomes.** -/
theorem handle_outcome (request : AdminRequest) :
    AdminOutcome s (api.handle s now uuid request) := by
  unfold handle
  cases hroute : api.route request with
  | error refusal =>
      obtain ⟨status, message, rfl, hstatus⟩ := route_error hroute
      refine .refused status message ?_
      simp only [List.mem_cons, List.not_mem_nil, or_false] at hstatus ⊢
      omega
  | ok target =>
      dsimp only
      cases hcall : api.call s request.body now uuid target with
      | none => exact .panicked
      | some result =>
          cases result with
          | error e => cases e <;> exact .refused _ _ (by simp)
          | ok answer => exact .done answer.1 answer.2 (call_ok hcall)

/-- A request that does not carry the token is refused, whatever else it says. -/
theorem handle_of_refused {request : AdminRequest}
    (h : api.requireAdminToken request.authorization ≠ none) :
    api.action now uuid request = none ∧
      ∃ message, api.handle s now uuid request = (some (adminError 401 message), s) := by
  cases hrefusal : api.requireAdminToken request.authorization with
  | none => exact absurd hrefusal h
  | some refusal =>
      have hroute : api.route request = .error refusal := by
        rw [route, hrefusal]
      refine ⟨by rw [action, hroute], ?_⟩
      unfold requireAdminToken at hrefusal
      unfold handle
      rw [hroute]
      repeat' split at hrefusal
      all_goals cases hrefusal
      all_goals exact ⟨_, rfl⟩

end AdminApi

/-! ## The issuer behind its admin API -/

/-- What only the operator may do. -/
def IssuerAction.isOperators : IssuerAction X → Bool
  | .createDefinition _ _ | .updateDefinition _ _ | .deleteDefinition _ | .registerHolder _ _ _
  | .updateHolder _ | .approveHolder _ _ | .rejectHolder _ _ | .revokeCredential _ => true
  | _ => false

inductive ServiceAction (X : External) where
  | admin (request : AdminRequest) (now : ℕ) (uuid : String)
  | other (action : IssuerAction X)

/-- An admin request is answered; anything else is a step of the issuer that is not the
operator's. -/
def serviceStep (api : AdminApi X) (s : IssuerSys) : ServiceAction X → Option IssuerSys
  | .admin request now uuid =>
      let draws := (api.action now uuid request).elim [] IssuerAction.draws
      if ∀ u ∈ draws, u ∉ s.drawn then
        some { (api.handle s now uuid request).2 with drawn := draws ++ s.drawn }
      else none
  | .other action => if action.isOperators then none else issuerStep api.service s action

def issuerService (api : AdminApi X) (start : ℕ) : Machine IssuerSys (ServiceAction X) where
  init := .start start
  step := serviceStep api

variable {api : AdminApi X} {start : ℕ}

/-- An admin request draws one identifier at most. -/
theorem AdminApi.draws_nodup {now : ℕ} {uuid : String} {request : AdminRequest}
    {a : IssuerAction X} (h : api.action now uuid request = some a) : a.draws.Nodup := by
  unfold AdminApi.action at h
  split at h
  · cases h
  · rename_i target hroute
    cases target <;> simp only [AdminApi.callAction] at h
    all_goals first
      | cases h; done
      | (cases h; exact List.nodup_nil)
      | (obtain ⟨input, -, rfl⟩ := Option.map_eq_some_iff.mp h; simp [IssuerAction.draws])

theorem AdminApi.action_isOperators {now : ℕ} {uuid : String} {request : AdminRequest}
    {a : IssuerAction X} (h : api.action now uuid request = some a) : a.isOperators = true := by
  unfold AdminApi.action at h
  split at h
  · cases h
  · rename_i target hroute
    cases target <;> simp only [AdminApi.callAction] at h
    all_goals first
      | cases h; done
      | (cases h; rfl)
      | (obtain ⟨input, -, rfl⟩ := Option.map_eq_some_iff.mp h; rfl)

/-- **The service refines the issuer.** -/
theorem issuerService_refines :
    Refines (issuerService api start) (issuer api.service start) id where
  init := rfl
  step s a s' hstep := by
    cases a with
    | other action =>
        right
        refine ⟨action, ?_⟩
        change (if action.isOperators then none else issuerStep api.service s action) = _ at hstep
        split at hstep
        · cases hstep
        · exact hstep
    | admin request now uuid =>
        have hstate : (api.action now uuid request).elim (some s) (issuerPerform api.service s) =
            some (api.handle s now uuid request).2 := AdminApi.handle_state request
        change (if ∀ u ∈ (api.action now uuid request).elim [] IssuerAction.draws, u ∉ s.drawn then
          some { (api.handle s now uuid request).2 with
            drawn := (api.action now uuid request).elim [] IssuerAction.draws ++ s.drawn }
          else none) = some s' at hstep
        generalize (api.handle s now uuid request).2 = t at hstate hstep
        cases haction : api.action now uuid request with
        | none =>
            left
            rw [haction] at hstate hstep
            obtain rfl : s = t := Option.some_inj.mp hstate
            split at hstep
            · cases hstep
              rfl
            · cases hstep
        | some a =>
            right
            rw [haction] at hstate hstep
            split at hstep
            · rename_i hfresh
              cases hstep
              refine ⟨a, ?_⟩
              show issuerStep api.service s a = _
              rw [issuerStep, if_pos ⟨AdminApi.draws_nodup haction, hfresh⟩]
              have hperform : issuerPerform api.service s a = some t := hstate
              rw [hperform]
              rfl
            · cases hstep

/-! ## Without the token -/

/-- The action is no request that passes the check. -/
def ServiceAction.lacksToken (api : AdminApi X) : ServiceAction X → Bool
  | .admin request _ _ => (api.requireAdminToken request.authorization).isSome
  | .other _ => true

/-- Nobody presents the token. -/
def withoutToken (api : AdminApi X) : Guard IssuerSys (ServiceAction X) := fun _ a =>
  a.lacksToken api = true

/-- What the operator decides on is as it was at the start. -/
structure Ungoverned (service : IssuerService X) (start : ℕ) (s : IssuerSys) : Prop where
  definitions : s.app.definitions = .seeded start
  vouched : s.vouched = []
  holders : ∀ k holder, s.app.holders.get k = some holder →
    holder.status = service.holderApproval.firstStatus
  issued : ∀ k r, s.app.issued.get k = some r → r.status = .active
  tasks : service.holderApproval = .manual → s.deliveries = []

section

variable {service : IssuerService X}

theorem IssuedCredentials.get_foldl_insert {records : List IssuedCredential}
    {issued : IssuedCredentials} {k : String} {r : IssuedCredential}
    (h : (records.foldl IssuedCredentials.insert issued).get k = some r) :
    issued.get k = some r ∨ r ∈ records := by
  induction records generalizing issued with
  | nil => exact Or.inl h
  | cons record records ih =>
      rcases ih h with hget | hmem
      · rw [IssuedCredentials.get_insert] at hget
        split at hget
        · cases hget
          exact Or.inr List.mem_cons_self
        · exact Or.inl hget
      · exact Or.inr (List.mem_cons_of_mem _ hmem)

/-- What a worker stores has not been revoked. -/
theorem WorkerMove.active {fresh : List String} {issued issued' : IssuedCredentials}
    {held held' : List ℕ} {unrecorded unrecorded' : List IssuedCredential}
    (hm : WorkerMove fresh issued issued' held held' unrecorded unrecorded')
    (hissued : ∀ k r, issued.get k = some r → r.status = .active)
    (hunrecorded : ∀ r ∈ unrecorded, r.status = .active) :
    ∀ k r, issued'.get k = some r → r.status = .active := by
  intro k r h
  cases hm with
  | keep hi _ _ => exact hissued k r (hi ▸ h)
  | take index list new _ hi _ _ _ _ =>
      rw [hi] at h
      exact hissued k r h
  | giveBack hi _ _ =>
      rw [hi] at h
      exact hissued k r h
  | store records hi _ _ _ hrecords =>
      rw [hi] at h
      rcases IssuedCredentials.get_foldl_insert h with hold | hmem
      · exact hissued k r hold
      · rcases hrecords with rfl | ⟨hactive, -, -⟩
        · exact hunrecorded r hmem
        · exact hactive r hmem

/-- A first contact gives a holder the first status. -/
theorem HoldersMove.firstStatus {holders holders' : HolderRegistry} {vouched : List String}
    (hm : HoldersMove service holders vouched holders' vouched)
    (h : ∀ k holder, holders.get k = some holder →
      holder.status = service.holderApproval.firstStatus) :
    ∀ k holder, holders'.get k = some holder →
      holder.status = service.holderApproval.firstStatus := by
  intro k holder hget
  cases hm with
  | same => exact h k holder hget
  | contact new hins hnew =>
      rw [HolderRegistry.get_insert hins] at hget
      split at hget
      · cases hget
        exact hnew
      · exact h k holder hget
  | edit holderId f hf =>
      rw [HolderRegistry.get_modify] at hget
      split at hget
      · obtain ⟨old, hold, rfl⟩ := Option.map_eq_some_iff.mp hget
        rw [(hf old).2.2]
        exact h k old hold
      · exact h k holder hget

/-- **Step lemma.** What is not the operator's leaves the operator's decisions alone. -/
theorem Ungoverned.step {s s' : IssuerSys} {a : IssuerAction X} (hs : Ungoverned service start s)
    (hr : Reachable (issuer service start) s) (ha : a.isOperators = false)
    (hstep : (issuer service start).step s a = some s') : Ungoverned service start s' := by
  have hkeys := (standing_of_reachable hr).holderKeys
  have hactive := (accounts_of_reachable hr).active
  obtain ⟨-, -, s₁, hp, rfl⟩ := issuer_step_eq_some hstep
  cases a with
  | credentialRequest claims message now processId holderUuid =>
      cases hp
      obtain ⟨hmove, hnew⟩ := credentialRequest_cases s.vouched hkeys
        (rfl : credentialRequest service s.app claims message now processId holderUuid = _)
      have hholders := hmove.firstStatus hs.holders
      refine
        { definitions := credentialRequest_definitions.trans hs.definitions
          vouched := hs.vouched
          holders := hholders
          issued := ?_
          tasks := ?_ }
      · intro k r h
        exact hs.issued k r (issued_credentialRequest ▸ h)
      · intro hmanual
        have hno : (credentialRequest service s.app claims message now processId
            holderUuid).deliverNow = false := by
          rcases hnew with ⟨hno, -⟩ | ⟨p, holder, hget, hstate, -, -, -, hd⟩
          · exact hno
          · -- a pending holder's process is SUBMITTED
            rw [hholders _ _ hget, hmanual] at hstate
            rw [hd, ← Option.some_inj.mp hstate]
            rfl
        simp [hno, hs.tasks hmanual]
  | fetchStatusList now =>
      cases hp
      have happ : (statusList service s.app now).2.definitions = s.app.definitions ∧
          (statusList service s.app now).2.holders = s.app.holders ∧
            ∀ k, (statusList service s.app now).2.issued.get k = s.app.issued.get k := by
        unfold statusList
        split <;> exact ⟨rfl, rfl, fun _ => rfl⟩
      obtain ⟨hd, hh, hi⟩ := happ
      exact
        { definitions := hd.trans hs.definitions
          vouched := hs.vouched
          holders := fun k holder h => hs.holders k holder (by rwa [← hh])
          issued := fun k r h => hs.issued k r (by rwa [← hi])
          tasks := hs.tasks }
  | redeem configId holderDid =>
      obtain ⟨definition, -, rfl⟩ := Option.map_eq_some_iff.mp hp
      exact ⟨hs.definitions, hs.vouched, hs.holders, hs.issued, hs.tasks⟩
  | redemption i event =>
      obtain ⟨r, -, hp⟩ := Option.bind_eq_some_iff.mp hp
      obtain ⟨⟨app, r'⟩, hout, rfl⟩ := Option.map_eq_some_iff.mp hp
      refine
        { definitions := (redemptionStep_definitions hout).trans hs.definitions
          vouched := hs.vouched
          holders := ?_
          issued := (redemptionStep_worker hout).active hs.issued (by simp)
          tasks := hs.tasks }
      rcases redemptionStep_cases s.vouched hkeys hout with ⟨hmove, -⟩ | ⟨hh, -⟩
      · exact hmove.firstStatus hs.holders
      · intro k holder h
        exact hs.holders k holder (hh ▸ h)
  | delivery i event =>
      obtain ⟨t, ht, hp⟩ := Option.bind_eq_some_iff.mp hp
      obtain ⟨⟨app, t'⟩, hout, rfl⟩ := Option.map_eq_some_iff.mp hp
      obtain ⟨hh, -, -, -⟩ := deliveryStep_move hout
      refine
        { definitions := (deliveryStep_definitions hout).trans hs.definitions
          vouched := hs.vouched
          holders := fun k holder h => hs.holders k holder (hh ▸ h)
          issued := (deliveryStep_worker hout).active hs.issued ?_
          tasks := ?_ }
      · intro r hrec
        refine hactive r (Multiset.mem_coe.mpr (List.mem_flatMap.mpr ⟨t, ?_, hrec⟩))
        exact List.mem_of_getElem? ht
      · intro hmanual
        rw [hs.tasks hmanual] at ht
        simp at ht
  | storageAnswers i status =>
      obtain ⟨t, ht, hp⟩ := Option.bind_eq_some_iff.mp hp
      obtain ⟨t', -, rfl⟩ := Option.map_eq_some_iff.mp hp
      refine ⟨hs.definitions, hs.vouched, hs.holders, hs.issued, ?_⟩
      intro hmanual
      rw [hs.tasks hmanual] at ht
      simp at ht
  | _ => cases ha

end

theorem ungoverned_of_reachable {s : IssuerSys}
    (h : ReachableBy (issuerService api start) (withoutToken api) s) :
    Ungoverned api.service start s := by
  refine h.invariant_of (J := Reachable (issuer api.service start))
    (fun s₁ hr => issuerService_refines.reachable hr) ?_ ?_
  · refine ⟨rfl, rfl, ?_, ?_, fun _ => rfl⟩
    · intro k holder hget
      change HolderRegistry.empty.get k = some holder at hget
      rw [HolderRegistry.get_empty] at hget
      cases hget
    · intro k r hget
      cases (AList.lookup_empty (β := fun _ => IssuedCredential) k).symm.trans hget
  · intro s₁ a s₂ hr hs hguard hstep
    cases a with
    | other action =>
        change (if action.isOperators then none else issuerStep api.service s₁ action) = _ at hstep
        split at hstep
        · cases hstep
        · rename_i hother
          exact hs.step hr (by simpa using hother) hstep
    | admin request now uuid =>
        -- the request is refused, and is no step
        obtain ⟨haction, message, hhandle⟩ : api.action now uuid request = none ∧
            ∃ message, api.handle s₁ now uuid request = (some (adminError 401 message), s₁) :=
          AdminApi.handle_of_refused (Option.isSome_iff_ne_none.mp hguard)
        change (if ∀ u ∈ (api.action now uuid request).elim [] IssuerAction.draws, u ∉ s₁.drawn
          then some { (api.handle s₁ now uuid request).2 with
            drawn := (api.action now uuid request).elim [] IssuerAction.draws ++ s₁.drawn }
          else none) = some s₂ at hstep
        rw [haction, hhandle] at hstep
        split at hstep
        · cases hstep
          exact ⟨hs.definitions, hs.vouched, hs.holders, hs.issued, hs.tasks⟩
        · cases hstep

/-! ## A service to replay schedules on -/

/-- The sample issuer, administered with the token `sesame` in the context `issuer`. -/
def sampleApi (approval : HolderApproval) : AdminApi reference where
  service := sampleIssuer approval
  adminToken := some "sesame"
  participantContextId := "issuer"
  parse bytes :=
    match (fromUtf8 bytes).bind (fun text => Json.Text.parse text.toList) with
    | some value => .ok value
    | none => .error "expected value"
  shapeError _ := "invalid type"
  numberText _ := "number"

def adminRequest (authorization : String) (call : AdminCall) : AdminRequest where
  authorization := some authorization
  target := .matched "aXNzdWVy" call
  body := []

/-- Acme asks; one request to approve it presents another token, the next the right one. -/
def approveTwice : List (ServiceAction reference) :=
  [.other (sampleRequest "p1" "acme" 10),
    .admin (adminRequest "Bearer guess" (.approveHolder "acme")) 11 "unused-1",
    .admin (adminRequest "bearer  sesame" (.approveHolder "acme")) 12 "unused-2"]

/-- **What a request of the admin API can do.** In every reachable state of the service,
which is one of the issuer, a request is answered, or refused with nothing changed; it
leaves the state as it was or does one thing of the operator's; and one that does not
carry the configured token, which is not empty, is refused whatever its path and body. -/
theorem admin_requests_guarded {s : IssuerSys} (h : Reachable (issuerService api start) s)
    (request : AdminRequest) (now : ℕ) (uuid : String) :
    Reachable (issuer api.service start) s ∧
    AdminOutcome s (api.handle s now uuid request) ∧
    ((api.handle s now uuid request).2 = s ∨ ∃ a : IssuerAction X, a.isOperators = true ∧
      issuerPerform api.service s a = some (api.handle s now uuid request).2) ∧
    ((¬ ∃ token, api.adminToken = some token ∧ token ≠ "" ∧
        Carries request.authorization token) →
      ∃ message, api.handle s now uuid request = (some (adminError 401 message), s)) := by
  refine ⟨issuerService_refines.reachable h, AdminApi.handle_outcome request, ?_, ?_⟩
  · have hstate : (api.action now uuid request).elim (some s) (issuerPerform api.service s) =
        some (api.handle s now uuid request).2 := AdminApi.handle_state request
    cases haction : api.action now uuid request with
    | none =>
        left
        rw [haction] at hstate
        exact (Option.some_inj.mp hstate).symm
    | some a =>
        right
        rw [haction] at hstate
        exact ⟨a, AdminApi.action_isOperators haction, hstate⟩
  · intro hnone
    rw [← AdminApi.requireAdminToken_eq_none] at hnone
    exact (AdminApi.handle_of_refused hnone).2

set_option maxRecDepth 4000 in
/-- The theorem at the end of that schedule, for a request with another token. -/
theorem admin_requests_guarded_sample :
    ∃ s, Reachable (issuerService (sampleApi .manual) 0) s ∧
      (s.app.holders.get "acme").map (·.status) = some .approved ∧
        ∃ message, (sampleApi .manual).handle s 13 "unused-3"
          (adminRequest "Bearer guess" (.rejectHolder "acme")) =
            (some (adminError 401 message), s) := by
  obtain ⟨s, hr, hp⟩ := StepSystem.exists_reachable_of_run
    (M := issuerService (sampleApi .manual) 0) approveTwice
    (p := fun s => (s.app.holders.get "acme").map (·.status) = some .approved)
    (by decide +kernel)
  refine ⟨s, hr, of_decide_eq_true hp, ?_⟩
  apply (admin_requests_guarded hr (adminRequest "Bearer guess" (.rejectHolder "acme")) 13
    "unused-3").2.2.2
  rw [← AdminApi.requireAdminToken_eq_none]
  decide +kernel

/-- **The token guards every decision.** In every state of a run in which nobody presents
the token, the catalog is the seeded one, the operator has vouched for nobody, every holder
has the status of a first contact, no credential is revoked and no bit of the status list
is set; and where holders are approved by hand, nothing has been posted to anyone. -/
theorem nothing_governed_without_token {s : IssuerSys}
    (h : ReachableBy (issuerService api start) (withoutToken api) s) :
    Ungoverned api.service start s ∧
      (∀ i, s.app.issued.statusList.isSet i = false) ∧
        (api.service.holderApproval = .manual → ∀ k, postsOf s k = []) := by
  have hs := ungoverned_of_reachable h
  have haccounts := accounts_of_reachable (issuerService_refines.reachable h)
  refine ⟨hs, ?_, ?_⟩
  · intro i
    by_contra hset
    obtain ⟨r, hr, hrevoked, -⟩ := (haccounts.bits i).mp (by simpa using hset)
    obtain ⟨k, hget⟩ := IssuedCredentials.mem_recordList.mp hr
    rw [hs.issued k r hget] at hrevoked
    cases hrevoked
  · intro hmanual k
    unfold postsOf
    rw [hs.tasks hmanual]
    rfl

set_option maxRecDepth 4000 in
/-- Acme asks and somebody guesses at the token: the request waits. -/
theorem nothing_governed_without_token_sample :
    ∃ s, ReachableBy (issuerService (sampleApi .manual) 0) (withoutToken (sampleApi .manual)) s ∧
      (s.app.requests.get "p1").map (·.state) = some .submitted ∧
        Ungoverned (sampleIssuer .manual) 0 s ∧ postsOf s "p1" = [] := by
  obtain ⟨s, hr, hp⟩ := StepSystem.exists_reachableBy_of_run
    (M := issuerService (sampleApi .manual) 0) (g := fun _ a => a.lacksToken (sampleApi .manual))
    (approveTwice.take 2)
    (p := fun s => (s.app.requests.get "p1").map (·.state) = some .submitted)
    (by decide +kernel)
  have hnothing := nothing_governed_without_token hr
  exact ⟨s, hr, of_decide_eq_true hp, hnothing.1, hnothing.2.2 rfl "p1"⟩

end IdentityHub
