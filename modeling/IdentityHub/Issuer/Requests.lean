import IdentityHub.Issuer.Lifecycle

/-!
# The request table over whole runs

Any run of insertions under new ids and of changes in place, with any capacity:
the queue lists the stored ids, each once, in the order they were inserted, and
the table fits (`RequestTable.Run.kept`). So the eviction loop runs at most one
round, takes the oldest ended process, and leaves the table alone when there is
none. The service's table goes through such a run, and the caps on SUBMITTED
processes hold in each of its states.
-/

namespace IdentityHub

open StepSystem (Machine Reachable)

namespace RequestTable

/-- The table the eviction loop leaves behind, whether or not it made room. -/
def leftByLoop : ℕ → RequestTable → RequestTable
  | 0, table => table
  | rounds + 1, table =>
      if KeyedTable.size table.records < table.capacity then table
      else
        match table.order.find? table.isEvictable with
        | some oldest => leftByLoop rounds (table.evict oldest)
        | none => table

/-- What `insert` leaves when it refuses. -/
def leftByRefusal (table : RequestTable) : RequestTable :=
  leftByLoop (table.order.length + 1) table

/-- A process that ended is stored under the id. -/
def hasEnded (table : RequestTable) (id : String) : Bool :=
  (table.get id).any (fun record => record.state.isTerminal)

/-- A run of a table: the ids inserted so far, in order, and the table. -/
inductive Run (capacity : ℕ) : List String → RequestTable → Prop
  | new : Run capacity [] (.new capacity)
  | insert {inserted : List String} {table table' : RequestTable} (id : String)
      (record : IssuanceProcess) :
      Run capacity inserted table → id ∉ inserted → table.insert id record = .ok table' →
        Run capacity (inserted ++ [id]) table'
  | refused {inserted : List String} {table : RequestTable} (id : String)
      (record : IssuanceProcess) (e : TableFull) :
      Run capacity inserted table → id ∉ inserted → table.insert id record = .error e →
        Run capacity inserted table.leftByRefusal
  | change {inserted : List String} {table : RequestTable}
      (f : String → IssuanceProcess → IssuanceProcess) :
      Run capacity inserted table →
        Run capacity inserted { table with records := KeyedTable.map f table.records }

/-- The queue and the records agree, and the table fits. -/
structure Kept (capacity : ℕ) (inserted : List String) (table : RequestTable) : Prop where
  queued : KeyedTable.Queued table.order table.records
  inOrder : table.order.Sublist inserted
  sameCapacity : table.capacity = capacity
  fits : KeyedTable.size table.records ≤ capacity

variable {capacity : ℕ} {inserted : List String} {table table' : RequestTable} {id : String}
  {record : IssuanceProcess}

/-- Every queued id has a record, so what may be evicted is what ended. -/
theorem Kept.find?_eq (h : Kept capacity inserted table) :
    table.order.find? table.isEvictable = table.order.find? table.hasEnded := by
  apply List.find?_congr
  intro k hk
  obtain ⟨p, hp⟩ := KeyedTable.exists_lookup ((h.queued.mem k).mp hk)
  have hget : table.get k = some p := hp
  rw [isEvictable, hasEnded, hget]
  rfl

theorem insert_of_room (hroom : KeyedTable.size table.records < table.capacity) :
    table.insert id record = .ok
      { records := table.records.insert id record
        order := table.order ++ [id]
        capacity := table.capacity } := by
  rw [insert, makeRoom_eq, if_pos hroom]

/-- One round is enough: the table had at most `capacity` records. -/
theorem Kept.insert_of_full (h : Kept capacity inserted table) {oldest : String}
    (hfull : KeyedTable.size table.records = capacity)
    (holdest : table.order.find? table.hasEnded = some oldest) :
    table.insert id record = .ok
      { records := (table.records.erase oldest).insert id record
        order := table.order.erase oldest ++ [id]
        capacity := table.capacity } := by
  have hmem : oldest ∈ table.records :=
    (h.queued.mem oldest).mp (List.mem_of_find?_eq_some holdest)
  have hroom : KeyedTable.size (table.evict oldest).records < (table.evict oldest).capacity := by
    have hsize := KeyedTable.size_erase hmem
    show KeyedTable.size (table.records.erase oldest) < table.capacity
    rw [h.sameCapacity, ← hfull]
    omega
  have hnone : ¬ KeyedTable.size table.records < table.capacity := by
    rw [h.sameCapacity, hfull]
    exact lt_irrefl capacity
  rw [insert, makeRoom_eq, if_neg hnone, h.find?_eq, holdest, Option.bind_some, makeRoom_eq,
    if_pos hroom]
  rfl

theorem Kept.insert_of_stuck (h : Kept capacity inserted table) (id : String)
    (record : IssuanceProcess)
    (hfull : KeyedTable.size table.records = capacity)
    (hnone : table.order.find? table.hasEnded = none) :
    table.insert id record = .error .tableFull ∧ table.leftByRefusal = table := by
  have hfull' : ¬ KeyedTable.size table.records < table.capacity := by
    rw [h.sameCapacity, hfull]
    exact lt_irrefl capacity
  have hstuck : table.order.find? table.isEvictable = none := h.find?_eq.trans hnone
  constructor
  · rw [insert, makeRoom_eq, if_neg hfull', hstuck]
    rfl
  · rw [leftByRefusal, leftByLoop, if_neg hfull', hstuck]

/-- The three ways an insertion into a kept table can go. -/
theorem Kept.insert_cases (h : Kept capacity inserted table) :
    KeyedTable.size table.records < capacity ∨
      (KeyedTable.size table.records = capacity ∧
        ∃ oldest, table.order.find? table.hasEnded = some oldest) ∨
        KeyedTable.size table.records = capacity ∧ table.order.find? table.hasEnded = none := by
  rcases Nat.lt_or_eq_of_le h.fits with hlt | hfull
  · exact Or.inl hlt
  · cases hfind : table.order.find? table.hasEnded with
    | none => exact Or.inr (Or.inr ⟨hfull, rfl⟩)
    | some oldest => exact Or.inr (Or.inl ⟨hfull, oldest, rfl⟩)

/-- **An insertion keeps the table kept.** -/
theorem Kept.insert (h : Kept capacity inserted table) (hnew : id ∉ inserted)
    (hins : table.insert id record = .ok table') : Kept capacity (inserted ++ [id]) table' := by
  have hid : id ∉ table.records := fun hmem =>
    hnew (h.inOrder.subset ((h.queued.mem id).mpr hmem))
  rcases h.insert_cases with hroom | ⟨hfull, oldest, holdest⟩ | ⟨hfull, hnone⟩
  · rw [insert_of_room (h.sameCapacity.symm ▸ hroom)] at hins
    cases hins
    exact
      { queued := h.queued.push hid record
        inOrder := h.inOrder.append (List.Sublist.refl [id])
        sameCapacity := h.sameCapacity
        fits := by
          show KeyedTable.size (table.records.insert id record) ≤ capacity
          rw [KeyedTable.size_insert record hid]
          exact hroom }
  · rw [h.insert_of_full hfull holdest] at hins
    cases hins
    have hid' : id ∉ table.records.erase oldest := fun hmem => hid (AList.mem_erase.mp hmem).2
    have hmem : oldest ∈ table.records :=
      (h.queued.mem oldest).mp (List.mem_of_find?_eq_some holdest)
    exact
      { queued := (h.queued.remove oldest).push hid' record
        inOrder := ((List.erase_sublist).trans h.inOrder).append (List.Sublist.refl [id])
        sameCapacity := h.sameCapacity
        fits := by
          have hsize := KeyedTable.size_erase hmem
          show KeyedTable.size ((table.records.erase oldest).insert id record) ≤ capacity
          rw [KeyedTable.size_insert record hid']
          omega }
  · rw [(h.insert_of_stuck id record hfull hnone).1] at hins
    cases hins

theorem Kept.change (h : Kept capacity inserted table)
    (f : String → IssuanceProcess → IssuanceProcess) :
    Kept capacity inserted { table with records := KeyedTable.map f table.records } where
  queued := h.queued.map f
  inOrder := h.inOrder
  sameCapacity := h.sameCapacity
  fits := (KeyedTable.size_map f table.records).symm ▸ h.fits

/-- **Every table of a run is kept.** -/
theorem Run.kept (h : Run capacity inserted table) : Kept capacity inserted table := by
  induction h with
  | new =>
      exact
        { queued := .empty
          inOrder := List.Sublist.slnil
          sameCapacity := rfl
          fits := Nat.zero_le capacity }
  | insert id record _ hnew hins ih => exact ih.insert hnew hins
  | refused id record e _ hnew hins ih =>
      rcases ih.insert_cases with hroom | ⟨hfull, oldest, holdest⟩ | ⟨hfull, hnone⟩
      · rw [insert_of_room (ih.sameCapacity.symm ▸ hroom)] at hins
        cases hins
      · rw [ih.insert_of_full hfull holdest] at hins
        cases hins
      · rw [(ih.insert_of_stuck id record hfull hnone).2]
        exact ih
  | change f _ ih => exact ih.change f

end RequestTable

/-! ## The service's table -/

variable {X : External} {service : IssuerService X} {start : ℕ}

/-- SUBMITTED processes, of a holder and in total. -/
def submittedOf (requests : RequestTable) (holderId : String) : ℕ :=
  (KeyedTable.values requests.records).countP
    (fun p => decide (p.state = .submitted ∧ p.holderId = holderId))

def submittedTotal (requests : RequestTable) : ℕ :=
  (KeyedTable.values requests.records).countP (fun p => decide (p.state = .submitted))

theorem pendingCounts_eq (requests : RequestTable) (holderId : String) :
    requests.pendingCounts holderId = (submittedOf requests holderId, submittedTotal requests) := by
  simp only [RequestTable.pendingCounts, submittedOf, submittedTotal, List.filter_filter,
    List.countP_eq_length_filter, Bool.decide_and, Bool.and_comm]

/-- The facts of a process that are settled when it is created. -/
structure IssuanceProcess.SameRequest (p p' : IssuanceProcess) : Prop where
  id : p'.id = p.id
  holderId : p'.holderId = p.holderId
  holderDid : p'.holderDid = p.holderDid
  credentialDefinitions : p'.credentialDefinitions = p.credentialDefinitions

/-- A change in place: no process becomes SUBMITTED, or active again. -/
structure IssuanceProcess.Edited (p p' : IssuanceProcess) : Prop where
  same : p.SameRequest p'
  submitted : p'.state = .submitted → p.state = .submitted
  active : p'.state.isActive → p.state.isActive

theorem IssuanceProcess.SameRequest.refl (p : IssuanceProcess) : p.SameRequest p :=
  ⟨rfl, rfl, rfl, rfl⟩

theorem IssuanceProcess.Edited.refl (p : IssuanceProcess) : p.Edited p :=
  ⟨.refl p, fun h => h, fun h => h⟩

/-- What a step does to the request table: changes in place, or one insertion
under a new id. An active process is inserted below the caps if SUBMITTED, and
the catalog has the definitions it names. -/
inductive RequestsMove (s : IssuerSys) (a : IssuerAction X) (requests' : RequestTable) : Prop
  | change (f : String → IssuanceProcess → IssuanceProcess) :
      (∀ k p, s.app.requests.get k = some p → p.Edited (f k p)) →
        requests' = { s.app.requests with records := KeyedTable.map f s.app.requests.records } →
          RequestsMove s a requests'
  | insert (p : IssuanceProcess) :
      p.id ∈ a.draws →
        (p.state = .submitted →
          submittedOf s.app.requests p.holderId < maxPendingProcessesPerHolder ∧
            submittedTotal s.app.requests < maxPendingProcesses) →
          (p.state.isActive → ∀ id ∈ p.credentialDefinitions,
            (s.app.definitions.get id).isSome) →
            s.app.requests.insert p.id p = .ok requests' → RequestsMove s a requests'

theorem RequestsMove.same {s : IssuerSys} {a : IssuerAction X} {requests' : RequestTable}
    (h : requests' = s.app.requests) : RequestsMove s a requests' := by
  refine .change (fun _ p => p) (fun _ p _ => .refl p) ?_
  rw [h]
  have hmap : KeyedTable.map (fun _ p => p) s.app.requests.records = s.app.requests.records :=
    AList.ext (List.map_id _)
  rw [hmap]

/-- The ids of a request that is not refused for them are in the catalog. -/
theorem refuseIds_eq_none {definitions : DefinitionCatalog} {ids : List String}
    (h : refuseIds definitions ids = none) : ∀ id ∈ ids, (definitions.get id).isSome := by
  unfold refuseIds at h
  split at h
  · cases h
  · split at h
    · cases h
    · intro id hid
      have hfound := List.find?_eq_none.mp (Option.map_eq_none_iff.mp h) id hid
      rw [Bool.not_eq_true, Option.isNone_eq_false_iff] at hfound
      exact hfound

/-- A request is admitted with definitions of the catalog, and as SUBMITTED only
below the caps. -/
theorem credentialRequest_requests (service : IssuerService X) (app : AppState)
    (claims : Json.Value) (message : CredentialRequestMessage) (now : ℕ)
    (processId holderUuid : String) :
    (credentialRequest service app claims message now processId holderUuid).app.requests =
        app.requests ∨
      ∃ p, p.id = processId ∧
        (p.state = .submitted → pendingCapReached app.requests p.holderId = false) ∧
          (∀ id ∈ p.credentialDefinitions, (app.definitions.get id).isSome) ∧
            app.requests.insert p.id p = .ok (credentialRequest service app claims message now processId
              holderUuid).app.requests := by
  unfold credentialRequest
  split
  · exact Or.inl rfl
  · split
    · exact Or.inl rfl
    · rename_i hids
      split
      · exact Or.inl rfl
      · rename_i holder holders hfind
        unfold admitRequest
        split
        · exact Or.inl rfl
        · rename_i state hstate
          split
          · exact Or.inl rfl
          · rename_i hcap
            split
            · exact Or.inl rfl
            · rename_i requests hins
              refine Or.inr ⟨requestedProcess processId state holder _ message
                (distinctIds [] message.credentials) (claims.getStr "token") now, rfl,
                fun hsub => ?_, refuseIds_eq_none hids, hins⟩
              rw [not_and, Bool.not_eq_true] at hcap
              exact hcap hsub

theorem settle_requests {s : IssuerSys} {r : Except IssuerError AppState}
    (h : ∀ app, r = .ok app → app.requests = s.app.requests) :
    (s.settle r).app.requests = s.app.requests := by
  cases r with
  | error e => rfl
  | ok app => exact h app rfl

theorem operatorDecision_requests {s : IssuerSys} {a : IssuerAction X} {holderId : String}
    {status : HolderStatus} {next : ProcessState} {now : ℕ} (hnext : next ≠ .submitted) :
    RequestsMove s a (operatorDecision s holderId status next now).app.requests := by
  unfold operatorDecision decideHolder
  cases s.app.holders.get holderId with
  | none => exact .same rfl
  | some holder =>
      refine .change (fun _ p => if isDecided holderId next p then p.transition next now else p)
        (fun _ p _ => ?_) rfl
      split
      · rename_i hdec
        refine ⟨⟨rfl, rfl, rfl, rfl⟩, fun h => absurd h hnext, fun _ => ?_⟩
        obtain ⟨-, hsub | ⟨-, happ, -⟩⟩ := isDecided_iff.mp hdec
        · rw [hsub]
          rfl
        · rw [happ]
          rfl
      · exact .refl p

/-- **Inversion, from the request table's side.** -/
theorem requests_move {s s' : IssuerSys} {a : IssuerAction X}
    (h : Reachable (issuer service start) s)
    (hstep : (issuer service start).step s a = some s') : RequestsMove s a s'.app.requests := by
  have hs := standing_of_reachable h
  obtain ⟨-, -, s₁, hp, rfl⟩ := issuer_step_eq_some hstep
  show RequestsMove s a s₁.app.requests
  cases a with
  | credentialRequest claims message now processId holderUuid =>
      cases hp
      rcases credentialRequest_requests service s.app claims message now processId holderUuid
        with hsame | ⟨p, rfl, hcap, hids, hins⟩
      · exact .same hsame
      · refine .insert p List.mem_cons_self (fun hsub => ?_) (fun _ => hids) hins
        have hfree := hcap hsub
        rw [pendingCapReached, pendingCounts_eq, Bool.or_eq_false_iff, decide_eq_false_iff_not,
          decide_eq_false_iff_not, not_le, not_le] at hfree
        exact hfree
  | createDefinition input now =>
      cases hp
      refine .same (settle_requests (fun app happ => ?_))
      obtain ⟨_, rfl, -⟩ := createDefinition_eq_ok happ
      rfl
  | updateDefinition input now =>
      cases hp
      refine .same (settle_requests (fun app happ => ?_))
      obtain ⟨_, rfl, -⟩ := updateDefinition_eq_ok happ
      rfl
  | deleteDefinition id =>
      cases hp
      refine .same (settle_requests (fun app happ => ?_))
      obtain ⟨_, rfl, -⟩ := deleteDefinition_eq_ok happ
      rfl
  | registerHolder registration now uuid =>
      simp only [issuerPerform] at hp
      split at hp
      · cases hp
        exact .same rfl
      · rename_i holder app happ
        cases hp
        obtain ⟨-, holders, -, rfl⟩ := registerHolder_eq_ok happ
        exact .same rfl
  | updateHolder update =>
      cases hp
      refine .same (settle_requests (fun app happ => ?_))
      obtain ⟨_, -, rfl⟩ := updateHolder_eq_ok happ
      rfl
  | approveHolder holderId now =>
      cases hp
      exact operatorDecision_requests (by decide)
  | rejectHolder holderId now =>
      cases hp
      exact operatorDecision_requests (by decide)
  | revokeCredential id =>
      cases hp
      refine .same (settle_requests (fun app happ => ?_))
      cases hrev : revokeCredential s.app id with
      | error e =>
          rw [hrev] at happ
          cases happ
      | ok r =>
          rw [hrev] at happ
          obtain ⟨issued, -, hr⟩ := revokeCredential_eq_ok hrev
          cases happ
          show r.2.requests = _
          rw [hr]
  | fetchStatusList now =>
      cases hp
      refine .same ?_
      show (statusList service s.app now).2.requests = _
      unfold statusList
      split <;> rfl
  | redeem configId holderDid =>
      obtain ⟨definition, -, rfl⟩ := Option.map_eq_some_iff.mp hp
      exact .same rfl
  | redemption i event =>
      obtain ⟨phase, -, hp⟩ := Option.bind_eq_some_iff.mp hp
      obtain ⟨⟨app, phase'⟩, hout, rfl⟩ := Option.map_eq_some_iff.mp hp
      rcases redemptionStep_cases s.vouched hs.holderKeys hout with
        ⟨-, hr⟩ | ⟨-, p, hstate, hid, hins⟩
      · exact .same hr
      · refine .insert p hid (fun hsub => ?_) (fun hactive => ?_) hins
        · rw [hstate] at hsub
          cases hsub
        · rw [hstate] at hactive
          cases hactive
  | delivery i event =>
      obtain ⟨t, ht, hp⟩ := Option.bind_eq_some_iff.mp hp
      obtain ⟨⟨app, t'⟩, hout, rfl⟩ := Option.map_eq_some_iff.mp hp
      obtain ⟨-, -, -, hmove⟩ := deliveryStep_move hout
      show RequestsMove s _ app.requests
      cases hmove with
      | progress hr => exact .same hr
      | abandon _ _ hr => exact .same hr
      | claim p _ _ _ happ =>
          rw [happ]
          refine .change (fun k q => if k = t.processId then { q with deliveryStarted := true }
            else q) (fun k q _ => ?_) rfl
          split
          · exact ⟨⟨rfl, rfl, rfl, rfl⟩, id, id⟩
          · exact .refl q
      | close state errorDetail now _ hphase happ =>
          rw [happ]
          refine .change (fun k q => if k = t.processId then
            { q.transition state now with errorDetail := errorDetail } else q)
            (fun k q _ => ?_) rfl
          split
          · refine ⟨⟨rfl, rfl, rfl, rfl⟩, fun h => ?_, fun h => ?_⟩
            all_goals
              rcases (hs.sound t (List.mem_of_getElem? ht)).outcome state errorDetail hphase with
                rfl | rfl <;> cases h
          · exact .refl q
  | storageAnswers i status =>
      obtain ⟨t, ht, hp⟩ := Option.bind_eq_some_iff.mp hp
      obtain ⟨t', hanswer, rfl⟩ := Option.map_eq_some_iff.mp hp
      exact .same rfl

/-- The ids a run inserted were drawn, and the SUBMITTED processes fit the caps. -/
structure Capped (s : IssuerSys) : Prop where
  run : ∃ inserted, RequestTable.Run maxTrackedRequests inserted s.app.requests ∧
    ∀ id ∈ inserted, id ∈ s.drawn
  perHolder : ∀ holderId,
    submittedOf s.app.requests holderId ≤ maxPendingProcessesPerHolder
  total : submittedTotal s.app.requests ≤ maxPendingProcesses

/-- Counting after an insertion into a kept table: one more at most, and only if
the new process counts. -/
theorem countP_insert {inserted : List String} {requests requests' : RequestTable}
    {p : IssuanceProcess} (h : RequestTable.Kept maxTrackedRequests inserted requests)
    (hnew : p.id ∉ inserted) (hins : requests.insert p.id p = .ok requests')
    (c : IssuanceProcess → Bool) :
    (KeyedTable.values requests'.records).countP c ≤
      (KeyedTable.values requests.records).countP c + if c p then 1 else 0 := by
  have hid : p.id ∉ requests.records := fun hmem =>
    hnew (h.inOrder.subset ((h.queued.mem p.id).mpr hmem))
  rcases h.insert_cases with hroom | ⟨hfull, oldest, holdest⟩ | ⟨hfull, hnone⟩
  · rw [RequestTable.insert_of_room (h.sameCapacity.symm ▸ hroom)] at hins
    cases hins
    exact (KeyedTable.countP_values_insert c p hid).le
  · rw [h.insert_of_full hfull holdest] at hins
    cases hins
    have hid' : p.id ∉ requests.records.erase oldest := fun hm => hid (AList.mem_erase.mp hm).2
    calc (KeyedTable.values ((requests.records.erase oldest).insert p.id p)).countP c
        = (KeyedTable.values (requests.records.erase oldest)).countP c + if c p then 1 else 0 :=
          KeyedTable.countP_values_insert c p hid'
      _ ≤ _ := Nat.add_le_add_right (KeyedTable.countP_values_erase_le c _ oldest) _
  · rw [(h.insert_of_stuck p.id p hfull hnone).1] at hins
    cases hins

theorem capped_of_reachable {s : IssuerSys} (h : Reachable (issuer service start) s) :
    Capped s := by
  refine h.invariant_of (J := fun s => Reachable (issuer service start) s) (I := Capped)
    (fun _ hs => hs) ?_ ?_
  · exact
      { run := ⟨[], .new, fun _ h => absurd h List.not_mem_nil⟩
        perHolder := fun _ => Nat.zero_le _
        total := Nat.zero_le _ }
  · rintro s₁ a s₂ hreach ⟨⟨inserted, hrun, hdrawn⟩, hholder, htotal⟩ hstep
    have hdrawn' : ∀ u, u ∈ a.draws ∨ u ∈ s₁.drawn → u ∈ s₂.drawn := by
      obtain ⟨-, -, s₃, -, rfl⟩ := issuer_step_eq_some hstep
      exact fun u hu => List.mem_append.mpr hu
    cases requests_move hreach hstep with
    | change f hf hr =>
        refine
          { run := ⟨inserted, ?_, fun id hid => hdrawn' id (Or.inr (hdrawn id hid))⟩
            perHolder := fun holderId => le_trans ?_ (hholder holderId)
            total := le_trans ?_ htotal }
        · rw [hr]
          exact hrun.change f
        · rw [hr]
          apply KeyedTable.countP_values_map_le
          intro k p hp hc
          obtain ⟨hsub, hid⟩ := of_decide_eq_true hc
          have hedit := hf k p hp
          exact decide_eq_true ⟨hedit.submitted hsub, hedit.same.holderId.symm.trans hid⟩
        · rw [hr]
          apply KeyedTable.countP_values_map_le
          intro k p hp hc
          exact decide_eq_true ((hf k p hp).submitted (of_decide_eq_true hc))
    | insert p hid hcap _ hins =>
        have hfresh : p.id ∉ inserted := by
          intro hmem
          obtain ⟨-, hfresh, -⟩ := issuer_step_eq_some hstep
          exact hfresh p.id hid (hdrawn p.id hmem)
        refine
          { run := ⟨inserted ++ [p.id], hrun.insert p.id p hfresh hins, fun id hmem => ?_⟩
            perHolder := fun holderId => ?_
            total := ?_ }
        · rcases List.mem_append.mp hmem with hold | hnew
          · exact hdrawn' id (Or.inr (hdrawn id hold))
          · rw [List.mem_singleton.mp hnew]
            exact hdrawn' p.id (Or.inl hid)
        · refine (countP_insert hrun.kept hfresh hins _).trans ?_
          split
          · rename_i hc
            obtain ⟨hsub, rfl⟩ := of_decide_eq_true hc
            exact (hcap hsub).1
          · exact hholder holderId
        · refine (countP_insert hrun.kept hfresh hins _).trans ?_
          split
          · rename_i hc
            exact (hcap (of_decide_eq_true hc)).2
          · exact htotal

/-! ## The table and its caps -/

/-- **No active process is lost, and the caps hold.** In every run of a request
table the queue lists exactly the stored ids, each once, in the order they were
inserted, and the table fits. With room an insertion takes nothing out; a full
table loses exactly the oldest process that ended, and when there is none it
refuses and stays as it was; a SUBMITTED or APPROVED process stays. In every
state of the service the table is in such a run, and the SUBMITTED processes fit
the caps. -/
theorem active_processes_kept :
    (∀ (capacity : ℕ) (inserted : List String) (table : RequestTable),
      RequestTable.Run capacity inserted table →
        (table.order.Nodup ∧ (∀ id, id ∈ table.order ↔ id ∈ table.records) ∧
          table.order.Sublist inserted ∧ KeyedTable.size table.records ≤ capacity) ∧
        ∀ (id : String) (record : IssuanceProcess), id ∉ inserted →
          (KeyedTable.size table.records < capacity →
            table.insert id record = .ok
              { records := table.records.insert id record
                order := table.order ++ [id]
                capacity := table.capacity }) ∧
          (KeyedTable.size table.records = capacity →
            (∀ oldest, table.order.find? table.hasEnded = some oldest →
              table.insert id record = .ok
                { records := (table.records.erase oldest).insert id record
                  order := table.order.erase oldest ++ [id]
                  capacity := table.capacity }) ∧
            (table.order.find? table.hasEnded = none →
              table.insert id record = .error .tableFull ∧ table.leftByRefusal = table)) ∧
          ∀ table', table.insert id record = .ok table' →
            ∀ k p, table.get k = some p → p.state.isActive → table'.get k = some p) ∧
    ∀ {X : External} (service : IssuerService X) (start : ℕ) (s : IssuerSys),
      Reachable (issuer service start) s →
        (∃ inserted, RequestTable.Run maxTrackedRequests inserted s.app.requests) ∧
        (∀ holderId, submittedOf s.app.requests holderId ≤ maxPendingProcessesPerHolder) ∧
          submittedTotal s.app.requests ≤ maxPendingProcesses := by
  constructor
  · intro capacity inserted table hrun
    have hkept := hrun.kept
    refine ⟨⟨hkept.queued.nodup, hkept.queued.mem, hkept.inOrder, hkept.fits⟩,
      fun id record hnew => ⟨fun hroom => ?_, fun hfull => ⟨fun oldest holdest => ?_,
        fun hnone => ?_⟩, fun table' hins k p hp hactive => ?_⟩⟩
    · exact RequestTable.insert_of_room (hkept.sameCapacity.symm ▸ hroom)
    · exact hkept.insert_of_full hfull holdest
    · exact hkept.insert_of_stuck id record hfull hnone
    · have hk : k ≠ id := by
        rintro rfl
        exact hnew (hkept.inOrder.subset
          ((hkept.queued.mem k).mpr (KeyedTable.mem_of_lookup hp)))
      rcases (RequestTable.insert_eq_ok hins).2 k hk with hsame | ⟨-, hend⟩
      · rw [hsame, hp]
      · have hterminal := hend p hp
        rw [ProcessState.isTerminal, hactive] at hterminal
        cases hterminal
  · intro X service start s h
    obtain ⟨⟨inserted, hrun, -⟩, hholder, htotal⟩ := capped_of_reachable h
    exact ⟨⟨inserted, hrun⟩, hholder, htotal⟩

end IdentityHub
