import IdentityHub.Issuer.Lifecycle
import IdentityHub.Issuer.Registry

/-!
# A rejection and the redemptions under way

A redemption looks at the holder's status once, in its first section, and then
takes three more locks. A rejection therefore shuts out every redemption that
has not made its check; one that has made it goes on. `RejectionIdle` says that
none has: then nothing is issued to the holder until the operator approves it.
-/

namespace IdentityHub

open StepSystem (Steps Reachable)

/-- The holder of a redemption that has made its check and has not ended. -/
def RedemptionPhase.governed : RedemptionPhase → Option String
  | .allocating _ holderId => some holderId
  | .inserting _ holderId _ => some holderId
  | .recording _ holderId _ _ => some holderId
  | _ => none

/-- No redemption of the holder is between its check and its end. -/
def RejectionIdle (s : IssuerSys) (k : String) : Prop :=
  ∀ r ∈ s.redemptions, r.governed ≠ some k

variable {X : External} {service : IssuerService X} {start : ℕ}

/-- A redemption found after a step was there before, is new, or took a step of
its own. -/
theorem redemption_origin {s s' : IssuerSys} {a : IssuerAction X}
    (hstep : (issuer service start).step s a = some s') {r' : RedemptionPhase}
    (hr' : r' ∈ s'.redemptions) :
    r' ∈ s.redemptions ∨ (∃ definition did, r' = .governing definition did) ∨
      ∃ i event r, a = .redemption i event ∧ s.redemptions[i]? = some r ∧
        redemptionStep service s.app r event = some (s'.app, r') := by
  obtain ⟨j, hj⟩ := List.getElem?_of_mem hr'
  cases hold : s.redemptions[j]? with
  | some r =>
      rcases redemption_at hstep hold with hsame | ⟨event, x, ha, hx, -, hout⟩
      · rw [hsame] at hj
        cases hj
        exact Or.inl (List.mem_of_getElem? hold)
      · rw [hx, List.getElem?_set_self (List.getElem?_eq_some_iff.mp hold).1] at hj
        cases hj
        exact Or.inr (Or.inr ⟨j, event, r, ha, hold, hout⟩)
  | none =>
      have hlen := List.getElem?_eq_none_iff.mp hold
      obtain ⟨-, -, s₁, hp, rfl⟩ := issuer_step_eq_some hstep
      have same : s₁.redemptions = s.redemptions →
          r' ∈ s.redemptions ∨ (∃ definition did, r' = .governing definition did) ∨
            ∃ i event r, a = .redemption i event ∧ s.redemptions[i]? = some r ∧
              redemptionStep service s.app r event = some (s₁.app, r') :=
        fun hsame => Or.inl (hsame ▸ hr')
      cases a with
      | redeem configId holderDid =>
          obtain ⟨definition, -, rfl⟩ := Option.map_eq_some_iff.mp hp
          rcases List.mem_append.mp hr' with hmem | hmem
          · exact Or.inl hmem
          · exact Or.inr (Or.inl ⟨definition, holderDid, List.mem_singleton.mp hmem⟩)
      | redemption i event =>
          obtain ⟨r, -, hp⟩ := Option.bind_eq_some_iff.mp hp
          obtain ⟨⟨app, x⟩, -, rfl⟩ := Option.map_eq_some_iff.mp hp
          have hlt := (List.getElem?_eq_some_iff.mp hj).1
          change j < (s.redemptions.set i x).length at hlt
          rw [List.length_set] at hlt
          omega
      | delivery i event =>
          obtain ⟨t, -, hp⟩ := Option.bind_eq_some_iff.mp hp
          obtain ⟨out, -, rfl⟩ := Option.map_eq_some_iff.mp hp
          exact Or.inl hr'
      | storageAnswers i status =>
          obtain ⟨t, -, hp⟩ := Option.bind_eq_some_iff.mp hp
          obtain ⟨t', -, rfl⟩ := Option.map_eq_some_iff.mp hp
          exact Or.inl hr'
      | registerHolder registration now uuid =>
          simp only [issuerPerform] at hp
          split at hp <;> cases hp <;> exact Or.inl hr'
      | approveHolder holderId now =>
          cases hp
          exact same operatorDecision_deliveries.2
      | rejectHolder holderId now =>
          cases hp
          exact same operatorDecision_deliveries.2
      | credentialRequest claims message now processId holderUuid =>
          cases hp
          exact Or.inl hr'
      | fetchStatusList now =>
          cases hp
          exact Or.inl hr'
      | _ =>
          cases hp
          exact same settle_redemptions

/-! ## One section of a redemption -/

/-- **The check.** A redemption is governed for the holder it was governed for
before, or its check found or made that holder, and it was not rejected. -/
theorem redemptionStep_governed {app app' : AppState} {r r' : RedemptionPhase}
    {event : RedemptionEvent} {k : String}
    (h : redemptionStep service app r event = some (app', r')) (hr' : r'.governed = some k) :
    r.governed = some k ∨
      (∃ did holder, app.holders.byDid did = some holder ∧ holder.holderId = k ∧
        holder.status ≠ .rejected) ∨ app.holders.get k = none := by
  cases event with
  | govern now uuid =>
      right
      simp only [redemptionStep] at h
      split at h
      · split at h
        · rename_i holder hfound
          split at h
          · cases h
            cases hr'
          · rename_i hstatus
            cases h
            exact Or.inl ⟨_, holder, hfound, Option.some_inj.mp hr', hstatus⟩
        · rename_i hunknown
          split at h
          · cases h
            cases hr'
          · rename_i holder holders hfind
            cases h
            unfold findOrInsertHolder at hfind
            rw [hunknown] at hfind
            obtain ⟨hnew, hnone, -⟩ := HolderRegistry.insert_eq_ok hfind
            right
            rw [← Option.some_inj.mp hr']
            dsimp only at hnew
            rw [hnew]
            exact hnone
      · cases h
  | _ =>
      left
      simp only [redemptionStep] at h
      repeat' split at h
      all_goals cases h
      all_goals first | exact hr' | cases hr'

/-- A section adds a process or a record for the holder it is governed for. -/
theorem redemptionStep_adds {app app' : AppState} {r r' : RedemptionPhase}
    {event : RedemptionEvent} (h : redemptionStep service app r event = some (app', r')) :
    (∀ id p, app'.requests.get id = some p → app.requests.get id = none →
        r.governed = some p.holderId) ∧
      ∀ id c, app'.issued.get id = some c → app.issued.get id = none →
        r.governed = some c.holderId := by
  have noProcess : app'.requests = app.requests → ∀ id p, app'.requests.get id = some p →
      app.requests.get id = none → r.governed = some p.holderId := by
    intro hsame id p hp hnone
    rw [hsame, hnone] at hp
    cases hp
  have noRecord : app'.issued.records = app.issued.records →
      ∀ id c, app'.issued.get id = some c → app.issued.get id = none →
        r.governed = some c.holderId := by
    intro hsame id c hc hnone
    unfold IssuedCredentials.get at hc hnone
    rw [hsame, hnone] at hc
    cases hc
  cases event with
  | insert processId =>
      simp only [redemptionStep] at h
      split at h
      · rename_i job holderId index
        split at h
        · cases h
          exact ⟨noProcess rfl, noRecord rfl⟩
        · rename_i requests hins
          cases h
          refine ⟨fun id p hp hnone => ?_, noRecord rfl⟩
          rcases get_after_insert (p := redemptionProcess job holderId processId) hins hp with
            ⟨-, rfl⟩ | ⟨-, hold⟩
          · rfl
          · rw [hnone] at hold
            cases hold
      · cases h
  | record now uuid =>
      simp only [redemptionStep] at h
      split at h
      · rename_i job holderId index processId
        cases h
        refine ⟨noProcess rfl, fun id c hc hnone => ?_⟩
        change (app.issued.insert _).get id = some c at hc
        rw [IssuedCredentials.get_insert] at hc
        split at hc
        · cases hc
          rfl
        · rw [hnone] at hc
          cases hc
      · cases h
  | _ =>
      simp only [redemptionStep] at h
      repeat' split at h
      all_goals cases h
      all_goals exact ⟨noProcess rfl, noRecord rfl⟩

/-! ## Along a run -/

/-- The holder stands rejected and none of its redemptions is under way. -/
structure ShutOut (s : IssuerSys) (k : String) : Prop where
  rejected : ∃ holder, s.app.holders.get k = some holder ∧ holder.status = .rejected
  idle : RejectionIdle s k

/-- **Step lemma.** -/
theorem ShutOut.step {s s' : IssuerSys} {a : IssuerAction X} {k : String} (h : ShutOut s k)
    (hreach : Reachable (issuer service start) s) (hguard : unapproved k s a)
    (hstep : (issuer service start).step s a = some s') : ShutOut s' k where
  rejected := by
    obtain ⟨holder, hget, hstatus⟩ := h.rejected
    obtain ⟨holder', hget', -, hstatus'⟩ :=
      rejected_kept hreach (Steps.refl.tail a hguard hstep) hget hstatus
    exact ⟨holder', hget', hstatus'⟩
  idle := by
    intro r' hr' hgoverned
    have hc := consistent_of_reachable hreach
    obtain ⟨holder, hget, hstatus⟩ := h.rejected
    rcases redemption_origin hstep hr' with hold | ⟨definition, did, rfl⟩ |
      ⟨i, event, r, -, hr, hout⟩
    · exact h.idle r' hold hgoverned
    · cases hgoverned
    · rcases redemptionStep_governed hout hgoverned with hbefore |
        ⟨did, found, hfound, hid, hnot⟩ | hnone
      · exact h.idle r (List.mem_of_getElem? hr) hbefore
      · obtain ⟨k', -, hk'⟩ := HolderRegistry.get_of_byDid hfound
        rw [← hc.keyed k' found hk', hid, hget] at hk'
        cases hk'
        exact hnot hstatus
      · rw [hget] at hnone
        cases hnone

/-- **Run lemma.** -/
theorem shutOut_kept {s s' : IssuerSys} {k : String} (h : ShutOut s k)
    (hreach : Reachable (issuer service start) s)
    (hsteps : Steps (issuer service start) (unapproved k) s s') : ShutOut s' k :=
  hsteps.mono (R := fun _ s' => ShutOut s' k) hreach h
    (fun _ _ _ hr hguard hstep hbefore => hbefore.step hr hguard hstep)

/-- **A rejection that finds no redemption under way shuts the holder out.** After
it, and until the operator approves the holder, no section of a redemption adds
a process or an issued-credential record of the holder, or mints for it. -/
theorem rejection_shuts_out {s s₁ s₂ s₃ : IssuerSys} {k : String} {now task : ℕ}
    {event : RedemptionEvent} {holder : Holder} (h : Reachable (issuer service start) s)
    (hget : s.app.holders.get k = some holder)
    (hreject : (issuer service start).step s (.rejectHolder k now) = some s₁)
    (hidle : RejectionIdle s k)
    (hsteps : Steps (issuer service start) (unapproved k) s₁ s₂)
    (hstep : (issuer service start).step s₂ (.redemption task event) = some s₃) :
    (∀ id p, s₃.app.requests.get id = some p → s₂.app.requests.get id = none → p.holderId ≠ k) ∧
      (∀ id c, s₃.app.issued.get id = some c → s₂.app.issued.get id = none → c.holderId ≠ k) ∧
        ∀ r jws, s₂.redemptions[task]? = some r → s₃.redemptions[task]? = some (.issued jws) →
          r.governed ≠ some k := by
  have h₁ : Reachable (issuer service start) s₁ := h.step hreject
  have hafter : ShutOut s₁ k := by
    refine ⟨⟨_, rejectHolder_get hreject hget, rfl⟩, fun r hr => ?_⟩
    rcases redemption_origin hreject hr with hold | ⟨definition, did, rfl⟩ | ⟨i, e, r₀, ha, -⟩
    · exact hidle r hold
    · exact nofun
    · cases ha
  have hout := shutOut_kept hafter h₁ hsteps
  obtain ⟨-, -, s₄, hp, rfl⟩ := issuer_step_eq_some hstep
  obtain ⟨r, hr, hp⟩ := Option.bind_eq_some_iff.mp hp
  obtain ⟨⟨app, r'⟩, hred, rfl⟩ := Option.map_eq_some_iff.mp hp
  have hidle₂ := hout.idle r (List.mem_of_getElem? hr)
  obtain ⟨hprocess, hrecord⟩ := redemptionStep_adds hred
  refine ⟨fun id p hp hnone hk => ?_, fun id c hc hnone hk => ?_, fun r₀ jws hr₀ _ => ?_⟩
  · rw [hprocess id p hp hnone, hk] at hidle₂
    exact hidle₂ rfl
  · rw [hrecord id c hc hnone, hk] at hidle₂
    exact hidle₂ rfl
  · rw [hr] at hr₀
    cases hr₀
    exact hidle₂

/-! ## Acme is rejected before and during a redemption -/

/-- Rejected between two redemptions: the second one is refused. -/
theorem rejection_shuts_out_sample :
    ∃ s s₁ s₂, Reachable (issuer (sampleIssuer .auto) 0) s ∧
      (issuer (sampleIssuer .auto) 0).step s (.rejectHolder "holder-1" 6) = some s₁ ∧
        (issuer (sampleIssuer .auto) 0).step s₁ (.redemption 0 (.govern 7 "holder-2")) = some s₂ ∧
          ∀ id c, s₂.app.issued.get id = some c → s₁.app.issued.get id = none →
            c.holderId ≠ "holder-1" := by
  obtain ⟨s, hr, hp⟩ := StepSystem.exists_reachable_of_run
    (M := issuer (sampleIssuer .auto) 0)
    [sampleRequest "process-1" "holder-1" 5,
      .redeem "membership-credential" "did:web:acme.example"]
    (p := fun s => (s.app.holders.get "holder-1").isSome &&
      (s.redemptions.all (fun r => r.governed = none) &&
        ((issuer (sampleIssuer .auto) 0).step s (.rejectHolder "holder-1" 6)).any (fun s₁ =>
          ((issuer (sampleIssuer .auto) 0).step s₁
            (.redemption 0 (.govern 7 "holder-2"))).isSome)))
    (by decide +kernel)
  rw [Bool.and_eq_true, Bool.and_eq_true, Option.any_eq_true] at hp
  obtain ⟨hknown, hidle, s₁, hreject, hnext⟩ := hp
  obtain ⟨holder, hget⟩ := Option.isSome_iff_exists.mp hknown
  obtain ⟨s₂, hstep⟩ := Option.isSome_iff_exists.mp hnext
  refine ⟨s, s₁, s₂, hr, hreject, hstep, ?_⟩
  refine (rejection_shuts_out hr hget hreject (fun r hmem hgoverned => ?_) .refl hstep).2.1
  rw [of_decide_eq_true (List.all_eq_true.mp hidle r hmem)] at hgoverned
  cases hgoverned

def autoIssuer : StepSystem.Machine IssuerSys (IssuerAction reference) :=
  issuer (sampleIssuer .auto) 0

/-- Reject the holder now, let the redemption go on, and look at what it left. -/
def issuesAfterRejection (s : IssuerSys) : Bool :=
  (autoIssuer.step s (.rejectHolder "holder-1" 6)).any fun s₁ =>
    (autoIssuer.step s₁ (.redemption 0 .allocate)).any fun s₂ =>
      (autoIssuer.step s₂ (.redemption 0 (.insert "process-1"))).any fun s₃ =>
        (autoIssuer.step s₃ (.redemption 0 (.record 7 "credential-1"))).any fun s₄ =>
          (s₂.app.requests.get "process-1").isNone &&
            ((s₃.app.requests.get "process-1").any (fun p => p.holderId = "holder-1") &&
              ((s₃.app.issued.get "urn:uuid:credential-1").isNone &&
                ((s₄.app.issued.get "urn:uuid:credential-1").any
                    (fun c => c.holderId = "holder-1") &&
                  (s₄.app.holders.get "holder-1").any (fun h => h.status = .rejected))))

/-- Rejected between the check and the three sections that follow it: the
redemption records a process and a credential of the rejected holder. -/
theorem rejected_while_redeeming :
    ∃ s s₁ s₂ s₃ s₄ p c holder, Reachable autoIssuer s ∧
      autoIssuer.step s (.rejectHolder "holder-1" 6) = some s₁ ∧
        autoIssuer.step s₁ (.redemption 0 .allocate) = some s₂ ∧
          autoIssuer.step s₂ (.redemption 0 (.insert "process-1")) = some s₃ ∧
            autoIssuer.step s₃ (.redemption 0 (.record 7 "credential-1")) = some s₄ ∧
              s₂.app.requests.get "process-1" = none ∧
                s₃.app.requests.get "process-1" = some p ∧ p.holderId = "holder-1" ∧
                  s₃.app.issued.get "urn:uuid:credential-1" = none ∧
                    s₄.app.issued.get "urn:uuid:credential-1" = some c ∧
                      c.holderId = "holder-1" ∧
                        s₄.app.holders.get "holder-1" = some holder ∧
                          holder.status = .rejected := by
  obtain ⟨s, hr, hp⟩ := StepSystem.exists_reachable_of_run (M := autoIssuer)
    [.redeem "membership-credential" "did:web:acme.example",
      .redemption 0 (.govern 5 "holder-1")]
    (p := issuesAfterRejection) (by decide +kernel)
  obtain ⟨s₁, h₁, hp⟩ := (Option.any_eq_true _ _).mp hp
  obtain ⟨s₂, h₂, hp⟩ := (Option.any_eq_true _ _).mp hp
  obtain ⟨s₃, h₃, hp⟩ := (Option.any_eq_true _ _).mp hp
  obtain ⟨s₄, h₄, hp⟩ := (Option.any_eq_true _ _).mp hp
  rw [Bool.and_eq_true, Bool.and_eq_true, Bool.and_eq_true, Bool.and_eq_true,
    Option.isNone_iff_eq_none, Option.isNone_iff_eq_none] at hp
  obtain ⟨hnoProcess, hprocess, hnoRecord, hrecord, hstatus⟩ := hp
  obtain ⟨p, hget, hholder⟩ := (Option.any_eq_true _ _).mp hprocess
  obtain ⟨c, hgetc, hholderc⟩ := (Option.any_eq_true _ _).mp hrecord
  obtain ⟨holder, hgeth, hrejected⟩ := (Option.any_eq_true _ _).mp hstatus
  exact ⟨s, s₁, s₂, s₃, s₄, p, c, holder, hr, h₁, h₂, h₃, h₄, hnoProcess, hget,
    of_decide_eq_true hholder, hnoRecord, hgetc, of_decide_eq_true hholderc, hgeth,
    of_decide_eq_true hrejected⟩

end IdentityHub
