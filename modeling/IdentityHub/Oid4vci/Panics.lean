import IdentityHub.Oid4vci.Chain

/-!
# The code that expires between two readings

`token` looks a pre-authorized code up under the lock and takes it under the same lock,
but each of the two reads the clock for itself. The `expect` between them fails exactly
when the code's time comes in between; the panic poisons the lock, and no offer is made
and no token granted from then on.
-/

namespace IdentityHub.Oid4vci

open StepSystem

/-! ## One exchange -/

section

variable {codes : ExpiringTable PreAuthorizedGrant} {code : String} {txCode : Option String}
  {readAt takenAt exp : ℕ} {grant : PreAuthorizedGrant}

theorem takeCode_panicked (hlookup : codes.entries.lookup code = some (exp, grant)) :
    (takeCode codes code takenAt).1 = .panicked ↔ exp ≤ takenAt := by
  unfold takeCode ExpiringTable.take
  rw [hlookup]
  by_cases hlive : takenAt < exp
  · simp [hlive]
  · simp [hlive, Nat.not_lt.mp hlive]

/-- The Transaction Code must be the right one: any other answer comes before the
code is taken. -/
theorem matchTxCode_panicked (hlookup : codes.entries.lookup code = some (exp, grant)) :
    (matchTxCode codes code grant txCode takenAt).1 = .panicked ↔
      grant.txCode = txCode ∧ exp ≤ takenAt := by
  have htake := @takeCode_panicked codes code takenAt exp grant hlookup
  unfold matchTxCode
  cases hgrant : grant.txCode with
  | none =>
      cases txCode with
      | none => simpa using htake
      | some given => simp
  | some expected =>
      cases txCode with
      | none => simp
      | some given =>
          dsimp only
          by_cases hwrong : expected ≠ given
          · rw [if_pos hwrong]
            simp [hwrong]
          · rw [if_neg hwrong, htake]
            simp [not_ne_iff.mp hwrong]

theorem exchange_panicked :
    (exchange codes code txCode readAt takenAt).1 = .panicked ↔
      ∃ exp grant, codes.entries.lookup code = some (exp, grant) ∧ grant.txCode = txCode ∧
        readAt < exp ∧ exp ≤ takenAt := by
  unfold exchange ExpiringTable.getMut
  cases hlookup : codes.entries.lookup code with
  | none => simp
  | some entry =>
      obtain ⟨exp, grant⟩ := entry
      dsimp only
      by_cases hexpired : exp ≤ readAt
      · rw [if_pos hexpired]
        constructor
        · intro h
          cases h
        · rintro ⟨_, _, hentry, -, hlive, -⟩
          cases hentry
          exact absurd hexpired (Nat.not_le.mpr hlive)
      · rw [if_neg hexpired]
        constructor
        · intro h
          obtain ⟨htx, htaken⟩ := (matchTxCode_panicked hlookup).mp h
          exact ⟨exp, grant, rfl, htx, Nat.lt_of_not_le hexpired, htaken⟩
        · rintro ⟨_, _, hentry, htx, -, htaken⟩
          cases hentry
          exact (matchTxCode_panicked hlookup).mpr ⟨htx, htaken⟩

end

/-! ## One request -/

/-- The code a form presents is there, with the Transaction Code the form presents,
and its time comes after the first reading and not after the second. -/
def ExpiresBetween (state : IssuerState) (form : TokenForm) (readAt takenAt : ℕ) : Prop :=
  ∃ code txCode exp grant, presentedCode form = .ok (code, txCode) ∧
    state.preAuthorizedCodes.entries.lookup code = some (exp, grant) ∧ grant.txCode = txCode ∧
      readAt < exp ∧ exp ≤ takenAt

theorem poisons_iff {outcome : Exchange} : outcome.poisons = true ↔ outcome = .panicked := by
  cases outcome <;> simp [Exchange.poisons]

theorem phase_eq_panicked {outcome : Exchange} {code : String} {takenAt seen : ℕ} :
    outcome.phase code takenAt seen = .panicked ↔ outcome = .panicked := by
  cases outcome <;> simp [Exchange.phase]

/-- What a request makes of the lock and of itself, when the lock was sound. -/
theorem tokenStep_panicked {state : IssuerState} {form : TokenForm} {readAt takenAt seen : ℕ}
    (hsound : state.codesPoisoned = false) :
    ∃ state' phase,
      tokenStep state seen { form := form, phase := .called } (.exchange readAt takenAt) =
          some (state', phase) ∧
        (state'.codesPoisoned = true ↔ ExpiresBetween state form readAt takenAt) ∧
          (phase = .panicked ↔ ExpiresBetween state form readAt takenAt) := by
  unfold tokenStep
  dsimp only
  cases hform : presentedCode form with
  | error e =>
      refine ⟨_, _, rfl, ?_, ?_⟩
      · simp [ExpiresBetween, hform, hsound]
      · simp [ExpiresBetween, hform]
  | ok presented =>
      obtain ⟨code, txCode⟩ := presented
      dsimp only
      rw [hsound]
      have hexpires : ExpiresBetween state form readAt takenAt ↔
          (exchange state.preAuthorizedCodes code txCode readAt takenAt).1 = .panicked := by
        rw [exchange_panicked]
        constructor
        · rintro ⟨code', txCode', exp, grant, hpresented, hlookup⟩
          rw [hform] at hpresented
          cases hpresented
          exact ⟨exp, grant, hlookup⟩
        · rintro ⟨exp, grant, hlookup⟩
          exact ⟨code, txCode, exp, grant, hform, hlookup⟩
      refine ⟨_, _, rfl, ?_, ?_⟩
      · rw [hexpires]
        exact poisons_iff
      · rw [hexpires]
        exact phase_eq_panicked

/-! ## Every run -/

variable {X : External} {service : Service X} {start : ℕ}

/-- No code is exchanged while its time comes. -/
def punctual : Guard (Sys X) (Action X) := fun s a =>
  match a with
  | .tokenCall call (.exchange readAt takenAt) =>
      ∀ c, s.tokenCalls[call]? = some c → ¬ ExpiresBetween s.state c.form readAt takenAt
  | _ => True

/-- The lock is sound, and no call has panicked. -/
structure Sound (s : Sys X) : Prop where
  lock : s.state.codesPoisoned = false
  tokens : ∀ c ∈ s.tokenCalls, c.phase ≠ .panicked
  offers : ∀ c ∈ s.offerCalls, c.phase ≠ .panicked

theorem offerStep_sound {definitions : DefinitionCatalog} {state state' : IssuerState} {seen : ℕ}
    {call : OfferCall} {event : OfferEvent} {phase : OfferPhase}
    (hsound : state.codesPoisoned = false)
    (h : offerStep service definitions state seen call event = some (state', phase)) :
    state'.codesPoisoned = false ∧ phase ≠ .panicked := by
  cases event with
  | check =>
      simp only [offerStep] at h
      split at h
      · split at h <;> cases h <;> exact ⟨hsound, by simp⟩
      · cases h
  | mint now code digits =>
      simp only [offerStep, hsound] at h
      split at h
      · cases h
        exact ⟨rfl, by simp⟩
      · cases h
  | list now offerId =>
      simp only [offerStep] at h
      split at h
      · cases h
        exact ⟨hsound, by simp⟩
      · cases h

theorem credentialStep_poisoned {definitions : DefinitionCatalog} {state state' : IssuerState}
    {call : CredentialCall X} {event : CredentialEvent X} {phase : CredentialPhase X}
    (h : credentialStep service definitions state call event = some (state', phase)) :
    state'.codesPoisoned = state.codesPoisoned := by
  cases event <;> simp only [credentialStep] at h
  all_goals repeat' split at h
  all_goals cases h
  all_goals rfl

theorem tokenStep_sound {state state' : IssuerState} {call : TokenCall} {event : TokenEvent}
    {phase : TokenPhase} {seen : ℕ} (hsound : state.codesPoisoned = false)
    (hpunctual : ∀ readAt takenAt, event = .exchange readAt takenAt →
      ¬ ExpiresBetween state call.form readAt takenAt)
    (h : tokenStep state seen call event = some (state', phase)) :
    state'.codesPoisoned = false ∧ phase ≠ .panicked := by
  obtain ⟨form, callPhase⟩ := call
  cases event with
  | exchange readAt takenAt =>
      cases callPhase with
      | called =>
          obtain ⟨_, _, hstep, hpoisons, hpanics⟩ :=
            @tokenStep_panicked state form readAt takenAt seen hsound
          rw [hstep] at h
          cases h
          have hnot := hpunctual readAt takenAt rfl
          exact ⟨Bool.eq_false_iff.mpr (fun hp => hnot (hpoisons.mp hp)),
            fun hp => hnot (hpanics.mp hp)⟩
      | _ => cases h
  | grant now accessToken =>
      simp only [tokenStep] at h
      split at h
      · cases h
        exact ⟨hsound, by simp⟩
      · cases h

theorem Sound.step {s s' : Sys X} {a : Action X} (h : Sound s) (hpunctual : punctual s a)
    (hs : (credentialIssuer service start).step s a = some s') : Sound s' := by
  obtain ⟨s₁, clock, hperform, -, -, rfl⟩ := step_eq_some hs
  suffices hsound : Sound s₁ from ⟨hsound.lock, hsound.tokens, hsound.offers⟩
  cases a with
  | issuer action =>
      simp only [perform] at hperform
      split at hperform
      · cases hperform
      · obtain ⟨issuer, -, rfl⟩ := Option.map_eq_some_iff.mp hperform
        exact ⟨h.lock, h.tokens, h.offers⟩
  | createOffer request =>
      cases hperform
      refine ⟨h.lock, h.tokens, fun c hc => ?_⟩
      rcases List.mem_append.mp hc with hold | hnew
      · exact h.offers c hold
      · rw [List.mem_singleton.mp hnew]
        simp
  | offer call event =>
      obtain ⟨c, -, hc⟩ := Option.bind_eq_some_iff.mp hperform
      obtain ⟨⟨state', phase⟩, hout, rfl⟩ := Option.map_eq_some_iff.mp hc
      obtain ⟨hlock, hphase⟩ := offerStep_sound h.lock hout
      refine ⟨hlock, h.tokens, fun c' hc' => ?_⟩
      rcases List.mem_or_eq_of_mem_set hc' with hold | rfl
      · exact h.offers c' hold
      · exact hphase
  | offerByReference id now =>
      cases hperform
      exact ⟨h.lock, h.tokens, h.offers⟩
  | token form =>
      cases hperform
      refine ⟨h.lock, fun c hc => ?_, h.offers⟩
      rcases List.mem_append.mp hc with hold | hnew
      · exact h.tokens c hold
      · rw [List.mem_singleton.mp hnew]
        simp
  | tokenCall call event =>
      obtain ⟨c, hget, hc⟩ := Option.bind_eq_some_iff.mp hperform
      obtain ⟨⟨state', phase⟩, hout, rfl⟩ := Option.map_eq_some_iff.mp hc
      have hnot : ∀ readAt takenAt, event = .exchange readAt takenAt →
          ¬ ExpiresBetween s.state c.form readAt takenAt := by
        rintro readAt takenAt rfl
        exact hpunctual c hget
      obtain ⟨hlock, hphase⟩ := tokenStep_sound h.lock hnot hout
      refine ⟨hlock, fun c' hc' => ?_, h.offers⟩
      rcases List.mem_or_eq_of_mem_set hc' with hold | rfl
      · exact h.tokens c' hold
      · exact hphase
  | nonce now cNonce =>
      cases hperform
      exact ⟨h.lock, h.tokens, h.offers⟩
  | credential authorization body =>
      cases hperform
      exact ⟨h.lock, h.tokens, h.offers⟩
  | credentialCall call event =>
      obtain ⟨c, -, hc⟩ := Option.bind_eq_some_iff.mp hperform
      obtain ⟨⟨state', phase⟩, hout, rfl⟩ := Option.map_eq_some_iff.mp hc
      exact ⟨(credentialStep_poisoned hout).trans h.lock, h.tokens, h.offers⟩
  | redeem call =>
      obtain ⟨c, -, hrest⟩ := Option.bind_eq_some_iff.mp hperform
      split at hrest
      · cases hrest
        exact ⟨h.lock, h.tokens, h.offers⟩
      · cases hrest
  | answer call =>
      obtain ⟨c, -, hrest⟩ := Option.bind_eq_some_iff.mp hperform
      split at hrest
      · obtain ⟨redemption, -, hanswer⟩ := Option.bind_eq_some_iff.mp hrest
        obtain ⟨phase, -, rfl⟩ := Option.map_eq_some_iff.mp hanswer
        exact ⟨h.lock, h.tokens, h.offers⟩
      · cases hrest

/-- Without such a moment the lock stays sound. -/
theorem sound_of_punctual {s : Sys X} (h : ReachableBy (credentialIssuer service start) punctual s) :
    Sound s :=
  h.invariant ⟨rfl, nofun, nofun⟩ (fun _ _ _ hsound hpunctual hs => hsound.step hpunctual hs)

/-- **When the token endpoint panics.** A token request on a sound lock panics, and
poisons it, exactly when the code it would take expires between its two readings of the
clock; in a run in which no request meets that moment the lock stays sound and no call
of `token` or `create_offer` panics. -/
theorem token_panics_iff (service : Service X) (start : ℕ) :
    (∀ state form readAt takenAt seen, state.codesPoisoned = false → ∃ state' phase,
      tokenStep state seen { form := form, phase := .called } (.exchange readAt takenAt) =
          some (state', phase) ∧
        (state'.codesPoisoned = true ↔ ExpiresBetween state form readAt takenAt) ∧
          (phase = .panicked ↔ ExpiresBetween state form readAt takenAt)) ∧
    ∀ s, ReachableBy (credentialIssuer service start) punctual s → Sound s :=
  ⟨fun _ _ _ _ _ hsound => tokenStep_panicked hsound, fun _ h => sound_of_punctual h⟩

/-! ## A request at the wrong moment -/

/-- An offer is made at 0; its code is exchanged at 599, and taken at 600. -/
def lateRun : List (Action reference) :=
  [.createOffer
      { authorization := some "Basic aHViOnNlY3JldA=="
        credentialConfigurationIds := none
        txCode := false },
    .offer 0 .check, .offer 0 (.mint 0 "code-1" 42), .offer 0 (.list 0 "offer-1"),
    .token [("grant_type", preAuthorizedCodeGrant), ("pre-authorized_code", "code-1")],
    .tokenCall 0 (.exchange 599 600),
    .token [("grant_type", preAuthorizedCodeGrant), ("pre-authorized_code", "code-2")],
    .tokenCall 1 (.exchange 700 700),
    .createOffer
      { authorization := some "Basic aHViOnNlY3JldA=="
        credentialConfigurationIds := none
        txCode := false },
    .offer 1 .check, .offer 1 (.mint 800 "code-3" 42)]

def OfferPhase.hasPanicked : OfferPhase → Bool
  | .panicked => true
  | _ => false

def TokenPhase.hasPanicked : TokenPhase → Bool
  | .panicked => true
  | _ => false

/-- The request panics, and so do the next one and the next offer. -/
theorem late_request_poisons :
    ∃ s : Sys reference, Reachable (credentialIssuer sampleService 0) s ∧
      s.state.codesPoisoned = true ∧
        s.tokenCalls.map (fun c => c.phase.hasPanicked) = [true, true] ∧
          s.offerCalls.map (fun c => c.phase.hasPanicked) = [false, true] := by
  obtain ⟨s, hr, hp⟩ := @StepSystem.exists_reachable_of_run _ _
    (credentialIssuer sampleService 0) lateRun
    (fun s => s.state.codesPoisoned = true ∧
      s.tokenCalls.map (fun c => c.phase.hasPanicked) = [true, true] ∧
        s.offerCalls.map (fun c => c.phase.hasPanicked) = [false, true])
    (by decide +kernel)
  exact ⟨s, hr, of_decide_eq_true hp⟩

end IdentityHub.Oid4vci
