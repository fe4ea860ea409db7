import IdentityHub.Oid4vci.Served
import IdentityHub.Oid4vci.TableMemory

/-!
# Codes and nonces that get through

What comes before a Credential Request: a live code is exchanged for an access token, and
a nonce is handed out. Both end up in tables that drop their oldest entries when they are
full; what was just put in is never what they drop.
-/

namespace IdentityHub

namespace ExpiringTable

variable {V : Type*} {t : ExpiringTable V} {key : String}

/-- The key that was queued last is still there when the others are gone. -/
theorem lookup_evict_newest {capacity : ℕ} (hroom : 0 < capacity) {entry : ℕ × V} :
    ∀ {order : List String} {entries : KeyedTable String (ℕ × V)}, key ∉ order →
      (∀ k ∈ entries, k ∈ order ++ [key]) → entries.lookup key = some entry →
        (evict capacity entries (order ++ [key])).1.lookup key = some entry
  | [], entries, _, hqueued, hlookup => by
      have honly : entries.keys ⊆ [key] := fun k hk => hqueued k (AList.mem_keys.mpr hk)
      have hsize : KeyedTable.size entries ≤ 1 := by
        rw [KeyedTable.size_eq_length_keys]
        exact (entries.keys_nodup.subperm honly).length_le
      rw [List.nil_append, evict, if_neg (by omega)]
      exact hlookup
  | oldest :: rest, entries, hnew, hqueued, hlookup => by
      obtain ⟨hne, hrest⟩ := not_or.mp (List.mem_cons.not.mp hnew)
      rw [List.cons_append, evict]
      split
      · apply lookup_evict_newest hroom hrest
        · intro k hk
          obtain ⟨hother, hmem⟩ := AList.mem_erase.mp hk
          exact (List.mem_cons.mp (hqueued k hmem)).resolve_left hother
        · rw [KeyedTable.lookup_erase, if_neg hne]
          exact hlookup
      · exact hlookup

/-- **What was just inserted is found**, under a key that was not queued before. -/
theorem lookup_insert_newest (hroom : 0 < t.capacity) (hfresh : key ∉ t.order) (ttlSecs : ℕ)
    (value : V) (now : ℕ) :
    (t.insert key ttlSecs value now).entries.lookup key = some (now + ttlSecs, value) := by
  have hnone := notMem_of_notQueued hfresh
  rw [entries_insert hnone]
  apply lookup_evict_newest hroom hfresh
  · have hqueued := t.insert_queued key (now + ttlSecs, value)
    rwa [if_neg hnone] at hqueued
  · rw [KeyedTable.lookup_insert, if_pos rfl]

@[simp] theorem capacity_insert (ttlSecs : ℕ) (value : V) (now : ℕ) :
    (t.insert key ttlSecs value now).capacity = t.capacity := rfl

@[simp] theorem capacity_getMut (now : ℕ) : (t.getMut key now).2.capacity = t.capacity := by
  unfold getMut
  split
  · rfl
  · split <;> rfl

@[simp] theorem capacity_take (now : ℕ) : (t.take key now).2.capacity = t.capacity := by
  unfold take
  split <;> rfl

end ExpiringTable

namespace Oid4vci

open StepSystem (Machine Reachable Steps anyStep)

variable {X : External} {service : Service X} {start : ℕ} {s s' : Sys X}

/-! ## The tables keep their size -/

structure IssuerState.Sized (state : IssuerState) : Prop where
  accessTokens : state.accessTokens.capacity = maxOid4vciEntries
  nonces : state.nonces.capacity = maxOid4vciEntries

theorem offerStep_sized {definitions : DefinitionCatalog} {state state' : IssuerState} {seen : ℕ}
    {call : OfferCall} {event : OfferEvent} {phase : OfferPhase} (hs : state.Sized)
    (h : offerStep service definitions state seen call event = some (state', phase)) :
    state'.Sized := by
  unfold offerStep at h
  repeat' split at h
  all_goals cases h
  all_goals exact ⟨hs.accessTokens, hs.nonces⟩

theorem tokenStep_sized {state state' : IssuerState} {seen : ℕ} {call : TokenCall}
    {event : TokenEvent} {phase : TokenPhase} (hs : state.Sized)
    (h : tokenStep state seen call event = some (state', phase)) : state'.Sized := by
  unfold tokenStep at h
  repeat' split at h
  all_goals cases h
  all_goals exact ⟨hs.accessTokens, hs.nonces⟩

theorem credentialStep_sized {definitions : DefinitionCatalog} {state state' : IssuerState}
    {call : CredentialCall X} {event : CredentialEvent X} {phase : CredentialPhase X}
    (hs : state.Sized)
    (h : credentialStep service definitions state call event = some (state', phase)) :
    state'.Sized := by
  obtain ⟨htokens, hnonces⟩ := hs
  unfold credentialStep at h
  repeat' split at h
  all_goals cases h
  all_goals constructor <;> simp [htokens, hnonces]

theorem sized_of_reachable (h : Reachable (credentialIssuer service start) s) : s.state.Sized := by
  refine h.invariant (I := fun s : Sys X => s.state.Sized) ⟨rfl, rfl⟩ ?_
  intro s₁ a s₂ hs hstep
  obtain ⟨s₃, clock, hperform, -, -, rfl⟩ := step_eq_some hstep
  show s₃.state.Sized
  cases a with
  | offer call event =>
      obtain ⟨c, -, hc⟩ := Option.bind_eq_some_iff.mp hperform
      obtain ⟨out, hout, rfl⟩ := Option.map_eq_some_iff.mp hc
      exact offerStep_sized hs hout
  | tokenCall call event =>
      obtain ⟨c, -, hc⟩ := Option.bind_eq_some_iff.mp hperform
      obtain ⟨out, hout, rfl⟩ := Option.map_eq_some_iff.mp hc
      exact tokenStep_sized hs hout
  | credentialCall call event =>
      obtain ⟨c, -, hc⟩ := Option.bind_eq_some_iff.mp hperform
      obtain ⟨out, hout, rfl⟩ := Option.map_eq_some_iff.mp hc
      exact credentialStep_sized hs hout
  | issuer action =>
      rw [perform] at hperform
      split at hperform
      · cases hperform
      · obtain ⟨issuer, -, rfl⟩ := Option.map_eq_some_iff.mp hperform
        exact hs
  | redeem call =>
      obtain ⟨c, -, hc⟩ := Option.bind_eq_some_iff.mp hperform
      split at hc
      · cases hc
        exact hs
      · cases hc
  | answer call =>
      obtain ⟨c, -, hc⟩ := Option.bind_eq_some_iff.mp hperform
      split at hc
      · obtain ⟨redemption, -, hr⟩ := Option.bind_eq_some_iff.mp hc
        obtain ⟨phase, -, rfl⟩ := Option.map_eq_some_iff.mp hr
        exact hs
      · cases hc
  | _ =>
      cases hperform
      exact ⟨hs.accessTokens, hs.nonces⟩

/-! ## Nonces -/

variable {now : ℕ}

/-- A nonce is drawn and can be used up from then on. -/
theorem nonce_served (h : Reachable (credentialIssuer service start) s) (hclock : s.clock ≤ now) :
    ∃ cNonce s', (credentialIssuer service start).step s (.nonce now cNonce) = some s' ∧
      s'.nonceCalls = s.nonceCalls ++ [(cNonce, now)] ∧
        s'.state.nonces.entries.lookup cNonce = some (now + nonceTtlSecs, ()) ∧
          s'.state.accessTokens = s.state.accessTokens ∧ s'.issuer = s.issuer ∧
            s'.credentialCalls = s.credentialCalls ∧ s'.clock = now := by
  obtain ⟨cNonce, hnew⟩ := exists_fresh (s.drawn ++ s.state.nonces.order)
  rw [List.mem_append, not_or] at hnew
  have hroom : 0 < s.state.nonces.capacity := by
    rw [(sized_of_reachable h).nonces]
    decide
  have hadvance : advance s.clock (Action.nonce (X := X) now cNonce).readings = some now :=
    if_pos hclock
  have hfresh : ∀ token ∈ (Action.nonce (X := X) now cNonce).draws, token ∉ s.drawn := by
    intro token htoken
    rw [List.mem_singleton.mp htoken]
    exact hnew.1
  exact ⟨cNonce, _, step_of_perform hadvance hfresh rfl, rfl,
    ExpiringTable.lookup_insert_newest hroom hnew.2 nonceTtlSecs () now, rfl, rfl, rfl, rfl⟩

/-! ## Access tokens -/

/-- What a live code is exchanged for. -/
theorem exchange_live {codes : ExpiringTable PreAuthorizedGrant} {code : String} {exp : ℕ}
    {grant : PreAuthorizedGrant} (hlookup : codes.entries.lookup code = some (exp, grant))
    (hlive : now < exp) :
    exchange codes code grant.txCode now now =
      (.exchanged grant.credentialConfigurationIds, codes.remove code) := by
  have hget : codes.getMut code now = (some grant, codes) := by
    rw [ExpiringTable.getMut, hlookup]
    exact if_neg (Nat.not_le_of_lt hlive)
  have htake : takeCode codes code now =
      (.exchanged grant.credentialConfigurationIds, codes.remove code) := by
    rw [takeCode, ExpiringTable.take, hlookup]
    simp only [if_pos hlive]
  rw [exchange, hget]
  dsimp only
  unfold matchTxCode
  cases grant.txCode with
  | none => exact htake
  | some pin =>
      dsimp only
      rw [if_neg (fun hne => hne rfl)]
      exact htake

/-- What a token request's own section leaves as it was. -/
structure TokenSectioned (s s' : Sys X) (i now : ℕ) (c : TokenCall) (phase : TokenPhase) :
    Prop where
  call : s'.tokenCalls[i]? = some { c with phase := phase }
  issuer : s'.issuer = s.issuer
  credentialCalls : s'.credentialCalls = s.credentialCalls
  clock : s'.clock = now

theorem token_section (start : ℕ) {i : ℕ} {c : TokenCall} {event : TokenEvent}
    {state' : IssuerState} {phase : TokenPhase} (hc : s.tokenCalls[i]? = some c)
    (hadvance : advance s.clock event.readings = some now)
    (hfresh : ∀ token ∈ (Action.tokenCall (X := X) i event).draws, token ∉ s.drawn)
    (h : tokenStep s.state s.presented.length c event = some (state', phase)) :
    ∃ s', (credentialIssuer service start).step s (.tokenCall i event) = some s' ∧
      TokenSectioned s s' i now c phase ∧ s'.state = state' := by
  have hperform : perform service s (.tokenCall i event) =
      some { s with
        state := state'
        tokenCalls := s.tokenCalls.set i { c with phase := phase }
        presented := s.presented ++ c.presents s.state event } := by
    rw [perform, hc, Option.bind_some, h]
    rfl
  refine ⟨_, step_of_perform hadvance hfresh hperform, ⟨?_, rfl, rfl, rfl⟩, rfl⟩
  exact List.getElem?_set_self (List.getElem?_eq_some_iff.mp hc).1

/-- **A live code gets its access token**, which can be used from then on. -/
theorem token_served (h : Reachable (credentialIssuer service start) s) {form : TokenForm}
    {code : String} {exp : ℕ} {grant : PreAuthorizedGrant}
    (hform : presentedCode form = .ok (code, grant.txCode))
    (hlookup : s.state.preAuthorizedCodes.entries.lookup code = some (exp, grant))
    (hlive : now < exp) (hopen : s.state.codesPoisoned = false) (hclock : s.clock ≤ now) :
    ∃ s' granted, Steps (credentialIssuer service start) anyStep s s' ∧
      s'.tokenCalls[s.tokenCalls.length]? = some { form := form, phase := .granted granted } ∧
        granted.response.tokenType = "Bearer" ∧
          s'.state.accessTokens.entries.lookup granted.response.accessToken =
            some (now + accessTokenTtlSecs,
              { credentialConfigurationIds := grant.credentialConfigurationIds }) ∧
            s'.issuer = s.issuer ∧ s'.credentialCalls = s.credentialCalls ∧ s'.clock = now := by
  -- the request arrives
  obtain ⟨s₁, hs₁⟩ : ∃ s₁ : Sys X, s₁ =
      { s with tokenCalls := s.tokenCalls ++ [{ form := form, phase := .called }] } := ⟨_, rfl⟩
  have hstep₁ : (credentialIssuer service start).step s (.token form) = some s₁ := by
    have hperform : perform service s (.token form) = some s₁ := by
      rw [hs₁]
      rfl
    rw [step_of_perform (a := .token form) rfl
      (fun token htoken => absurd htoken List.not_mem_nil) hperform, hs₁]
    rfl
  have hc₁ : s₁.tokenCalls[s.tokenCalls.length]? = some { form := form, phase := .called } := by
    rw [hs₁]
    exact List.getElem?_concat_length
  -- its code is exchanged
  have hexchange : tokenStep s₁.state s₁.presented.length { form := form, phase := .called }
      (.exchange now now) = some ({ s.state with
        preAuthorizedCodes := s.state.preAuthorizedCodes.remove code
        codesPoisoned := false }, .exchanged
          { code := code
            ids := grant.credentialConfigurationIds
            takenAt := now
            seen := s.presented.length }) := by
    rw [hs₁]
    simp only [tokenStep, hform, hopen, exchange_live hlookup hlive]
    rfl
  have hread : advance s₁.clock (TokenEvent.exchange now now).readings = some now := by
    rw [hs₁]
    simp [TokenEvent.readings, advance, hclock]
  obtain ⟨s₂, hstep₂, h₂, hstate₂⟩ := token_section start hc₁ hread
    (fun token htoken => absurd htoken List.not_mem_nil) hexchange
  -- and the token is drawn
  obtain ⟨accessToken, hnew⟩ := exists_fresh (s₂.drawn ++ s₂.state.accessTokens.order)
  rw [List.mem_append, not_or] at hnew
  have hgrant : ∃ granted, tokenStep s₂.state s₂.presented.length
      { form := form, phase := .exchanged
          { code := code
            ids := grant.credentialConfigurationIds
            takenAt := now
            seen := s.presented.length } } (.grant now accessToken) =
      some ({ s₂.state with
        accessTokens := s₂.state.accessTokens.insert accessToken accessTokenTtlSecs
          { credentialConfigurationIds := grant.credentialConfigurationIds } now },
        .granted granted) ∧ granted.response.tokenType = "Bearer" ∧
          granted.response.accessToken = accessToken := ⟨_, rfl, rfl, rfl⟩
  obtain ⟨granted, hgrant, htype, htoken⟩ := hgrant
  have hlater : advance s₂.clock (TokenEvent.grant now accessToken).readings = some now := by
    rw [h₂.clock]
    exact if_pos le_rfl
  have hdrawn : ∀ token ∈ (Action.tokenCall (X := X) s.tokenCalls.length
      (.grant now accessToken)).draws, token ∉ s₂.drawn := by
    intro token hmem
    rw [List.mem_singleton.mp hmem]
    exact hnew.1
  obtain ⟨s₃, hstep₃, h₃, hstate₃⟩ := token_section start h₂.call hlater hdrawn hgrant
  have hreach₂ : Reachable (credentialIssuer service start) s₂ := (h.step hstep₁).step hstep₂
  have hroom : 0 < s₂.state.accessTokens.capacity := by
    rw [(sized_of_reachable hreach₂).accessTokens]
    decide
  refine ⟨s₃, granted, ?_, h₃.call, htype, ?_, ?_, ?_, h₃.clock⟩
  · have hstart : Steps (credentialIssuer service start) anyStep s s := .refl
    exact ((hstart.tail _ trivial hstep₁).tail _ trivial hstep₂).tail _ trivial hstep₃
  · rw [hstate₃, htoken]
    exact ExpiringTable.lookup_insert_newest hroom hnew.2 _ _ now
  · rw [h₃.issuer, h₂.issuer, hs₁]
  · rw [h₃.credentialCalls, h₂.credentialCalls, hs₁]

end Oid4vci

end IdentityHub
