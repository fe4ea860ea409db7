import IdentityHub.Oid4vci.Calls

/-!
# The authorisation chain

From an issued credential back to the operator: the credential was requested
with a young access token, granted in exchange for a young pre-authorized code
of an operator's offer that covers it, and it consumed a young nonce of its own,
carried by a proof whose signature verified.

A credential request collects these facts phase by phase (`CredentialCall.Sound`);
what they say about codes, tokens and nonces is read off the books.
-/

namespace IdentityHub.Oid4vci

open StepSystem (Machine Reachable)

variable {X : External} {service : Service X} {start : ℕ}

/-! ## What a credential request has to show for -/

/-- The token that was read: granted, and not expired. -/
def Authorized (B : Books X) (c : CredentialCall X) (access : Access) : Prop :=
  bearerToken c.authorization = some access.token ∧
    ∃ form g, (form, g) ∈ B.granted ∧ g.response.accessToken = access.token ∧
      g.exchanged.ids = access.ids ∧ g.grantedAt ≤ access.readAt ∧
        access.readAt < g.grantedAt + accessTokenTtlSecs

/-- Every check short of the signature. -/
def Passed (service : Service X) (B : Books X) (c : CredentialCall X) (checked : Checked) : Prop :=
  Authorized B c checked.access ∧
    ∃ definitions now, inspectRequest service definitions checked.access c.body now = .ok checked

/-- The signature verified as well. -/
def Verified (service : Service X) (B : Books X) (c : CredentialCall X) (checked : Checked)
    (resolved : Except String X.DidDocument) : Prop :=
  Passed service B c checked ∧
    verifyProofSignature service.toIssuerService checked.proof checked.key resolved = .ok ()

/-- The nonce of the proof was handed out, and not expired. -/
def Spent (service : Service X) (B : Books X) (c : CredentialCall X) (x : Consumed X) : Prop :=
  Verified service B c x.checked x.resolved ∧ x.checked.nonce = some x.nonce ∧
    ∃ m, (x.nonce, m) ∈ B.handedOut ∧ m ≤ x.takenAt ∧ x.takenAt < m + nonceTtlSecs

def CredentialCall.Sound (service : Service X) (B : Books X) (c : CredentialCall X) : Prop :=
  match c.phase with
  | .called => True
  | .authorized access => Authorized B c access
  | .verifying checked => Passed service B c checked
  | .verified checked resolved => Verified service B c checked resolved
  | .consumed x => Spent service B c x
  | .redeeming x _ => Spent service B c x
  | .issued x _ => Spent service B c x
  | .denied x _ => Spent service B c x
  | .refused _ => True

section

variable {B B' : Books X} {c : CredentialCall X}

theorem Authorized.mono (he : B.Extends B') {access : Access} (h : Authorized B c access) :
    Authorized B' c access := by
  obtain ⟨hbearer, form, g, hg, hrest⟩ := h
  exact ⟨hbearer, form, g, he.granted hg, hrest⟩

theorem Passed.mono (he : B.Extends B') {checked : Checked} (h : Passed service B c checked) :
    Passed service B' c checked :=
  ⟨h.1.mono he, h.2⟩

theorem Verified.mono (he : B.Extends B') {checked : Checked}
    {resolved : Except String X.DidDocument} (h : Verified service B c checked resolved) :
    Verified service B' c checked resolved :=
  ⟨h.1.mono he, h.2⟩

theorem Spent.mono (he : B.Extends B') {x : Consumed X} (h : Spent service B c x) :
    Spent service B' c x := by
  obtain ⟨hverified, hnonce, m, hm, hage⟩ := h
  exact ⟨hverified.mono he, hnonce, m, he.handedOut hm, hage⟩

theorem CredentialCall.Sound.mono (he : B.Extends B') (h : c.Sound service B) :
    c.Sound service B' := by
  unfold Sound at h ⊢
  split at h
  · trivial
  · exact h.mono he
  · exact h.mono he
  · exact h.mono he
  · exact h.mono he
  · exact h.mono he
  · exact h.mono he
  · exact h.mono he
  · trivial

/-- The facts about a consumed nonce do not depend on what became of it. -/
theorem CredentialCall.Sound.spent (h : c.Sound service B) {x : Consumed X}
    (hx : x ∈ c.phase.consumption) : Spent service B c x := by
  unfold Sound at h
  cases hphase : c.phase with
  | consumed y =>
      rw [hphase] at h hx
      rw [List.mem_singleton.mp hx]
      exact h
  | redeeming y task =>
      rw [hphase] at h hx
      rw [List.mem_singleton.mp hx]
      exact h
  | issued y jws =>
      rw [hphase] at h hx
      rw [List.mem_singleton.mp hx]
      exact h
  | denied y error =>
      rw [hphase] at h hx
      rw [List.mem_singleton.mp hx]
      exact h
  | _ =>
      rw [hphase] at hx
      exact absurd hx List.not_mem_nil

end

/-! ## Each phase adds its fact -/

section

variable {s s' : Sys X} {definitions : DefinitionCatalog} {c : CredentialCall X}

theorem credentialStep_sound {state' : IssuerState} {event : CredentialEvent X}
    {phase' : CredentialPhase X} (hk : s.books.Kept service) (hc : c.Sound service s.books)
    (hclock : ∀ now ∈ event.readings, s.clock ≤ now)
    (h : credentialStep service definitions s.state c event = some (state', phase')) :
    CredentialCall.Sound service s.books { c with phase := phase' } := by
  unfold CredentialCall.Sound at hc
  cases event with
  | authorize now =>
      simp only [credentialStep] at h
      split at h
      · split at h
        · cases h
          trivial
        · rename_i token hbearer
          cases h
          cases hget : (s.state.accessTokens.getMut token now).1 with
          | none => trivial
          | some grant =>
              obtain ⟨-, exp, hlookup, hlive⟩ := ExpiringTable.getMut_eq_some hget
              have hticket : s.books.tokenTickets.live token =
                  some (exp, grant.credentialConfigurationIds) :=
                Option.map_eq_some_iff.mpr ⟨(exp, grant), hlookup, rfl⟩
              obtain ⟨m, hissued, hafter, hbefore⟩ :=
                hk.tokens.age hticket (hclock now List.mem_cons_self) hlive
              replace hissued : _ ∈ s.books.granted.map (fun p => p.2.ticket) := hissued
              obtain ⟨⟨form, g⟩, hg, hgticket⟩ := Multiset.mem_map.mp hissued
              simp only [Granted.ticket, Prod.mk.injEq] at hgticket
              obtain ⟨htoken, rfl, hids⟩ := hgticket
              exact ⟨hbearer, form, g, hg, htoken, hids, hafter, hbefore⟩
      · cases h
  | inspect now =>
      simp only [credentialStep] at h
      split at h
      · rename_i access hphase
        rw [hphase] at hc
        split at h
        · cases h
          trivial
        · rename_i checked hinspect
          cases h
          have haccess : checked.access = access := by
            unfold inspectRequest at hinspect
            repeat' split at hinspect
            all_goals cases hinspect
            rfl
          rw [← haccess] at hc hinspect
          exact ⟨hc, definitions, now, hinspect⟩
      · cases h
  | verify resolved =>
      simp only [credentialStep] at h
      split at h
      · rename_i checked hphase
        rw [hphase] at hc
        split at h
        · cases h
          trivial
        · rename_i hverify
          cases h
          exact ⟨hc, hverify⟩
      · cases h
  | takeNonce now =>
      simp only [credentialStep] at h
      split at h
      · rename_i checked resolved hphase
        rw [hphase] at hc
        split at h
        · cases h
          trivial
        · rename_i n hn
          cases h
          cases htake : (s.state.nonces.take n now).1 with
          | none => trivial
          | some _ =>
              obtain ⟨exp, hlookup, hlive⟩ := ExpiringTable.take_eq_some htake
              obtain ⟨m, hissued, hafter, hbefore⟩ :=
                hk.nonces.age hlookup (hclock now List.mem_cons_self) hlive
              replace hissued : _ ∈ s.books.handedOut.map (fun p => (p.1, p.2, ())) := hissued
              obtain ⟨⟨n', m'⟩, hm, heq⟩ := Multiset.mem_map.mp hissued
              cases heq
              exact ⟨hc, hn, m', hm, hafter, hbefore⟩
      · cases h

/-- What a step does to the credential requests: one may arrive, and one may
move on with a phase its facts support. -/
theorem perform_sound {a : Action X} {clock : ℕ} (hk : s.books.Kept service)
    (hsound : ∀ c ∈ s.credentialCalls, c.Sound service s.books)
    (h : perform service s a = some s') (hclock : advance s.clock a.readings = some clock) :
    ∀ c ∈ s'.credentialCalls, c.Sound service s.books := by
  cases a with
  | credential authorization body =>
      cases h
      intro c hc
      rcases List.mem_append.mp hc with hold | hnew
      · exact hsound c hold
      · rw [List.mem_singleton.mp hnew]
        trivial
  | credentialCall call event =>
      obtain ⟨c, hc, hrest⟩ := Option.bind_eq_some_iff.mp h
      obtain ⟨⟨state', phase'⟩, hout, rfl⟩ := Option.map_eq_some_iff.mp hrest
      intro c' hc'
      rcases List.mem_or_eq_of_mem_set hc' with hold | rfl
      · exact hsound c' hold
      · exact credentialStep_sound hk (hsound c (List.mem_of_getElem? hc))
          (fun now hnow => ((advance_spec hclock).2 now hnow).1) hout
  | redeem call =>
      obtain ⟨c, hc, hrest⟩ := Option.bind_eq_some_iff.mp h
      split at hrest
      · rename_i x hphase
        cases hrest
        have hspent : Spent service s.books c x :=
          (hsound c (List.mem_of_getElem? hc)).spent (by rw [hphase]; exact List.mem_cons_self)
        intro c' hc'
        rcases List.mem_or_eq_of_mem_set hc' with hold | rfl
        · exact hsound c' hold
        · unfold startRedemption
          split <;> exact hspent
      · cases hrest
  | answer call =>
      obtain ⟨c, hc, hrest⟩ := Option.bind_eq_some_iff.mp h
      split at hrest
      · rename_i x task hphase
        obtain ⟨redemption, -, hr⟩ := Option.bind_eq_some_iff.mp hrest
        obtain ⟨phase, hanswer, rfl⟩ := Option.map_eq_some_iff.mp hr
        have hspent : Spent service s.books c x :=
          (hsound c (List.mem_of_getElem? hc)).spent (by rw [hphase]; exact List.mem_cons_self)
        intro c' hc'
        rcases List.mem_or_eq_of_mem_set hc' with hold | rfl
        · exact hsound c' hold
        · cases redemption with
          | issued jws =>
              cases hanswer
              exact hspent
          | refused status description =>
              cases hanswer
              exact hspent
          | _ => cases hanswer
      · cases hrest
  | issuer action =>
      simp only [perform] at h
      split at h
      · cases h
      · obtain ⟨issuer, -, rfl⟩ := Option.map_eq_some_iff.mp h
        exact hsound
  | offer call event =>
      obtain ⟨c, -, hc⟩ := Option.bind_eq_some_iff.mp h
      obtain ⟨out, -, rfl⟩ := Option.map_eq_some_iff.mp hc
      exact hsound
  | tokenCall call event =>
      obtain ⟨c, -, hc⟩ := Option.bind_eq_some_iff.mp h
      obtain ⟨out, -, rfl⟩ := Option.map_eq_some_iff.mp hc
      exact hsound
  | _ =>
      cases h
      exact hsound

end

/-- **Every credential request can show for its phase.** -/
theorem credentials_sound {s : Sys X} (h : Reachable (credentialIssuer service start) s) :
    ∀ c ∈ s.credentialCalls, c.Sound service s.books := by
  refine h.invariant_of
    (J := fun s : Sys X => s.books.Kept service ∧ ∀ c ∈ s.offerCalls, c.Checked service)
    (I := fun s : Sys X => ∀ c ∈ s.credentialCalls, c.Sound service s.books)
    (fun _ hs => ⟨books_kept hs, offers_checked hs⟩)
    (fun _ hc => absurd hc List.not_mem_nil) ?_
  rintro s₁ a s₂ ⟨hkept, hchecked⟩ hsound hstep c hc
  have hext := (books_step hchecked hstep).extends
  obtain ⟨s₃, clock, hperform, hclock, -, rfl⟩ := step_eq_some hstep
  exact (perform_sound hkept hsound hperform hclock c hc).mono hext

/-! ## From the books to the calls -/

section

variable {s : Sys X}

theorem mem_minted {request : OfferRequest} {m : MintedCode} :
    (request, m) ∈ s.books.minted ↔
      ∃ c ∈ s.offerCalls, c.request = request ∧ m ∈ c.phase.minted := by
  show _ ∈ s.offerCalls.flatMap OfferCall.minted ↔ _
  simp only [List.mem_flatMap, OfferCall.minted, List.mem_map, Prod.mk.injEq]
  constructor
  · rintro ⟨c, hc, m', hm, rfl, rfl⟩
    exact ⟨c, hc, rfl, hm⟩
  · rintro ⟨c, hc, rfl, hm⟩
    exact ⟨c, hc, m, hm, rfl, rfl⟩

theorem mem_granted {form : TokenForm} {g : Granted} :
    (form, g) ∈ s.books.granted ↔ ∃ c ∈ s.tokenCalls, c.form = form ∧ g ∈ c.phase.grants := by
  show _ ∈ s.tokenCalls.flatMap TokenCall.granted ↔ _
  simp only [List.mem_flatMap, TokenCall.granted, List.mem_map, Prod.mk.injEq]
  constructor
  · rintro ⟨c, hc, g', hg, rfl, rfl⟩
    exact ⟨c, hc, rfl, hg⟩
  · rintro ⟨c, hc, rfl, hg⟩
    exact ⟨c, hc, g, hg, rfl, rfl⟩

theorem mem_taken {form : TokenForm} {x : Exchanged} :
    (form, x) ∈ s.books.taken ↔ ∃ c ∈ s.tokenCalls, c.form = form ∧ x ∈ c.phase.taken := by
  show _ ∈ s.tokenCalls.flatMap TokenCall.taken ↔ _
  simp only [List.mem_flatMap, TokenCall.taken, List.mem_map, Prod.mk.injEq]
  constructor
  · rintro ⟨c, hc, x', hx, rfl, rfl⟩
    exact ⟨c, hc, rfl, hx⟩
  · rintro ⟨c, hc, rfl, hx⟩
    exact ⟨c, hc, x, hx, rfl, rfl⟩

/-- A checked offer was the operator's. -/
theorem operator_of_checkOffer {definitions : DefinitionCatalog} {request : OfferRequest}
    {ids : List String} (h : checkOffer service definitions request = .ok ids) :
    operatorRejection service request.authorization = none := by
  unfold checkOffer at h
  split at h
  · cases h
  · assumption

/-- No two token requests took one code. -/
theorem code_taken_once (hk : s.books.Kept service) {i j : ℕ} {t t' : TokenCall}
    {x x' : Exchanged} (ht : s.tokenCalls[i]? = some t) (ht' : s.tokenCalls[j]? = some t')
    (hx : x ∈ t.phase.taken) (hx' : x' ∈ t'.phase.taken) (hcode : x.code = x'.code) : i = j := by
  have hnodup : (s.tokenCalls.flatMap (fun c => c.phase.taken.map (·.code))).Nodup := by
    have hredeemed : ((s.tokenCalls.flatMap TokenCall.taken).map (fun p => p.2.code)).Nodup :=
      Multiset.coe_nodup.mp hk.codes.redeemed_nodup
    rw [List.map_flatMap] at hredeemed
    convert hredeemed using 2
    funext c
    rw [TokenCall.taken, List.map_map]
    rfl
  exact KeyedList.owner_unique hnodup ht ht' (List.mem_map_of_mem hx)
    (hcode ▸ List.mem_map_of_mem hx')

/-- No two credential requests consumed one nonce. -/
theorem nonce_consumed_once (hk : s.books.Kept service) {i j : ℕ} {c c' : CredentialCall X}
    {x x' : Consumed X} (hc : s.credentialCalls[i]? = some c)
    (hc' : s.credentialCalls[j]? = some c') (hx : x ∈ c.phase.consumption)
    (hx' : x' ∈ c'.phase.consumption) (hnonce : x.nonce = x'.nonce) : i = j := by
  have hnodup : (s.credentialCalls.flatMap (fun c => c.phase.consumption.map (·.nonce))).Nodup := by
    have hredeemed :
        ((s.credentialCalls.flatMap CredentialCall.consumed).map (·.nonce)).Nodup :=
      Multiset.coe_nodup.mp hk.nonces.redeemed_nodup
    rw [List.map_flatMap] at hredeemed
    exact hredeemed
  exact KeyedList.owner_unique hnodup hc hc' (List.mem_map_of_mem hx)
    (hnonce ▸ List.mem_map_of_mem hx')

/-- Only the nonce endpoint and a request whose proof verified touch the nonces. -/
theorem nonces_touched {s' : Sys X} {a : Action X}
    (h : (credentialIssuer service start).step s a = some s')
    (hchanged : s'.state.nonces ≠ s.state.nonces) :
    (∃ now cNonce, a = .nonce now cNonce) ∨
      ∃ call c checked resolved now n, a = .credentialCall call (.takeNonce now) ∧
        s.credentialCalls[call]? = some c ∧ c.phase = .verified checked resolved ∧
          checked.nonce = some n ∧ s'.state.nonces = (s.state.nonces.take n now).2 := by
  obtain ⟨s₁, clock, hperform, -, -, rfl⟩ := step_eq_some h
  replace hchanged : s₁.state.nonces ≠ s.state.nonces := hchanged
  cases a with
  | nonce now cNonce => exact Or.inl ⟨now, cNonce, rfl⟩
  | issuer action =>
      simp only [perform] at hperform
      split at hperform
      · cases hperform
      · obtain ⟨issuer, -, rfl⟩ := Option.map_eq_some_iff.mp hperform
        exact absurd rfl hchanged
  | offer call event =>
      obtain ⟨c, -, hc⟩ := Option.bind_eq_some_iff.mp hperform
      obtain ⟨⟨state', phase'⟩, hout, rfl⟩ := Option.map_eq_some_iff.mp hc
      refine absurd ?_ hchanged
      cases event <;> simp only [offerStep] at hout
      all_goals repeat' split at hout
      all_goals cases hout
      all_goals rfl
  | tokenCall call event =>
      obtain ⟨c, -, hc⟩ := Option.bind_eq_some_iff.mp hperform
      obtain ⟨⟨state', phase'⟩, hout, rfl⟩ := Option.map_eq_some_iff.mp hc
      refine absurd ?_ hchanged
      cases event <;> simp only [tokenStep] at hout
      all_goals repeat' split at hout
      all_goals cases hout
      all_goals rfl
  | credentialCall call event =>
      obtain ⟨c, hget, hc⟩ := Option.bind_eq_some_iff.mp hperform
      obtain ⟨⟨state', phase'⟩, hout, rfl⟩ := Option.map_eq_some_iff.mp hc
      cases event with
      | takeNonce now =>
          simp only [credentialStep] at hout
          split at hout
          · rename_i checked resolved hphase
            split at hout
            · cases hout
              exact absurd rfl hchanged
            · rename_i n hn
              cases hout
              exact Or.inr ⟨call, c, checked, resolved, now, n, rfl, hget, hphase, hn, rfl⟩
          · cases hout
      | _ =>
          refine absurd ?_ hchanged
          simp only [credentialStep] at hout
          repeat' split at hout
          all_goals cases hout
          all_goals rfl
  | redeem call =>
      obtain ⟨c, hc, hrest⟩ := Option.bind_eq_some_iff.mp hperform
      split at hrest
      · cases hrest
        exact absurd rfl hchanged
      · cases hrest
  | answer call =>
      obtain ⟨c, hc, hrest⟩ := Option.bind_eq_some_iff.mp hperform
      split at hrest
      · obtain ⟨redemption, -, hr⟩ := Option.bind_eq_some_iff.mp hrest
        obtain ⟨phase, -, rfl⟩ := Option.map_eq_some_iff.mp hr
        exact absurd rfl hchanged
      · cases hrest
  | _ =>
      cases hperform
      exact absurd rfl hchanged

/-- An exchange of the books is one of a token request, and its offer is one of
an offer request the operator made. -/
theorem exchange_backed (hk : s.books.Kept service) {t : TokenCall} (ht : t ∈ s.tokenCalls)
    {x : Exchanged} (hx : x ∈ t.phase.taken) :
    ∃ offerCall ∈ s.offerCalls, ∃ m ∈ offerCall.phase.minted,
      operatorRejection service offerCall.request.authorization = none ∧
        (∃ definitions, checkOffer service definitions offerCall.request = .ok m.ids) ∧
          m.code = x.code ∧ m.ids = x.ids ∧ m.madeAt ≤ x.takenAt ∧
            x.takenAt < m.madeAt + offerTtlSecs ∧
              presentedCode t.form = .ok (x.code, m.txCode) ∧
                ∀ pin, m.txCode = some pin →
                  wrongTxCodes x.code pin ((s.presented.take x.seen).drop m.seen) <
                    maxTxCodeAttempts := by
  obtain ⟨request, m, hm, hrest⟩ := hk.backed (t.form, x) (mem_taken.mpr ⟨t, ht, rfl, hx⟩)
  obtain ⟨definitions, hcheck⟩ := hk.checked (request, m) hm
  obtain ⟨offerCall, hoffer, rfl, hminted⟩ := mem_minted.mp hm
  exact ⟨offerCall, hoffer, m, hminted, operator_of_checkOffer hcheck, ⟨definitions, hcheck⟩, hrest⟩

theorem configId_of_inspectRequest {definitions : DefinitionCatalog} {access : Access}
    {body : Json.Value} {now : ℕ} {checked : Checked}
    (h : inspectRequest service definitions access body now = .ok checked) :
    checked.configId ∈ access.ids ∧
      ∃ request, CredentialRequest.fromJson body = some request ∧
        request.credentialConfigurationId = some checked.configId ∧
          request.jwtProofs = [checked.proof] ∧
            inspectJwtProof X checked.proof (credentialIssuerId service) now =
              .ok (checked.key, checked.nonce) := by
  unfold inspectRequest at h
  split at h
  · cases h
  · rename_i request hrequest
    split at h
    · cases h
    · rename_i configId hconfig
      split at h
      · cases h
      · split at h
        · cases h
        · rename_i hcovered
          split at h
          · rename_i proof hproofs
            split at h
            · cases h
            · rename_i key nonce hinspect
              cases h
              exact ⟨not_not.mp hcovered, request, hrequest, hconfig, hproofs, hinspect⟩
          · cases h

end

/-! ## The chain -/

/-- **The authorisation chain.** In every state the Credential Issuer can get
into:

* a credential that was returned for a configuration was requested with an
  access token less than `accessTokenTtlSecs` old, granted for a pre-authorized
  code less than `offerTtlSecs` old of an operator's offer that covers the
  configuration, and consumed a nonce less than `nonceTtlSecs` old carried by a
  proof whose signature verified;
* no two token requests took one code, so a code yields at most one token;
* a token request that took a code presented exactly the Transaction Code of its
  offer, and fewer than `maxTxCodeAttempts` wrong ones had been presented for it
  since it was minted;
* no two credential requests consumed one nonce;
* a step that touches the nonces is the nonce endpoint's, or it is the step of
  a request that has passed every check up to the proof's signature. -/
theorem authorisation_chain {s : Sys X} (h : Reachable (credentialIssuer service start) s) :
    (∀ call ∈ s.credentialCalls, ∀ x jws, call.phase = .issued x jws →
      (∃ tokenCall ∈ s.tokenCalls, ∃ g ∈ tokenCall.phase.grants,
        bearerToken call.authorization = some g.response.accessToken ∧
          g.grantedAt ≤ x.checked.access.readAt ∧
            x.checked.access.readAt < g.grantedAt + accessTokenTtlSecs ∧
              ∃ offerCall ∈ s.offerCalls, ∃ m ∈ offerCall.phase.minted,
                operatorRejection service offerCall.request.authorization = none ∧
                  (∃ definitions, checkOffer service definitions offerCall.request = .ok m.ids) ∧
                    m.code = g.exchanged.code ∧ x.checked.configId ∈ m.ids ∧
                      m.madeAt ≤ g.exchanged.takenAt ∧
                        g.exchanged.takenAt < m.madeAt + offerTtlSecs) ∧
        (∃ request now, CredentialRequest.fromJson call.body = some request ∧
          request.credentialConfigurationId = some x.checked.configId ∧
            request.jwtProofs = [x.checked.proof] ∧
              inspectJwtProof X x.checked.proof (credentialIssuerId service) now =
                .ok (x.checked.key, some x.nonce)) ∧
          verifyProofSignature service.toIssuerService x.checked.proof x.checked.key x.resolved =
              .ok () ∧
            ∃ madeAt, (x.nonce, madeAt) ∈ s.nonceCalls ∧ madeAt ≤ x.takenAt ∧
              x.takenAt < madeAt + nonceTtlSecs) ∧
      (∀ (i j : ℕ) t t', s.tokenCalls[i]? = some t → s.tokenCalls[j]? = some t' →
        ∀ x ∈ t.phase.taken, ∀ x' ∈ t'.phase.taken, x.code = x'.code → i = j) ∧
        (∀ t ∈ s.tokenCalls, ∀ x ∈ t.phase.taken,
          ∃ offerCall ∈ s.offerCalls, ∃ m ∈ offerCall.phase.minted, m.code = x.code ∧
            presentedCode t.form = .ok (x.code, m.txCode) ∧
              ∀ pin, m.txCode = some pin →
                wrongTxCodes x.code pin ((s.presented.take x.seen).drop m.seen) <
                  maxTxCodeAttempts) ∧
          (∀ (i j : ℕ) c c', s.credentialCalls[i]? = some c → s.credentialCalls[j]? = some c' →
            ∀ x ∈ c.phase.consumption, ∀ x' ∈ c'.phase.consumption,
              x.nonce = x'.nonce → i = j) ∧
            ∀ a s', (credentialIssuer service start).step s a = some s' →
              s'.state.nonces ≠ s.state.nonces →
                (∃ now cNonce, a = .nonce now cNonce) ∨
                  ∃ call c checked resolved now n, a = .credentialCall call (.takeNonce now) ∧
                    s.credentialCalls[call]? = some c ∧ c.phase = .verified checked resolved ∧
                      Verified service s.books c checked resolved ∧ checked.nonce = some n ∧
                        s'.state.nonces = (s.state.nonces.take n now).2 := by
  have hk := books_kept h
  have hsound := credentials_sound h
  refine ⟨fun call hcall x jws hphase => ?_, ?_, ?_, ?_, fun a s' hstep hchanged => ?_⟩
  · have hx : x ∈ call.phase.consumption := by
      rw [hphase]
      exact List.mem_cons_self
    obtain ⟨⟨⟨⟨hbearer, form, g, hg, htoken, hids, hafter, hbefore⟩, definitions, now, hinspect⟩,
      hverify⟩, hnonce, madeAt, hmade, hmadeAfter, hmadeBefore⟩ := (hsound call hcall).spent hx
    obtain ⟨hcovered, request, hrequest, hconfig, hproofs, hproof⟩ :=
      configId_of_inspectRequest hinspect
    rw [hnonce] at hproof
    refine ⟨?_, ⟨request, now, hrequest, hconfig, hproofs, hproof⟩, hverify, madeAt, hmade,
      hmadeAfter, hmadeBefore⟩
    obtain ⟨t, ht, htform, htaken⟩ := mem_taken.mp (hk.granted (form, g) hg)
    obtain ⟨tokenCall, htokenCall, -, hgrants⟩ := mem_granted.mp hg
    obtain ⟨offerCall, hoffer, m, hm, hoperator, hcheck, hcode, hmids, hmade, hyoung, -⟩ :=
      exchange_backed hk ht htaken
    refine ⟨tokenCall, htokenCall, g, hgrants, ?_, hafter, hbefore, offerCall, hoffer, m, hm,
      hoperator, hcheck, hcode, ?_, hmade, hyoung⟩
    · rw [hbearer, htoken]
    · rw [hmids, hids]
      exact hcovered
  · exact fun i j t t' ht ht' x hx x' hx' => code_taken_once hk ht ht' hx hx'
  · intro t ht x hx
    obtain ⟨offerCall, hoffer, m, hm, -, -, hcode, -, -, -, hform, hwrong⟩ :=
      exchange_backed hk ht hx
    exact ⟨offerCall, hoffer, m, hm, hcode, hform, hwrong⟩
  · exact fun i j c c' hc hc' x hx x' hx' => nonce_consumed_once hk hc hc' hx hx'
  · rcases nonces_touched hstep hchanged with hnonce |
      ⟨call, c, checked, resolved, now, n, ha, hget, hphase, hn, htake⟩
    · exact Or.inl hnonce
    · have hverified := hsound c (List.mem_of_getElem? hget)
      unfold CredentialCall.Sound at hverified
      rw [hphase] at hverified
      exact Or.inr ⟨call, c, checked, resolved, now, n, ha, hget, hphase, hverified, hn, htake⟩

/-! ## One credential, from the offer to the answer -/

def sampleService : Service reference where
  toIssuerService := sampleIssuer .auto
  stsClientId := "hub"
  stsClientSecret := "secret"

def sampleProof : String :=
  Reference.token
    (.object [("typ", .string proofJwtTyp), ("alg", .string "ES256"),
      ("kid", .string "did:web:acme.example#key-1")])
    (.object [("aud", .string "https://issuer.example"), ("iat", Json.Value.ofNat 10),
      ("nonce", .string "nonce-1")])
    "acme key"

def sampleForm (txCode : String) : TokenForm :=
  [("grant_type", preAuthorizedCodeGrant), ("pre-authorized_code", "code-1"),
    ("tx_code", txCode)]

/-- The operator offers everything with a Transaction Code; the wallet mistypes
it once, then redeems the offer. -/
def sampleRun : List (Action reference) :=
  [.createOffer
      { authorization := some "Basic aHViOnNlY3JldA=="
        credentialConfigurationIds := none
        txCode := true },
    .offer 0 .check, .offer 0 (.mint 0 "code-1" 42), .offer 0 (.list 0 "offer-1"),
    .token (sampleForm "000041"), .tokenCall 0 (.exchange 1 1),
    .token (sampleForm "000042"), .tokenCall 1 (.exchange 2 3),
    .tokenCall 1 (.grant 3 "token-1"), .nonce 4 "nonce-1",
    .credential (some "Bearer token-1")
      (.object [("credential_configuration_id", .string "membership-credential"),
        ("proofs", .object [("jwt", .array [.string sampleProof])])]),
    .credentialCall 0 (.authorize 10), .credentialCall 0 (.inspect 10),
    .credentialCall 0 (.verify (.ok sampleHolderDocument)),
    .credentialCall 0 (.takeNonce 11), .redeem 0,
    .issuer (.redemption 0 (.govern 11 "holder-1")), .issuer (.redemption 0 .allocate),
    .issuer (.redemption 0 (.insert "process-1")),
    .issuer (.redemption 0 (.record 11 "credential-1")), .answer 0]

/-- The call of a state that was answered with a credential. -/
def issuedCall (s : Sys X) : Option (CredentialCall X × Consumed X) :=
  match s.credentialCalls with
  | [call] =>
    match call.phase with
    | .issued x _ => some (call, x)
    | _ => none
  | _ => none

theorem issuedCall_spec {s : Sys X} {call : CredentialCall X} {x : Consumed X}
    (h : issuedCall s = some (call, x)) :
    call ∈ s.credentialCalls ∧ ∃ jws, call.phase = .issued x jws := by
  unfold issuedCall at h
  split at h
  · rename_i c hcalls
    split at h
    · rename_i y jws hphase
      cases h
      exact ⟨by rw [hcalls]; exact List.mem_cons_self, jws, hphase⟩
    · cases h
  · cases h

set_option maxRecDepth 4000 in
theorem authorisation_chain_sample :
    ∃ s : Sys reference, Reachable (credentialIssuer sampleService 0) s ∧
      ∃ call x, issuedCall s = some (call, x) ∧ x.nonce = "nonce-1" ∧
        ∃ offerCall ∈ s.offerCalls, ∃ m ∈ offerCall.phase.minted,
          operatorRejection sampleService offerCall.request.authorization = none ∧
            x.checked.configId ∈ m.ids := by
  obtain ⟨s, hr, hp⟩ := StepSystem.exists_reachable_of_run
    (M := credentialIssuer sampleService 0) sampleRun
    (p := fun s => (issuedCall s).map (fun p => p.2.nonce) = some "nonce-1")
    (by decide +kernel)
  obtain ⟨⟨call, x⟩, hcall, hnonce⟩ := Option.map_eq_some_iff.mp (of_decide_eq_true hp)
  obtain ⟨hmem, jws, hphase⟩ := issuedCall_spec hcall
  obtain ⟨⟨-, -, -, -, -, -, -, offerCall, hoffer, m, hm, hoperator, -, -, hconfig, -, -⟩, -⟩ :=
    (authorisation_chain hr).1 call hmem x jws hphase
  exact ⟨s, hr, call, x, hcall, hnonce, offerCall, hoffer, m, hm, hoperator, hconfig⟩

end IdentityHub.Oid4vci
