import IdentityHub.Lib.KeyedList
import IdentityHub.Oid4vci.Backing
import IdentityHub.Oid4vci.System

/-!
# The calls keep the books

The books of a state are its tables and what its calls have to show for:
`books_step` says that every step of the Credential Issuer is a step of the
books, so in every reachable state the books are kept. The Issuer Service inside
takes issuer steps only, so what is proved about its runs holds here too.
-/

namespace IdentityHub.Oid4vci

open StepSystem (Machine Reachable)

variable {X : External}

def OfferCall.minted (c : OfferCall) : List (OfferRequest × MintedCode) :=
  c.phase.minted.map (fun m => (c.request, m))

def TokenCall.taken (c : TokenCall) : List (TokenForm × Exchanged) :=
  c.phase.taken.map (fun x => (c.form, x))

def TokenCall.granted (c : TokenCall) : List (TokenForm × Granted) :=
  c.phase.grants.map (fun g => (c.form, g))

def CredentialCall.consumed (c : CredentialCall X) : List (Consumed X) := c.phase.consumption

def Sys.books (s : Sys X) : Books X where
  codes := s.state.preAuthorizedCodes
  poisoned := s.state.codesPoisoned
  tokens := s.state.accessTokens
  nonces := s.state.nonces
  minted := ↑(s.offerCalls.flatMap OfferCall.minted)
  taken := ↑(s.tokenCalls.flatMap TokenCall.taken)
  granted := ↑(s.tokenCalls.flatMap TokenCall.granted)
  handedOut := ↑s.nonceCalls
  consumed := ↑(s.credentialCalls.flatMap CredentialCall.consumed)
  presented := s.presented
  clock := s.clock
  drawn := s.drawn

variable {service : Service X} {start : ℕ} {s s' : Sys X} {a : Action X}

/-- An offer about to be minted has passed the checks. -/
def OfferCall.Checked (service : Service X) (c : OfferCall) : Prop :=
  ∀ ids, c.phase = .minting ids →
    ∃ definitions, checkOffer service definitions c.request = .ok ids

theorem offerStep_checked {definitions : DefinitionCatalog} {state state' : IssuerState}
    {seen : ℕ} {call : OfferCall} {event : OfferEvent} {phase' : OfferPhase}
    (h : offerStep service definitions state seen call event = some (state', phase')) :
    OfferCall.Checked service { call with phase := phase' } := by
  intro ids hminting
  replace hminting : phase' = .minting ids := hminting
  subst hminting
  cases event with
  | check =>
      simp only [offerStep] at h
      split at h
      · split at h
        · cases h
        · rename_i ids' hcheck
          cases h
          exact ⟨definitions, hcheck⟩
      · cases h
  | mint now code digits =>
      simp only [offerStep] at h
      split at h
      · split at h <;> cases h
      · cases h
  | list now offerId =>
      simp only [offerStep] at h
      split at h <;> cases h

/-- The other actions leave the offer calls alone. -/
theorem perform_offerCalls (h : perform service s a = some s')
    (hcreate : ∀ request, a ≠ .createOffer request) (hoffer : ∀ call event, a ≠ .offer call event) :
    s'.offerCalls = s.offerCalls := by
  cases a with
  | createOffer request => exact absurd rfl (hcreate request)
  | offer call event => exact absurd rfl (hoffer call event)
  | issuer action =>
      simp only [perform] at h
      split at h
      · cases h
      · obtain ⟨issuer, -, rfl⟩ := Option.map_eq_some_iff.mp h
        rfl
  | tokenCall call event =>
      obtain ⟨c, -, hc⟩ := Option.bind_eq_some_iff.mp h
      obtain ⟨out, -, rfl⟩ := Option.map_eq_some_iff.mp hc
      rfl
  | credentialCall call event =>
      obtain ⟨c, -, hc⟩ := Option.bind_eq_some_iff.mp h
      obtain ⟨out, -, rfl⟩ := Option.map_eq_some_iff.mp hc
      rfl
  | redeem call =>
      obtain ⟨c, -, hc⟩ := Option.bind_eq_some_iff.mp h
      split at hc
      · cases hc
        rfl
      · cases hc
  | answer call =>
      obtain ⟨c, -, hc⟩ := Option.bind_eq_some_iff.mp h
      split at hc
      · obtain ⟨redemption, -, hr⟩ := Option.bind_eq_some_iff.mp hc
        obtain ⟨phase, -, rfl⟩ := Option.map_eq_some_iff.mp hr
        rfl
      · cases hc
  | _ =>
      cases h
      rfl

theorem offers_checked (h : Reachable (credentialIssuer service start) s) :
    ∀ c ∈ s.offerCalls, c.Checked service := by
  refine h.invariant (I := fun s => ∀ c ∈ s.offerCalls, c.Checked service)
    (fun _ hc => absurd hc List.not_mem_nil) ?_
  intro s₁ a s₂ hchecked hstep
  obtain ⟨s₃, clock, hperform, -, -, rfl⟩ := step_eq_some hstep
  show ∀ c ∈ s₃.offerCalls, _
  by_cases hcreate : ∃ request, a = .createOffer request
  · obtain ⟨request, rfl⟩ := hcreate
    cases hperform
    intro c hc
    rcases List.mem_append.mp hc with hold | hnew
    · exact hchecked c hold
    · rw [List.mem_singleton.mp hnew]
      exact fun ids hphase => nomatch hphase
  · by_cases hoffer : ∃ call event, a = .offer call event
    · obtain ⟨call, event, rfl⟩ := hoffer
      obtain ⟨c, hc, hrest⟩ := Option.bind_eq_some_iff.mp hperform
      obtain ⟨out, hout, rfl⟩ := Option.map_eq_some_iff.mp hrest
      intro c' hc'
      rcases List.mem_or_eq_of_mem_set hc' with hold | rfl
      · exact hchecked c' hold
      · exact offerStep_checked hout
    · rw [perform_offerCalls hperform (fun request he => hcreate ⟨request, he⟩)
        (fun call event he => hoffer ⟨call, event, he⟩)]
      exact hchecked

/-! ## Each step, in the books -/

/-- Nothing is recorded: the tables of tokens and nonces may shrink, the rest is
as it was. -/
theorem Books.Step.quiet_of {B B' : Books X} (hcodes : B'.codes = B.codes)
    (hpoisoned : B'.poisoned = B.poisoned) (htokens : B'.tokens.Within B.tokens)
    (hnonces : B'.nonces.Within B.nonces) (hminted : B'.minted = B.minted)
    (htaken : B'.taken = B.taken) (hgranted : B'.granted = B.granted)
    (hhandedOut : B'.handedOut = B.handedOut) (hconsumed : B'.consumed = B.consumed)
    (hpresented : B'.presented = B.presented) (hclock : B.clock ≤ B'.clock)
    (hdrawn : B.drawn ⊆ B'.drawn) : Books.Step service B B' := by
  obtain ⟨codes, poisoned, tokens, nonces, minted, taken, granted, handedOut, consumed,
    presented, clock, drawn⟩ := B'
  simp only at hcodes hpoisoned hminted htaken hgranted hhandedOut hconsumed hpresented
  subst hcodes hpoisoned hminted htaken hgranted hhandedOut hconsumed hpresented
  exact .quiet tokens nonces clock drawn htokens hnonces hclock hdrawn

section

variable {call : ℕ} {clock : ℕ}

theorem books_offer {event : OfferEvent} (hs : ∀ c ∈ s.offerCalls, c.Checked service)
    (h : perform service s (.offer call event) = some s')
    (hclock : advance s.clock event.readings = some clock)
    (hfresh : ∀ token ∈ (Action.offer (X := X) call event).draws, token ∉ s.drawn) :
    Books.Step service s.books
      { s' with
        clock := clock
        drawn := (Action.offer (X := X) call event).draws ++ s.drawn }.books := by
  obtain ⟨c, hc, hrest⟩ := Option.bind_eq_some_iff.mp h
  obtain ⟨⟨state', phase'⟩, hout, rfl⟩ := Option.map_eq_some_iff.mp hrest
  have hquiet : ∀ {state' : IssuerState} {phase' : OfferPhase},
      state'.preAuthorizedCodes = s.state.preAuthorizedCodes →
        state'.codesPoisoned = s.state.codesPoisoned →
          state'.accessTokens = s.state.accessTokens → state'.nonces = s.state.nonces →
            phase'.minted = c.phase.minted →
              Books.Step service s.books
                { s with
                  state := state'
                  offerCalls := s.offerCalls.set call { c with phase := phase' }
                  clock := clock
                  drawn := (Action.offer (X := X) call event).draws ++ s.drawn }.books := by
    intro state' phase' hcodes hpoisoned htokens hnonces hminted
    refine .quiet_of hcodes hpoisoned ?_ ?_ ?_ rfl rfl rfl rfl rfl (advance_spec hclock).1
      (List.subset_append_right _ _)
    · show state'.accessTokens.Within _
      rw [htokens]
      exact .refl _
    · show state'.nonces.Within _
      rw [hnonces]
      exact .refl _
    · apply KeyedList.coe_flatMap_set_of_eq hc
      rw [OfferCall.minted, OfferCall.minted, hminted]
  cases event with
  | check =>
      simp only [offerStep] at hout
      split at hout
      · rename_i hphase
        split at hout
        · cases hout
          exact hquiet rfl rfl rfl rfl (by rw [hphase]; rfl)
        · cases hout
          exact hquiet rfl rfl rfl rfl (by rw [hphase]; rfl)
      · cases hout
  | list now offerId =>
      simp only [offerStep] at hout
      split at hout
      · rename_i hphase
        cases hout
        exact hquiet rfl rfl rfl rfl (by rw [hphase]; rfl)
      · cases hout
  | mint now code digits =>
      simp only [offerStep] at hout
      split at hout
      · rename_i ids hphase
        split at hout
        · cases hout
          exact hquiet rfl rfl rfl rfl (by rw [hphase]; rfl)
        · cases hout
          obtain ⟨definitions, hcheck⟩ := hs c (List.mem_of_getElem? hc) ids hphase
          obtain ⟨hle, rfl⟩ := advance_one hclock
          have hstep := @Books.Step.mint _ service s.books definitions
            c.request ids code digits now hcheck hle (hfresh code List.mem_cons_self)
          convert hstep using 1
          simp only [Sys.books, Books.mk.injEq, true_and]
          refine ⟨rfl, ?_, rfl⟩
          apply KeyedList.coe_flatMap_set_of_nil hc
          · rw [OfferCall.minted, hphase]
            rfl
          · rfl
      · cases hout

theorem exchange_phase_taken {out : Exchange} {code : String} {takenAt seen : ℕ} {x : Exchanged}
    (h : x ∈ (out.phase code takenAt seen).taken) :
    ∃ ids, out = .exchanged ids ∧
      x = { code := code, ids := ids, takenAt := takenAt, seen := seen } := by
  cases out with
  | exchanged ids => exact ⟨ids, rfl, List.mem_singleton.mp h⟩
  | _ => exact absurd h List.not_mem_nil

theorem books_token {event : TokenEvent} (h : perform service s (.tokenCall call event) = some s')
    (hclock : advance s.clock event.readings = some clock)
    (hfresh : ∀ token ∈ (Action.tokenCall (X := X) call event).draws, token ∉ s.drawn) :
    Books.Step service s.books
      { s' with
        clock := clock
        drawn := (Action.tokenCall (X := X) call event).draws ++ s.drawn }.books := by
  obtain ⟨c, hc, hrest⟩ := Option.bind_eq_some_iff.mp h
  obtain ⟨⟨state', phase'⟩, hout, rfl⟩ := Option.map_eq_some_iff.mp hrest
  cases event with
  | exchange readAt takenAt =>
      obtain ⟨hread, htaken, rfl⟩ := advance_two hclock
      simp only [tokenStep] at hout
      split at hout
      · rename_i hphase
        have hnone : c.taken = [] ∧ c.granted = [] := by
          rw [TokenCall.taken, TokenCall.granted, hphase]
          exact ⟨rfl, rfl⟩
        have hsame : ∀ phase' : TokenPhase, phase'.taken = [] → phase'.grants = [] →
            (↑((s.tokenCalls.set call { c with phase := phase' }).flatMap TokenCall.taken) :
                Multiset (TokenForm × Exchanged)) = ↑(s.tokenCalls.flatMap TokenCall.taken) ∧
              (↑((s.tokenCalls.set call { c with phase := phase' }).flatMap TokenCall.granted) :
                Multiset (TokenForm × Granted)) = ↑(s.tokenCalls.flatMap TokenCall.granted) := by
          intro phase' htaken hgrants
          constructor
          · apply KeyedList.coe_flatMap_set_of_eq hc
            rw [hnone.1, TokenCall.taken, htaken]
            rfl
          · apply KeyedList.coe_flatMap_set_of_eq hc
            rw [hnone.2, TokenCall.granted, hgrants]
            rfl
        split at hout
        · rename_i e hform
          cases hout
          obtain ⟨htaken', hgranted'⟩ := hsame (.refused e) rfl rfl
          refine .quiet_of rfl rfl (.refl _) (.refl _) rfl htaken' hgranted' rfl rfl ?_
            (hread.trans htaken) (List.subset_append_right _ _)
          show s.presented ++ c.presents s.state _ = s.presented
          rw [TokenCall.presents, hform, List.append_nil]
        · rename_i code txCode hform
          split at hout
          · rename_i hpoisoned
            cases hout
            obtain ⟨htaken', hgranted'⟩ := hsame .panicked rfl rfl
            refine .quiet_of rfl rfl (.refl _) (.refl _) rfl htaken' hgranted' rfl rfl ?_
              (hread.trans htaken) (List.subset_append_right _ _)
            show s.presented ++ c.presents s.state _ = s.presented
            simp only [TokenCall.presents, hform, if_pos hpoisoned, List.append_nil]
          · rename_i hpoisoned
            cases hout
            rw [Bool.not_eq_true] at hpoisoned
            have hpresents : c.presents s.state (.exchange readAt takenAt) = [(code, txCode)] := by
              simp only [TokenCall.presents, hform, hpoisoned, Bool.false_eq_true, if_false]
            set out := exchange s.state.preAuthorizedCodes code txCode readAt takenAt with hexchange
            by_cases hids : ∃ ids, out.1 = .exchanged ids
            · obtain ⟨ids, hids⟩ := hids
              have hstep := @Books.Step.take _ service s.books c.form code txCode
                ids readAt takenAt hpoisoned hform hread htaken hids
              convert hstep using 1
              simp only [Sys.books, Books.mk.injEq, true_and, hpresents, hids, Exchange.poisons,
                hpoisoned, Exchange.phase]
              refine ⟨rfl, ?_, ?_, rfl⟩
              · apply KeyedList.coe_flatMap_set_of_nil hc hnone.1
                rfl
              · apply KeyedList.coe_flatMap_set_of_eq hc
                rw [hnone.2]
                rfl
            · have hstep := @Books.Step.decline _ service s.books code txCode
                readAt takenAt hpoisoned hread htaken (fun ids he => hids ⟨ids, he⟩)
              obtain ⟨htaken', hgranted'⟩ :=
                hsame (out.1.phase code takenAt s.presented.length)
                  (List.eq_nil_iff_forall_not_mem.mpr (fun x hx => by
                    obtain ⟨ids, he, -⟩ := exchange_phase_taken hx
                    exact hids ⟨ids, he⟩))
                  (by cases out.1 <;> rfl)
              convert hstep using 1
              simp only [Sys.books, Books.mk.injEq, true_and, hpresents]
              exact ⟨rfl, rfl, htaken', hgranted', rfl⟩
      · cases hout
  | grant now accessToken =>
      obtain ⟨hle, rfl⟩ := advance_one hclock
      simp only [tokenStep] at hout
      split at hout
      · rename_i x hphase
        cases hout
        have hx : (c.form, x) ∈ s.books.taken := by
          refine Multiset.mem_coe.mpr (List.mem_flatMap.mpr ⟨c, List.mem_of_getElem? hc, ?_⟩)
          rw [TokenCall.taken, hphase]
          exact List.mem_singleton_self _
        have hstep := @Books.Step.grant _ service s.books c.form x now accessToken
          hx hle (hfresh accessToken List.mem_cons_self)
        convert hstep using 1
        simp only [Sys.books, Books.mk.injEq, true_and, TokenCall.presents, List.append_nil]
        refine ⟨?_, ?_, rfl⟩
        · apply KeyedList.coe_flatMap_set_of_eq hc
          rw [TokenCall.taken, TokenCall.taken, hphase]
          rfl
        · apply KeyedList.coe_flatMap_set_of_nil hc
          · rw [TokenCall.granted, hphase]
            rfl
          · rfl
      · cases hout

theorem books_credential {event : CredentialEvent X}
    (h : perform service s (.credentialCall call event) = some s')
    (hclock : advance s.clock event.readings = some clock) :
    Books.Step service s.books
      { s' with clock := clock, drawn := [] ++ s.drawn }.books := by
  obtain ⟨c, hc, hrest⟩ := Option.bind_eq_some_iff.mp h
  obtain ⟨⟨state', phase'⟩, hout, rfl⟩ := Option.map_eq_some_iff.mp hrest
  have hquiet : ∀ {state' : IssuerState} {phase' : CredentialPhase X},
      state'.preAuthorizedCodes = s.state.preAuthorizedCodes →
        state'.codesPoisoned = s.state.codesPoisoned →
          state'.accessTokens.Within s.state.accessTokens →
            state'.nonces.Within s.state.nonces → phase'.consumption = c.phase.consumption →
              Books.Step service s.books
                { s with
                  state := state'
                  credentialCalls := s.credentialCalls.set call { c with phase := phase' }
                  clock := clock
                  drawn := [] ++ s.drawn }.books := by
    intro state' phase' hcodes hpoisoned htokens hnonces hconsumption
    refine .quiet_of hcodes hpoisoned htokens hnonces rfl rfl rfl rfl ?_ rfl
      (advance_spec hclock).1 (List.subset_append_right _ _)
    exact KeyedList.coe_flatMap_set_of_eq hc hconsumption
  cases event with
  | authorize now =>
      simp only [credentialStep] at hout
      split at hout
      · rename_i hphase
        split at hout
        · cases hout
          exact hquiet rfl rfl (.refl _) (.refl _) (by rw [hphase]; rfl)
        · cases hout
          refine hquiet rfl rfl ExpiringTable.getMut_within (.refl _) ?_
          rw [hphase]
          split <;> rfl
      · cases hout
  | inspect now =>
      simp only [credentialStep] at hout
      split at hout
      · rename_i hphase
        split at hout
        · cases hout
          exact hquiet rfl rfl (.refl _) (.refl _) (by rw [hphase]; rfl)
        · cases hout
          exact hquiet rfl rfl (.refl _) (.refl _) (by rw [hphase]; rfl)
      · cases hout
  | verify resolved =>
      simp only [credentialStep] at hout
      split at hout
      · rename_i hphase
        split at hout
        · cases hout
          exact hquiet rfl rfl (.refl _) (.refl _) (by rw [hphase]; rfl)
        · cases hout
          exact hquiet rfl rfl (.refl _) (.refl _) (by rw [hphase]; rfl)
      · cases hout
  | takeNonce now =>
      obtain ⟨hle, rfl⟩ := advance_one hclock
      simp only [credentialStep] at hout
      split at hout
      · rename_i checked resolved hphase
        split at hout
        · cases hout
          exact hquiet rfl rfl (.refl _) (.refl _) (by rw [hphase]; rfl)
        · rename_i n hn
          cases hout
          cases htake : (s.state.nonces.take n now).1 with
          | none =>
              refine hquiet rfl rfl (.refl _) ExpiringTable.take_within ?_
              rw [hphase]
              rfl
          | some _ =>
              have hstep := @Books.Step.consume _ service s.books
                { checked := checked, resolved := resolved, nonce := n, takenAt := now } htake hle
              convert hstep using 1
              simp only [Sys.books, Books.mk.injEq, true_and, List.nil_append, and_true]
              apply KeyedList.coe_flatMap_set_of_nil hc
              · rw [CredentialCall.consumed, hphase]
                rfl
              · rfl
      · cases hout

end

/-- The redemption's steps inside a credential request keep what it consumed. -/
theorem redemptionAnswer_consumption {consumed : Consumed X} {redemption : RedemptionPhase}
    {phase : CredentialPhase X} (h : redemptionAnswer consumed redemption = some phase) :
    phase.consumption = [consumed] := by
  cases redemption with
  | issued jws =>
      cases h
      rfl
  | refused status description =>
      cases h
      rfl
  | _ => cases h

theorem startRedemption_consumption (service : Service X) (s : Sys X) (consumed : Consumed X) :
    (startRedemption service s consumed).2.consumption = [consumed] := by
  unfold startRedemption
  split <;> rfl

/-- **Every step of the Credential Issuer is a step of the books.** -/
theorem books_step (hs : ∀ c ∈ s.offerCalls, c.Checked service)
    (h : (credentialIssuer service start).step s a = some s') :
    Books.Step service s.books s'.books := by
  obtain ⟨s₁, clock, hperform, hclock, hfresh, rfl⟩ := step_eq_some h
  have hmono := (advance_spec hclock).1
  cases a with
  | offer call event => exact books_offer hs hperform hclock hfresh
  | tokenCall call event => exact books_token hperform hclock hfresh
  | credentialCall call event => exact books_credential hperform hclock
  | nonce now cNonce =>
      obtain ⟨hle, rfl⟩ := advance_one hclock
      cases hperform
      have hstep := @Books.Step.handOut _ service s.books now cNonce hle
        (hfresh cNonce List.mem_cons_self)
      convert hstep using 1
      simp only [Sys.books, Oid4vci.nonce, Books.mk.injEq, true_and]
      refine ⟨?_, rfl⟩
      rw [← Multiset.coe_add, Multiset.coe_singleton]
      ac_rfl
  | issuer action =>
      simp only [perform] at hperform
      split at hperform
      · cases hperform
      · obtain ⟨issuer, -, rfl⟩ := Option.map_eq_some_iff.mp hperform
        exact .quiet_of rfl rfl (.refl _) (.refl _) rfl rfl rfl rfl rfl rfl hmono
          (List.subset_append_right _ _)
  | createOffer request =>
      cases hperform
      exact .quiet_of rfl rfl (.refl _) (.refl _) (KeyedList.coe_flatMap_append_of_nil rfl)
        rfl rfl rfl rfl rfl hmono (List.subset_append_right _ _)
  | token form =>
      cases hperform
      exact .quiet_of rfl rfl (.refl _) (.refl _) rfl (KeyedList.coe_flatMap_append_of_nil rfl)
        (KeyedList.coe_flatMap_append_of_nil rfl) rfl rfl rfl hmono
        (List.subset_append_right _ _)
  | credential authorization body =>
      cases hperform
      exact .quiet_of rfl rfl (.refl _) (.refl _) rfl rfl rfl rfl
        (KeyedList.coe_flatMap_append_of_nil rfl) rfl hmono (List.subset_append_right _ _)
  | offerByReference id now =>
      cases hperform
      exact .quiet_of rfl rfl (.refl _) (.refl _) rfl rfl rfl rfl rfl rfl hmono
        (List.subset_append_right _ _)
  | redeem call =>
      obtain ⟨c, hc, hrest⟩ := Option.bind_eq_some_iff.mp hperform
      split at hrest
      · rename_i consumed hphase
        cases hrest
        refine .quiet_of rfl rfl (.refl _) (.refl _) rfl rfl rfl rfl ?_ rfl hmono
          (List.subset_append_right _ _)
        apply KeyedList.coe_flatMap_set_of_eq hc
        rw [CredentialCall.consumed, CredentialCall.consumed, hphase,
          startRedemption_consumption]
        rfl
      · cases hrest
  | answer call =>
      obtain ⟨c, hc, hrest⟩ := Option.bind_eq_some_iff.mp hperform
      split at hrest
      · rename_i consumed task hphase
        obtain ⟨redemption, -, hr⟩ := Option.bind_eq_some_iff.mp hrest
        obtain ⟨phase, hanswer, rfl⟩ := Option.map_eq_some_iff.mp hr
        refine .quiet_of rfl rfl (.refl _) (.refl _) rfl rfl rfl rfl ?_ rfl hmono
          (List.subset_append_right _ _)
        apply KeyedList.coe_flatMap_set_of_eq hc
        rw [CredentialCall.consumed, CredentialCall.consumed, hphase,
          redemptionAnswer_consumption hanswer]
        rfl
      · cases hrest

/-- **In every reachable state the books are kept.** -/
theorem books_kept (h : Reachable (credentialIssuer service start) s) :
    s.books.Kept service := by
  refine h.invariant_of (J := fun s => ∀ c ∈ s.offerCalls, c.Checked service)
    (I := fun s => s.books.Kept service) (fun _ => offers_checked) ?_ ?_
  · exact
      { drawn := ⟨fun _ h => absurd h (Multiset.notMem_zero _),
          fun _ h => absurd h (Multiset.notMem_zero _),
          fun _ h => absurd h (Multiset.notMem_zero _)⟩
        codes := Tickets.sound_init start
        tokens := Tickets.sound_init start
        nonces := Tickets.sound_init start
        checked := fun _ h => absurd h (Multiset.notMem_zero _)
        seen := fun _ h => absurd h (Multiset.notMem_zero _)
        counted := fun _ _ h => absurd h (Multiset.notMem_zero _)
        takenSeen := fun _ h => absurd h (Multiset.notMem_zero _)
        backed := fun _ h => absurd h (Multiset.notMem_zero _)
        granted := fun _ h => absurd h (Multiset.notMem_zero _) }
  · exact fun s₁ a s₂ hchecked hkept hstep => hkept.step (books_step hchecked hstep)

/-! ## The Issuer Service inside -/

/-- The Issuer Service of a reachable state is in a reachable state of its own. -/
theorem issuer_reachable (h : Reachable (credentialIssuer service start) s) :
    Reachable (IdentityHub.issuer service.toIssuerService start) s.issuer := by
  refine h.invariant
    (I := fun s : Sys X =>
      Reachable (IdentityHub.issuer service.toIssuerService start) s.issuer)
    StepSystem.Steps.refl ?_
  intro s₁ a s₂ hreach hstep
  obtain ⟨s₃, clock, hperform, -, -, rfl⟩ := step_eq_some hstep
  show Reachable _ s₃.issuer
  cases a with
  | issuer action =>
      simp only [perform] at hperform
      split at hperform
      · cases hperform
      · obtain ⟨issuer, hissuer, rfl⟩ := Option.map_eq_some_iff.mp hperform
        exact hreach.step hissuer
  | redeem call =>
      obtain ⟨c, hc, hrest⟩ := Option.bind_eq_some_iff.mp hperform
      split at hrest
      · rename_i consumed hphase
        cases hrest
        show Reachable _ (startRedemption service s₁ consumed).1
        unfold startRedemption
        split
        · rename_i issuer hissuer
          apply hreach.step (a := .redeem consumed.checked.configId
            consumed.checked.key.holderDid)
          show issuerStep service.toIssuerService s₁.issuer (IssuerAction.redeem
            consumed.checked.configId consumed.checked.key.holderDid) = some issuer
          unfold issuerStep
          rw [if_pos ⟨List.nodup_nil, fun _ hu => absurd hu List.not_mem_nil⟩, hissuer]
          obtain ⟨definition, -, rfl⟩ := Option.map_eq_some_iff.mp hissuer
          rfl
        · exact hreach
      · cases hrest
  | answer call =>
      obtain ⟨c, hc, hrest⟩ := Option.bind_eq_some_iff.mp hperform
      split at hrest
      · obtain ⟨redemption, -, hr⟩ := Option.bind_eq_some_iff.mp hrest
        obtain ⟨phase, -, rfl⟩ := Option.map_eq_some_iff.mp hr
        exact hreach
      · cases hrest
  | offer call event =>
      obtain ⟨c, -, hc⟩ := Option.bind_eq_some_iff.mp hperform
      obtain ⟨out, -, rfl⟩ := Option.map_eq_some_iff.mp hc
      exact hreach
  | tokenCall call event =>
      obtain ⟨c, -, hc⟩ := Option.bind_eq_some_iff.mp hperform
      obtain ⟨out, -, rfl⟩ := Option.map_eq_some_iff.mp hc
      exact hreach
  | credentialCall call event =>
      obtain ⟨c, -, hc⟩ := Option.bind_eq_some_iff.mp hperform
      obtain ⟨out, -, rfl⟩ := Option.map_eq_some_iff.mp hc
      exact hreach
  | _ =>
      cases hperform
      exact hreach

end IdentityHub.Oid4vci
