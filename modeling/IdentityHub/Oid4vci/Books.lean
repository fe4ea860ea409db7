import IdentityHub.Lib.Tickets
import IdentityHub.Oid4vci.Endpoints

/-!
# The books of the Credential Issuer

What the four tables are for, without the calls: which codes were minted for
which offer, which of them were exchanged by which form, which tokens were
granted for an exchange, which nonces were handed out and which were consumed.
`Books.Step` lists what can happen to them, and `Books.Kept` is what stays true.

Codes, access tokens and nonces are tickets (`Tickets`): that a live one is
genuine, young enough and unused comes from `Tickets.Sound`. What is left to
prove here is the count of wrong Transaction Codes.
-/

namespace IdentityHub.Oid4vci

structure Books (X : External) where
  codes : ExpiringTable PreAuthorizedGrant
  poisoned : Bool
  tokens : ExpiringTable AccessGrant
  nonces : ExpiringTable Unit
  minted : Multiset (OfferRequest × MintedCode)
  taken : Multiset (TokenForm × Exchanged)
  granted : Multiset (TokenForm × Granted)
  handedOut : Multiset (String × ℕ)
  consumed : Multiset (Consumed X)
  presented : List (String × Option String)
  clock : ℕ
  drawn : List String

/-- The code `create_offer` puts into the table. -/
def mintedCode (request : OfferRequest) (ids : List String) (code : String) (digits now seen : ℕ) :
    MintedCode where
  code := code
  ids := ids
  txCode := if request.txCode then some (randomTxCode digits) else none
  madeAt := now
  seen := seen

def MintedCode.grant (minted : MintedCode) : PreAuthorizedGrant where
  credentialConfigurationIds := minted.ids
  txCode := minted.txCode
  failedAttempts := 0

/-- The token an exchange is answered with. -/
def grantedToken (x : Exchanged) (now : ℕ) (accessToken : String) : Granted where
  exchanged := x
  grantedAt := now
  response :=
    { accessToken := accessToken
      tokenType := "Bearer"
      expiresIn := accessTokenTtlSecs }

variable {X : External} (service : Service X)

/-- What can happen to the books. -/
inductive Books.Step (B : Books X) : Books X → Prop
  /-- Access tokens and nonces may lapse; nothing is recorded. -/
  | quiet (tokens : ExpiringTable AccessGrant) (nonces : ExpiringTable Unit) (clock : ℕ)
      (drawn : List String) :
      tokens.Within B.tokens → nonces.Within B.nonces → B.clock ≤ clock → B.drawn ⊆ drawn →
        Step B { B with tokens := tokens, nonces := nonces, clock := clock, drawn := drawn }
  /-- A code is minted for an offer the checks let through. -/
  | mint (definitions : DefinitionCatalog) (request : OfferRequest) (ids : List String)
      (code : String) (digits now : ℕ) :
      checkOffer service definitions request = .ok ids → B.clock ≤ now → code ∉ B.drawn →
        Step B
          { B with
            codes := B.codes.insert code offerTtlSecs
              (mintedCode request ids code digits now B.presented.length).grant now
            minted :=
              {(request, mintedCode request ids code digits now B.presented.length)} + B.minted
            clock := now
            drawn := code :: B.drawn }
  /-- A token request is turned down at the table of codes. -/
  | decline (code : String) (txCode : Option String) (readAt takenAt : ℕ) :
      B.poisoned = false → B.clock ≤ readAt → readAt ≤ takenAt →
        (∀ ids, (exchange B.codes code txCode readAt takenAt).1 ≠ .exchanged ids) →
          Step B
            { B with
              codes := (exchange B.codes code txCode readAt takenAt).2
              poisoned := (exchange B.codes code txCode readAt takenAt).1.poisons
              presented := B.presented ++ [(code, txCode)]
              clock := takenAt }
  /-- A token request takes its code. -/
  | take (form : TokenForm) (code : String) (txCode : Option String) (ids : List String)
      (readAt takenAt : ℕ) :
      B.poisoned = false → presentedCode form = .ok (code, txCode) → B.clock ≤ readAt →
        readAt ≤ takenAt →
          (exchange B.codes code txCode readAt takenAt).1 = .exchanged ids →
            Step B
              { B with
                codes := (exchange B.codes code txCode readAt takenAt).2
                taken := {(form,
                  { code := code, ids := ids, takenAt := takenAt, seen := B.presented.length })}
                    + B.taken
                presented := B.presented ++ [(code, txCode)]
                clock := takenAt }
  /-- An exchange is answered with a token. -/
  | grant (form : TokenForm) (x : Exchanged) (now : ℕ) (accessToken : String) :
      (form, x) ∈ B.taken → B.clock ≤ now → accessToken ∉ B.drawn →
        Step B
          { B with
            tokens := B.tokens.insert accessToken accessTokenTtlSecs
              { credentialConfigurationIds := x.ids } now
            granted := {(form, grantedToken x now accessToken)} + B.granted
            clock := now
            drawn := accessToken :: B.drawn }
  | handOut (now : ℕ) (cNonce : String) :
      B.clock ≤ now → cNonce ∉ B.drawn →
        Step B
          { B with
            nonces := B.nonces.insert cNonce nonceTtlSecs () now
            handedOut := {(cNonce, now)} + B.handedOut
            clock := now
            drawn := cNonce :: B.drawn }
  | consume (c : Consumed X) :
      (B.nonces.take c.nonce c.takenAt).1 = some () → B.clock ≤ c.takenAt →
        Step B
          { B with
            nonces := (B.nonces.take c.nonce c.takenAt).2
            consumed := {c} + B.consumed
            clock := c.takenAt }

/-! ## The books as tickets -/

/-- The three kinds of entries, as tickets. -/
def MintedCode.ticket (m : MintedCode) : String × ℕ × List String × Option String :=
  (m.code, m.madeAt, m.ids, m.txCode)

def Granted.ticket (g : Granted) : String × ℕ × List String :=
  (g.response.accessToken, g.grantedAt, g.exchanged.ids)

namespace Books

def codeTickets (B : Books X) : Tickets String (List String × Option String) where
  issued := B.minted.map (fun p => p.2.ticket)
  live code := (B.codes.entries.lookup code).map (fun e =>
    (e.1, e.2.credentialConfigurationIds, e.2.txCode))
  redeemed := B.taken.map (fun p => p.2.code)
  clock := B.clock

/-- Access tokens are never used up. -/
def tokenTickets (B : Books X) : Tickets String (List String) where
  issued := B.granted.map (fun p => p.2.ticket)
  live token := (B.tokens.entries.lookup token).map (fun e =>
    (e.1, e.2.credentialConfigurationIds))
  redeemed := 0
  clock := B.clock

def nonceTickets (B : Books X) : Tickets String Unit where
  issued := B.handedOut.map (fun p => (p.1, p.2, ()))
  live cNonce := B.nonces.entries.lookup cNonce
  redeemed := B.consumed.map (·.nonce)
  clock := B.clock

end Books

/-! ## What an exchange leaves of the codes -/

/-- A Transaction Code is presented and is not the right one. -/
def PreAuthorizedGrant.isWrong (grant : PreAuthorizedGrant) (txCode : Option String) : Bool :=
  match grant.txCode, txCode with
  | some expected, some given => decide (expected ≠ given)
  | _, _ => false

theorem takeCode_within (codes : ExpiringTable PreAuthorizedGrant) (code : String) (takenAt : ℕ) :
    (takeCode codes code takenAt).2 = (codes.take code takenAt).2 := by
  unfold takeCode
  split <;> rename_i h <;> rw [h]

theorem takeCode_exchanged {codes : ExpiringTable PreAuthorizedGrant} {code : String} {takenAt : ℕ}
    {ids : List String} (h : (takeCode codes code takenAt).1 = .exchanged ids) :
    ∃ grant, (codes.take code takenAt).1 = some grant ∧ grant.credentialConfigurationIds = ids := by
  unfold takeCode at h
  split at h
  · rename_i grant codes' htake
    cases h
    exact ⟨grant, by rw [htake], rfl⟩
  · cases h

section

variable {codes : ExpiringTable PreAuthorizedGrant} {code : String} {txCode : Option String}
  {readAt takenAt : ℕ} {grant : PreAuthorizedGrant} {k : String} {e : ℕ × PreAuthorizedGrant}

theorem lookup_of_take (h : (codes.take code takenAt).2.entries.lookup k = some e) :
    k ≠ code ∧ codes.entries.lookup k = some e := by
  refine ⟨?_, ExpiringTable.take_within k e h⟩
  rintro rfl
  rw [ExpiringTable.lookup_take] at h
  cases h

/-- Where an exchange goes: the code is not there, or it is looked at. -/
theorem exchange_cases :
    ((∃ error, (exchange codes code txCode readAt takenAt).1 = .refused error) ∧
        (exchange codes code txCode readAt takenAt).2.entries.lookup code = none ∧
          (exchange codes code txCode readAt takenAt).2.Within codes) ∨
      ∃ exp grant, codes.entries.lookup code = some (exp, grant) ∧
        exchange codes code txCode readAt takenAt =
          matchTxCode codes code grant txCode takenAt := by
  unfold exchange
  cases hget : codes.getMut code readAt with
  | mk found codes' =>
      have hcodes : (codes.getMut code readAt).2 = codes' := by rw [hget]
      cases found with
      | none =>
          refine Or.inl ⟨⟨_, rfl⟩, ?_, ?_⟩
          · show codes'.entries.lookup code = none
            rw [← hcodes]
            apply ExpiringTable.lookup_getMut_none
            rw [hget]
          · show codes'.Within codes
            rw [← hcodes]
            exact ExpiringTable.getMut_within
      | some grant =>
          obtain ⟨hsame, exp, hlookup, -⟩ :=
            ExpiringTable.getMut_eq_some (t := codes) (by rw [hget])
          rw [hcodes] at hsame
          subst hsame
          exact Or.inr ⟨exp, grant, hlookup, rfl⟩

/-- An entry that survives the match is as before, except that a wrong
Transaction Code is counted. -/
theorem matchTxCode_entries {exp : ℕ} (hlookup : codes.entries.lookup code = some (exp, grant))
    (h : (matchTxCode codes code grant txCode takenAt).2.entries.lookup k = some e) :
    (k = code ∧ grant.isWrong txCode = true ∧ grant.failedAttempts + 1 < maxTxCodeAttempts ∧
        e = (exp, { grant with failedAttempts := grant.failedAttempts + 1 })) ∨
      codes.entries.lookup k = some e ∧ (k = code → grant.isWrong txCode = false) := by
  have htaken : ∀ {t : ExpiringTable PreAuthorizedGrant},
      (takeCode t code takenAt).2.entries.lookup k = some e →
        t.entries.lookup k = some e ∧ (k = code → grant.isWrong txCode = false) := by
    intro t ht
    rw [takeCode_within] at ht
    obtain ⟨hne, hk⟩ := lookup_of_take ht
    exact ⟨hk, fun hkc => absurd hkc hne⟩
  unfold matchTxCode at h
  split at h
  · exact Or.inr (htaken h)
  · rename_i given hgrant
    exact Or.inr ⟨h, fun _ => by simp [PreAuthorizedGrant.isWrong, hgrant]⟩
  · exact Or.inr ⟨h, fun _ => by simp [PreAuthorizedGrant.isWrong]⟩
  · rename_i expected given hgrant
    split at h
    · rename_i hwrong
      have hcounted : ∀ {e : ℕ × PreAuthorizedGrant},
          (codes.update code (fun g => { g with failedAttempts := g.failedAttempts + 1 })
            ).entries.lookup k = some e →
            if k = code then e = (exp, { grant with failedAttempts := grant.failedAttempts + 1 })
            else codes.entries.lookup k = some e := by
        intro e he
        rw [ExpiringTable.lookup_update] at he
        split at he
        · rename_i hk
          subst hk
          rw [hlookup] at he
          cases he
          rw [if_pos rfl]
        · rename_i hk
          rw [if_neg hk]
          exact he
      split at h
      · obtain ⟨hne, hk⟩ := lookup_of_take h
        have hold := hcounted hk
        rw [if_neg hne] at hold
        exact Or.inr ⟨hold, fun hkc => absurd hkc hne⟩
      · rename_i hbelow
        have hold := hcounted h
        split at hold
        · rename_i hk
          refine Or.inl ⟨hk, ?_, Nat.lt_of_not_le hbelow, hold⟩
          simp [PreAuthorizedGrant.isWrong, hgrant, hwrong]
        · rename_i hne
          exact Or.inr ⟨hold, fun hkc => absurd hkc hne⟩
    · exact Or.inr (htaken h)

theorem matchTxCode_exchanged {exp : ℕ} {ids : List String}
    (hlookup : codes.entries.lookup code = some (exp, grant))
    (h : (matchTxCode codes code grant txCode takenAt).1 = .exchanged ids) :
    takenAt < exp ∧ grant.credentialConfigurationIds = ids ∧ grant.txCode = txCode ∧
      (matchTxCode codes code grant txCode takenAt).2 = (codes.take code takenAt).2 := by
  have htaken : (takeCode codes code takenAt).1 = .exchanged ids →
      takenAt < exp ∧ grant.credentialConfigurationIds = ids := by
    intro htake
    obtain ⟨g, hg, hids⟩ := takeCode_exchanged htake
    obtain ⟨exp', hlookup', hlive⟩ := ExpiringTable.take_eq_some hg
    rw [hlookup] at hlookup'
    cases hlookup'
    exact ⟨hlive, hids⟩
  unfold matchTxCode at h ⊢
  split at h
  · rename_i hgrant
    obtain ⟨hlive, hids⟩ := htaken h
    exact ⟨hlive, hids, hgrant, takeCode_within ..⟩
  · cases h
  · cases h
  · rename_i expected given hgrant
    split at h
    · cases h
    · rename_i heq
      obtain ⟨hlive, hids⟩ := htaken h
      refine ⟨hlive, hids, hgrant.trans (by rw [not_not.mp heq]), ?_⟩
      rw [if_neg heq]
      exact takeCode_within ..

/-- **What an exchange leaves in the table** is what was there, with one more
wrong attempt against its code if the Transaction Code was wrong. -/
theorem exchange_entries {exp : ℕ} {grant' : PreAuthorizedGrant}
    (h : (exchange codes code txCode readAt takenAt).2.entries.lookup k = some (exp, grant')) :
    ∃ grant, codes.entries.lookup k = some (exp, grant) ∧
      ((k = code ∧ grant.isWrong txCode = true ∧ grant.failedAttempts + 1 < maxTxCodeAttempts ∧
          grant' = { grant with failedAttempts := grant.failedAttempts + 1 }) ∨
        grant' = grant ∧ (k = code → grant.isWrong txCode = false)) := by
  rcases exchange_cases with ⟨-, hgone, hwithin⟩ | ⟨exp₀, grant, hlookup, hmatch⟩
  · refine ⟨grant', hwithin k _ h, Or.inr ⟨rfl, ?_⟩⟩
    rintro rfl
    exact nomatch hgone.symm.trans h
  · rw [hmatch] at h
    rcases matchTxCode_entries hlookup h with ⟨hk, hwrong, hbelow, he⟩ | ⟨hold, hright⟩
    · cases he
      subst hk
      exact ⟨grant, hlookup, Or.inl ⟨rfl, hwrong, hbelow, rfl⟩⟩
    · refine ⟨grant', hold, Or.inr ⟨rfl, fun hk => ?_⟩⟩
      subst hk
      rw [hlookup] at hold
      cases hold
      exact hright rfl

/-- **An exchange that succeeds** takes a live code with the Transaction Code
that was presented, or with none if none was. -/
theorem exchange_exchanged {ids : List String}
    (h : (exchange codes code txCode readAt takenAt).1 = .exchanged ids) :
    ∃ exp grant, codes.entries.lookup code = some (exp, grant) ∧ takenAt < exp ∧
      grant.credentialConfigurationIds = ids ∧ grant.txCode = txCode ∧
        (exchange codes code txCode readAt takenAt).2 = (codes.take code takenAt).2 := by
  rcases exchange_cases with ⟨⟨error, hrefused⟩, -, -⟩ | ⟨exp, grant, hlookup, hmatch⟩
  · rw [hrefused] at h
    cases h
  · rw [hmatch] at h ⊢
    obtain ⟨hlive, hids, htx, htake⟩ := matchTxCode_exchanged hlookup h
    exact ⟨exp, grant, hlookup, hlive, hids, htx, htake⟩

end

/-! ## Every step is a step of each kind of ticket -/

namespace Books

variable {service} {B B' : Books X}

/-- What was issued has been drawn. -/
structure Drawn (B : Books X) : Prop where
  codes : ∀ k ∈ B.codeTickets.keys, k ∈ B.drawn
  tokens : ∀ k ∈ B.tokenTickets.keys, k ∈ B.drawn
  nonces : ∀ k ∈ B.nonceTickets.keys, k ∈ B.drawn

/-- A live code stays as it was, or goes. -/
theorem liveCode_of_exchange {code : String} {txCode : Option String} {readAt takenAt : ℕ}
    {k : String} {e : ℕ × List String × Option String}
    (h : ((exchange B.codes code txCode readAt takenAt).2.entries.lookup k).map (fun e =>
      (e.1, e.2.credentialConfigurationIds, e.2.txCode)) = some e) :
    B.codeTickets.live k = some e := by
  obtain ⟨⟨exp, grant'⟩, hlookup, rfl⟩ := Option.map_eq_some_iff.mp h
  obtain ⟨grant, hold, ⟨-, -, -, rfl⟩ | ⟨rfl, -⟩⟩ := exchange_entries hlookup
  · exact Option.map_eq_some_iff.mpr ⟨(exp, grant), hold, rfl⟩
  · exact Option.map_eq_some_iff.mpr ⟨(exp, grant'), hold, rfl⟩

theorem codeTickets_step (hd : B.Drawn) (h : Step service B B') :
    Tickets.Step offerTtlSecs B.codeTickets B'.codeTickets := by
  cases h with
  | quiet tokens nonces clock drawn _ _ hclock _ => exact .lapse _ clock hclock (fun _ _ h => h)
  | mint definitions request ids code digits now _ hclock hfresh =>
      set m := mintedCode request ids code digits now B.presented.length with hm
      have hissued : ({(request, m)} + B.minted).map (fun p => p.2.ticket) =
          {(code, now, ids, m.txCode)} + B.minted.map (fun p => p.2.ticket) := by
        rw [Multiset.map_add, Multiset.map_singleton]
        rfl
      unfold codeTickets
      rw [hissued]
      refine .issue code (ids, m.txCode) _ now hclock (fun hk => hfresh (hd.codes _ hk)) ?_
      intro k e he
      obtain ⟨e', hlookup, rfl⟩ := Option.map_eq_some_iff.mp he
      rcases ExpiringTable.lookup_insert hlookup with ⟨hk, rfl⟩ | hold
      · exact Or.inl ⟨hk, rfl⟩
      · exact Or.inr (Option.map_eq_some_iff.mpr ⟨e', hold, rfl⟩)
  | decline code txCode readAt takenAt _ hread htaken _ =>
      exact .lapse _ takenAt (hread.trans htaken) (fun _ _ he => liveCode_of_exchange he)
  | take form code txCode ids readAt takenAt _ _ hread htaken htake =>
      obtain ⟨exp, grant, hlookup, -, -, -, hgone⟩ := exchange_exchanged htake
      have hredeemed : ∀ x : Exchanged,
          ({(form, x)} + B.taken).map (fun p => p.2.code) =
            {x.code} + B.taken.map (fun p => p.2.code) := by
        intro x
        rw [Multiset.map_add, Multiset.map_singleton]
      unfold codeTickets
      rw [hredeemed]
      refine .redeem code (exp, grant.credentialConfigurationIds, grant.txCode) _ takenAt
        (hread.trans htaken) ?_ ?_ (fun _ _ he => liveCode_of_exchange he)
      · exact Option.map_eq_some_iff.mpr ⟨(exp, grant), hlookup, rfl⟩
      · show ((exchange B.codes code txCode readAt takenAt).2.entries.lookup code).map _ = none
        rw [hgone, ExpiringTable.lookup_take]
        rfl
  | grant form x now accessToken _ hclock _ => exact .lapse _ now hclock (fun _ _ h => h)
  | handOut now cNonce hclock _ => exact .lapse _ now hclock (fun _ _ h => h)
  | consume c _ hclock => exact .lapse _ c.takenAt hclock (fun _ _ h => h)

theorem tokenTickets_step (hd : B.Drawn) (h : Step service B B') :
    Tickets.Step accessTokenTtlSecs B.tokenTickets B'.tokenTickets := by
  cases h with
  | quiet tokens nonces clock drawn htokens _ hclock _ =>
      refine .lapse _ clock hclock (fun k e he => ?_)
      obtain ⟨e', hlookup, rfl⟩ := Option.map_eq_some_iff.mp he
      exact Option.map_eq_some_iff.mpr ⟨e', htokens k e' hlookup, rfl⟩
  | mint definitions request ids code digits now _ hclock _ =>
      exact .lapse _ now hclock (fun _ _ h => h)
  | decline code txCode readAt takenAt _ hread htaken _ =>
      exact .lapse _ takenAt (hread.trans htaken) (fun _ _ h => h)
  | take form code txCode ids readAt takenAt _ _ hread htaken _ =>
      exact .lapse _ takenAt (hread.trans htaken) (fun _ _ h => h)
  | grant form x now accessToken _ hclock hfresh =>
      have hissued : ({(form, grantedToken x now accessToken)} + B.granted).map
          (fun p => p.2.ticket) =
            {(accessToken, now, x.ids)} + B.granted.map (fun p => p.2.ticket) := by
        rw [Multiset.map_add, Multiset.map_singleton]
        rfl
      unfold tokenTickets
      rw [hissued]
      refine .issue accessToken x.ids _ now hclock (fun hk => hfresh (hd.tokens _ hk)) ?_
      intro k e he
      obtain ⟨e', hlookup, rfl⟩ := Option.map_eq_some_iff.mp he
      rcases ExpiringTable.lookup_insert hlookup with ⟨hk, rfl⟩ | hold
      · exact Or.inl ⟨hk, rfl⟩
      · exact Or.inr (Option.map_eq_some_iff.mpr ⟨e', hold, rfl⟩)
  | handOut now cNonce hclock _ => exact .lapse _ now hclock (fun _ _ h => h)
  | consume c _ hclock => exact .lapse _ c.takenAt hclock (fun _ _ h => h)

theorem nonceTickets_step (hd : B.Drawn) (h : Step service B B') :
    Tickets.Step nonceTtlSecs B.nonceTickets B'.nonceTickets := by
  cases h with
  | quiet tokens nonces clock drawn _ hnonces hclock _ => exact .lapse _ clock hclock hnonces
  | mint definitions request ids code digits now _ hclock _ =>
      exact .lapse _ now hclock (fun _ _ h => h)
  | decline code txCode readAt takenAt _ hread htaken _ =>
      exact .lapse _ takenAt (hread.trans htaken) (fun _ _ h => h)
  | take form code txCode ids readAt takenAt _ _ hread htaken _ =>
      exact .lapse _ takenAt (hread.trans htaken) (fun _ _ h => h)
  | grant form x now accessToken _ hclock _ => exact .lapse _ now hclock (fun _ _ h => h)
  | handOut now cNonce hclock hfresh =>
      have hissued : ({(cNonce, now)} + B.handedOut).map (fun p => (p.1, p.2, ())) =
          {(cNonce, now, ())} + B.handedOut.map (fun p => (p.1, p.2, ())) := by
        rw [Multiset.map_add, Multiset.map_singleton]
      unfold nonceTickets
      rw [hissued]
      refine .issue cNonce () _ now hclock (fun hk => hfresh (hd.nonces _ hk)) ?_
      exact fun k e he => ExpiringTable.lookup_insert he
  | consume c htake hclock =>
      obtain ⟨exp, hlookup, -⟩ := ExpiringTable.take_eq_some htake
      have hredeemed : ({c} + B.consumed).map (·.nonce) =
          {c.nonce} + B.consumed.map (·.nonce) := by
        rw [Multiset.map_add, Multiset.map_singleton]
      unfold nonceTickets
      rw [hredeemed]
      exact .redeem c.nonce (exp, ()) _ c.takenAt hclock hlookup
        (ExpiringTable.lookup_take ..) ExpiringTable.take_within

/-- A step draws what it issues. -/
theorem Drawn.step (hd : B.Drawn) (h : Step service B B') : B'.Drawn := by
  obtain ⟨hcodes, htokens, hnonces⟩ := hd
  cases h with
  | quiet tokens nonces clock drawn _ _ _ hdrawn =>
      exact ⟨fun k hk => hdrawn (hcodes k hk), fun k hk => hdrawn (htokens k hk),
        fun k hk => hdrawn (hnonces k hk)⟩
  | mint definitions request ids code digits now _ _ _ =>
      refine ⟨fun k hk => ?_, fun k hk => List.mem_cons_of_mem _ (htokens k hk),
        fun k hk => List.mem_cons_of_mem _ (hnonces k hk)⟩
      simp only [codeTickets, Tickets.keys, Multiset.map_add, Multiset.map_singleton,
        Multiset.mem_add, Multiset.mem_singleton] at hk
      rcases hk with rfl | hold
      · exact List.mem_cons_self
      · exact List.mem_cons_of_mem _ (hcodes k hold)
  | decline code txCode readAt takenAt _ _ _ _ => exact ⟨hcodes, htokens, hnonces⟩
  | take form code txCode ids readAt takenAt _ _ _ _ _ => exact ⟨hcodes, htokens, hnonces⟩
  | grant form x now accessToken _ _ _ =>
      refine ⟨fun k hk => List.mem_cons_of_mem _ (hcodes k hk), fun k hk => ?_,
        fun k hk => List.mem_cons_of_mem _ (hnonces k hk)⟩
      simp only [tokenTickets, Tickets.keys, Multiset.map_add, Multiset.map_singleton,
        Multiset.mem_add, Multiset.mem_singleton] at hk
      rcases hk with rfl | hold
      · exact List.mem_cons_self
      · exact List.mem_cons_of_mem _ (htokens k hold)
  | handOut now cNonce _ _ =>
      refine ⟨fun k hk => List.mem_cons_of_mem _ (hcodes k hk),
        fun k hk => List.mem_cons_of_mem _ (htokens k hk), fun k hk => ?_⟩
      simp only [nonceTickets, Tickets.keys, Multiset.map_add, Multiset.map_singleton,
        Multiset.mem_add, Multiset.mem_singleton] at hk
      rcases hk with rfl | hold
      · exact List.mem_cons_self
      · exact List.mem_cons_of_mem _ (hnonces k hold)
  | consume c _ _ => exact ⟨hcodes, htokens, hnonces⟩

end Books

end IdentityHub.Oid4vci
