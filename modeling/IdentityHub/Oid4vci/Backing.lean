import IdentityHub.Oid4vci.Books

/-!
# Every exchange is backed by an offer

The invariant of the books. Codes, tokens and nonces are sound tickets; a code's
`failedAttempts` is the number of wrong Transaction Codes presented for it since
it was minted; and every exchange took a code of a checked offer, in time, with
the Transaction Code of that offer and before three wrong ones.
-/

namespace IdentityHub.Oid4vci

variable {X : External}

/-- The wrong Transaction Codes presented for a code. -/
def wrongTxCodes (code pin : String) (presented : List (String × Option String)) : ℕ :=
  presented.countP (fun p => decide (p.1 = code ∧ p.2 ≠ none ∧ p.2 ≠ some pin))

namespace Books

/-- The offer behind an exchange. -/
def Backed (B : Books X) (form : TokenForm) (x : Exchanged) : Prop :=
  ∃ request m, (request, m) ∈ B.minted ∧ m.code = x.code ∧ m.ids = x.ids ∧
    m.madeAt ≤ x.takenAt ∧ x.takenAt < m.madeAt + offerTtlSecs ∧
      presentedCode form = .ok (x.code, m.txCode) ∧
        ∀ pin, m.txCode = some pin →
          wrongTxCodes x.code pin ((B.presented.take x.seen).drop m.seen) < maxTxCodeAttempts

/-- A live code has its wrong attempts counted, and is not burned yet. -/
def Counted (B : Books X) (m : MintedCode) : Prop :=
  ∀ exp grant pin, B.codes.entries.lookup m.code = some (exp, grant) → grant.txCode = some pin →
    wrongTxCodes m.code pin (B.presented.drop m.seen) = grant.failedAttempts ∧
      grant.failedAttempts < maxTxCodeAttempts

/-- What is true of the books in every run. -/
structure Kept (service : Service X) (B : Books X) : Prop where
  drawn : B.Drawn
  codes : B.codeTickets.Sound offerTtlSecs
  tokens : B.tokenTickets.Sound accessTokenTtlSecs
  nonces : B.nonceTickets.Sound nonceTtlSecs
  checked : ∀ p ∈ B.minted, ∃ definitions, checkOffer service definitions p.1 = .ok p.2.ids
  seen : ∀ p ∈ B.minted, p.2.seen ≤ B.presented.length
  counted : B.poisoned = false → ∀ p ∈ B.minted, B.Counted p.2
  takenSeen : ∀ p ∈ B.taken, p.2.seen ≤ B.presented.length
  backed : ∀ p ∈ B.taken, B.Backed p.1 p.2
  granted : ∀ p ∈ B.granted, (p.1, p.2.exchanged) ∈ B.taken

/-- What is recorded stays recorded. -/
structure Extends (B B' : Books X) : Prop where
  minted : B.minted ⊆ B'.minted
  taken : B.taken ⊆ B'.taken
  granted : B.granted ⊆ B'.granted
  handedOut : B.handedOut ⊆ B'.handedOut
  consumed : B.consumed ⊆ B'.consumed
  presented : B.presented <+: B'.presented

variable {service : Service X} {B B' : Books X}

theorem Extends.refl (B : Books X) : B.Extends B where
  minted _ h := h
  taken _ h := h
  granted _ h := h
  handedOut _ h := h
  consumed _ h := h
  presented := List.prefix_rfl

theorem Step.extends (h : Step service B B') : B.Extends B' := by
  cases h with
  | quiet => exact { Extends.refl B with }
  | mint =>
      exact { Extends.refl B with minted := fun p hp => Multiset.mem_add.mpr (Or.inr hp) }
  | decline => exact { Extends.refl B with presented := List.prefix_append .. }
  | take =>
      exact { Extends.refl B with
        taken := fun p hp => Multiset.mem_add.mpr (Or.inr hp)
        presented := List.prefix_append .. }
  | grant =>
      exact { Extends.refl B with granted := fun p hp => Multiset.mem_add.mpr (Or.inr hp) }
  | handOut =>
      exact { Extends.refl B with handedOut := fun p hp => Multiset.mem_add.mpr (Or.inr hp) }
  | consume =>
      exact { Extends.refl B with consumed := fun p hp => Multiset.mem_add.mpr (Or.inr hp) }

/-- An exchange stays backed: what was presented before it does not change. -/
theorem Backed.mono (he : B.Extends B') {form : TokenForm} {x : Exchanged}
    (hseen : x.seen ≤ B.presented.length) (h : B.Backed form x) : B'.Backed form x := by
  obtain ⟨request, m, hm, hcode, hids, hafter, hbefore, hform, hwrong⟩ := h
  obtain ⟨later, hlater⟩ := he.presented
  refine ⟨request, m, he.minted hm, hcode, hids, hafter, hbefore, hform, ?_⟩
  rw [← hlater, List.take_append_of_le_length hseen]
  exact hwrong

/-- One more presentation. -/
theorem wrongTxCodes_append (code pin : String) (presented : List (String × Option String))
    (p : String × Option String) :
    wrongTxCodes code pin (presented ++ [p]) =
      wrongTxCodes code pin presented +
        if p.1 = code ∧ p.2 ≠ none ∧ p.2 ≠ some pin then 1 else 0 := by
  simp [wrongTxCodes, List.countP_append, List.countP_cons]

theorem isWrong_iff {grant : PreAuthorizedGrant} {pin : String} {txCode : Option String}
    (h : grant.txCode = some pin) :
    grant.isWrong txCode = true ↔ txCode ≠ none ∧ txCode ≠ some pin := by
  cases txCode with
  | none => simp [PreAuthorizedGrant.isWrong]
  | some given =>
      simp only [PreAuthorizedGrant.isWrong, h, decide_eq_true_eq, ne_eq, reduceCtorEq,
        not_false_eq_true, true_and, Option.some.injEq]
      exact ⟨fun hne he => hne he.symm, fun hne he => hne he.symm⟩

/-- **The count follows the table** through an exchange of any code. -/
theorem Counted.exchange {m : MintedCode} (h : B.Counted m)
    (hseen : m.seen ≤ B.presented.length) (code : String) (txCode : Option String)
    (readAt takenAt : ℕ) {exp : ℕ} {grant' : PreAuthorizedGrant} {pin : String}
    (hlookup : (exchange B.codes code txCode readAt takenAt).2.entries.lookup m.code =
      some (exp, grant')) (hpin : grant'.txCode = some pin) :
    wrongTxCodes m.code pin ((B.presented ++ [(code, txCode)]).drop m.seen) =
        grant'.failedAttempts ∧ grant'.failedAttempts < maxTxCodeAttempts := by
  rw [List.drop_append_of_le_length hseen, wrongTxCodes_append]
  obtain ⟨grant, hold, ⟨hk, hwrong, hbelow, rfl⟩ | ⟨rfl, hright⟩⟩ := exchange_entries hlookup
  · obtain ⟨hcount, -⟩ := h exp grant pin hold hpin
    rw [hcount, if_pos ⟨hk.symm, (isWrong_iff hpin).mp hwrong⟩]
    exact ⟨rfl, hbelow⟩
  · obtain ⟨hcount, hbelow⟩ := h exp grant' pin hold hpin
    rw [hcount, if_neg]
    · exact ⟨rfl, hbelow⟩
    · rintro ⟨hk, hpresented⟩
      rw [← isWrong_iff hpin, hright hk.symm] at hpresented
      cases hpresented

/-- The code of an exchange that succeeds is a minted one, in time. -/
theorem Kept.backed_of_exchange (hk : B.Kept service) (hpoisoned : B.poisoned = false)
    {form : TokenForm} {code : String} {txCode : Option String} {ids : List String}
    {readAt takenAt : ℕ} (hform : presentedCode form = .ok (code, txCode))
    (hread : B.clock ≤ readAt) (htaken : readAt ≤ takenAt)
    (h : (Oid4vci.exchange B.codes code txCode readAt takenAt).1 = .exchanged ids) :
    B.Backed form
      { code := code, ids := ids, takenAt := takenAt, seen := B.presented.length } := by
  obtain ⟨exp, grant, hlookup, hlive, hids, htx, -⟩ := exchange_exchanged h
  have hticket : B.codeTickets.live code =
      some (exp, grant.credentialConfigurationIds, grant.txCode) :=
    Option.map_eq_some_iff.mpr ⟨(exp, grant), hlookup, rfl⟩
  obtain ⟨madeAt, hissued, hafter, hbefore⟩ :=
    hk.codes.age hticket (hread.trans htaken) hlive
  obtain ⟨⟨request, m⟩, hm, hcode⟩ := Multiset.mem_map.mp hissued
  simp only [MintedCode.ticket, Prod.mk.injEq] at hcode
  obtain ⟨rfl, rfl, hmids, hmtx⟩ := hcode
  refine ⟨request, m, hm, rfl, hmids.trans hids, hafter, hbefore, ?_, fun pin hpin => ?_⟩
  · rw [hform, hmtx, htx]
  · have hcount := hk.counted hpoisoned (request, m) hm exp grant pin hlookup (hmtx ▸ hpin)
    show wrongTxCodes m.code pin ((B.presented.take B.presented.length).drop m.seen) < _
    rw [List.take_length, hcount.1]
    exact hcount.2

theorem Kept.counted_step (hk : B.Kept service) (h : Step service B B')
    (hpoisoned : B'.poisoned = false) : ∀ p ∈ B'.minted, B'.Counted p.2 := by
  cases h with
  | mint definitions request ids code digits now hcheck hclock hfresh =>
      intro p hp exp grant pin hlookup hpin
      have hkey : ∀ q ∈ B.minted, q.2.code ≠ code := by
        rintro q hq rfl
        refine hfresh (hk.drawn.codes _ ?_)
        exact Tickets.mem_keys_of_issued (Multiset.mem_map_of_mem _ hq)
      rcases Multiset.mem_add.mp hp with hnew | hold
      · rw [Multiset.mem_singleton.mp hnew] at hlookup ⊢
        have hcount : wrongTxCodes code pin (B.presented.drop B.presented.length) = 0 := by
          rw [List.drop_length]
          rfl
        rcases ExpiringTable.lookup_insert hlookup with ⟨-, he⟩ | hlive
        · cases he
          exact ⟨hcount, Nat.zero_lt_succ 2⟩
        · -- a live code has been drawn
          have hlive' : B.codeTickets.live code =
              some (exp, grant.credentialConfigurationIds, grant.txCode) :=
            Option.map_eq_some_iff.mpr ⟨(exp, grant), hlive, rfl⟩
          obtain ⟨madeAt, hissued, -⟩ := hk.codes.live_issued _ _ _ hlive'
          exact absurd (hk.drawn.codes _ (Tickets.mem_keys_of_issued hissued)) hfresh
      · rcases ExpiringTable.lookup_insert hlookup with ⟨hcode, -⟩ | hlive
        · exact absurd hcode (hkey p hold)
        · exact hk.counted hpoisoned p hold exp grant pin hlive hpin
  | decline code txCode readAt takenAt hok =>
      intro p hp exp grant pin hlookup hpin
      exact Counted.exchange (hk.counted hok p hp) (hk.seen p hp) code txCode readAt takenAt
        hlookup hpin
  | take form code txCode ids readAt takenAt hok =>
      intro p hp exp grant pin hlookup hpin
      exact Counted.exchange (hk.counted hok p hp) (hk.seen p hp) code txCode readAt takenAt
        hlookup hpin
  | _ => exact hk.counted hpoisoned

/-- **Every step keeps the books.** -/
theorem Kept.step (hk : B.Kept service) (h : Step service B B') : B'.Kept service := by
  have hext := h.extends
  have hlength : B.presented.length ≤ B'.presented.length := hext.presented.length_le
  refine
    { drawn := hk.drawn.step h
      codes := hk.codes.step (codeTickets_step hk.drawn h)
      tokens := hk.tokens.step (tokenTickets_step hk.drawn h)
      nonces := hk.nonces.step (nonceTickets_step hk.drawn h)
      checked := ?_
      seen := ?_
      counted := hk.counted_step h
      takenSeen := ?_
      backed := ?_
      granted := ?_ }
  · cases h with
    | mint definitions request ids code digits now hcheck =>
        intro p hp
        rcases Multiset.mem_add.mp hp with hnew | hold
        · rw [Multiset.mem_singleton.mp hnew]
          exact ⟨definitions, hcheck⟩
        · exact hk.checked p hold
    | _ => exact hk.checked
  · cases h with
    | mint definitions request ids code digits now =>
        intro p hp
        rcases Multiset.mem_add.mp hp with hnew | hold
        · rw [Multiset.mem_singleton.mp hnew]
          exact le_rfl
        · exact hk.seen p hold
    | _ => exact fun p hp => (hk.seen p hp).trans hlength
  · cases h with
    | take =>
        intro p hp
        rcases Multiset.mem_add.mp hp with hnew | hold
        · rw [Multiset.mem_singleton.mp hnew]
          exact hlength
        · exact (hk.takenSeen p hold).trans hlength
    | _ => exact fun p hp => (hk.takenSeen p hp).trans hlength
  · have hold : ∀ p ∈ B.taken, B'.Backed p.1 p.2 := fun p hp =>
      (hk.backed p hp).mono hext (hk.takenSeen p hp)
    cases h with
    | take form code txCode ids readAt takenAt hok hform hread htaken htake =>
        intro p hp
        rcases Multiset.mem_add.mp hp with hnew | hp
        · rw [Multiset.mem_singleton.mp hnew]
          exact (hk.backed_of_exchange hok hform hread htaken htake).mono hext le_rfl
        · exact hold p hp
    | _ => exact hold
  · cases h with
    | grant form x now accessToken hx =>
        intro p hp
        rcases Multiset.mem_add.mp hp with hnew | hold
        · rw [Multiset.mem_singleton.mp hnew]
          exact hx
        · exact hk.granted p hold
    | _ => exact fun p hp => hext.taken (hk.granted p hp)

end Books

end IdentityHub.Oid4vci
