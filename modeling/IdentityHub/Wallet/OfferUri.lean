import IdentityHub.Wallet.Redeem
import IdentityHub.Hub.Replay

/-!
# Which offer a wallet redeems

An offer reaches the wallet inline, as a URI to fetch it from, or in the query of an
`openid-credential-offer` URI, whose parameters may come in any number and order. The
wallet is to redeem an offer that was conveyed exactly once.

It counts the two kinds, by value and by reference, and not the conveyances: of several
of one kind the body's is used, or else the last of the query.
-/

namespace IdentityHub.Wallet

/-- A way of conveying an offer. -/
inductive Conveyance where
  | inline (offer : CredentialOffer)
  | text (json : String)
  | reference (uri : String)

/-- What a query parameter conveys. -/
def Conveyance.ofPair (pair : String × String) : Option Conveyance :=
  if pair.1 = "credential_offer" then some (.text pair.2)
  else if pair.1 = "credential_offer_uri" then some (.reference pair.2)
  else none

def Conveyance.isReference : Conveyance → Bool
  | .reference _ => true
  | _ => false

/-- The query parameters of a request's offer URI. -/
def RedeemOfferBody.pairs (X : HubExternal) (body : RedeemOfferBody) :
    Except String (List (String × String)) :=
  body.offer.elim (.ok []) X.queryPairs

/-- All the conveyances of a request. -/
def RedeemOfferBody.conveyances (body : RedeemOfferBody) (pairs : List (String × String)) :
    List Conveyance :=
  body.credentialOffer.toList.map .inline ++ body.credentialOfferUri.toList.map .reference ++
    pairs.filterMap Conveyance.ofPair

/-- The offer of a `credential_offer` parameter. -/
def readOffer (X : HubExternal) (json : String) : Except WalletError CredentialOffer := do
  let value ← (X.parseJson json).mapError .invalidOffer
  (CredentialOffer.fromJson value).okOr (.invalidOffer (X.decodeError value))

variable {X : HubExternal} {hub : Hub X} {body : RedeemOfferBody} {pairs : List (String × String)}

/-- To use one conveyance. -/
def Conveyance.use (hub : Hub X) : Conveyance → HubProgram X WalletError CredentialOffer
  | .inline offer => pure offer
  | .text json => .ofExcept (readOffer X json)
  | .reference uri => getJson hub CredentialOffer.fromJson uri

/-- The request is refused, and nothing has been sent. -/
def Refuses (hub : Hub X) (body : RedeemOfferBody) : Prop :=
  ∃ detail, resolveOffer hub body = .throw (.invalidOffer detail)

/-- An offer is used only where it is the request's one conveyance. -/
def UsesTheOne (hub : Hub X) (body : RedeemOfferBody) : Prop :=
  match body.pairs X with
  | .error _ => Refuses hub body
  | .ok pairs =>
      (∀ c, body.conveyances pairs = [c] → resolveOffer hub body = c.use hub) ∧
        ((body.conveyances pairs).length ≠ 1 → Refuses hub body)

/-- Several conveyances, all by value or all by reference, and each `credential_offer`
of the query an offer. -/
def RepeatsOneKind (X : HubExternal) (body : RedeemOfferBody) : Prop :=
  ∃ pairs, body.pairs X = .ok pairs ∧
    2 ≤ (body.conveyances pairs).length ∧
    (∀ json, .text json ∈ body.conveyances pairs → ∃ offer, readOffer X json = .ok offer) ∧
    ∀ c ∈ body.conveyances pairs, ∀ c' ∈ body.conveyances pairs, c.isReference = c'.isReference

/-! ## What the query leaves -/

/-- The texts among the conveyances of a query. -/
def textOf : Conveyance → Option String
  | .text json => some json
  | _ => none

/-- The references among the conveyances of a query. -/
def referenceOf : Conveyance → Option String
  | .reference uri => some uri
  | _ => none

theorem readOffer_error {json : String} {e : WalletError} (h : readOffer X json = .error e) :
    ∃ detail, e = .invalidOffer detail := by
  unfold readOffer at h
  cases hparsed : X.parseJson json with
  | error detail =>
      rw [hparsed] at h
      cases h
      exact ⟨detail, rfl⟩
  | ok value =>
      rw [hparsed, Except.mapError, Except.ok_bind] at h
      cases hread : CredentialOffer.fromJson value with
      | none =>
          rw [hread] at h
          cases h
          exact ⟨_, rfl⟩
      | some offer =>
          rw [hread] at h
          cases h

/-- One parameter, on what those before it have left. -/
def readPair (X : HubExternal) (found : Option CredentialOffer × Option String)
    (pair : String × String) : Except WalletError (Option CredentialOffer × Option String) :=
  if pair.1 = "credential_offer" then do
    let offer ← readOffer X pair.2
    return (some offer, found.2)
  else if pair.1 = "credential_offer_uri" then return (found.1, some pair.2)
  else return found

theorem parseOfferUri_eq (uri : String) :
    parseOfferUri X uri =
      (X.queryPairs uri).mapError .invalidOffer >>= List.foldlM (readPair X) (none, none) := by
  unfold parseOfferUri readPair readOffer
  simp only [bind_assoc]

/-- The last of each kind is left, once every text has been read. -/
theorem foldlM_readPair (found : Option CredentialOffer × Option String) :
    pairs.foldlM (readPair X) found =
      ((pairs.filterMap Conveyance.ofPair).filterMap textOf).mapM (readOffer X) >>= fun offers =>
        .ok (offers.getLast?.or found.1,
          ((pairs.filterMap Conveyance.ofPair).filterMap referenceOf).getLast?.or found.2) := by
  induction pairs generalizing found with
  | nil => rfl
  | cons pair rest ih =>
      rw [List.foldlM_cons]
      by_cases htext : pair.1 = "credential_offer"
      · have hof : Conveyance.ofPair pair = some (.text pair.2) := if_pos htext
        have hstep : readPair X found pair =
            readOffer X pair.2 >>= fun offer => .ok (some offer, found.2) := if_pos htext
        rw [hstep, List.filterMap_cons_some hof,
          List.filterMap_cons_some (show textOf (.text pair.2) = some pair.2 from rfl),
          List.filterMap_cons_none (show referenceOf (.text pair.2) = none from rfl),
          List.mapM_cons]
        cases hread : readOffer X pair.2 with
        | error e => rfl
        | ok offer =>
            rw [Except.ok_bind, Except.ok_bind, ih, Except.ok_bind, bind_assoc]
            refine congrArg _ (funext fun offers => ?_)
            rw [pure_bind, List.getLast?_cons]
            cases offers.getLast? <;> rfl
      · by_cases huri : pair.1 = "credential_offer_uri"
        · have hof : Conveyance.ofPair pair = some (.reference pair.2) := by
            rw [Conveyance.ofPair, if_neg htext, if_pos huri]
          have hstep : readPair X found pair = .ok (found.1, some pair.2) := by
            rw [readPair, if_neg htext, if_pos huri]
            rfl
          rw [hstep, List.filterMap_cons_some hof,
            List.filterMap_cons_none (show textOf (.reference pair.2) = none from rfl),
            List.filterMap_cons_some (show referenceOf (.reference pair.2) = some pair.2 from rfl),
            Except.ok_bind, ih, List.getLast?_cons]
          refine congrArg _ (funext fun offers => ?_)
          cases (List.filterMap referenceOf (rest.filterMap Conveyance.ofPair)).getLast? <;> rfl
        · have hof : Conveyance.ofPair pair = none := by
            rw [Conveyance.ofPair, if_neg htext, if_neg huri]
          have hstep : readPair X found pair = .ok found := by
            rw [readPair, if_neg htext, if_neg huri]
            rfl
          rw [hstep, List.filterMap_cons_none hof, Except.ok_bind, ih]

/-- What is done with what is left of each kind. -/
def pick (hub : Hub X) : Option CredentialOffer → Option String →
    HubProgram X WalletError CredentialOffer
  | some offer, none => pure offer
  | none, some uri => getJson hub CredentialOffer.fromJson uri
  | _, _ => .throw (.invalidOffer
      "give exactly one of a by-value credential_offer or a credential_offer_uri")

/-- **Of each kind the body's conveyance is left, or else the query's last.** -/
theorem resolveOffer_eq (hpairs : body.pairs X = .ok pairs) :
    resolveOffer hub body =
      Program.ofExcept (((pairs.filterMap Conveyance.ofPair).filterMap textOf).mapM
        (readOffer X)) >>= fun offers =>
        pick hub (body.credentialOffer.or offers.getLast?) (body.credentialOfferUri.or
          ((pairs.filterMap Conveyance.ofPair).filterMap referenceOf).getLast?) := by
  have hparsed : body.offer.elim (.ok (none, none)) (parseOfferUri X) =
      pairs.foldlM (readPair X) (none, none) := by
    unfold RedeemOfferBody.pairs at hpairs
    cases hoffer : body.offer with
    | none =>
        rw [hoffer] at hpairs
        cases hpairs
        rfl
    | some uri =>
        rw [hoffer] at hpairs
        rw [Option.elim_some, parseOfferUri_eq, show X.queryPairs uri = .ok pairs from hpairs]
        rfl
  unfold resolveOffer
  rw [hparsed, foldlM_readPair]
  cases ((pairs.filterMap Conveyance.ofPair).filterMap textOf).mapM (readOffer X) with
  | error e => rfl
  | ok offers =>
      rw [Except.ok_bind, Option.or_none, Option.or_none]
      simp only [Program.ofExcept_ok, Program.pure_bind]
      generalize body.credentialOffer.or offers.getLast? = value
      generalize body.credentialOfferUri.or
        ((pairs.filterMap Conveyance.ofPair).filterMap referenceOf).getLast? = uri
      cases value <;> cases uri <;> rfl

theorem resolveOffer_unreadable {e : String} (hpairs : body.pairs X = .error e) :
    Refuses hub body := by
  unfold RedeemOfferBody.pairs at hpairs
  cases hoffer : body.offer with
  | none =>
      rw [hoffer] at hpairs
      cases hpairs
  | some uri =>
      rw [hoffer] at hpairs
      refine ⟨e, ?_⟩
      unfold resolveOffer
      rw [hoffer, Option.elim_some, parseOfferUri_eq,
        show X.queryPairs uri = .error e from hpairs]
      rfl

theorem Conveyance.ofPair_ne_inline (pair : String × String) (offer : CredentialOffer) :
    Conveyance.ofPair pair ≠ some (.inline offer) := by
  unfold Conveyance.ofPair
  split
  · simp
  · split <;> simp

/-- **A single conveyance is used.** -/
theorem resolveOffer_singleton {c : Conveyance} (hpairs : body.pairs X = .ok pairs)
    (hone : body.conveyances pairs = [c]) : resolveOffer hub body = c.use hub := by
  rw [resolveOffer_eq hpairs]
  unfold RedeemOfferBody.conveyances at hone
  generalize hquery : pairs.filterMap Conveyance.ofPair = query at hone ⊢
  cases hvalue : body.credentialOffer with
  | some offer =>
      cases huri : body.credentialOfferUri with
      | some uri => simp [hvalue, huri] at hone
      | none =>
          obtain ⟨rfl, rfl⟩ : .inline offer = c ∧ query = [] := by
            simpa [hvalue, huri] using hone
          rfl
  | none =>
      cases huri : body.credentialOfferUri with
      | some uri =>
          obtain ⟨rfl, rfl⟩ : .reference uri = c ∧ query = [] := by
            simpa [hvalue, huri] using hone
          rfl
      | none =>
          obtain rfl : query = [c] := by simpa [hvalue, huri] using hone
          cases c with
          | inline offer =>
              have hmem : .inline offer ∈ pairs.filterMap Conveyance.ofPair := by simp [hquery]
              obtain ⟨pair, -, hof⟩ := List.mem_filterMap.mp hmem
              exact absurd hof (Conveyance.ofPair_ne_inline pair offer)
          | text json =>
              rw [show List.filterMap textOf [.text json] = [json] from rfl, List.mapM_cons,
                List.mapM_nil, Conveyance.use]
              cases readOffer X json <;> rfl
          | reference uri => rfl

/-! ## When the count decides -/

/-- Whether something is left of a kind is whether it was conveyed at all. -/
theorem pick_refuses {value : Option CredentialOffer} {uri : Option String} :
    (∃ detail, pick hub value uri = .throw (.invalidOffer detail)) ↔
      value.isSome = uri.isSome := by
  cases value with
  | some offer =>
      cases uri with
      | some uri => simp [pick]
      | none => simp [pick, Pure.pure]
  | none =>
      cases uri with
      | some uri =>
          rw [show pick hub none (some uri) = getJson hub CredentialOffer.fromJson uri from rfl]
          constructor
          · rintro ⟨detail, hthrow⟩
            unfold getJson checkOutbound at hthrow
            cases hcheck : hub.outbound.checkUrl X uri <;> rw [hcheck] at hthrow <;> cases hthrow
          · simp
      | none => simp [pick]

theorem mem_conveyances {c : Conveyance} :
    c ∈ body.conveyances pairs ↔
      (∃ offer, body.credentialOffer = some offer ∧ .inline offer = c) ∨
        (∃ uri, body.credentialOfferUri = some uri ∧ .reference uri = c) ∨
          c ∈ pairs.filterMap Conveyance.ofPair := by
  unfold RedeemOfferBody.conveyances
  rw [List.mem_append, List.mem_append, List.mem_map, List.mem_map, or_assoc]
  simp only [Option.mem_toList]

/-- The texts that a query conveys. -/
theorem mem_texts {json : String} :
    json ∈ (pairs.filterMap Conveyance.ofPair).filterMap textOf ↔
      .text json ∈ body.conveyances pairs := by
  rw [mem_conveyances, List.mem_filterMap]
  constructor
  · rintro ⟨c, hc, htext⟩
    cases c with
    | text json' => 
        cases htext
        exact Or.inr (Or.inr hc)
    | inline offer => cases htext
    | reference uri => cases htext
  · rintro (⟨offer, -, h⟩ | ⟨uri, -, h⟩ | hc)
    · cases h
    · cases h
    · exact ⟨_, hc, rfl⟩

theorem exists_value_iff :
    (∃ c ∈ body.conveyances pairs, c.isReference = false) ↔
      body.credentialOffer.isSome = true ∨
        (pairs.filterMap Conveyance.ofPair).filterMap textOf ≠ [] := by
  constructor
  · rintro ⟨c, hc, hvalue⟩
    rcases mem_conveyances.mp hc with ⟨offer, hoffer, -⟩ | ⟨uri, -, rfl⟩ | hquery
    · exact Or.inl (Option.isSome_of_mem hoffer)
    · cases hvalue
    · cases c with
      | inline offer =>
          obtain ⟨pair, -, hof⟩ := List.mem_filterMap.mp hquery
          exact absurd hof (Conveyance.ofPair_ne_inline pair offer)
      | text json => exact Or.inr (List.ne_nil_of_mem (mem_texts.mpr hc))
      | reference uri => cases hvalue
  · rintro (hoffer | htexts)
    · obtain ⟨offer, hoffer⟩ := Option.isSome_iff_exists.mp hoffer
      exact ⟨.inline offer, mem_conveyances.mpr (Or.inl ⟨offer, hoffer, rfl⟩), rfl⟩
    · obtain ⟨json, hjson⟩ := List.exists_mem_of_ne_nil _ htexts
      exact ⟨.text json, mem_texts.mp hjson, rfl⟩

theorem exists_reference_iff :
    (∃ c ∈ body.conveyances pairs, c.isReference = true) ↔
      body.credentialOfferUri.isSome = true ∨
        (pairs.filterMap Conveyance.ofPair).filterMap referenceOf ≠ [] := by
  constructor
  · rintro ⟨c, hc, href⟩
    cases c with
    | inline offer => cases href
    | text json => cases href
    | reference uri =>
        rcases mem_conveyances.mp hc with ⟨offer, -, h⟩ | ⟨uri', huri, -⟩ | hquery
        · cases h
        · exact Or.inl (Option.isSome_of_mem huri)
        · exact Or.inr (List.ne_nil_of_mem (List.mem_filterMap.mpr ⟨_, hquery, rfl⟩))
  · rintro (huri | hrefs)
    · obtain ⟨uri, huri⟩ := Option.isSome_iff_exists.mp huri
      exact ⟨.reference uri, mem_conveyances.mpr (Or.inr (Or.inl ⟨uri, huri, rfl⟩)), rfl⟩
    · obtain ⟨uri, huri⟩ := List.exists_mem_of_ne_nil _ hrefs
      obtain ⟨c, hc, href⟩ := List.mem_filterMap.mp huri
      cases c with
      | inline offer => cases href
      | text json => cases href
      | reference uri' => exact ⟨_, mem_conveyances.mpr (Or.inr (Or.inr hc)), rfl⟩

/-- A text that cannot be read, or an offer of each. -/
theorem mapM_readOffer (texts : List String) :
    (∃ json ∈ texts, ∃ e, readOffer X json = .error e ∧ texts.mapM (readOffer X) = .error e) ∨
      ((∀ json ∈ texts, ∃ offer, readOffer X json = .ok offer) ∧
        ∃ offers, texts.mapM (readOffer X) = .ok offers ∧ (offers = [] ↔ texts = [])) := by
  induction texts with
  | nil => exact Or.inr ⟨nofun, [], rfl, by simp⟩
  | cons json rest ih =>
      rw [List.mapM_cons]
      cases hread : readOffer X json with
      | error e => exact Or.inl ⟨json, List.mem_cons_self, e, hread, rfl⟩
      | ok offer =>
          rcases ih with ⟨json', hmem, e, he, hrest⟩ | ⟨hall, offers, hrest, -⟩
          · rw [Except.ok_bind, hrest]
            exact Or.inl ⟨json', List.mem_cons_of_mem _ hmem, e, he, rfl⟩
          · rw [Except.ok_bind, hrest]
            exact Or.inr ⟨List.forall_mem_cons.mpr ⟨⟨offer, hread⟩, hall⟩, offer :: offers, rfl,
              by simp⟩

/-- **Refusal counts the kinds.** Where each text of the query is an offer, a request is
refused unless exactly one of the two kinds is conveyed. -/
theorem refuses_iff (hpairs : body.pairs X = .ok pairs) :
    Refuses hub body ↔
      (∃ json, .text json ∈ body.conveyances pairs ∧ ∃ e, readOffer X json = .error e) ∨
        ((∃ c ∈ body.conveyances pairs, c.isReference = false) ↔
          ∃ c ∈ body.conveyances pairs, c.isReference = true) := by
  rw [exists_value_iff, exists_reference_iff]
  unfold Refuses
  rw [resolveOffer_eq hpairs]
  rcases mapM_readOffer (X := X) ((pairs.filterMap Conveyance.ofPair).filterMap textOf) with
    ⟨json, hmem, e, he, hmap⟩ | ⟨hall, offers, hmap, hempty⟩
  · rw [hmap]
    obtain ⟨detail, rfl⟩ := readOffer_error he
    exact iff_of_true ⟨detail, rfl⟩ (Or.inl ⟨json, mem_texts.mp hmem, _, he⟩)
  · have hnone : ¬ ∃ json, .text json ∈ body.conveyances pairs ∧
        ∃ e, readOffer X json = .error e := by
      rintro ⟨json, hmem, e, he⟩
      obtain ⟨offer, hok⟩ := hall json (mem_texts.mpr hmem)
      rw [hok] at he
      cases he
    rw [hmap, Program.ofExcept_ok, Program.pure_bind, pick_refuses, or_iff_right hnone,
      Bool.eq_iff_iff, Option.isSome_or, Option.isSome_or, Bool.or_eq_true, Bool.or_eq_true,
      List.getLast?_isSome, List.getLast?_isSome, Ne, hempty]

/-- **When an offer that is used was the only one.** -/
theorem usesTheOne_iff : UsesTheOne hub body ↔ ¬ RepeatsOneKind X body := by
  unfold UsesTheOne
  cases hpairs : body.pairs X with
  | error e =>
      refine iff_of_true (resolveOffer_unreadable hpairs) ?_
      rintro ⟨pairs, hread, -⟩
      rw [hpairs] at hread
      cases hread
  | ok pairs =>
      dsimp only
      rw [and_iff_right (fun c hone => resolveOffer_singleton hpairs hone), refuses_iff hpairs]
      constructor
      · rintro huses ⟨pairs', hread, htwo, htexts, hkind⟩
        obtain rfl : pairs = pairs' := by
          rw [hpairs] at hread
          cases hread
          rfl
        rcases huses (by omega) with ⟨json, hmem, e, he⟩ | hboth
        · obtain ⟨offer, hok⟩ := htexts json hmem
          rw [hok] at he
          cases he
        · obtain ⟨c, hc⟩ : ∃ c, c ∈ body.conveyances pairs :=
            List.exists_mem_of_length_pos (by omega)
          cases hcase : c.isReference with
          | false =>
              obtain ⟨c', hc', href⟩ := hboth.mp ⟨c, hc, hcase⟩
              have hsame := hkind c hc c' hc'
              rw [hcase, href] at hsame
              cases hsame
          | true =>
              obtain ⟨c', hc', hvalue⟩ := hboth.mpr ⟨c, hc, hcase⟩
              have hsame := hkind c hc c' hc'
              rw [hcase, hvalue] at hsame
              cases hsame
      · intro hnot hcount
        by_contra hused
        rw [not_or, not_iff] at hused
        obtain ⟨htexts, hkinds⟩ := hused
        refine hnot ⟨pairs, hpairs, ?_, ?_, ?_⟩
        · have hsome : body.conveyances pairs ≠ [] := by
            intro hnil
            rw [hnil] at hkinds
            obtain ⟨c, hc, -⟩ := hkinds.mp (by simp)
            cases hc
          have hpos : 0 < (body.conveyances pairs).length := List.length_pos_iff.mpr hsome
          omega
        · intro json hmem
          cases hread : readOffer X json with
          | ok offer => exact ⟨offer, rfl⟩
          | error e => exact absurd ⟨json, hmem, e, hread⟩ htexts
        · intro c hc c' hc'
          cases hcase : c.isReference <;> cases hcase' : c'.isReference
          · rfl
          · exact absurd ⟨c, hc, hcase⟩ (hkinds.mpr ⟨c', hc', hcase'⟩)
          · exact absurd ⟨c', hc', hcase'⟩ (hkinds.mpr ⟨c, hc, hcase⟩)
          · rfl

/-- The body names one place to fetch the offer from, and its offer URI another. -/
def doubleBody : RedeemOfferBody where
  offer := some "openid-credential-offer://?credential_offer_uri=https://b"
  credentialOffer := none
  credentialOfferUri := some "https://a"
  txCode := none

theorem doubleBody_pairs :
    doubleBody.pairs hubReference = .ok [("credential_offer_uri", "https://b")] := by
  decide

/-- The offer of the body's place is fetched. -/
theorem doubled_offer_used :
    ¬ ∀ (X : HubExternal) (hub : Hub X) (body : RedeemOfferBody), UsesTheOne hub body := by
  intro h
  have huses := h hubReference sampleHub doubleBody
  unfold UsesTheOne at huses
  rw [doubleBody_pairs] at huses
  obtain ⟨json, hmem, -⟩ | hboth := (refuses_iff doubleBody_pairs).mp (huses.2 (by decide))
  · simp [RedeemOfferBody.conveyances, doubleBody, Conveyance.ofPair] at hmem
  · obtain ⟨c, hc, hvalue⟩ := hboth.mpr ⟨.reference "https://a", by
      simp [RedeemOfferBody.conveyances, doubleBody], rfl⟩
    have hreference : ∀ c ∈ doubleBody.conveyances [("credential_offer_uri", "https://b")],
        c.isReference = true := by
      simp [RedeemOfferBody.conveyances, doubleBody, Conveyance.ofPair, Conveyance.isReference]
    rw [hreference c hc] at hvalue
    cases hvalue

end IdentityHub.Wallet
