import IdentityHub.Hub.Effects

/-!
# The state the handlers share

The clock, the cache of seen `jti` values, the cached snapshot of the trusted
issuers registry, the stored batches and the accepted offers, with what each operation answers and
does in it. The network answers anything, the clock does not run backwards.
-/

namespace IdentityHub

/-- `MAX_SEEN_JTI`. -/
def maxSeenJti : ℕ := 4096

/-- `MAX_CREDENTIAL_BATCHES`. -/
def maxCredentialBatches : ℕ := 2048

/-- `MAX_ACCEPTED_OFFERS`. -/
def maxAcceptedOffers : ℕ := 2048

abbrev SeenJtiCache := RecentSet String

/-- The batches the store holds, oldest first. -/
abbrev CredentialStore := List StoredCredentialBatch

/-- Add a batch; the oldest go when there are too many. -/
def CredentialStore.store (batches : CredentialStore) (batch : StoredCredentialBatch) :
    CredentialStore :=
  (batches ++ [batch]).drop (batches.length + 1 - maxCredentialBatches)

theorem mem_of_mem_drop_concat {α : Type} {l : List α} {a b : α} {n : ℕ}
    (h : b ∈ (l ++ [a]).drop n) : b ∈ l ∨ b = a := by
  rcases List.mem_append.mp (List.mem_of_mem_drop h) with hold | hnew
  · exact Or.inl hold
  · exact Or.inr (List.mem_singleton.mp hnew)

theorem CredentialStore.mem_store {batches : CredentialStore} {batch kept : StoredCredentialBatch}
    (h : kept ∈ batches.store batch) : kept ∈ batches ∨ kept = batch := by
  unfold CredentialStore.store at h
  exact mem_of_mem_drop_concat h

/-- The credentials of batches that were issued, of the given types. -/
def CredentialStore.credentialsOfTypes (batches : CredentialStore) (types : List String) :
    List CredentialContainer :=
  ((batches.filter (fun b => b.status = "ISSUED")).flatMap
    (fun b => b.credentials)).filter (fun c => c.credentialType ∈ types)

/-- An accepted offer, under the id it was given. -/
structure AcceptedOffer where
  id : String
  offer : NewAcceptedOffer
deriving DecidableEq

/-- The accepted offers the store holds, oldest first. -/
abbrev OfferStore := List AcceptedOffer

/-- Add an offer; the oldest go when there are too many. -/
def OfferStore.record (offers : OfferStore) (offer : AcceptedOffer) : OfferStore :=
  (offers ++ [offer]).drop (offers.length + 1 - maxAcceptedOffers)

theorem OfferStore.mem_record {offers : OfferStore} {offer kept : AcceptedOffer}
    (h : kept ∈ offers.record offer) : kept ∈ offers ∨ kept = offer := by
  unfold OfferStore.record at h
  exact mem_of_mem_drop_concat h

theorem OfferStore.record_nil (offer : AcceptedOffer) : OfferStore.record [] offer = [offer] := by
  simp [OfferStore.record, maxAcceptedOffers]

structure HubState (X : HubExternal) where
  clock : ℕ
  seenJti : SeenJtiCache
  trustCache : Option (CachedTrustList X)
  store : CredentialStore
  offers : OfferStore := []

variable {X : HubExternal}

/-- What may be answered in a state, and the state afterwards. The store answers
in any order. -/
def hubEnvironment (X : HubExternal) : Environment (hubEffects X) (HubState X) where
  respond s e s' :=
    match e with
    | ⟨HubOp.now, reading⟩ => s.clock ≤ reading ∧ s' = { s with clock := reading }
    | ⟨HubOp.fetchDocument _, _⟩ => s' = s
    | ⟨HubOp.send _, _⟩ => s' = s
    | ⟨HubOp.uuid, _⟩ => s' = s
    | ⟨HubOp.rememberJti jti, new⟩ =>
        s.seenJti.insert jti = (new, s'.seenJti) ∧ s' = { s with seenJti := s'.seenJti }
    | ⟨HubOp.readTrustCache, cached⟩ => cached = s.trustCache ∧ s' = s
    | ⟨HubOp.writeTrustCache cached, _⟩ => s' = { s with trustCache := some cached }
    | ⟨HubOp.storeBatch batch, _⟩ => s' = { s with store := s.store.store batch }
    | ⟨HubOp.credentialsOfTypes types, found⟩ =>
        found.Perm (s.store.credentialsOfTypes types) ∧ s' = s
    | ⟨HubOp.addOffer offer, id⟩ =>
        s' = { s with offers := s.offers.record { id := id, offer := offer } }

/-- **Frame rule.** The clock does not go back, and only one kind of event changes each
other part of the state. -/
structure Framed (s : HubState X) (e : HubEvent X) (s' : HubState X) : Prop where
  clock : s.clock ≤ s'.clock
  seenJti : (∀ jti new, e ≠ jtiOffered X jti new) → s'.seenJti = s.seenJti
  trustCache : (∀ cached, e.op ≠ .writeTrustCache cached) → s'.trustCache = s.trustCache
  store : (∀ batch, e ≠ batchStored X batch) → s'.store = s.store
  offers : (∀ offer id, e ≠ offerRecorded X offer id) → s'.offers = s.offers

theorem Framed.same (s : HubState X) (e : HubEvent X) : Framed s e s where
  clock := le_rfl
  seenJti _ := rfl
  trustCache _ := rfl
  store _ := rfl
  offers _ := rfl

theorem framed_of_respond {s s' : HubState X} {e : HubEvent X}
    (h : (hubEnvironment X).respond s e s') : Framed s e s' := by
  obtain ⟨op, answer⟩ := e
  cases op with
  | now =>
      obtain ⟨hclock, rfl⟩ := h
      exact ⟨hclock, fun _ => rfl, fun _ => rfl, fun _ => rfl, fun _ => rfl⟩
  | fetchDocument url =>
      obtain rfl : s' = s := h
      exact .same ..
  | send request =>
      obtain rfl : s' = s := h
      exact .same ..
  | uuid =>
      obtain rfl : s' = s := h
      exact .same ..
  | rememberJti jti =>
      obtain ⟨-, hs⟩ := h
      rw [hs]
      exact ⟨le_rfl, fun hnot => absurd rfl (hnot jti answer), fun _ => rfl, fun _ => rfl, fun _ => rfl⟩
  | readTrustCache =>
      obtain ⟨-, rfl⟩ := h
      exact .same ..
  | writeTrustCache cached =>
      obtain rfl : s' = { s with trustCache := some cached } := h
      exact ⟨le_rfl, fun _ => rfl, fun hnot => absurd rfl (hnot cached), fun _ => rfl, fun _ => rfl⟩
  | storeBatch batch =>
      obtain rfl : s' = { s with store := s.store.store batch } := h
      exact ⟨le_rfl, fun _ => rfl, fun _ => rfl, fun hnot => absurd rfl (hnot batch), fun _ => rfl⟩
  | credentialsOfTypes types =>
      obtain ⟨-, rfl⟩ := h
      exact .same ..
  | addOffer offer =>
      obtain rfl : s' = { s with offers := s.offers.record { id := answer, offer := offer } } := h
      exact ⟨le_rfl, fun _ => rfl, fun _ => rfl, fun _ => rfl, fun hnot => absurd rfl (hnot offer answer)⟩

section

variable (s : HubState X)

theorem respond_clockRead {reading : ℕ} (h : s.clock ≤ reading) :
    (hubEnvironment X).respond s (clockRead X reading) { s with clock := reading } :=
  ⟨h, rfl⟩

theorem respond_documentFetched (url : String) (answer : Except String X.DidDocument) :
    (hubEnvironment X).respond s (documentFetched X url answer) s := rfl

theorem respond_offerRecorded (offer : NewAcceptedOffer) (id : String) :
    (hubEnvironment X).respond s (offerRecorded X offer id)
      { s with offers := s.offers.record { id := id, offer := offer } } := rfl

theorem respond_jtiOffered {jti : String} (h : (s.seenJti.insert jti).1 = true) :
    (hubEnvironment X).respond s (jtiOffered X jti true)
      { s with seenJti := (s.seenJti.insert jti).2 } :=
  ⟨Prod.ext h rfl, rfl⟩

end

end IdentityHub
