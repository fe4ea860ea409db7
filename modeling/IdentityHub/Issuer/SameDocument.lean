import IdentityHub.Issuer.Service

/-!
# One party, one holder key

A party is known by its DID document, so two `did:web` identifiers whose
documents live under one normalised URL name one party. The registry tells
parties apart by `holderKey`, which folds spellings: `SpelledAlike` says exactly
which. What the key misses is what resolution identifies beyond that, such as
the scheme's default port written out.
-/

namespace IdentityHub

/-- Both identifiers resolve, to the same normalised URL. -/
def SameDocument (scheme : DidWeb.Scheme) (a b : String) : Prop :=
  ∃ url, DidWeb.document scheme a = some url ∧ DidWeb.document scheme b = some url

instance (scheme : DidWeb.Scheme) (a b : String) : Decidable (SameDocument scheme a b) :=
  decidable_of_iff
    (DidWeb.document scheme a = DidWeb.document scheme b ∧ (DidWeb.document scheme a).isSome) <| by
      constructor
      · rintro ⟨heq, hsome⟩
        obtain ⟨url, hurl⟩ := Option.isSome_iff_exists.mp hsome
        exact ⟨url, hurl, heq ▸ hurl⟩
      · rintro ⟨url, ha, hb⟩
        exact ⟨ha.trans hb.symm, by rw [ha]; rfl⟩

/-- A party rejected under `a` is refused when it calls itself `b`: a Credential
Request changes nothing and is answered 400 or 403. -/
def RefusedAs (a b : String) : Prop :=
  ∀ (X : External) (service : IssuerService X) (app : AppState) (holder : Holder)
    (claims : Json.Value) (message : CredentialRequestMessage) (now : ℕ)
    (processId holderUuid : String),
    app.holders.byDid a = some holder → holder.status = .rejected →
      claims.getStr "sub" = some b →
        let out := credentialRequest service app claims message now processId holderUuid
        app.holders.byDid b = some holder ∧ out.app = app ∧ out.deliverNow = false ∧
          (out.response.status = 400 ∨ out.response.status = 403)

variable {X : External} {service : IssuerService X}

/-- A rejected holder's request is refused under the DID it is found by. -/
theorem credentialRequest_rejected {app : AppState} {holder : Holder} {claims : Json.Value}
    {message : CredentialRequestMessage} {now : ℕ} {processId holderUuid did : String}
    (hfound : app.holders.byDid did = some holder) (hrejected : holder.status = .rejected)
    (hsub : claims.getStr "sub" = some did) :
    let out := credentialRequest service app claims message now processId holderUuid
    out.app = app ∧ out.deliverNow = false ∧
      (out.response.status = 400 ∨ out.response.status = 403) := by
  intro out
  have hholder : findOrInsertHolder service app.holders did now holderUuid =
      .ok (holder, app.holders) := by
    unfold findOrInsertHolder
    rw [hfound]
  show (credentialRequest service app claims message now processId holderUuid).app = app ∧ _
  unfold out credentialRequest
  rw [hsub]
  dsimp only
  cases hids : refuseIds app.definitions (distinctIds [] message.credentials) with
  | some response =>
      refine ⟨rfl, rfl, Or.inl ?_⟩
      unfold refuseIds at hids
      split at hids
      · cases hids
        rfl
      · split at hids
        · cases hids
          rfl
        · obtain ⟨id, -, rfl⟩ := Option.map_eq_some_iff.mp hids
          rfl
  | none =>
      dsimp only
      rw [hholder]
      dsimp only
      unfold admitRequest
      rw [hrejected]
      exact ⟨rfl, rfl, Or.inr rfl⟩

/-- One key, one treatment. -/
theorem refusedAs_of_key {a b : String} (h : holderKey a = holderKey b) : RefusedAs a b := by
  intro X service app holder claims message now processId holderUuid hfound hrejected hsub
  have hb : app.holders.byDid b = some holder := (HolderRegistry.byDid_congr h).symm.trans hfound
  exact ⟨hb, credentialRequest_rejected hb hrejected hsub⟩

end IdentityHub
