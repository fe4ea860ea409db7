import IdentityHub.Hub.Vouched

/-!
# The Storage API

`POST /credentials` of a Credential Service: the caller is authenticated and must be
trusted for what it delivers, then the message is checked, and then each credential
three times over, for its proof, for its issuer and for what it claims. Only after
the last of these is the batch stored.
-/

namespace IdentityHub

open Json (Value)

variable {X : HubExternal} (hub : Hub X)

/-- `credential_issuer`: the `iss` of a container's payload, unverified. -/
def credentialIssuer (X : HubExternal) (container : CredentialContainer) : Option String := do
  let jws ← container.payload.asStr
  let (_, payload) ← (X.decodeJwsUnverified jws).toOption
  payload.getStr "iss"

/-- With a registry, each credential's own issuer must be trusted for its type too. -/
def checkCredentialIssuers : List CredentialContainer → HubProgram X AuthError Unit
  | [] => pure ()
  | container :: rest => do
      let vcIssuer ← .ofExcept ((credentialIssuer X container).okOr (.untrustedIssuer ""))
      checkIssuer hub vcIssuer [container.credentialType]
      checkCredentialIssuers rest

/-- The batch a message is stored as. -/
def CredentialMessage.batch (message : CredentialMessage) : StoredCredentialBatch where
  issuerPid := message.issuerPid
  holderPid := some message.holderPid
  status := message.status
  rejectionReason := message.rejectionReason
  credentials := message.credentials

/-- The checks of `storage_write` once the caller is trusted. -/
def checkMessage (message : CredentialMessage) : HubProgram X Response Unit := do
  .ofExcept ((validateStatus message.status).mapError ValidationError.response)
  .ofExcept ((checkKnownHolderPid message.holderPid hub.knownHolderPids).mapError
    ValidationError.response)
  (verifyCredentialProofs hub message.credentials).mapError ValidationError.response
  let registry := hub.trustedIssuersRegistry.isSome
  (if registry then checkCredentialIssuers hub message.credentials else pure ()).mapError
    AuthError.response
  let now ← nowSecs
  .ofExcept ((checkCredentialClaims X message.credentials hub.identity.ownDid
    (if registry then none else some hub.trustedIssuerDids) now).mapError ValidationError.response)

/-- `storage_write`. -/
def storageWrite (authorizationHeader : Option String) (message : CredentialMessage) :
    HubProgram X Response Unit := do
  let claims ← (verifyBearerToken hub authorizationHeader).mapError AuthError.response
  let deliveredTypes := message.credentials.map (fun c => c.credentialType)
  let caller := (claims.getStr "iss").getD ""
  (checkIssuer hub caller deliveredTypes).mapError AuthError.response
  checkMessage hub message
  storeBatch message.batch

/-! ## What is known of a batch by the time it is stored -/

/-- A container can be vouched for by the events of a call. -/
def VouchedBy (hub : Hub X) (events : List (HubEvent X)) (container : CredentialContainer) : Prop :=
  ∃ jws header payload, Vouched hub (fun source list => SnapshotSeen hub source events list) events
    container jws header payload

/-- A batch is stored only with containers that can be vouched for. -/
def StoresVouched (hub : Hub X) (past : List (HubEvent X)) (op : HubOp X) : Prop :=
  ∀ batch, op = .storeBatch batch → ∀ container ∈ batch.credentials, VouchedBy hub past container

variable {hub} {past : List (HubEvent X)}

theorem credentialIssuer_of_jws {container : CredentialContainer} {jws : String}
    {header payload : Value} (h : containerJws X container = .ok (jws, header, payload)) :
    credentialIssuer X container = payload.getStr "iss" := by
  obtain ⟨hpayload, hdecoded⟩ := containerJws_eq_ok.mp h
  rw [credentialIssuer, hpayload, Value.asStr_string]
  show ((X.decodeJwsUnverified jws).toOption).bind _ = _
  rw [hdecoded]
  rfl

/-- What only fetches and reads the clock may do so here. -/
theorem Confined.of_asksOnly {own : List (HubEvent X) → HubOp X → Prop} {op : HubOp X}
    (h : AsksOnly hub (fun _ => False) op) : Confined hub own past op := by
  cases op with
  | now => trivial
  | fetchDocument url => exact h
  | _ => exact h.elim

/-- Authenticating the caller stores nothing. -/
theorem verifyBearerToken_confined {own : List (HubEvent X) → HubOp X → Prop}
    (hremember : ∀ past jti, own past (.rememberJti jti)) {authorizationHeader : Option String} :
    (verifyBearerToken hub authorizationHeader).wp (Confined hub own) (fun _ _ => True) [] :=
  verifyBearerToken_asks (fun _ _ hasked => Confined.of_asksOnly hasked) hremember

section

variable {own : List (HubEvent X) → HubOp X → Prop}
  (hget : ∀ past url, own past (.send (.ofUrl url)))
include hget

/-- Each credential's own issuer is trusted for its type. -/
theorem checkCredentialIssuers_wp {credentials : List CredentialContainer} :
    (checkCredentialIssuers hub credentials).wp (Confined hub own)
      (fun later _ => ∀ container ∈ credentials, ∃ iss, credentialIssuer X container = some iss ∧
        TrustedFor hub (fun source list => SnapshotSeen hub source later list) later iss
          container.credentialType) past := by
  induction credentials generalizing past with
  | nil =>
      rw [checkCredentialIssuers, Program.wp_pure]
      intro container hmem
      cases hmem
  | cons container rest ih =>
      rw [checkCredentialIssuers, Program.wp_bind, Program.wp_ofExcept]
      intro iss hiss
      rw [Option.okOr_eq_ok] at hiss
      rw [Program.wp_bind]
      refine Program.wp_post (checkIssuer_wp hget) (fun mid _ htrusted => ?_)
      refine Program.wp_post (Program.wp_extends ih) ?_
      rintro later _ ⟨hgrown, hrest⟩ c hc
      rcases List.mem_cons.mp hc with rfl | hc
      · refine ⟨iss, hiss, (htrusted _ (List.mem_singleton.mpr rfl)).mono ?_ hgrown.subset⟩
        exact fun source list hseen => hseen.mono hgrown.subset
      · exact hrest c hc

/-- **What the checks of a message establish**: every credential of it can be vouched
for. -/
theorem checkMessage_wp {message : CredentialMessage} :
    (checkMessage hub message).wp (Confined hub own)
      (fun later _ => ∀ container ∈ message.credentials, VouchedBy hub later container) past := by
  simp only [checkMessage, Program.wp_bind, Program.wp_ofExcept, Program.wp_mapError]
  intro _ _ _ _
  refine Program.wp_post verifyCredentialProofs_wp (fun proved _ hproofs => ?_)
  have hissuers : (if hub.trustedIssuersRegistry.isSome then
        checkCredentialIssuers hub message.credentials else pure ()).wp (Confined hub own)
      (fun later _ => hub.trustedIssuersRegistry.isSome = true →
        ∀ container ∈ message.credentials, ∃ iss, credentialIssuer X container = some iss ∧
          TrustedFor hub (fun source list => SnapshotSeen hub source later list) later iss
            container.credentialType) proved := by
    split
    · exact Program.wp_post (checkCredentialIssuers_wp hget) (fun _ _ h _ => h)
    · rename_i hnone
      rw [Program.wp_pure]
      exact fun hsome => absurd hsome hnone
  refine Program.wp_post (Program.wp_extends hissuers) ?_
  rintro asked _ ⟨hgrown, hasked⟩
  rw [wp_nowSecs]
  refine ⟨trivial, fun now => ?_⟩
  rintro _ hclaims container hmem
  rw [Except.mapError_eq_ok, checkCredentialClaims_eq_ok] at hclaims
  obtain ⟨jws, header, payload, hholds⟩ := checkContainerClaims_eq_ok.mp (hclaims container hmem)
  obtain ⟨jws', header', payload', hproof⟩ := hproofs container hmem
  have hsame := hproof.1.symm.trans hholds.decoded
  cases hsame
  obtain ⟨-, doc, iss, kid, url, key, hiss, -⟩ := id hproof
  have hsub : asked ⊆ asked ++ [clockRead X now] := List.subset_append_left _ _
  refine ⟨jws, header, payload, hproof.mono (List.Subset.trans hgrown.subset hsub), ⟨iss, hiss, ?_⟩,
    hholds.subject, hholds.type, fun exp hexp => ⟨now, by simp, ?_⟩⟩
  · cases hregistry : hub.trustedIssuersRegistry with
    | none =>
        have hmember := hholds.issuer hub.trustedIssuerDids (by simp [hregistry])
        rw [hiss, Option.getD_some] at hmember
        exact (trustedFor_static hregistry).mpr hmember
    | some source =>
        obtain ⟨iss', hiss', htrusted⟩ := hasked (by rw [hregistry]; rfl) container hmem
        rw [credentialIssuer_of_jws hholds.decoded, hiss] at hiss'
        cases hiss'
        exact htrusted.mono (fun source list hseen => hseen.mono hsub) hsub
  · exact (isWithinValidity_iff.mp hholds.validity).1 exp hexp

end

/-- **What the Storage API stores** can be vouched for. -/
theorem storageWrite_wp {authorizationHeader : Option String} {message : CredentialMessage} :
    (storageWrite hub authorizationHeader message).wp (Confined hub (StoresVouched hub))
      (fun _ _ => True) [] := by
  have hget : ∀ past url, StoresVouched hub past (.send (.ofUrl url)) := fun _ _ => nofun
  unfold storageWrite
  rw [Program.wp_bind, Program.wp_mapError]
  refine Program.wp_post (verifyBearerToken_confined fun _ _ => nofun) (fun authed claims _ => ?_)
  dsimp only
  rw [Program.wp_bind, Program.wp_mapError]
  refine Program.wp_post (checkIssuer_wp hget) (fun trusting _ _ => ?_)
  rw [Program.wp_bind]
  refine Program.wp_post (checkMessage_wp hget) (fun checked _ hvouched => ?_)
  rw [wp_storeBatch]
  refine ⟨fun batch hbatch => ?_, fun _ => trivial⟩
  cases hbatch
  exact hvouched

end IdentityHub
