import IdentityHub.Hub.Snapshots
import IdentityHub.Hub.Storage
import IdentityHub.Wallet.Rounds
import IdentityHub.Wallet.SameAcceptance
import IdentityHub.Wallet.Servers

/-!
# What the store holds

Two calls write to the store, `storage_write` and `redeem`. Whatever it holds was put
there by one of them, and that call had verified the proof of every credential of the
batch, found its issuer trusted, and itself to be the subject; an `exp` it could read lay
ahead when it looked. It looks before it stores, not at the time it stores.
-/

namespace IdentityHub

open Json (Value)
open Wallet

variable {X : HubExternal} {hub : Hub X} {clientId : Option String}

/-! ## The calls -/

/-- **What a redemption stores** can be vouched for. -/
theorem redeem_wp {body : RedeemOfferBody} :
    (redeem hub clientId body).wp (Confined hub (StoresVouched hub)) (fun _ _ => True) [] := by
  unfold redeem
  rw [Program.wp_bind]
  refine Program.wp_post (gather_wp (fun _ _ _ => nofun) (fun _ _ _ _ => nofun)) ?_
  rintro gathered ⟨d, progress⟩ hvouched
  dsimp only at hvouched ⊢
  rw [Program.wp_bind]
  unfold storeRedeemed
  split
  · rw [Program.wp_pure, Program.wp_pure]
    trivial
  · simp only [Program.wp_bind, wp_drawUuid, wp_storeBatch, Program.wp_pure, implies_true, and_true]
    refine ⟨trivial, fun uuid batch hbatch container hmem => ?_⟩
    cases hbatch
    exact hvouched.mono (List.subset_append_left _ _) rfl container hmem

/-- A call that stores credentials. -/
inductive StoreCall where
  | storage (authorizationHeader : Option String) (message : CredentialMessage)
  | redemption (body : RedeemOfferBody)

/-- What a call does; what it answers is left out. -/
def StoreCall.program (hub : Hub X) (clientId : Option String) : StoreCall → HubProgram X Unit Unit
  | .storage authorizationHeader message =>
      (storageWrite hub authorizationHeader message).mapError (fun _ => ())
  | .redemption body => (redeem hub clientId body).mapError (fun _ => ()) >>= fun _ => pure ()

theorem StoreCall.program_wp (call : StoreCall) :
    (call.program hub clientId).wp (Confined hub (StoresVouched hub)) (fun _ _ => True) [] := by
  cases call with
  | storage authorizationHeader message =>
      rw [StoreCall.program, Program.wp_mapError]
      exact storageWrite_wp
  | redemption body =>
      rw [StoreCall.program, Program.wp_bind, Program.wp_mapError]
      refine Program.wp_post redeem_wp (fun later response _ => ?_)
      rw [Program.wp_pure]
      trivial

/-! ## Runs -/

variable {ι : Type} [DecidableEq ι] {start : HubState X} {calls : ι → StoreCall}

/-- Calls that write to the store, one after another or side by side. -/
abbrev StoreRun (hub : Hub X) (clientId : Option String) (start : HubState X)
    (calls : ι → StoreCall) :=
  Interleaving (hubEnvironment X) start (fun i => (calls i).program hub clientId)

/-- Some call had verified the snapshot. -/
def VerifiedIn (hub : Hub X) (log : List (ι × HubEvent X)) (source : TrustedIssuersRegistry)
    (list : X.TrustList) : Prop :=
  ∃ i, SnapshotVerified hub source (eventsOf i log) list

/-- Whatever a call does is confined, given what it did before. -/
theorem confined_of_run (run : StoreRun hub clientId start calls) {i : ι} {e : HubEvent X}
    {pre post : List (ι × HubEvent X)} (hlog : run.log = pre ++ (i, e) :: post) :
    Confined hub (StoresVouched hub) (eventsOf i pre) e.op := by
  have hevolves := run.evolves i
  rw [hlog, eventsOf_append, eventsOf_cons, if_pos rfl] at hevolves
  have hasked := Program.wp_asked (calls i).program_wp hevolves
  rwa [List.nil_append] at hasked

/-- What the log has before an entry leads to the state in which it was made. -/
theorem replays_before (run : StoreRun hub clientId start calls) {i : ι} {e : HubEvent X}
    {pre post : List (ι × HubEvent X)} (hlog : run.log = pre ++ (i, e) :: post) :
    ∃ s s', (hubEnvironment X).Replays start (pre.map Prod.snd) s ∧
      (hubEnvironment X).respond s e s' := by
  have hreplays := run.replays
  rw [hlog, List.map_append, List.map_cons] at hreplays
  obtain ⟨s, hbefore, hafter⟩ := hreplays.split
  cases hafter with
  | cons he _ => exact ⟨s, _, hbefore, he⟩

/-- A snapshot that is read from the cache was verified by the call that put it there. -/
theorem verifiedIn_of_cached (run : StoreRun hub clientId start calls)
    (hcache : start.trustCache = none) {i : ι} {cached : CachedTrustList X}
    {pre post : List (ι × HubEvent X)}
    (hlog : run.log = pre ++ (i, trustCacheRead X (some cached)) :: post)
    {source : TrustedIssuersRegistry} (hregistry : hub.trustedIssuersRegistry = some source) :
    VerifiedIn hub pre source cached.list := by
  obtain ⟨s, s', hbefore, hread⟩ := replays_before run hlog
  have hheld : s.trustCache = some cached := hread.1.symm
  rcases trustWritten_of_cached hbefore hheld with hstart | ⟨e, hmem, hwritten⟩
  · rw [hcache] at hstart
    cases hstart
  · obtain ⟨⟨j, e'⟩, hentry, rfl⟩ := List.mem_map.mp hmem
    obtain ⟨pre', post', rfl⟩ := List.append_of_mem hentry
    have hlog' : run.log =
        pre' ++ (j, e') :: (post' ++ (i, trustCacheRead X (some cached)) :: post) := by
      rw [hlog, List.append_assoc, List.cons_append]
    have hconfined := confined_of_run run hlog'
    rw [trustWritten_eq_some hwritten] at hconfined
    obtain ⟨source', hregistry', hverified⟩ := hconfined
    rw [hregistry] at hregistry'
    cases hregistry'
    refine ⟨j, hverified.mono ?_⟩
    rw [eventsOf_append]
    exact List.subset_append_left _ _

/-- A snapshot a call has seen is one that some call had verified. -/
theorem verifiedIn_of_seen (run : StoreRun hub clientId start calls)
    (hcache : start.trustCache = none) {i : ι} {pre post : List (ι × HubEvent X)}
    (hlog : run.log = pre ++ post) {source : TrustedIssuersRegistry}
    (hregistry : hub.trustedIssuersRegistry = some source) {list : X.TrustList}
    (hseen : SnapshotSeen hub source (eventsOf i pre) list) : VerifiedIn hub pre source list := by
  rcases hseen with ⟨cached, hread, rfl⟩ | hverified
  · obtain ⟨pre', post', rfl⟩ := List.append_of_mem (mem_eventsOf.mp hread)
    rw [List.append_assoc, List.cons_append] at hlog
    obtain ⟨j, hverified⟩ := verifiedIn_of_cached run hcache hlog hregistry
    refine ⟨j, hverified.mono ?_⟩
    rw [eventsOf_append]
    exact List.subset_append_left _ _
  · exact ⟨i, hverified⟩

/-- A batch the store holds was stored by one of the calls. -/
theorem stored_of_held (run : StoreRun hub clientId start calls) (hstore : start.store = [])
    {batch : StoredCredentialBatch} (hheld : batch ∈ run.final.store) :
    ∃ i pre post, run.log = pre ++ (i, batchStored X batch) :: post := by
  have hstep : ∀ s e s', (hubEnvironment X).respond s e s' → batch ∈ s'.store →
      batch ∈ s.store ∨ e = batchStored X batch := by
    intro s e s' he hmid
    rw [store_respond he] at hmid
    cases hbatch : batchOf e with
    | none =>
        rw [hbatch] at hmid
        exact Or.inl hmid
    | some newest =>
        rw [hbatch, Option.elim_some] at hmid
        rcases CredentialStore.mem_store hmid with hold | rfl
        · exact Or.inl hold
        · exact Or.inr (batchOf_eq_some hbatch)
  rcases run.replays.origin (P := fun s => batch ∈ s.store) hstep hheld with hstart | hstored
  · rw [hstore] at hstart
    cases hstart
  · obtain ⟨_, hmem, rfl⟩ := hstored
    obtain ⟨⟨i, e⟩, hentry, rfl⟩ := List.mem_map.mp hmem
    obtain ⟨pre, post, hlog⟩ := List.append_of_mem hentry
    exact ⟨i, pre, post, hlog⟩

/-- **What the store holds can be vouched for.** Every batch of it was stored by one of the
calls; and of every container of it that call knew, by then, that its proof verifies under
the document of its own issuer, that a snapshot one of the calls had verified, or the static
list, trusts that issuer, that the hub is its subject, and that its type is one of its own;
and an `exp` that reads as an unsigned integer lay ahead of a reading of the clock. -/
theorem held_credentials_vouched (run : StoreRun hub clientId start calls)
    (hstore : start.store = []) (hcache : start.trustCache = none) :
    ∀ batch ∈ run.final.store, ∃ i pre post,
      run.log = pre ++ (i, batchStored X batch) :: post ∧
        ∀ container ∈ batch.credentials, ∃ jws header payload,
          Vouched hub (VerifiedIn hub pre) (eventsOf i pre) container jws header payload := by
  intro batch hheld
  obtain ⟨i, pre, post, hlog⟩ := stored_of_held run hstore hheld
  refine ⟨i, pre, post, hlog, fun container hmem => ?_⟩
  obtain ⟨jws, header, payload, hvouched⟩ := confined_of_run run hlog batch rfl container hmem
  refine ⟨jws, header, payload, ?_⟩
  cases hregistry : hub.trustedIssuersRegistry with
  | none =>
      obtain ⟨iss, hiss, htrusted⟩ := hvouched.trusted
      refine { hvouched with trusted := ⟨iss, hiss, ?_⟩ }
      exact (trustedFor_static hregistry).mpr ((trustedFor_static hregistry).mp htrusted)
  | some source =>
      obtain ⟨iss, hiss, htrusted⟩ := hvouched.trusted
      obtain ⟨list, reading, hseen, hreading, hdecision⟩ := (trustedFor_registry hregistry).mp htrusted
      refine { hvouched with trusted := ⟨iss, hiss, (trustedFor_registry hregistry).mpr ?_⟩ }
      exact ⟨list, reading, verifiedIn_of_seen run hcache hlog hregistry hseen, hreading, hdecision⟩

/-! ### A credential that runs out while the next is being accepted

The issuer hands out three credentials at once. The first expires at 100 and is accepted
at 90. Accepting the second takes until 150; the `exp` of the third is negative. -/

/-- What lies in the past at `t` by an integer `exp`. -/
def integerOf : Value → Option ℤ
  | .number (.posInt n) => some n.toNat
  | .number (.negInt n) => some n
  | _ => none

/-- No integer `exp` of the credential lies at or before `t`. -/
def UnexpiredAt (X : HubExternal) (container : CredentialContainer) (t : ℕ) : Prop :=
  ∀ jws header payload, containerJws X container = .ok (jws, header, payload) →
    ∀ exp, (payload.get "exp").bind integerOf = some exp → t < exp

def agedPayload (exp : Json.Number) : Value :=
  .object
    [("iss", .string "did:web:issuer"), ("sub", .string "did:web:hub"),
     ("vc", .object [("type", .array [.string "MembershipCredential"])]), ("exp", .number exp)]

def agedCredential (exp : Json.Number) : Value :=
  .string (reference.signJws (agedPayload exp) "issuer" "key-1")

def agedContainer (exp : Json.Number) : CredentialContainer :=
  filed (agedCredential exp) "MembershipCredential"

def agedCredentials : List Value :=
  [agedCredential (.posInt 100), agedCredential (.posInt 200), agedCredential (.negInt (-5))]

def agedGrant : PreAuthorizedCodeGrant where
  preAuthorizedCode := "code"
  txCode := none
  authorizationServer := none

def agedOffer : CredentialOffer where
  credentialIssuer := "https://issuer"
  credentialConfigurationIds := ["membership"]
  grants := some (some agedGrant)

def agedBody : RedeemOfferBody where
  offer := none
  credentialOffer := some agedOffer
  credentialOfferUri := none
  txCode := none

def agedConfiguration : CredentialConfiguration where
  format := formatJwtVcJson
  bindingMethods := []

def agedMetadata : CredentialIssuerMetadata where
  credentialIssuer := "https://issuer"
  authorizationServers := []
  credentialEndpoint := "https://issuer/credential"
  nonceEndpoint := none
  credentialConfigurationsSupported := [("membership", agedConfiguration)]

def agedAsMetadata : AuthorizationServerMetadata where
  issuer := "https://issuer"
  tokenEndpoint := "https://issuer/token"
  dpopSigningAlgValuesSupported := []

def agedDiscovery : Discovery where
  offer := agedOffer
  grant := agedGrant
  metadata := agedMetadata
  asMetadata := agedAsMetadata

def agedToken : TokenResponse where
  accessToken := "token"
  tokenType := "Bearer"
  authorizationDetails := []

def agedMetadataDocument : Value :=
  .object
    [("credential_issuer", .string "https://issuer"),
     ("credential_endpoint", .string "https://issuer/credential"),
     ("credential_configurations_supported",
       .object [("membership", .object [("format", .string formatJwtVcJson)])])]

def agedAsMetadataDocument : Value :=
  .object [("issuer", .string "https://issuer"), ("token_endpoint", .string "https://issuer/token")]

def agedTokenDocument : Value :=
  .object [("access_token", .string "token"), ("token_type", .string "Bearer")]

def agedCredentialDocument : Value :=
  .object [("credentials",
    .array (agedCredentials.map (fun credential => .object [("credential", credential)])))]

/-- The hub's state when its clock reads `t`. -/
def agedState (t : ℕ) : HubState hubReference := { sampleState (.empty 1) with clock := t }

/-- The batch that is stored. -/
def agedBatch : StoredCredentialBatch :=
  redeemedBatch "uuid-1"
    [agedContainer (.posInt 100), agedContainer (.posInt 200), agedContainer (.negInt (-5))]

/-- A UUID is drawn for it. -/
def agedDrawn : HubEvent hubReference := ⟨HubOp.uuid, "uuid-1"⟩

def agedProgress : Progress where
  nonce := none
  containers := agedBatch.credentials
  stored := List.replicate 3
    { credentialConfigurationId := "membership", credentialType := "MembershipCredential" }
  notStored := []

section

variable {s s' : HubState hubReference} {ε : Type}

theorem runs_answered {request : HttpRequest} {describe : String → ε}
    (response : HttpResponse) :
    (hubEnvironment hubReference).Runs (send request describe) s response s :=
  .of_event (send_returns response) rfl

theorem runs_nowSecs {t t' : ℕ} (h : t ≤ t') :
    (hubEnvironment hubReference).Runs (nowSecs : HubProgram hubReference ε ℕ) (agedState t) t'
      (agedState t') :=
  .of_event (nowSecs_returns t') ⟨h, rfl⟩

theorem aged_discover : (hubEnvironment hubReference).Runs (discover walletHub agedBody)
    (agedState 0) agedDiscovery (agedState 0) := by
  have hoffer : (resolveOffer walletHub agedBody).Returns [] agedOffer := .refl _
  have hissuer : readBody hubReference CredentialIssuerMetadata.fromJson
      (documentResponse agedMetadataDocument) = .ok agedMetadata := readBody_document rfl
  have hserver : readBody hubReference AuthorizationServerMetadata.fromJson
      (documentResponse agedAsMetadataDocument) = .ok agedAsMetadata := readBody_document rfl
  refine .bind (.of_returns hoffer) ?_
  refine .bind (.of_returns (.ofExcept rfl)) ?_
  refine .bind (.of_returns (.require nofun)) ?_
  refine .bind (.of_returns (.ofExcept rfl)) ?_
  refine .bind (.of_event (getJson_returns rfl rfl hissuer) rfl) ?_
  refine .bind (.of_returns (.require rfl)) ?_
  refine .bind (.of_returns (.ofExcept rfl)) ?_
  refine .bind (.of_event (getJson_returns rfl rfl hserver) rfl) ?_
  exact .of_returns (.refl _)

/-- An answer that reads as what was asked for. -/
theorem readJson_document {α : Type} {read : Value → Option α} {document : Value} {url : String}
    {a : α} (h : read document = some a) :
    readJson hubReference read url (documentResponse document) = .ok a := by
  have hsuccess : (documentResponse document).isSuccess = true := rfl
  rw [readJson, if_pos hsuccess, readBody_document h]
  rfl

theorem aged_token : (hubEnvironment hubReference).Runs
    (requestToken walletHub none agedDiscovery none) (agedState 0) agedToken (agedState 0) := by
  refine .bind (.of_returns (.ofExcept rfl)) ?_
  have hattempts : (hubEnvironment hubReference).Runs
      (tokenAttempts walletHub none agedDiscovery none 2 none) (agedState 0)
      (documentResponse agedTokenDocument) (agedState 0) := by
    have hattempt : (hubEnvironment hubReference).Runs
        (tokenAttempt walletHub none agedDiscovery none none) (agedState 0)
        (documentResponse agedTokenDocument) (agedState 0) :=
      .bind (.of_returns (.refl _)) (.bind (.of_returns (.refl _)) (runs_answered _))
    exact .bind hattempt (.of_returns (.refl _))
  refine .bind hattempts ?_
  refine .bind (.of_returns (.ofExcept (readJson_document rfl))) ?_
  refine .bind (.of_returns (.require fun hbound => absurd hbound (by decide))) ?_
  exact .of_returns (.refl _)

/-- The credentials are asked for at 80. -/
theorem aged_request : (hubEnvironment hubReference).Runs
    (requestCredentials walletHub none agedDiscovery agedToken agedConfiguration
      ("credential_configuration_id", .string "membership") none)
    (agedState 0) (agedCredentials, none) (agedState 80) := by
  have hdocument : CredentialResponse.fromJson agedCredentialDocument =
      some { credentials := agedCredentials, credential := none, transactionId := none } := rfl
  refine .bind (.of_returns (.refl _)) ?_
  refine .bind (.bind (runs_nowSecs (Nat.zero_le 80)) (.of_returns (.refl _))) ?_
  have hposted : ∀ body, (hubEnvironment hubReference).Runs
      (postJson walletHub CredentialResponse.fromJson agedToken "https://issuer/credential" body none)
      (agedState 80)
      ({ credentials := agedCredentials, credential := none, transactionId := none }, none)
      (agedState 80) := by
    intro body
    refine .bind (.of_returns (.ofExcept rfl)) ?_
    have hattempts : (hubEnvironment hubReference).Runs
        (resourceAttempts walletHub agedToken "https://issuer/credential" body 2 none)
        (agedState 80) (documentResponse agedCredentialDocument, none) (agedState 80) := by
      have hattempt : (hubEnvironment hubReference).Runs
          (resourceAttempt walletHub agedToken "https://issuer/credential" body none) (agedState 80)
          (documentResponse agedCredentialDocument) (agedState 80) :=
        .bind (.of_returns (.refl _)) (runs_answered _)
      exact .bind hattempt (.of_returns (.refl _))
    refine .bind hattempts ?_
    exact .bind (.of_returns (.ofExcept (readJson_document hdocument))) (.of_returns (.refl _))
  refine .bind (hposted _) ?_
  refine .bind (.of_returns (.require rfl)) ?_
  exact .bind (.of_returns (.require (by simp [agedCredentials]))) (.of_returns (.refl _))

theorem agedCredential_decoded (exp : Json.Number) :
    containerJws hubReference (agedContainer exp) =
      .ok (reference.signJws (agedPayload exp) "issuer" "key-1", Reference.header "key-1",
        agedPayload exp) :=
  containerJws_eq_ok.mpr ⟨rfl, reference_decode_sign (agedPayload exp) "key-1" "issuer"⟩

/-- One of the credentials is accepted, if it has not expired. -/
theorem aged_accepted {exp : Json.Number}
    (hlive : (hubEnvironment hubReference).Runs (checkNotExpired (agedPayload exp)) s () s') :
    (hubEnvironment hubReference).Runs (acceptIssuedCredential walletHub (agedCredential exp)) s
      "MembershipCredential" s' := by
  have hdecoded : hubReference.decodeJwsUnverified
      (reference.signJws (agedPayload exp) "issuer" "key-1") =
        .ok (Reference.header "key-1", agedPayload exp) :=
    reference_decode_sign (agedPayload exp) "key-1" "issuer"
  have hsignature : hubReference.verifyJwsSignature
      (reference.signJws (agedPayload exp) "issuer" "key-1") "issuer" = .ok () :=
    reference_verify_sign (agedPayload exp) "key-1" "issuer"
  have hformat : isJwtFormat formatJwtVcJson = true := by decide
  have hproof : (hubEnvironment hubReference).Runs
      (verifyCredentialProof walletHub (probeContainer (agedCredential exp))) s () s := by
    refine .bind (.of_returns (.require hformat)) ?_
    refine .bind (.of_returns (.ofExcept (containerJws_eq_ok.mpr ⟨rfl, hdecoded⟩))) ?_
    refine .bind (.of_returns (.ofExcept rfl)) ?_
    refine .bind (.of_returns (.ofExcept (Option.okOr_eq_ok.mpr (Reference.header_kid _)))) ?_
    refine .bind (.of_returns (.ofExcept rfl)) ?_
    refine .bind (.mapError (.of_event (resolveDid_returns rfl issuerDocument) rfl)) ?_
    refine .bind (.of_returns (.ofExcept rfl)) ?_
    exact .of_returns (.ofExcept (Except.mapError_eq_ok.mpr hsignature))
  refine .bind (.of_returns (.ofExcept rfl)) ?_
  refine .bind (.of_returns (.ofExcept (Except.mapError_eq_ok.mpr hdecoded))) ?_
  refine .bind (.of_returns (.ofExcept rfl)) ?_
  refine .bind (.mapError (.of_returns (.ofExcept rfl))) ?_
  refine .bind (.mapError (.bind hproof (.of_returns (.refl _)))) ?_
  refine .bind (.of_returns (.require rfl)) ?_
  exact .bind hlive (.of_returns (.refl _))

/-- An `exp` that lies ahead of the next reading of the clock. -/
theorem aged_live {exp : UInt64} {t t' : ℕ} (hclock : t ≤ t') (hlive : t' < exp.toNat) :
    (hubEnvironment hubReference).Runs (checkNotExpired (agedPayload (.posInt exp))) (agedState t)
      () (agedState t') :=
  .bind (runs_nowSecs hclock) (.of_returns (.require hlive))

/-- When everything is gathered the clock reads 150. -/
theorem aged_gather : (hubEnvironment hubReference).Runs (gather walletHub none agedBody)
    (agedState 0) (agedDiscovery, agedProgress) (agedState 150) := by
  refine .bind aged_discover ?_
  refine .bind aged_token ?_
  have haccepted : (hubEnvironment hubReference).Runs
      (acceptCredentials walletHub "membership" agedCredentials .start) (agedState 80)
      agedProgress (agedState 150) := by
    refine .bind (aged_accepted (aged_live (show 80 ≤ 90 by decide) (by decide))) ?_
    refine .bind (aged_accepted (aged_live (show 90 ≤ 150 by decide) (by decide))) ?_
    -- a negative `exp` is not looked at
    have hunread : (hubEnvironment hubReference).Runs
        (checkNotExpired (agedPayload (.negInt (-5)))) (agedState 150) () (agedState 150) :=
      .of_returns (.refl _)
    exact .bind (aged_accepted hunread) (.of_returns (.refl _))
  have hrounds : (hubEnvironment hubReference).Runs
      (redeemConfigurations walletHub none agedDiscovery agedToken ["membership"] .start)
      (agedState 0) agedProgress (agedState 150) := by
    refine .bind (.of_returns (.ofExcept rfl)) ?_
    refine .bind (.bind ?_ (.of_returns (.refl _))) (.of_returns (.refl _))
    exact .bind aged_request haccepted
  exact .bind hrounds (.of_returns (.refl _))

end

abbrev AgedRun :=
  StoreRun walletHub none (agedState 0) (fun _ : Unit => StoreCall.redemption agedBody)

/-- The batch is stored when the clock reads 150. -/
theorem aged_run : ∃ (run : AgedRun) (pre post : List (Unit × HubEvent hubReference)),
    run.log = pre ++ ((), batchStored hubReference agedBatch) :: post ∧
      (hubEnvironment hubReference).Replays (agedState 0) (pre.map Prod.snd) (agedState 150) ∧
        agedBatch ∈ run.final.store := by
  obtain ⟨events, hgather, hreplays⟩ := aged_gather
  have huuid : (hubEnvironment hubReference).Replays (agedState 0) (events ++ [agedDrawn])
      (agedState 150) :=
    hreplays.append (.cons rfl (.nil _))
  have hstored : (hubEnvironment hubReference).Replays (agedState 0)
      ((events ++ [agedDrawn]) ++ [batchStored hubReference agedBatch])
      { agedState 150 with store := (agedState 150).store.store agedBatch } :=
    huuid.append (.cons rfl (.nil _))
  have hredeem : (redeem walletHub none agedBody).Returns
      ((events ++ [agedDrawn]) ++ [batchStored hubReference agedBatch])
      { credentialIssuer := "https://issuer"
        stored := agedProgress.stored
        notStored := agedProgress.notStored } := by
    rw [List.append_assoc]
    exact hgather.followed (.ask (.ask (.refl _)))
  have hcall : (StoreCall.program walletHub none (.redemption agedBody)).Evolves
      ((events ++ [agedDrawn]) ++ [batchStored hubReference agedBatch]) (.pure ()) :=
    hredeem.mapError.bind
  refine ⟨.alone hcall hstored,
    (events ++ [agedDrawn]).map (Prod.mk ()), [], ?_, ?_, ?_⟩
  · exact List.map_append
  · rw [List.map_map]
    exact (List.map_id _).symm ▸ huuid
  · exact List.mem_singleton.mpr rfl

/-- A credential that has expired, and one whose `exp` is negative, are in the store: it
took them in at 150. -/
theorem expired_credentials_stored :
    ∃ (run : AgedRun) (pre post : List (Unit × HubEvent hubReference)) (s : HubState hubReference),
      run.log = pre ++ ((), batchStored hubReference agedBatch) :: post ∧
        (hubEnvironment hubReference).Replays (agedState 0) (pre.map Prod.snd) s ∧
          agedBatch ∈ run.final.store ∧
            ∀ exp ∈ [Json.Number.posInt 100, Json.Number.negInt (-5)],
              agedContainer exp ∈ agedBatch.credentials ∧
                ¬ UnexpiredAt hubReference (agedContainer exp) s.clock := by
  obtain ⟨run, pre, post, hlog, hreplays, hheld⟩ := aged_run
  refine ⟨run, pre, post, agedState 150, hlog, hreplays, hheld, ?_⟩
  intro exp hexp
  rcases List.mem_cons.mp hexp with rfl | hexp
  · refine ⟨List.mem_cons_self, fun h => ?_⟩
    have hahead : ((150 : ℕ) : ℤ) < 100 := h _ _ _ (agedCredential_decoded _) 100 rfl
    omega
  · rw [List.mem_singleton.mp hexp]
    refine ⟨by simp [agedBatch, redeemedBatch], fun h => ?_⟩
    have hahead : ((150 : ℕ) : ℤ) < -5 := h _ _ _ (agedCredential_decoded _) (-5) rfl
    omega

theorem held_credentials_vouched_aged :
    ∃ run : AgedRun, agedBatch ∈ run.final.store ∧
      ∀ batch ∈ run.final.store, ∃ i pre post,
        run.log = pre ++ (i, batchStored hubReference batch) :: post ∧
          ∀ container ∈ batch.credentials, ∃ jws header payload,
            Vouched walletHub (VerifiedIn walletHub pre) (eventsOf i pre) container jws header
              payload := by
  obtain ⟨run, pre, post, -, -, hheld⟩ := aged_run
  exact ⟨run, hheld, held_credentials_vouched run rfl rfl⟩

end IdentityHub
