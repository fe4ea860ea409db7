import IdentityHub.Hub.Trust
import IdentityHub.Hub.Validation

/-!
# What the hub knows of a credential it stores

The rules for the parts both write paths share: whom `check_issuer` lets through,
what `verify_credential_proofs` has verified, and which requests they may send.
-/

namespace IdentityHub

open Json (Value)

variable {X : HubExternal}

/-! ## Snapshots and trust -/

/-- A snapshot the registry signed, under the key its own document has for it. -/
def SnapshotVerified (hub : Hub X) (source : TrustedIssuersRegistry) (events : List (HubEvent X))
    (list : X.TrustList) : Prop :=
  ∃ token url doc kid key now, X.didWebToUrl source.did hub.insecureHttp = .ok url ∧
    documentFetched X url (.ok doc) ∈ events ∧ X.snapshotKid (Text.trim token) = .ok kid ∧
      X.findVerifyingKey doc kid = .ok key ∧
        X.verifySnapshot (Text.trim token) source.did key now = .ok list

/-- A snapshot read from the cache, or verified. -/
def SnapshotSeen (hub : Hub X) (source : TrustedIssuersRegistry) (events : List (HubEvent X))
    (list : X.TrustList) : Prop :=
  (∃ cached, trustCacheRead X (some cached) ∈ events ∧ cached.list = list) ∨
    SnapshotVerified hub source events list

/-- The issuer is on the static list; or, with a registry, a snapshot trusts it for the
type at a reading of the clock. -/
def TrustedFor (hub : Hub X) (known : TrustedIssuersRegistry → X.TrustList → Prop)
    (events : List (HubEvent X)) (iss credentialType : String) : Prop :=
  match hub.trustedIssuersRegistry with
  | none => iss ∈ hub.trustedIssuerDids
  | some source => ∃ list reading, known source list ∧ clockRead X reading ∈ events ∧
      (X.checkTrust list iss credentialType reading).trusted = true

/-- What may be asked for on the way: requests to allowed hosts, the clock, UUIDs, the
cached snapshot, and a new one only once it is verified. `own` says which requests are
sent, and covers the tables. -/
def Confined (hub : Hub X) (own : List (HubEvent X) → HubOp X → Prop)
    (past : List (HubEvent X)) (op : HubOp X) : Prop :=
  match op with
  | .now => True
  | .uuid => True
  | .readTrustCache => True
  | .fetchDocument url => hub.outbound.checkUrl X url = .ok ()
  | .send request => hub.outbound.checkUrl X request.url = .ok () ∧ own past (.send request)
  | .writeTrustCache cached => ∃ source, hub.trustedIssuersRegistry = some source ∧
      SnapshotVerified hub source past cached.list
  | op => own past op

variable {hub : Hub X} {own : List (HubEvent X) → HubOp X → Prop}

theorem SnapshotVerified.mono {source : TrustedIssuersRegistry} {events events' : List (HubEvent X)}
    {list : X.TrustList} (h : SnapshotVerified hub source events list) (hsub : events ⊆ events') :
    SnapshotVerified hub source events' list := by
  obtain ⟨token, url, doc, kid, key, now, hurl, hfetched, hrest⟩ := h
  exact ⟨token, url, doc, kid, key, now, hurl, hsub hfetched, hrest⟩

theorem SnapshotSeen.mono {source : TrustedIssuersRegistry} {events events' : List (HubEvent X)}
    {list : X.TrustList} (h : SnapshotSeen hub source events list) (hsub : events ⊆ events') :
    SnapshotSeen hub source events' list := by
  rcases h with ⟨cached, hread, hlist⟩ | hverified
  · exact Or.inl ⟨cached, hsub hread, hlist⟩
  · exact Or.inr (hverified.mono hsub)

theorem trustedFor_static {known : TrustedIssuersRegistry → X.TrustList → Prop}
    {events : List (HubEvent X)} {iss credentialType : String}
    (hstatic : hub.trustedIssuersRegistry = none) :
    TrustedFor hub known events iss credentialType ↔ iss ∈ hub.trustedIssuerDids := by
  rw [TrustedFor, hstatic]

theorem trustedFor_registry {known : TrustedIssuersRegistry → X.TrustList → Prop}
    {events : List (HubEvent X)} {iss credentialType : String} {source : TrustedIssuersRegistry}
    (hregistry : hub.trustedIssuersRegistry = some source) :
    TrustedFor hub known events iss credentialType ↔
      ∃ list reading, known source list ∧ clockRead X reading ∈ events ∧
        (X.checkTrust list iss credentialType reading).trusted = true := by
  rw [TrustedFor, hregistry]

theorem TrustedFor.mono {known known' : TrustedIssuersRegistry → X.TrustList → Prop}
    {events events' : List (HubEvent X)} {iss credentialType : String}
    (h : TrustedFor hub known events iss credentialType)
    (hknown : ∀ source list, known source list → known' source list) (hsub : events ⊆ events') :
    TrustedFor hub known' events' iss credentialType := by
  cases hregistry : hub.trustedIssuersRegistry with
  | none => exact (trustedFor_static hregistry).mpr ((trustedFor_static hregistry).mp h)
  | some source =>
      obtain ⟨list, reading, hlist, hreading, htrusted⟩ := (trustedFor_registry hregistry).mp h
      exact (trustedFor_registry hregistry).mpr
        ⟨list, reading, hknown source list hlist, hsub hreading, htrusted⟩

theorem SignedByIssuer.mono {insecureHttp : Bool} {events events' : List (HubEvent X)}
    {token : String} {header payload : Value} {doc : X.DidDocument}
    (h : SignedByIssuer X insecureHttp events token header payload doc) (hsub : events ⊆ events') :
    SignedByIssuer X insecureHttp events' token header payload doc := by
  obtain ⟨iss, kid, url, key, hiss, hkid, hurl, hfetched, hrest⟩ := h
  exact ⟨iss, kid, url, key, hiss, hkid, hurl, hsub hfetched, hrest⟩

theorem checkTypes_eq_ok {list : X.TrustList} {iss : String} {now : ℕ} {types : List String} :
    checkTypes X list iss now types = .ok () ↔
      ∀ t ∈ types, (X.checkTrust list iss t now).trusted = true := by
  induction types with
  | nil => simp [checkTypes]
  | cons t types ih =>
      rw [checkTypes, List.forall_mem_cons, ← ih]
      cases htrusted : (X.checkTrust list iss t now).trusted <;> simp

section

variable (hget : ∀ past url, own past (.send (.ofUrl url)))
include hget

theorem fetchTrustList_wp {source : TrustedIssuersRegistry} {now : ℕ}
    {past : List (HubEvent X)} :
    (fetchTrustList hub source now).wp (Confined hub own)
      (fun later list => SnapshotVerified hub source later list) past := by
  simp only [fetchTrustList, Program.wp_bind, Program.wp_ofExcept, Program.wp_mapError,
    Program.wp_require, wp_resolveDid, wp_send, Except.mapError_eq_ok]
  rintro _ hallowed
  refine ⟨⟨hallowed, hget _ _⟩, fun response _ token _ _ hallowedDid url hurl => ?_⟩
  refine ⟨OutboundPolicy.checkUrl_of_checkDid hallowedDid hurl, ?_⟩
  intro doc kid hkid key hkey list hlist
  exact ⟨token, url, doc, kid, key, now, hurl, by simp, hkid, hkey, hlist⟩

theorem trustList_wp {source : TrustedIssuersRegistry}
    (hregistry : hub.trustedIssuersRegistry = some source) {past : List (HubEvent X)} :
    (trustList hub source).wp (Confined hub own)
      (fun later list => SnapshotSeen hub source later list) past := by
  have hcached : ∀ {cached : Option (CachedTrustList X)} {p : CachedTrustList X → Bool}
      {c : CachedTrustList X} {later : List (HubEvent X)}, cached.filter p = some c →
        trustCacheRead X cached ∈ later → SnapshotSeen hub source later c.list := by
    intro cached p c later hfilter hmem
    obtain ⟨rfl, -⟩ := Option.filter_eq_some_iff.mp hfilter
    exact Or.inl ⟨c, hmem, rfl⟩
  unfold trustList
  rw [Program.wp_bind, wp_readTrustCache]
  refine ⟨trivial, fun cached => ?_⟩
  rw [Program.wp_bind, wp_nowSecs]
  refine ⟨trivial, fun now => ?_⟩
  split
  · rename_i fresh hfresh
    rw [Program.wp_pure]
    exact hcached hfresh (by simp)
  · rw [Program.wp_bind]
    apply Program.wp_attempt
    · refine Program.wp_post (fetchTrustList_wp hget) (fun later list hverified => ?_)
      rw [Program.wp_bind, wp_writeTrustCache]
      refine ⟨⟨source, hregistry, hverified⟩, fun _ => ?_⟩
      rw [Program.wp_pure]
      exact Or.inr (hverified.mono (List.subset_append_left _ _))
    · intro later e
      dsimp only
      split
      · rename_i unexpired hunexpired
        rw [Program.wp_pure]
        exact hcached hunexpired (by simp)
      · rw [Program.wp_throw]
        trivial

/-- With a registry, one snapshot and one reading of the clock decide about all types. -/
theorem checkIssuer_registry_wp {source : TrustedIssuersRegistry}
    (hregistry : hub.trustedIssuersRegistry = some source) {iss : String} {types : List String}
    {past : List (HubEvent X)} :
    (checkIssuer hub iss types).wp (Confined hub own)
      (fun later _ => ∃ list reading, SnapshotSeen hub source later list ∧
        clockRead X reading ∈ later ∧ checkListed X list iss reading types = .ok ()) past := by
  unfold checkIssuer
  rw [hregistry]
  dsimp only
  rw [Program.wp_bind, Program.wp_mapError]
  refine Program.wp_post (trustList_wp hget hregistry) (fun later list hseen => ?_)
  rw [Program.wp_bind, wp_nowSecs]
  refine ⟨trivial, fun now => ?_⟩
  rw [Program.wp_ofExcept]
  intro _ hlisted
  exact ⟨list, now, hseen.mono (List.subset_append_left _ _), by simp, hlisted⟩

/-- **Whom `check_issuer` lets through** is trusted for each of the types. -/
theorem checkIssuer_wp {iss : String} {types : List String} {past : List (HubEvent X)} :
    (checkIssuer hub iss types).wp (Confined hub own)
      (fun later _ => ∀ t ∈ types,
        TrustedFor hub (fun source list => SnapshotSeen hub source later list) later iss t) past := by
  cases hregistry : hub.trustedIssuersRegistry with
  | some source =>
      refine Program.wp_post (checkIssuer_registry_wp hget hregistry) ?_
      rintro later _ ⟨list, now, hseen, hread, hlisted⟩ t ht
      have hnonempty : types ≠ [] := List.ne_nil_of_mem ht
      rw [checkListed, if_neg hnonempty] at hlisted
      exact (trustedFor_registry hregistry).mpr
        ⟨list, now, hseen, hread, checkTypes_eq_ok.mp hlisted t ht⟩
  | none =>
      rw [checkIssuer, hregistry]
      dsimp only
      rw [Program.wp_ofExcept]
      intro _ htrusted t _
      exact (trustedFor_static hregistry).mpr (checkTrustedIssuer_eq_ok.mp htrusted)

end

/-! ## Proofs -/

/-- The signature of a container's payload has been verified under the document of its
own `iss`. -/
def ProofVerified (hub : Hub X) (events : List (HubEvent X)) (container : CredentialContainer)
    (jws : String) (header payload : Value) : Prop :=
  containerJws X container = .ok (jws, header, payload) ∧
    ∃ doc, SignedByIssuer X hub.insecureHttp events jws header payload doc

theorem ProofVerified.mono {events events' : List (HubEvent X)} {container : CredentialContainer}
    {jws : String} {header payload : Value}
    (h : ProofVerified hub events container jws header payload) (hsub : events ⊆ events') :
    ProofVerified hub events' container jws header payload := by
  obtain ⟨hjws, doc, hsigned⟩ := h
  exact ⟨hjws, doc, hsigned.mono hsub⟩

theorem verifyCredentialProof_wp {container : CredentialContainer} {past : List (HubEvent X)} :
    (verifyCredentialProof hub container).wp (Confined hub own)
      (fun later _ => ∃ jws header payload, ProofVerified hub later container jws header payload)
      past := by
  simp only [verifyCredentialProof, Program.wp_bind, Program.wp_ofExcept, Program.wp_mapError,
    Program.wp_require, wp_resolveDid, Except.mapError_eq_ok, Option.okOr_eq_ok]
  rintro _ ⟨jws, header, payload⟩ hjws iss hiss kid hkid _ hallowed url hurl
  refine ⟨OutboundPolicy.checkUrl_of_checkDid hallowed hurl, fun doc key hkey _ hsignature => ?_⟩
  exact ⟨jws, header, payload, hjws, doc, iss, kid, url, key, hiss, hkid, hurl, by simp, hkey,
    hsignature⟩

/-- **What `verify_credential_proofs` has verified**: the proof of every container. -/
theorem verifyCredentialProofs_wp {credentials : List CredentialContainer}
    {past : List (HubEvent X)} :
    (verifyCredentialProofs hub credentials).wp (Confined hub own)
      (fun later _ => ∀ container ∈ credentials,
        ∃ jws header payload, ProofVerified hub later container jws header payload) past := by
  induction credentials generalizing past with
  | nil =>
      rw [verifyCredentialProofs, Program.wp_pure]
      intro container hmem
      cases hmem
  | cons container rest ih =>
      rw [verifyCredentialProofs, Program.wp_bind]
      refine Program.wp_post verifyCredentialProof_wp (fun mid _ hfirst => ?_)
      refine Program.wp_post (Program.wp_extends ih) ?_
      rintro later _ ⟨hgrown, hrest⟩ c hc
      rcases List.mem_cons.mp hc with rfl | hc
      · obtain ⟨jws, header, payload, hverified⟩ := hfirst
        exact ⟨jws, header, payload, hverified.mono hgrown.subset⟩
      · exact hrest c hc

/-! ## Stored credentials -/

/-- What is known of a credential by the time it is stored: its proof, its issuer, its
subject, its type, and that its `exp`, where it has one, lay ahead at a reading of the
clock. -/
structure Vouched (hub : Hub X) (known : TrustedIssuersRegistry → X.TrustList → Prop)
    (events : List (HubEvent X)) (container : CredentialContainer) (jws : String)
    (header payload : Value) : Prop where
  proof : ProofVerified hub events container jws header payload
  trusted : ∃ iss, payload.getStr "iss" = some iss ∧
    TrustedFor hub known events iss container.credentialType
  subject : credentialSubject payload = some hub.identity.ownDid
  type : hasType payload container.credentialType = true
  live : ∀ exp, payload.getU64 "exp" = some exp →
    ∃ reading, clockRead X reading ∈ events ∧ reading < exp

theorem Vouched.mono {known known' : TrustedIssuersRegistry → X.TrustList → Prop}
    {events events' : List (HubEvent X)} {container : CredentialContainer} {jws : String}
    {header payload : Value} (h : Vouched hub known events container jws header payload)
    (hknown : ∀ source list, known source list → known' source list) (hsub : events ⊆ events') :
    Vouched hub known' events' container jws header payload where
  proof := h.proof.mono hsub
  trusted := by
    obtain ⟨iss, hiss, htrusted⟩ := h.trusted
    exact ⟨iss, hiss, htrusted.mono hknown hsub⟩
  subject := h.subject
  type := h.type
  live := by
    intro exp hexp
    obtain ⟨reading, hreading, hlt⟩ := h.live exp hexp
    exact ⟨reading, hsub hreading, hlt⟩

end IdentityHub
