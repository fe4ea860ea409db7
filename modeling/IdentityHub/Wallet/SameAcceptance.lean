import IdentityHub.Hub.Reference
import IdentityHub.Wallet.Accept

/-!
# The wallet and the Storage API

Both check a credential by themselves. With the static list of trusted issuers they
ask the same of its signature, its issuer, its subject and its `exp`. They differ
twice: the wallet does not look at `nbf`, and it takes no `vc.type` that is a single
string. The two agree exactly on the credentials that neither difference touches.
-/

namespace IdentityHub

open Json (Value)

variable {X : HubExternal} (hub : Hub X) (oracle : (op : HubOp X) → HubOp.Answer X op)

/-- The checks the Storage API makes of a container pass. -/
def StorageAccepts (container : CredentialContainer) : Prop :=
  (verifyCredentialProofs hub [container]).eval oracle = .ok () ∧
    checkCredentialClaims X [container] hub.identity.ownDid (some hub.trustedIssuerDids)
      (oracle .now) = .ok ()

/-- The container the wallet files a credential in. -/
def walletContainer (credential : Value) (credentialType : String) : CredentialContainer where
  credentialType := credentialType
  payload := credential
  format := formatJwtVcJson

/-- What the wallet accepts the Storage API accepts under the type the wallet found;
what the Storage API accepts under some specific type the wallet accepts. -/
def SameAcceptance (credential : Value) : Prop :=
  (∀ t, (acceptIssuedCredential hub credential).eval oracle = .ok t →
    StorageAccepts hub oracle (walletContainer credential t)) ∧
  ∀ t, t ≠ "VerifiableCredential" →
    StorageAccepts hub oracle (walletContainer credential t) →
      ∃ t', (acceptIssuedCredential hub credential).eval oracle = .ok t'

/-- A JWS is signed under the key its header names in its issuer's document. -/
def GenuinelySigned (jws : String) (header payload : Value) : Prop :=
  ∃ iss kid url doc key, payload.getStr "iss" = some iss ∧ header.getStr "kid" = some kid ∧
    hub.outbound.checkDid X iss hub.insecureHttp = .ok () ∧
      X.didWebToUrl iss hub.insecureHttp = .ok url ∧ oracle (.fetchDocument url) = .ok doc ∧
        X.findVerifyingKey doc kid = .ok key ∧ X.verifyJwsSignature jws key = .ok ()

/-- What both ask of a credential. -/
structure Acceptable (credential payload : Value) : Prop where
  signed : ∃ jws header, credential = .string jws ∧
    X.decodeJwsUnverified jws = .ok (header, payload) ∧
      GenuinelySigned hub oracle jws header payload
  trusted : (payload.getStr "iss").getD "" ∈ hub.trustedIssuerDids
  subject : credentialSubject payload = some hub.identity.ownDid
  unexpired : ∀ exp, payload.getU64 "exp" = some exp → oracle .now < exp

/-- The start of the window is not too far ahead. -/
def Started (payload : Value) : Prop :=
  ∀ nbf, payload.getU64 "nbf" = some nbf → nbf ≤ oracle .now + clockSkewSecs

variable {hub oracle}

/-! ## What each of them asks -/

theorem verifyCredentialProof_eval {container : CredentialContainer}
    (hformat : container.format = formatJwtVcJson) :
    (verifyCredentialProofs hub [container]).eval oracle = .ok () ↔
      ∃ jws header payload, containerJws X container = .ok (jws, header, payload) ∧
        GenuinelySigned hub oracle jws header payload := by
  have hjwt : isJwtFormat container.format = true := by
    rw [hformat]
    decide
  simp only [verifyCredentialProofs, verifyCredentialProof, Program.eval_bind,
    Program.eval_ofExcept, Program.eval_mapError, eval_resolveDid, Except.bind_eq_ok,
    Except.mapError_eq_ok, Option.okOr_eq_ok, Program.eval_require_eq_ok, Program.eval_pure]
  constructor
  · rintro ⟨_, ⟨_, -, ⟨jws, header, payload⟩, hjws, iss, hiss, kid, hkid, _, hallowed, doc,
      ⟨url, hurl, hdoc⟩, key, hkey, hsignature⟩, -⟩
    exact ⟨jws, header, payload, hjws, iss, kid, url, doc, key, hiss, hkid, hallowed, hurl, hdoc,
      hkey, hsignature⟩
  · rintro ⟨jws, header, payload, hjws, iss, kid, url, doc, key, hiss, hkid, hallowed, hurl, hdoc,
      hkey, hsignature⟩
    exact ⟨(), ⟨(), hjwt, (jws, header, payload), hjws, iss, hiss, kid, hkid, (), hallowed, doc,
      ⟨url, hurl, hdoc⟩, key, hkey, hsignature⟩, trivial⟩

theorem checkIssuer_eval (hstatic : hub.trustedIssuersRegistry = none) {iss : String}
    {types : List String} :
    (checkIssuer hub iss types).eval oracle = .ok () ↔ iss ∈ hub.trustedIssuerDids := by
  unfold checkIssuer
  rw [hstatic]
  dsimp only
  rw [Program.eval_ofExcept, checkTrustedIssuer_eq_ok]

theorem checkNotExpired_eval {payload : Value} :
    (checkNotExpired payload).eval oracle = .ok () ↔
      ∀ exp, payload.getU64 "exp" = some exp → oracle .now < exp := by
  unfold checkNotExpired
  cases hexp : payload.getU64 "exp" with
  | none => simp
  | some exp =>
      simp only [Program.eval_bind, eval_nowSecs, Except.bind_eq_ok, Program.eval_require_eq_ok,
        Except.ok.injEq, exists_eq_left', Option.some.injEq, forall_eq']

variable {credential : Value}

/-- What the wallet accepts. -/
theorem acceptIssuedCredential_eval (hstatic : hub.trustedIssuersRegistry = none) {t : String} :
    (acceptIssuedCredential hub credential).eval oracle = .ok t ↔
      ∃ payload, Acceptable hub oracle credential payload ∧ specificType payload = some t := by
  simp only [acceptIssuedCredential, Program.eval_bind, Program.eval_ofExcept,
    Program.eval_mapError, Except.bind_eq_ok, Except.mapError_eq_ok, Option.okOr_eq_ok,
    Program.eval_require_eq_ok, Program.eval_pure, Except.ok.injEq]
  constructor
  · rintro ⟨jws, hjws, ⟨header, payload⟩, hdecoded, t', htype, _, hissuer, _, hproof, _, hsubject,
      _, hunexpired, rfl⟩
    rw [Value.asStr_eq_some] at hjws
    obtain ⟨jws', header', payload', hjws', hsigned⟩ := (verifyCredentialProof_eval rfl).mp hproof
    obtain ⟨hpayload', hdecoded'⟩ := containerJws_eq_ok.mp hjws'
    rw [show (probeContainer credential).payload = credential from rfl, hjws] at hpayload'
    cases hpayload'
    rw [hdecoded] at hdecoded'
    cases hdecoded'
    exact ⟨payload, ⟨⟨jws, header, hjws, hdecoded, hsigned⟩, (checkIssuer_eval hstatic).mp hissuer,
      hsubject, checkNotExpired_eval.mp hunexpired⟩, htype⟩
  · rintro ⟨payload, ⟨⟨jws, header, hjws, hdecoded, hsigned⟩, htrusted, hsubject, hunexpired⟩,
      htype⟩
    exact ⟨jws, Value.asStr_eq_some.mpr hjws, (header, payload), hdecoded, t, htype, (),
      (checkIssuer_eval hstatic).mpr htrusted, (),
      (verifyCredentialProof_eval rfl).mpr ⟨jws, header, payload,
        containerJws_eq_ok.mpr ⟨hjws, hdecoded⟩, hsigned⟩, (), hsubject, (),
      checkNotExpired_eval.mpr hunexpired, rfl⟩

/-- What the Storage API accepts. -/
theorem storageAccepts_iff {t : String} :
    StorageAccepts hub oracle (walletContainer credential t) ↔
      ∃ payload, Acceptable hub oracle credential payload ∧ hasType payload t = true ∧
        Started oracle payload := by
  rw [StorageAccepts, verifyCredentialProof_eval rfl, checkCredentialClaims_eq_ok,
    List.forall_mem_singleton, checkContainerClaims_eq_ok]
  constructor
  · rintro ⟨⟨jws, header, payload, hjws, hsigned⟩, jws', header', payload', hholds⟩
    have hsame := hholds.decoded
    rw [hjws] at hsame
    cases hsame
    obtain ⟨hpayload, hdecoded⟩ := containerJws_eq_ok.mp hjws
    obtain ⟨hunexpired, hstarted⟩ := isWithinValidity_iff.mp hholds.validity
    exact ⟨payload, ⟨⟨jws, header, hpayload, hdecoded, hsigned⟩, hholds.issuer _ rfl,
      hholds.subject, hunexpired⟩, hholds.type, hstarted⟩
  · rintro ⟨payload, ⟨⟨jws, header, hjws, hdecoded, hsigned⟩, htrusted, hsubject, hunexpired⟩,
      htype, hstarted⟩
    have hcontainer : containerJws X (walletContainer credential t) = .ok (jws, header, payload) :=
      containerJws_eq_ok.mpr ⟨hjws, hdecoded⟩
    refine ⟨⟨jws, header, payload, hcontainer, hsigned⟩, jws, header, payload, hcontainer, htype,
      ?_, hsubject, isWithinValidity_iff.mpr ⟨hunexpired, hstarted⟩⟩
    rintro trusted h
    cases h
    exact htrusted

/-! ## The two readings of `vc.type` -/

section

variable {payload : Value} {t : String}

/-- A list that has a specific type has a last one. -/
theorem specificType_isSome {types : List Value}
    (hpointer : payload.pointer ["vc", "type"] = some (.array types))
    (h : hasType payload t = true) (ht : t ≠ "VerifiableCredential") :
    ∃ t', specificType payload = some t' := by
  unfold hasType at h
  rw [hpointer] at h
  obtain ⟨entry, hentry, hstr⟩ := List.any_eq_true.mp h
  have hmem : t ∈ (types.filterMap Value.asStr).reverse := by
    rw [List.mem_reverse, List.mem_filterMap]
    exact ⟨entry, hentry, by simpa using hstr⟩
  unfold specificType
  rw [hpointer]
  refine Option.isSome_iff_exists.mp (List.find?_isSome.mpr ⟨t, hmem, ?_⟩)
  simpa using ht

theorem specificType_of_string (hpointer : payload.pointer ["vc", "type"] = some (.string t)) :
    specificType payload = none := by
  unfold specificType
  rw [hpointer]
  rfl

theorem hasType_string (hpointer : payload.pointer ["vc", "type"] = some (.string t)) :
    hasType payload t = true := by
  unfold hasType
  rw [hpointer]
  simp

end

/-! ## Where they agree -/

/-- **When the wallet and the Storage API accept the same**: of a credential both
find acceptable, a specific type in the `vc.type` list means that `nbf` is not too
far ahead, and a single specific `vc.type` string means that it is. -/
theorem sameAcceptance_iff (hstatic : hub.trustedIssuersRegistry = none) :
    SameAcceptance hub oracle credential ↔
      ∀ payload, Acceptable hub oracle credential payload →
        ((∃ t, specificType payload = some t) → Started oracle payload) ∧
          ∀ t, payload.pointer ["vc", "type"] = some (.string t) → t ≠ "VerifiableCredential" →
            ¬ Started oracle payload := by
  have hunique : ∀ {payload payload' : Value}, Acceptable hub oracle credential payload →
      Acceptable hub oracle credential payload' → payload = payload' := by
    rintro payload payload' ⟨⟨jws, header, hjws, hdecoded, -⟩, -, -, -⟩
      ⟨⟨jws', header', hjws', hdecoded', -⟩, -, -, -⟩
    rw [hjws] at hjws'
    cases hjws'
    rw [hdecoded] at hdecoded'
    cases hdecoded'
    rfl
  constructor
  · rintro ⟨hwallet, hstorage⟩ payload hacceptable
    constructor
    · rintro ⟨t, htype⟩
      have haccepts :=
        hwallet t ((acceptIssuedCredential_eval hstatic).mpr ⟨payload, hacceptable, htype⟩)
      obtain ⟨payload', hacceptable', -, hstarted⟩ := storageAccepts_iff.mp haccepts
      rwa [hunique hacceptable hacceptable']
    · intro t hpointer ht hstarted
      obtain ⟨t', haccept⟩ := hstorage t ht
        (storageAccepts_iff.mpr ⟨payload, hacceptable, hasType_string hpointer, hstarted⟩)
      obtain ⟨payload', hacceptable', htype⟩ := (acceptIssuedCredential_eval hstatic).mp haccept
      rw [← hunique hacceptable hacceptable', specificType_of_string hpointer] at htype
      cases htype
  · intro h
    constructor
    · intro t haccept
      obtain ⟨payload, hacceptable, htype⟩ := (acceptIssuedCredential_eval hstatic).mp haccept
      exact storageAccepts_iff.mpr ⟨payload, hacceptable, hasType_of_specificType htype,
        (h payload hacceptable).1 ⟨t, htype⟩⟩
    · intro t ht haccepts
      obtain ⟨payload, hacceptable, htype, hstarted⟩ := storageAccepts_iff.mp haccepts
      have hspecific : ∃ t', specificType payload = some t' := by
        have hcases := htype
        unfold hasType at hcases
        split at hcases
        · rename_i only hpointer
          rw [decide_eq_true_eq] at hcases
          subst hcases
          exact absurd hstarted ((h payload hacceptable).2 only hpointer ht)
        · rename_i types hpointer
          exact specificType_isSome hpointer htype ht
        · cases hcases
      obtain ⟨t', ht'⟩ := hspecific
      exact ⟨t', (acceptIssuedCredential_eval hstatic).mpr ⟨payload, hacceptable, ht'⟩⟩

/-! ### Two credentials on which they differ -/

def walletHub : Hub hubReference where
  identity := { ownDid := "did:web:hub", ownKeyId := "did:web:hub#key-1", signingKey := "hub" }
  stsParty := { ownDid := "did:web:sts", ownKeyId := "did:web:sts#key-1", signingKey := "sts" }
  insecureHttp := false
  outbound := { allowedHosts := ["issuer"] }
  trustedIssuerDids := ["did:web:issuer"]
  knownHolderPids := []
  trustedIssuersRegistry := none
  scopeType := some

def issuerDocument : hubReference.DidDocument :=
  { keys := [("key-1", "issuer")], capabilityInvocation := [], services := [] : ReferenceDocument }

/-- The clock reads 100 and every document is the issuer's. -/
def walletOracle : (op : HubOp hubReference) → HubOp.Answer hubReference op
  | .now => 100
  | .fetchDocument _ => .ok issuerDocument
  | .send _ => .error "unreachable"
  | .uuid => "uuid-1"
  | .rememberJti _ => true
  | .readTrustCache => none
  | .writeTrustCache _ => ()
  | .storeBatch _ => ()
  | .credentialsOfTypes _ => []
  | .addOffer _ => "offer-1"

def issuedPayload (type : Value) (nbf : ℕ) : Value :=
  .object
    [("iss", .string "did:web:issuer"), ("sub", .string "did:web:hub"),
     ("vc", .object [("type", type)]), ("nbf", .ofNat nbf)]

def issuedCredential (type : Value) (nbf : ℕ) : Value :=
  .string (reference.signJws (issuedPayload type nbf) "issuer" "key-1")

theorem issuedCredential_acceptable (type : Value) (nbf : ℕ) :
    Acceptable walletHub walletOracle (issuedCredential type nbf) (issuedPayload type nbf) := by
  have hdecoded : hubReference.decodeJwsUnverified
      (reference.signJws (issuedPayload type nbf) "issuer" "key-1") =
        .ok (Reference.header "key-1", issuedPayload type nbf) :=
    reference_decode_sign (issuedPayload type nbf) "key-1" "issuer"
  have hsignature : hubReference.verifyJwsSignature
      (reference.signJws (issuedPayload type nbf) "issuer" "key-1") "issuer" = .ok () :=
    reference_verify_sign (issuedPayload type nbf) "key-1" "issuer"
  refine ⟨⟨_, _, rfl, hdecoded, "did:web:issuer", "key-1",
    "https://issuer/.well-known/did.json", issuerDocument, "issuer", rfl, Reference.header_kid _,
    rfl, rfl, rfl, rfl, hsignature⟩, List.mem_singleton.mpr rfl, rfl, fun exp h => ?_⟩
  cases h

/-- The wallet accepts a credential whose `nbf` is far ahead and the Storage API does
not; the Storage API accepts one whose `vc.type` is a single string and the wallet
does not. -/
theorem acceptance_differs :
    ((acceptIssuedCredential walletHub
        (issuedCredential (.array [.string "MembershipCredential"]) 1000)).eval walletOracle =
          .ok "MembershipCredential" ∧
      ¬ StorageAccepts walletHub walletOracle (walletContainer
        (issuedCredential (.array [.string "MembershipCredential"]) 1000)
          "MembershipCredential")) ∧
    StorageAccepts walletHub walletOracle (walletContainer
        (issuedCredential (.string "MembershipCredential") 0) "MembershipCredential") ∧
      ∀ t, (acceptIssuedCredential walletHub
        (issuedCredential (.string "MembershipCredential") 0)).eval walletOracle ≠ .ok t := by
  have hunique : ∀ {type payload : Value} {nbf : ℕ},
      Acceptable walletHub walletOracle (issuedCredential type nbf) payload →
        payload = issuedPayload type nbf := by
    rintro type payload nbf ⟨⟨jws, header, hjws, hdecoded, -⟩, -, -, -⟩
    cases hjws
    have hsample : hubReference.decodeJwsUnverified
        (reference.signJws (issuedPayload type nbf) "issuer" "key-1") =
          .ok (Reference.header "key-1", issuedPayload type nbf) :=
      reference_decode_sign (issuedPayload type nbf) "key-1" "issuer"
    rw [hsample] at hdecoded
    cases hdecoded
    rfl
  refine ⟨⟨?_, fun h => ?_⟩, ?_, fun t h => ?_⟩
  · exact (acceptIssuedCredential_eval rfl).mpr ⟨_, issuedCredential_acceptable _ _, rfl⟩
  · obtain ⟨payload, hacceptable, -, hstarted⟩ := storageAccepts_iff.mp h
    rw [hunique hacceptable] at hstarted
    exact absurd (hstarted 1000 rfl) (by decide)
  · refine storageAccepts_iff.mpr ⟨_, issuedCredential_acceptable _ _, rfl, fun nbf hnbf => ?_⟩
    cases hnbf
    exact Nat.zero_le _
  · obtain ⟨payload, hacceptable, htype⟩ := (acceptIssuedCredential_eval rfl).mp h
    rw [hunique hacceptable] at htype
    cases htype

theorem sameAcceptance_iff_issued :
    SameAcceptance walletHub walletOracle
        (issuedCredential (.array [.string "MembershipCredential"]) 0) ↔
      ∀ payload, Acceptable walletHub walletOracle
          (issuedCredential (.array [.string "MembershipCredential"]) 0) payload →
        ((∃ t, specificType payload = some t) → Started walletOracle payload) ∧
          ∀ t, payload.pointer ["vc", "type"] = some (.string t) → t ≠ "VerifiableCredential" →
            ¬ Started walletOracle payload :=
  sameAcceptance_iff rfl

end IdentityHub
