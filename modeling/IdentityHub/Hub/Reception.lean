import IdentityHub.Hub.State
import IdentityHub.Hub.Storage
import IdentityHub.Issuer.Progress
import IdentityHub.Issuer.Records
import IdentityHub.Lib.Ensures
import IdentityHub.Wallet.OwnIssuer

/-!
# A delivery and its reception

The issuer posts what it minted to the holder's Storage API, and a hub is such a holder.
What every post of this issuer is made of is an invariant of the issuer alone; that a hub
takes it is a fact about the hub alone. Together: a post that reaches a hub which trusts
the issuer, and reaches it in time, cannot be refused, whatever the hub reads from its
clock on the way. Its answer completes the process.
-/

namespace IdentityHub

open Json (Value)
open StepSystem (Reachable)

/-! ## What a task posts -/

section

variable {X : External} {service : IssuerService X} {start : ℕ}

/-- The credential was minted for the job, from one of its definitions. -/
def Minted.SignedFor (service : IssuerService X) (job : DeliveryJob) (m : Minted) : Prop :=
  ∃ definition index now uuid, m = mintForJob service job definition index now uuid

/-- The post carries a token for the job and what was minted for it. -/
structure StorageCall.MadeFor (service : IssuerService X) (job : DeliveryJob)
    (minted : List Minted) (call : StorageCall) : Prop where
  bearer : ∃ now jti, call.bearer = deliveryToken service job now jti
  message : call.message = deliveryMessage job minted
  signed : ∀ m ∈ minted, m.SignedFor service job

/-- What a task has minted and posted for its process. -/
structure Delivery.Posts (service : IssuerService X) (p : IssuanceProcess) (t : Delivery) :
    Prop where
  minting : ∀ job endpoint todo minted, t.phase = .minting job endpoint todo minted →
    ∀ m ∈ minted, m.SignedFor service job
  waiting : ∀ minted, t.phase = .waiting minted → ∃ call job, t.posts.head? = some call ∧
    job.For p ∧ call.MadeFor service job minted

theorem Delivery.posts_new (p : IssuanceProcess) (processId : String) :
    (Delivery.new processId).Posts service p where
  minting _ _ _ _ h := by cases h
  waiting _ h := by cases h

theorem Delivery.Posts.congr {p p' : IssuanceProcess} {t : Delivery} (h : t.Posts service p)
    (hp : p.SameRequest p') : t.Posts service p' where
  minting := h.minting
  waiting minted hphase := by
    obtain ⟨call, job, hhead, hjob, hmade⟩ := h.waiting minted hphase
    exact ⟨call, job, hhead, hjob.congr hp, hmade⟩

theorem Delivery.Posts.answer {p : IssuanceProcess} {t t' : Delivery} {status : ℕ}
    (h : t.Posts service p) (hanswer : t.answer status = some t') : t'.Posts service p := by
  obtain ⟨newest, earlier, hposts, -, rfl⟩ := Delivery.answer_eq_some hanswer
  refine ⟨h.minting, ?_⟩
  intro minted hphase
  obtain ⟨call, job, hhead, hjob, hmade⟩ := h.waiting minted hphase
  rw [hposts] at hhead
  cases hhead
  exact ⟨_, job, rfl, hjob, hmade.bearer, hmade.message, hmade.signed⟩

/-- **Step lemma, for one task.** A credential is minted for the job it is minted with, and
a post is made of all of them. -/
theorem deliveryStep_posts_for {permitFree : Bool} {app app' : AppState} {t t' : Delivery}
    {event : DeliveryEvent X} {p : IssuanceProcess} (hw : t.phase.WorksFor p)
    (hposts : t.Posts service p)
    (h : deliveryStep service permitFree app t event = some (app', t')) :
    t'.Posts service p := by
  cases event with
  | resolve answer =>
      simp only [deliveryStep] at h
      split at h
      · split at h
        · cases h
          constructor <;> simp
        · cases h
          refine ⟨?_, by simp⟩
          rintro _ _ _ _ ⟨⟩ m hm
          cases hm
      · cases h
  | mint now uuid =>
      simp only [deliveryStep] at h
      split at h
      · rename_i job endpoint definition todo minted hphase
        split at h
        · cases h
          constructor <;> simp
        · rename_i index list _
          cases h
          refine ⟨?_, by simp⟩
          rintro _ _ _ _ ⟨⟩ m hm
          rcases List.mem_append.mp hm with hold | hnew
          · exact hposts.minting _ _ _ _ hphase m hold
          · exact ⟨definition, index, now, uuid, List.mem_singleton.mp hnew⟩
      · cases h
  | post now jti =>
      simp only [deliveryStep] at h
      split at h
      · rename_i job endpoint minted hphase
        rw [hphase] at hw
        cases h
        refine ⟨by simp, ?_⟩
        rintro _ ⟨⟩
        exact ⟨_, job, rfl, hw.1, ⟨now, jti, rfl⟩, rfl, hposts.minting _ _ _ _ hphase⟩
      · cases h
  | _ =>
      simp only [deliveryStep] at h
      repeat' split at h
      all_goals cases h
      all_goals constructor <;> simp

/-- Every task posts for its process what it minted for it. -/
theorem posts_of_reachable {s : IssuerSys} (h : Reachable (issuer service start) s) :
    ∀ t ∈ s.deliveries, ∀ p, s.app.requests.get t.processId = some p → t.Posts service p := by
  refine h.invariant_of (J := fun s => Reachable (issuer service start) s)
    (I := fun s : IssuerSys => ∀ t ∈ s.deliveries, ∀ p,
      s.app.requests.get t.processId = some p → t.Posts service p)
    (fun _ hs => hs) (fun t ht => absurd ht List.not_mem_nil) ?_
  intro s₁ a s₂ hr hposts hstep t' ht' p' hp'
  rcases task_origin hr hstep ht' with hold | ⟨k, rfl, -⟩ | ⟨i, event, t, -, ht, hout⟩ |
    ⟨status, t, ht, hanswer⟩
  · obtain ⟨p, hp, hedit⟩ := process_of_task hr hstep hold hp'
    exact (hposts t' hold p hp).congr hedit.same
  · exact Delivery.posts_new p' k
  · have hmem : t ∈ s₁.deliveries := List.mem_of_getElem? ht
    have hpid : t'.processId = t.processId := (deliveryStep_move hout).2.1
    rw [hpid] at hp'
    obtain ⟨p, hp, hedit⟩ := process_of_task hr hstep hmem hp'
    have hworks := copies_of_reachable hr t hmem p hp
    exact (deliveryStep_posts_for hworks (hposts t hmem p hp) hout).congr hedit.same
  · obtain ⟨call, earlier, -, -, hsame⟩ := Delivery.answer_eq_some hanswer
    have hpid : t'.processId = t.processId := by rw [hsame]
    rw [hpid] at hp'
    obtain ⟨p, hp, hedit⟩ := process_of_task hr hstep ht hp'
    exact ((hposts t ht p hp).answer hanswer).congr hedit.same

end

/-! ## What a hub makes of such a post -/

section

variable {X : HubExternal} {hub : Hub X} {service : IssuerService X}
  {documents : String → Except String X.DidDocument} {deadline : ℕ}

/-- The network serves these documents, and the call is over by the deadline. -/
def onTime (documents : String → Except String X.DidDocument) (deadline : ℕ) (_ : HubState X) :
    HubEvent X → Prop
  | ⟨HubOp.now, reading⟩ => reading ≤ deadline
  | ⟨HubOp.fetchDocument url, answer⟩ => answer = documents url
  | _ => True

/-- The hub's surroundings while it takes a call. -/
abbrev reception (documents : String → Except String X.DidDocument) (deadline : ℕ) :
    Environment (hubEffects X) (HubState X) :=
  (hubEnvironment X).limit (onTime documents deadline)

/-- Time has passed, and nothing else has happened. -/
structure Elapsed (deadline : ℕ) (s s' : HubState X) : Prop where
  clock : s.clock ≤ s'.clock
  deadline : s'.clock ≤ deadline
  same : s' = { s with clock := s'.clock }

theorem Elapsed.trans {s s₁ s' : HubState X} (h : Elapsed deadline s s₁)
    (h' : Elapsed deadline s₁ s') : Elapsed deadline s s' where
  clock := h.clock.trans h'.clock
  deadline := h'.deadline
  same := by rw [h'.same, h.same]

theorem Elapsed.store {s s' : HubState X} (h : Elapsed deadline s s') : s'.store = s.store := by
  rw [h.same]

theorem Elapsed.offers {s s' : HubState X} (h : Elapsed deadline s s') :
    s'.offers = s.offers := by
  rw [h.same]

variable {s : HubState X} {ε : Type}

theorem ensures_nowSecs {post : ℕ → HubState X → Prop} (hdeadline : s.clock ≤ deadline)
    (h : ∀ s', Elapsed deadline s s' → post s'.clock s') :
    (reception documents deadline).Ensures (nowSecs : HubProgram X ε ℕ) post s := by
  unfold nowSecs
  rw [Environment.ensures_ask]
  refine ⟨⟨s.clock, s, hdeadline, le_rfl, rfl⟩, ?_⟩
  rintro reading s' ⟨hlate, hearly, rfl⟩
  apply Environment.ensures_pure.mpr
  exact h { s with clock := reading } ⟨hearly, hlate, rfl⟩

theorem ensures_resolveDid {did url : String} {insecureHttp : Bool} {doc : X.DidDocument}
    {post : X.DidDocument → HubState X → Prop} (hurl : X.didWebToUrl did insecureHttp = .ok url)
    (hdoc : documents url = .ok doc) (h : post doc s) :
    (reception documents deadline).Ensures (resolveDid did insecureHttp) post s := by
  unfold resolveDid
  rw [Environment.ensures_bind, Environment.ensures_ofExcept]
  refine ⟨url, hurl, ?_⟩
  rw [Environment.ensures_ask]
  refine ⟨⟨documents url, s, rfl, rfl⟩, ?_⟩
  rintro answer s' ⟨hanswer, rfl⟩
  rw [show answer = .ok doc from Eq.trans hanswer hdoc]
  exact Environment.ensures_ofExcept.mpr ⟨doc, rfl, h⟩

theorem ensures_storeBatch {batch : StoredCredentialBatch} {post : Unit → HubState X → Prop}
    (h : post () { s with store := s.store.store batch }) :
    (reception documents deadline).Ensures (storeBatch batch : HubProgram X ε Unit) post s := by
  unfold storeBatch
  rw [Environment.ensures_ask]
  refine ⟨⟨(), _, trivial, rfl⟩, ?_⟩
  rintro answer s' ⟨-, rfl⟩
  exact Environment.ensures_done.mpr h

/-- The hub trusts the issuer by its static list, and finds its key in its document, which
lists it for invocations. -/
structure Welcomes (hub : Hub X) (documents : String → Except String X.DidDocument)
    (identity : ServiceIdentity X) : Prop where
  static : hub.trustedIssuersRegistry = none
  trusted : identity.ownDid ∈ hub.trustedIssuerDids
  allowed : hub.outbound.checkDid X identity.ownDid hub.insecureHttp = .ok ()
  published : ∃ url doc, X.didWebToUrl identity.ownDid hub.insecureHttp = .ok url ∧
    documents url = .ok doc ∧
      X.findVerifyingKey doc identity.ownKeyId = .ok (X.verifyingKey identity.signingKey) ∧
        identity.ownKeyId ∈ X.capabilityInvocation doc

/-! ### The token -/

/-- The claims of a delivery token. -/
def deliveryClaims (service : IssuerService X) (job : DeliveryJob) (now : ℕ) (jti : String) :
    Value :=
  let payload : Value := .object
    [("iss", .string service.identity.ownDid),
     ("sub", .string service.identity.ownDid),
     ("aud", .string job.holderDid),
     ("iat", .ofNat now),
     ("nbf", .ofNat now),
     ("exp", .ofNat (now + 300)),
     ("jti", .string jti)]
  match job.deliveryBearer with
  | none => payload
  | some token => payload.set "token" (.string token)

theorem deliveryToken_eq (job : DeliveryJob) (now : ℕ) (jti : String) :
    deliveryToken service job now jti = service.identity.sign (deliveryClaims service job now jti) :=
  rfl

/-- Only `token` depends on what the holder presented. -/
theorem deliveryClaims_get (job : DeliveryJob) (now : ℕ) (jti : String) {claim : String}
    (hclaim : claim ≠ "token") :
    (deliveryClaims service job now jti).get claim =
      (Value.object
        [("iss", .string service.identity.ownDid), ("sub", .string service.identity.ownDid),
         ("aud", .string job.holderDid), ("iat", .ofNat now), ("nbf", .ofNat now),
         ("exp", .ofNat (now + 300)), ("jti", .string jti)]).get claim := by
  unfold deliveryClaims
  cases job.deliveryBearer with
  | none => rfl
  | some token => simp [Value.set, hclaim]

theorem bearerOf_bearer (token : String) : bearerOf (some ("Bearer " ++ token)) = .ok token := by
  have hstrip : Text.stripPrefix "Bearer ".toList ("Bearer " ++ token).toList =
      some token.toList := by
    rw [Text.stripPrefix_eq_some, String.toList_append]
  rw [bearerOf, Option.bind_some, hstrip]
  simp

theorem ensures_checkNotAhead {payload : Value} {claim : String} {error : AuthError} {time : ℕ}
    {post : Unit → HubState X → Prop} (hclaim : payload.getU64 claim = some time)
    (htime : time ≤ s.clock + nbfLeewaySecs) (hdeadline : s.clock ≤ deadline)
    (h : ∀ s', Elapsed deadline s s' → post () s') :
    (reception documents deadline).Ensures (checkNotAhead payload claim error) post s := by
  rw [checkNotAhead, hclaim, Environment.ensures_bind]
  apply ensures_nowSecs hdeadline
  intro s' hs'
  have hclock := hs'.clock
  exact Environment.ensures_require.mpr ⟨by omega, h s' hs'⟩

variable (hsign : X.SignRoundTrip) (hverify : X.SignVerifies)
  (hwelcome : Welcomes hub documents service.identity)
include hsign hverify hwelcome

/-- **A token of the issuer is accepted** by the hub it is made out to, from half a minute
before its issue to its expiry, once. -/
theorem ensures_verifyBearerToken {job : DeliveryJob} {now : ℕ} {jti : String}
    (haudience : job.holderDid = hub.identity.ownDid) (hissued : now ≤ s.clock + nbfLeewaySecs)
    (hlive : deadline < now + 300) (hrange : now + 300 < 2 ^ 64) (hdeadline : s.clock ≤ deadline)
    (hnew : (s.seenJti.insert jti).1 = true) :
    (reception documents deadline).Ensures
      (verifyBearerToken hub (some ("Bearer " ++ deliveryToken service job now jti)))
      (fun claims s' => claims.getStr "iss" = some service.identity.ownDid ∧
        Elapsed deadline { s with seenJti := (s.seenJti.insert jti).2 } s') s := by
  obtain ⟨claims, hclaims⟩ : ∃ claims, claims = deliveryClaims service job now jti := ⟨_, rfl⟩
  have hget : ∀ claim, claim ≠ "token" → claims.get claim = _ := fun claim h =>
    hclaims ▸ deliveryClaims_get job now jti h
  have hiss : claims.getStr "iss" = some service.identity.ownDid := by
    simp [Value.getStr, hget]
  have hsub : claims.getStr "sub" = some service.identity.ownDid := by
    simp [Value.getStr, hget]
  have haud : claims.getStr "aud" = some hub.identity.ownDid := by
    simp [Value.getStr, hget, haudience]
  have hjti : claims.getStr "jti" = some jti := by
    simp [Value.getStr, hget]
  have hexp : claims.getU64 "exp" = some (now + 300) := by
    simp [Value.getU64, hget, Value.asU64_ofNat hrange]
  have hnbf : claims.getU64 "nbf" = some now := by
    simp [Value.getU64, hget, Value.asU64_ofNat (show now < 2 ^ 64 by omega)]
  have hiat : claims.getU64 "iat" = some now := by
    simp [Value.getU64, hget, Value.asU64_ofNat (show now < 2 ^ 64 by omega)]
  obtain ⟨header, hdecoded, hkid⟩ :=
    hsign claims service.identity.signingKey service.identity.ownKeyId
  obtain ⟨url, doc, hurl, hdoc, hkey, hinvocable⟩ := hwelcome.published
  have hbearer : bearerOf (some ("Bearer " ++ deliveryToken service job now jti)) =
      .ok (service.identity.sign claims) := by
    rw [deliveryToken_eq, hclaims, bearerOf_bearer]
  have hsignature : X.verifyJwsSignature (service.identity.sign claims)
      (X.verifyingKey service.identity.signingKey) = .ok () := hverify _ _ _
  unfold verifyBearerToken checkBearerToken
  simp only [Environment.ensures_bind, Environment.ensures_ofExcept, Environment.ensures_mapError,
    Environment.ensures_require, Environment.ensures_pure, Except.mapError_eq_ok,
    Option.okOr_eq_ok]
  refine ⟨_, hbearer, (header, claims), hdecoded, _, hiss, _, hkid, (), hwelcome.allowed, ?_⟩
  apply ensures_resolveDid hurl hdoc
  refine ⟨_, hkey, (), hsignature, hinvocable, by rw [hsub, Option.getD_some],
    by rw [haud, Option.getD_some], ?_⟩
  apply ensures_nowSecs hdeadline
  intro s₁ h₁
  have hclock₁ := h₁.clock
  have hbefore₁ := h₁.deadline
  refine ⟨by rw [hexp, Option.getD_some]; omega, ?_⟩
  apply ensures_checkNotAhead hnbf (by omega) hbefore₁
  intro s₂ h₂
  have hclock₂ := h₂.clock
  apply ensures_checkNotAhead hiat (by omega) h₂.deadline
  intro s₃ h₃
  have hwaited : Elapsed deadline s s₃ := (h₁.trans h₂).trans h₃
  have hseen : s₃.seenJti = s.seenJti := by rw [hwaited.same]
  rw [checkReplay, hjti, Environment.ensures_bind]
  unfold rememberJti
  rw [Environment.ensures_ask]
  have hfirst : (s₃.seenJti.insert jti).1 = true := by rw [hseen, hnew]
  refine ⟨⟨true, _, trivial, respond_jtiOffered s₃ hfirst⟩, ?_⟩
  rintro new s₄ ⟨-, hinsert, hs₄⟩
  rw [hseen] at hinsert
  simp only [Environment.ensures_done, Environment.ensures_require]
  refine ⟨by rw [← hnew, hinsert], hiss, ?_⟩
  rw [hs₄, hwaited.same, hinsert]
  exact ⟨hwaited.clock, hwaited.deadline, rfl⟩

/-! ### The credentials -/

theorem ensures_verifyCredentialProof {job : DeliveryJob} {m : Minted}
    (hm : m.SignedFor service job) {post : Unit → HubState X → Prop} (h : post () s) :
    (reception documents deadline).Ensures (verifyCredentialProof hub m.container) post s := by
  obtain ⟨definition, index, now, uuid, rfl⟩ := hm
  obtain ⟨payload, hpayload⟩ : ∃ payload, payload = credentialPayload service definition
      job.holderDid (some index) ("urn:uuid:" ++ uuid) now (now + definition.validity) := ⟨_, rfl⟩
  have hcontainer : (mintForJob service job definition index now uuid).container.payload =
      .string (service.identity.sign payload) := by
    rw [hpayload]
    rfl
  have hiss : payload.getStr "iss" = some service.identity.ownDid := by
    rw [hpayload]
    rfl
  obtain ⟨header, hkid, hjws⟩ := containerJws_signed hsign hcontainer
  obtain ⟨url, doc, hurl, hdoc, hkey, -⟩ := hwelcome.published
  have hsignature : X.verifyJwsSignature (service.identity.sign payload)
      (X.verifyingKey service.identity.signingKey) = .ok () := hverify _ _ _
  have hjwt : isJwtFormat "jwt" = true := by decide
  simp only [verifyCredentialProof, Environment.ensures_bind, Environment.ensures_ofExcept,
    Environment.ensures_mapError, Environment.ensures_require, Except.mapError_eq_ok,
    Option.okOr_eq_ok]
  refine ⟨hjwt, _, hjws, _, hiss, _, hkid, (), hwelcome.allowed, ?_⟩
  apply ensures_resolveDid hurl hdoc
  exact ⟨_, hkey, (), hsignature, h⟩

theorem ensures_verifyCredentialProofs {job : DeliveryJob} {post : Unit → HubState X → Prop}
    (h : post () s) : ∀ {minted : List Minted}, (∀ m ∈ minted, m.SignedFor service job) →
      (reception documents deadline).Ensures
        (verifyCredentialProofs hub (minted.map (·.container))) post s
  | [], _ => Environment.ensures_done.mpr h
  | m :: minted, hminted => by
      rw [List.map_cons, verifyCredentialProofs, Environment.ensures_bind]
      apply ensures_verifyCredentialProof hsign hverify hwelcome (hminted m List.mem_cons_self)
      exact ensures_verifyCredentialProofs h (fun m' hm' => hminted m' (List.mem_cons_of_mem _ hm'))

omit hverify in
/-- What a credential minted for the hub says holds at a reading of its lifetime. -/
theorem minted_claims_hold {job : DeliveryJob} {m : Minted} {reading : ℕ}
    (hm : m.SignedFor service job) (hholder : job.holderDid = hub.identity.ownDid)
    (hbegun : m.record.issuedAt ≤ reading + clockSkewSecs) (hlive : reading < m.record.expiresAt)
    (hrange : m.record.expiresAt < 2 ^ 64) :
    checkContainerClaims X m.container hub.identity.ownDid (some hub.trustedIssuerDids) reading =
      .ok () := by
  obtain ⟨definition, index, now, uuid, rfl⟩ := hm
  change now ≤ reading + clockSkewSecs at hbegun
  change reading < now + definition.validity at hlive
  change now + definition.validity < 2 ^ 64 at hrange
  have hcontainer : (mintForJob service job definition index now uuid).container.payload =
      .string (service.identity.sign (credentialPayload service definition job.holderDid
        (some index) ("urn:uuid:" ++ uuid) now (now + definition.validity))) := rfl
  obtain ⟨header, -, hjws⟩ := containerJws_signed hsign hcontainer
  refine checkContainerClaims_eq_ok.mpr ⟨_, header, _, hjws, credentialPayload_hasType .., ?_, ?_, ?_⟩
  · rintro trusted ⟨⟩
    exact hwelcome.trusted
  · rw [credentialPayload_subject, hholder]
  · rw [isWithinValidity_iff]
    constructor
    · intro exp hexp
      have hread : (Value.ofNat (now + definition.validity)).asU64 = some exp := hexp
      rw [Value.asU64_ofNat hrange] at hread
      cases hread
      exact hlive
    · intro nbf hnbf
      have hread : (Value.ofNat now).asU64 = some nbf := hnbf
      rw [Value.asU64_ofNat (by omega)] at hread
      cases hread
      exact hbegun

/-! ### The call -/

/-- The token was made out for a job at a time from which it is known and live during the
whole call, and is presented for the first time. -/
def TokenInTime (service : IssuerService X) (bearer : String) (s : HubState X) (deadline : ℕ) :
    Prop :=
  ∃ job now jti, bearer = deliveryToken service job now jti ∧ now ≤ s.clock + nbfLeewaySecs ∧
    deadline < now + 300 ∧ now + 300 < 2 ^ 64 ∧ (s.seenJti.insert jti).1 = true

/-- The post is one the hub waits for, and the call is made and over while its token and its
credentials last. -/
structure StorageCall.InTime (service : IssuerService X) (hub : Hub X) (minted : List Minted)
    (call : StorageCall) (s : HubState X) (deadline : ℕ) : Prop where
  expected : hub.knownHolderPids = [] ∨ call.message.holderPid ∈ hub.knownHolderPids
  begun : s.clock ≤ deadline
  token : TokenInTime service call.bearer s deadline
  minted : ∀ m ∈ minted, m.record.issuedAt ≤ s.clock + clockSkewSecs ∧
    deadline < m.record.expiresAt ∧ m.record.expiresAt < 2 ^ 64

omit hverify hwelcome in
/-- A token says whom it is made out to. -/
theorem deliveryToken_holder {job job' : DeliveryJob} {now now' : ℕ} {jti jti' : String}
    (h : deliveryToken service job now jti = deliveryToken service job' now' jti') :
    job.holderDid = job'.holderDid := by
  obtain ⟨header, hdecoded, -⟩ := hsign (deliveryClaims service job now jti)
    service.identity.signingKey service.identity.ownKeyId
  obtain ⟨header', hdecoded', -⟩ := hsign (deliveryClaims service job' now' jti')
    service.identity.signingKey service.identity.ownKeyId
  have hsame : X.signJws (deliveryClaims service job now jti) service.identity.signingKey
      service.identity.ownKeyId = X.signJws (deliveryClaims service job' now' jti')
        service.identity.signingKey service.identity.ownKeyId := h
  rw [hsame, hdecoded', Except.ok.injEq, Prod.mk.injEq] at hdecoded
  have haud := congrArg (Value.get · "aud") hdecoded.2
  simpa [deliveryClaims_get] using haud.symm

/-- **A delivery of the issuer cannot be refused** by the hub it is for: whatever the hub
reads from its clock, the call comes to its end with the message stored. -/
theorem ensures_storageWrite {job : DeliveryJob} {minted : List Minted} {call : StorageCall}
    (hholder : job.holderDid = hub.identity.ownDid) (hmade : call.MadeFor service job minted)
    (htime : call.InTime service hub minted s deadline) :
    (reception documents deadline).Ensures
      (storageWrite hub (some ("Bearer " ++ call.bearer)) call.message)
      (fun _ s' => s'.store = s.store.store call.message.batch ∧ s'.offers = s.offers) s := by
  have hregistry := hwelcome.static
  have hcredentials : call.message.credentials = minted.map (·.container) := by
    rw [hmade.message]
    rfl
  have hstatus : call.message.status = "ISSUED" := by
    rw [hmade.message]
    rfl
  obtain ⟨job', now, jti, hbearer, hissued, hlive, hrange, hnew⟩ := htime.token
  have hholder' : job'.holderDid = hub.identity.ownDid := by
    obtain ⟨now₀, jti₀, hbearer₀⟩ := hmade.bearer
    rw [← hholder]
    exact deliveryToken_holder hsign (hbearer.symm.trans hbearer₀)
  rw [hbearer]
  unfold storageWrite checkMessage
  simp only [Environment.ensures_bind, Environment.ensures_mapError, Environment.ensures_ofExcept,
    Except.mapError_eq_ok]
  apply (ensures_verifyBearerToken hsign hverify hwelcome hholder' hissued hlive hrange
    htime.begun hnew).mono
  rintro claims s₁ ⟨hiss, h₁⟩
  rw [hiss, Option.getD_some, checkIssuer, hregistry]
  simp only [Environment.ensures_ofExcept]
  refine ⟨(), checkTrustedIssuer_eq_ok.mpr hwelcome.trusted, (), ?_, (), ?_, ?_⟩
  · rw [hstatus]
    rfl
  · exact if_pos htime.expected
  rw [hcredentials]
  apply ensures_verifyCredentialProofs hsign hverify hwelcome ?_ hmade.signed
  rw [Option.isSome_none]
  apply Environment.ensures_done.mpr
  apply ensures_nowSecs h₁.deadline
  intro s₂ h₂
  have hclock : s.clock ≤ s₂.clock := h₁.clock.trans h₂.clock
  have hbefore := h₂.deadline
  refine ⟨(), ?_, ?_⟩
  · apply checkCredentialClaims_eq_ok.mpr
    intro container hcontainer
    obtain ⟨m, hm, rfl⟩ := List.mem_map.mp hcontainer
    obtain ⟨hbegun, hunexpired, hbound⟩ := htime.minted m hm
    exact minted_claims_hold hsign hwelcome (hmade.signed m hm) hholder (by omega) (by omega) hbound
  · apply ensures_storeBatch
    have helapsed := h₁.trans h₂
    have hstore : s₂.store = s.store := helapsed.store
    have hoffers : s₂.offers = s.offers := helapsed.offers
    constructor
    · rw [hstore]
    · exact hoffers

end

/-! ## The whole delivery -/

/-- The holder's 200, and what the task makes of it. -/
def answeredOk (X : External) (task finishedAt : ℕ) : List (IssuerAction X) :=
  .storageAnswers task 200 :: [.receive, .record, .finish finishedAt].map (.delivery task)

section

variable {X : External} {service : IssuerService X} {start : ℕ}

/-- A section of a task whose identifiers are new. -/
theorem delivery_drawing {s : IssuerSys} {i : ℕ} {t t' : Delivery} {app : AppState}
    {event : DeliveryEvent X} (hfresh : event.draws.Nodup ∧ ∀ u ∈ event.draws, u ∉ s.drawn)
    (ht : s.deliveries[i]? = some t)
    (hout : deliveryStep service (permitFree s) s.app t event = some (app, t')) :
    (issuer service start).step s (.delivery i event) =
      some { s with
        app := app
        deliveries := s.deliveries.set i t'
        drawn := event.draws ++ s.drawn } := by
  have hperform : issuerPerform service s (.delivery i event) =
      some { s with app := app, deliveries := s.deliveries.set i t' } := by
    rw [issuerPerform, ht, Option.bind_some, hout]
    rfl
  rw [issuer_step_of_perform (a := .delivery i event) hfresh hperform]
  rfl

/-- A section of a task that draws nothing. -/
theorem delivery_section {s : IssuerSys} {i : ℕ} {t t' : Delivery} {app : AppState}
    {event : DeliveryEvent X} (hdraws : event.draws = []) (ht : s.deliveries[i]? = some t)
    (hout : deliveryStep service (permitFree s) s.app t event = some (app, t')) :
    (issuer service start).step s (.delivery i event) =
      some { s with app := app, deliveries := s.deliveries.set i t' } := by
  rw [delivery_drawing (by rw [hdraws]; simp) ht hout, hdraws]
  rfl

/-- The Storage API answers a post. -/
theorem storage_answer {s : IssuerSys} {i status : ℕ} {t t' : Delivery}
    (ht : s.deliveries[i]? = some t) (hanswer : t.answer status = some t') :
    (issuer service start).step s (.storageAnswers i status) =
      some { s with deliveries := s.deliveries.set i t' } := by
  have hperform : issuerPerform service s (.storageAnswers i status) =
      some { s with deliveries := s.deliveries.set i t' } := by
    rw [issuerPerform, ht, Option.bind_some, hanswer]
    rfl
  rw [issuer_step_of_perform (by simp [IssuerAction.draws]) hperform]
  rfl

/-- An unanswered post that is answered 200 completes the process: it is DELIVERED, and
the records of its credentials join the list. -/
theorem answered_post_completes {s : IssuerSys} (h : Reachable (issuer service start) s) {i : ℕ}
    {t : Delivery} {minted : List Minted} {call : StorageCall} {p : IssuanceProcess}
    (ht : s.deliveries[i]? = some t) (hphase : t.phase = .waiting minted)
    (hcall : t.posts.head? = some call) (hunanswered : call.answer = none)
    (hp : s.app.requests.get t.processId = some p) (finishedAt : ℕ) :
    ∃ s', (issuer service start).run s (answeredOk X i finishedAt) = some s' ∧
      (s'.app.requests.get t.processId).map (·.state) = some .delivered ∧
        s'.app.issued.all = s.app.issued.all ++ minted.map (·.record) := by
  obtain ⟨earlier, hposts⟩ : ∃ earlier, t.posts = call :: earlier := by
    cases hlist : t.posts with
    | nil => simp [hlist] at hcall
    | cons first earlier =>
        rw [hlist, List.head?_cons, Option.some.injEq] at hcall
        exact ⟨earlier, by rw [hcall]⟩
  -- the answer
  obtain ⟨t₁, ht₁⟩ : ∃ t₁ : Delivery,
      t₁ = { t with posts := { call with answer := some 200 } :: earlier } := ⟨_, rfl⟩
  have hanswer : t.answer 200 = some t₁ := by
    rw [Delivery.answer, hposts, ht₁]
    simp [hunanswered]
  obtain ⟨s₁, hs₁⟩ : ∃ s₁, s₁ = { s with deliveries := s.deliveries.set i t₁ } := ⟨_, rfl⟩
  have hstep₁ : (issuer service start).step s (.storageAnswers i 200) = some s₁ :=
    hs₁ ▸ storage_answer ht hanswer
  have hat₁ : s₁.deliveries[i]? = some t₁ := by
    rw [hs₁, List.getElem?_set_self (List.getElem?_eq_some_iff.mp ht).1]
  -- the task hears it
  obtain ⟨t₂, ht₂⟩ : ∃ t₂ : Delivery,
      t₂ = { t₁ with phase := .answered (minted.map (·.record)) } := ⟨_, rfl⟩
  have hout₂ : deliveryStep service (permitFree s₁) s₁.app t₁ .receive = some (s₁.app, t₂) := by
    have hphase₁ : t₁.phase = .waiting minted := by rw [ht₁, hphase]
    simp only [deliveryStep, hphase₁]
    rw [ht₂, ht₁]
    rfl
  obtain ⟨s₂, hs₂⟩ : ∃ s₂, s₂ = { s₁ with deliveries := s₁.deliveries.set i t₂ } := ⟨_, rfl⟩
  have hstep₂ : (issuer service start).step s₁ (.delivery i .receive) = some s₂ :=
    hs₂ ▸ delivery_section rfl hat₁ hout₂
  have hat₂ : s₂.deliveries[i]? = some t₂ := by
    rw [hs₂, List.getElem?_set_self (List.getElem?_eq_some_iff.mp hat₁).1]
  -- it records the credentials
  have hphase₂ : t₂.phase = .answered (minted.map (·.record)) := by rw [ht₂]
  have hout₃ : deliveryStep service (permitFree s₂) s₂.app t₂ .record =
      some (recordAll s₂.app (minted.map (·.record)),
        { t₂ with phase := .finishing .delivered none }) := by
    simp only [deliveryStep, hphase₂]
  obtain ⟨s₃, hstep₃⟩ : ∃ s₃ : IssuerSys,
      (issuer service start).step s₂ (.delivery i .record) = some s₃ :=
    ⟨_, delivery_section rfl hat₂ hout₃⟩
  obtain ⟨hdeliveries, hrequests, hall⟩ :=
    record_step ((h.step hstep₁).step hstep₂) hstep₃ hat₂ hphase₂
  have hat₃ : s₃.deliveries[i]? = some { t₂ with phase := .finishing .delivered none } := by
    rw [hdeliveries, List.getElem?_set_self (List.getElem?_eq_some_iff.mp hat₂).1]
  -- and closes the process
  have hout₄ : deliveryStep service (permitFree s₃) s₃.app
      { t₂ with phase := .finishing .delivered none } (.finish finishedAt) =
        some (closeProcess s₃.app t₂.processId .delivered none finishedAt,
          { t₂ with phase := .done }) := rfl
  obtain ⟨s₄, hs₄⟩ : ∃ s₄ : IssuerSys, s₄ = { s₃ with
      app := closeProcess s₃.app t₂.processId .delivered none finishedAt
      deliveries := s₃.deliveries.set i { t₂ with phase := .done } } := ⟨_, rfl⟩
  have hstep₄ : (issuer service start).step s₃ (.delivery i (.finish finishedAt)) = some s₄ :=
    hs₄ ▸ delivery_section rfl hat₃ hout₄
  have happ₂ : s₂.app = s.app := by rw [hs₂, hs₁]
  refine ⟨s₄, ?_, ?_, ?_⟩
  · simp only [answeredOk, List.map_cons, List.map_nil, StepSystem.run_cons, hstep₁, hstep₂,
      hstep₃, hstep₄, Option.bind_some]
    rfl
  · have hpid : t₂.processId = t.processId := by rw [ht₂, ht₁]
    have hget : s₄.app.requests.get t.processId =
        (s₃.app.requests.modify t₂.processId (fun p =>
          { p.transition .delivered finishedAt with errorDetail := none })).get t.processId := by
      rw [hs₄]
      rfl
    rw [hget, hpid, hrequests, happ₂, RequestTable.get_modify, if_pos rfl, hp]
    rfl
  · have hissued : s₄.app.issued = s₃.app.issued := by
      rw [hs₄]
      rfl
    rw [hissued, hall, happ₂]

end

/-- A batch that was issued is there to be presented once it is stored. -/
theorem CredentialStore.mem_credentialsOfTypes_store {batches : CredentialStore}
    {batch : StoredCredentialBatch} {container : CredentialContainer} {types : List String}
    (hissued : batch.status = "ISSUED") (hmem : container ∈ batch.credentials)
    (htype : container.credentialType ∈ types) :
    container ∈ (batches.store batch).credentialsOfTypes types := by
  have hkept : batch ∈ batches.store batch := by
    unfold CredentialStore.store
    rw [List.drop_append_of_le_length (by unfold maxCredentialBatches; omega)]
    simp
  unfold CredentialStore.credentialsOfTypes
  simp only [List.mem_filter, List.mem_flatMap, decide_eq_true_iff]
  exact ⟨⟨batch, ⟨hkept, hissued⟩, hmem⟩, htype⟩

section

variable {X : HubExternal} {hub : Hub X} {service : IssuerService X}
  {documents : String → Except String X.DidDocument} {start : ℕ}

/-- **A delivery, from the issuer's task to the holder's store.** In every reachable state
of the issuer, a task that waits has posted a token of the issuer's and one credential for
each definition its process names. If the process is of a hub that trusts the issuer and
the call is made in time, the hub cannot refuse it: whatever it reads from its clock, the
batch is stored and there to be presented. Its answer completes the process. -/
theorem delivery_received (hsign : X.SignRoundTrip) (hverify : X.SignVerifies)
    (hwelcome : Welcomes hub documents service.identity) {s : IssuerSys}
    (h : Reachable (issuer service start) s) {i : ℕ} {t : Delivery} {minted : List Minted}
    {p : IssuanceProcess} (ht : s.deliveries[i]? = some t) (hphase : t.phase = .waiting minted)
    (hp : s.app.requests.get t.processId = some p)
    (haddressed : p.holderDid = hub.identity.ownDid) :
    minted.map (·.record.credentialDefinitionId) = p.credentialDefinitions ∧
    ∃ call, t.posts.head? = some call ∧
      (∃ job now jti, call.bearer = deliveryToken service job now jti) ∧
      call.message.credentials = minted.map (·.container) ∧
      (∀ (hubState : HubState X) (deadline : ℕ),
        call.InTime service hub minted hubState deadline →
          (reception documents deadline).Ensures
            (storageWrite hub (some ("Bearer " ++ call.bearer)) call.message)
            (fun _ hubState' => hubState'.offers = hubState.offers ∧
              hubState'.store = hubState.store.store call.message.batch ∧
                ∀ container ∈ call.message.credentials,
                  container ∈ hubState'.store.credentialsOfTypes [container.credentialType])
            hubState) ∧
      (call.answer = none → ∀ finishedAt, ∃ s',
        (issuer service start).run s (answeredOk X i finishedAt) = some s' ∧
          (s'.app.requests.get t.processId).map (·.state) = some .delivered ∧
            s'.app.issued.all = s.app.issued.all ++ minted.map (·.record)) := by
  have hmem := List.mem_of_getElem? ht
  have hfor : RecordsFor (minted.map (·.record)) p := by
    have hworks := copies_of_reachable h t hmem p hp
    rwa [hphase] at hworks
  obtain ⟨call, job, hcall, hjob, hmade⟩ := (posts_of_reachable h t hmem p hp).waiting minted hphase
  refine ⟨(List.map_map ..).symm.trans hfor.ids, call, hcall, ?_, ?_, ?_, ?_⟩
  · obtain ⟨now, jti, hbearer⟩ := hmade.bearer
    exact ⟨job, now, jti, hbearer⟩
  · rw [hmade.message]
    rfl
  · intro hubState deadline htime
    have hholder : job.holderDid = hub.identity.ownDid := hjob.holderDid.trans haddressed
    apply (ensures_storageWrite hsign hverify hwelcome hholder hmade htime).mono
    rintro _ hubState' ⟨hstore, hoffers⟩
    refine ⟨hoffers, hstore, ?_⟩
    intro container hcontainer
    rw [hstore]
    apply CredentialStore.mem_credentialsOfTypes_store ?_ hcontainer (List.mem_singleton.mpr rfl)
    rw [hmade.message]
    rfl
  · intro hunanswered finishedAt
    exact answered_post_completes h ht hphase hcall hunanswered hp finishedAt

end

/-! ## Acme's hub -/

def trustingHub : Hub hubReference where
  identity :=
    { ownDid := "did:web:acme.example"
      ownKeyId := "did:web:acme.example#key-1"
      signingKey := "acme key" }
  stsParty :=
    { ownDid := "did:web:sts"
      ownKeyId := "did:web:sts#key-1"
      signingKey := "sts key" }
  insecureHttp := false
  outbound := { allowedHosts := ["issuer.example"] }
  trustedIssuerDids := ["did:web:issuer.example:issuer"]
  knownHolderPids := ["acme-1"]
  trustedIssuersRegistry := none
  scopeType := some

def trustingDocuments (url : String) : Except String ReferenceDocument :=
  if url = "https://issuer.example/issuer/did.json" then
    .ok
      { keys := [("did:web:issuer.example:issuer#key-1", "issuer key")]
        capabilityInvocation := ["did:web:issuer.example:issuer#key-1"]
        services := [] }
  else .error "unreachable"

def trustingState : HubState hubReference where
  clock := 12
  seenJti := .empty maxSeenJti
  trustCache := none
  store := []

/-- The task has minted Acme's credential and is about to post it. -/
def mintedForAcme (t : Delivery) : Bool :=
  match t.phase with
  | .minting job _ [] minted =>
      t.processId = "p1" && job.holderPid = "acme-1" &&
        minted.all (fun m => m.record.issuedAt = 11 && 20 < m.record.expiresAt &&
          m.record.expiresAt < 2 ^ 64)
  | _ => false

theorem trustingHub_welcomes :
    Welcomes (X := hubReference) trustingHub trustingDocuments (sampleIssuer .auto).identity where
  static := rfl
  trusted := List.mem_singleton.mpr rfl
  allowed := by decide +kernel
  published := by
    refine ⟨"https://issuer.example/issuer/did.json", _, ?_, rfl, ?_, ?_⟩
    · decide +kernel
    · rfl
    · exact List.mem_singleton.mpr rfl

set_option maxRecDepth 4000 in
/-- Acme asks, and its hub takes the credential and answers. -/
theorem delivery_received_sample :
    ∃ s t call, Reachable (issuer (sampleIssuer .auto) 0) s ∧ s.deliveries[0]? = some t ∧
      t.posts.head? = some call ∧
      (∃ hubState', (reception (X := hubReference) trustingDocuments 20).Runs
        (storageWrite trustingHub (some ("Bearer " ++ call.bearer)) call.message) trustingState ()
          hubState' ∧ hubState'.store.length = 1) ∧
      ∃ s', Reachable (issuer (sampleIssuer .auto) 0) s' ∧
        (s'.app.requests.get "p1").map (·.state) = some .delivered := by
  obtain ⟨s₀, hr₀, hp⟩ := StepSystem.exists_reachable_of_run
    (M := issuer (sampleIssuer .auto) 0)
    (sampleRequest "p1" "acme" 10 :: (samplePosting 0 "c1" "j1" 11).take 6)
    (p := fun s => (s.app.requests.get "p1").any (fun p => p.holderDid = "did:web:acme.example") &&
      s.deliveries[0]?.any mintedForAcme && decide ("j1" ∉ s.drawn)) (by decide +kernel)
  obtain ⟨hp, hnew⟩ := Bool.and_eq_true_iff.mp hp
  obtain ⟨hrequest, htask⟩ := Bool.and_eq_true_iff.mp hp
  obtain ⟨p, hget, haddressed⟩ := (Option.any_eq_true _ _).mp hrequest
  obtain ⟨t₀, ht₀, hminted⟩ := (Option.any_eq_true _ _).mp htask
  unfold mintedForAcme at hminted
  split at hminted
  · rename_i job endpoint minted hphase₀
    simp only [Bool.and_eq_true, decide_eq_true_iff, List.all_eq_true] at hminted
    obtain ⟨⟨hpid, hholderPid⟩, hminted⟩ := hminted
    rw [← hpid] at hget
    -- the post is made at 11, with a token of that time
    obtain ⟨call, hcall⟩ : ∃ call : StorageCall, call =
        { url := endpoint ++ "/credentials"
          bearer := deliveryToken (sampleIssuer .auto) job 11 "j1"
          message := deliveryMessage job minted
          indexes := mintedIndexes minted
          answer := none } := ⟨_, rfl⟩
    obtain ⟨t, ht⟩ : ∃ t : Delivery,
        t = { t₀ with phase := .waiting minted, posts := call :: t₀.posts } := ⟨_, rfl⟩
    have hout : deliveryStep (sampleIssuer .auto) (permitFree s₀) s₀.app t₀ (.post 11 "j1") =
        some (s₀.app, t) := by
      simp only [deliveryStep, hphase₀]
      rw [ht, hcall]
    obtain ⟨s, hs⟩ : ∃ s, s = { s₀ with
        deliveries := s₀.deliveries.set 0 t
        drawn := "j1" :: s₀.drawn } := ⟨_, rfl⟩
    have hr : Reachable (issuer (sampleIssuer .auto) 0) s := by
      apply hr₀.step
      rw [hs]
      refine delivery_drawing ?_ ht₀ hout
      refine ⟨List.nodup_singleton "j1", ?_⟩
      intro u hu
      rw [List.mem_singleton.mp hu]
      exact of_decide_eq_true hnew
    have hat : s.deliveries[0]? = some t := by
      rw [hs, List.getElem?_set_self (List.getElem?_eq_some_iff.mp ht₀).1]
    have hposts : t.posts.head? = some call := by rw [ht, List.head?_cons]
    have hphase : t.phase = .waiting minted := by rw [ht]
    have hprocess : s.app.requests.get t.processId = some p := by rw [hs, ht, hget]
    obtain ⟨-, call', hcall', -, -, hreceived, hcompletes⟩ := delivery_received
      reference_signRoundTrip reference_signVerifies trustingHub_welcomes hr hat hphase hprocess
      (of_decide_eq_true haddressed)
    obtain rfl : call = call' := by rw [hposts] at hcall'; exact Option.some_inj.mp hcall'
    have hcalled : call.message.holderPid = "acme-1" := by
      rw [hcall]
      exact hholderPid
    have htime : call.InTime (X := hubReference) (sampleIssuer .auto) trustingHub minted
        trustingState 20 :=
      { expected := Or.inr (List.mem_singleton.mpr hcalled)
        begun := by decide
        token := ⟨job, 11, "j1", congrArg (·.bearer) hcall, by decide, by decide, by decide, by decide⟩
        minted := by
          intro m hm
          obtain ⟨⟨hissued, hlive⟩, hrange⟩ := hminted m hm
          exact ⟨by rw [hissued]; decide, hlive, hrange⟩ }
    obtain ⟨⟨⟩, hubState', hruns, -, hstore, -⟩ := (hreceived trustingState 20 htime).runs
    obtain ⟨s', hrun, hdelivered, -⟩ := hcompletes (congrArg (·.answer) hcall) 13
    refine ⟨s, t, call, hr, hat, hposts, ⟨hubState', hruns, ?_⟩, s', ?_, ?_⟩
    · rw [hstore]
      simp [CredentialStore.store, trustingState, maxCredentialBatches]
    · exact hr.trans (StepSystem.steps_of_run hrun)
    · rw [ht, hpid] at hdelivered
      exact hdelivered
  · cases hminted

end IdentityHub
