import IdentityHub.Http.Redirects
import IdentityHub.Issuer.Delivery
import IdentityHub.Lib.Interleaving
import IdentityHub.Oid4vci.Proof

/-!
# What the issuer sends

Two functions of the issuer make requests to destinations it did not choose: the delivery
of credentials and the check of a key proof. Here they are programs, whose runs say what
is asked for, in which order, and after which checks.
-/

namespace IdentityHub

variable (X : External)

/-- One operation of these functions; `allocate` takes an index of the status list. -/
inductive IssuerOp where
  | now
  | uuid
  | allocate
  | fetchDocument (url : String)
  | deliver (url bearer : String) (message : CredentialMessage)

/-- A post is answered with a status, or it fails. -/
abbrev IssuerOp.Answer : IssuerOp → Type
  | .now => ℕ
  | .uuid => String
  | .allocate => Option ℕ
  | .fetchDocument _ => Except String X.DidDocument
  | .deliver _ _ _ => Except String ℕ

abbrev issuerEffects : Effects where
  Op := IssuerOp
  Answer := IssuerOp.Answer X

abbrev IssuerProgram (ε α : Type) := Program (issuerEffects X) ε α

/-- What goes out through the shared client. -/
def issuerRequests : Requests (issuerEffects X)
  | .fetchDocument url => some { url := url, failed := .error }
  | .deliver url _ _ => some { url := url, failed := .error }
  | _ => none

variable {X}

namespace IssuerProgram

variable (service : IssuerService X) {ε : Type}

def nowSecs : IssuerProgram X ε ℕ := .ask IssuerOp.now .pure

def drawUuid : IssuerProgram X ε String := .ask IssuerOp.uuid .pure

/-- `StatusList::allocate`. -/
def allocate : IssuerProgram X ε (Option ℕ) := .ask IssuerOp.allocate .pure

/-- `resolve_did`: the document at the URL the DID names. -/
def resolveDid (did : String) (insecureHttp : Bool) : IssuerProgram X String X.DidDocument := do
  let url ← .ofExcept (X.didWebToUrl did insecureHttp)
  .ask (IssuerOp.fetchDocument url) .ofExcept

/-- An index for each definition, and what it is minted into. -/
def mintDefinitions (job : DeliveryJob) (minted : List Minted) :
    List CredentialDefinition → IssuerProgram X String (List Minted)
  | [] => return minted
  | definition :: todo => do
      let allocated ← allocate
      let index ← .ofExcept (allocated.okOr listExhausted)
      let now ← nowSecs
      let uuid ← drawUuid
      mintDefinitions job (minted ++ [mintForJob service job definition index now uuid]) todo

/-- The part of `try_deliver_issued_credential` before anything is minted. -/
def deliveryEndpoint (holderDid : String) : IssuerProgram X String String := do
  .ofExcept ((service.outbound.checkDid X holderDid service.insecureHttp).mapError
    OutboundError.toString)
  let holderDoc ← resolveDid holderDid service.insecureHttp
  let endpoint ← .ofExcept (X.serviceEndpointUrl holderDoc "CredentialService")
  -- the endpoint is the holder's word: it is checked, and the URL below it is posted to
  .ofExcept ((service.outbound.checkUrl X endpoint).mapError OutboundError.toString)
  return endpoint

/-- The part after everything is minted. -/
def postCredentials (job : DeliveryJob) (endpoint : String) (minted : List Minted) :
    IssuerProgram X String (List IssuedCredential) := do
  let now ← nowSecs
  let jti ← drawUuid
  let status ← .ask (IssuerOp.deliver (endpoint ++ "/credentials")
    (deliveryToken service job now jti) (deliveryMessage job minted)) .ofExcept
  .require (isSuccess status = true) ("Storage API returned HTTP " ++ X.statusText status)
  return minted.map (·.record)

/-- `try_deliver_issued_credential`; what it allocated is what `allocate` answered. -/
def tryDeliverIssuedCredential (job : DeliveryJob) :
    IssuerProgram X String (List IssuedCredential) := do
  let endpoint ← deliveryEndpoint service job.holderDid
  let minted ← mintDefinitions service job [] job.definitions
  postCredentials service job endpoint minted

/-- The key a proof is to be verified under. -/
def proofVerifyingKey : Oid4vci.ProofKey → IssuerProgram X String X.VerifyingKey
  | .jwk x y _ => .ofExcept (X.jwkToVerifyingKey x y)
  | .didUrl kid did => do
      .require ("did:web:".toList.isPrefixOf did.toList = true)
        ("unsupported DID method in kid '" ++ kid ++ "'")
      .ofExcept ((service.outbound.checkDid X did service.insecureHttp).mapError
        OutboundError.toString)
      let doc ← resolveDid did service.insecureHttp
      .ofExcept (X.findVerifyingKey doc kid)

/-- `verify_proof_signature`. -/
def verifyProofSignature (proof : String) (key : Oid4vci.ProofKey) :
    IssuerProgram X String Unit := do
  let verifyingKey ← proofVerifyingKey service key
  .ofExcept (X.verifyJwsSignature proof verifyingKey)

/-! ## Confinement -/

variable {service}

/-- Every request these functions ask for is admitted. -/
def Admitted (service : IssuerService X) (op : IssuerOp) : Prop :=
  ∀ call, issuerRequests X op = some call → service.outbound.Admits X call.url

theorem admitted_fetchDocument {url : String} (h : service.outbound.checkUrl X url = .ok ()) :
    Admitted service (.fetchDocument url) := by
  rintro _ ⟨⟩ _ -
  exact OutboundPolicy.checkUrl_eq_ok.mp h

variable {past : List (Event (issuerEffects X))}

theorem resolveDid_wp {did : String} {insecureHttp : Bool}
    (h : service.outbound.checkDid X did insecureHttp = .ok ()) :
    (resolveDid did insecureHttp).wp (fun _ => Admitted service) (fun _ _ => True) past := by
  unfold resolveDid
  rw [Program.wp_bind, Program.wp_ofExcept]
  intro url hurl
  rw [Program.wp_ask]
  refine ⟨admitted_fetchDocument (OutboundPolicy.checkUrl_of_checkDid h hurl), fun answer => ?_⟩
  exact Program.wp_ofExcept.mpr fun _ _ => trivial

theorem mintDefinitions_wp {job : DeliveryJob} {minted : List Minted}
    {todo : List CredentialDefinition} :
    (mintDefinitions service job minted todo).wp (fun _ => Admitted service) (fun _ _ => True)
      past := by
  induction todo generalizing minted past with
  | nil => exact Program.wp_pure.mpr trivial
  | cons definition todo ih =>
      rw [mintDefinitions, Program.wp_bind]
      refine Program.wp_perform.mpr ⟨nofun, fun allocated => ?_⟩
      rw [Program.wp_bind, Program.wp_ofExcept]
      intro index _
      rw [Program.wp_bind]
      refine Program.wp_perform.mpr ⟨nofun, fun now => ?_⟩
      rw [Program.wp_bind]
      exact Program.wp_perform.mpr ⟨nofun, fun uuid => ih⟩

theorem deliveryEndpoint_wp {holderDid : String} :
    (deliveryEndpoint service holderDid).wp (fun _ => Admitted service)
      (fun _ endpoint => service.outbound.Allows X endpoint) past := by
  unfold deliveryEndpoint
  rw [Program.wp_bind, Program.wp_ofExcept]
  intro _ hdid
  rw [Except.mapError_eq_ok] at hdid
  rw [Program.wp_bind]
  refine Program.wp_post (resolveDid_wp hdid) (fun later holderDoc _ => ?_)
  rw [Program.wp_bind, Program.wp_ofExcept]
  intro endpoint _
  rw [Program.wp_bind, Program.wp_ofExcept]
  intro _ hallowed
  rw [Except.mapError_eq_ok] at hallowed
  exact Program.wp_pure.mpr (OutboundPolicy.checkUrl_eq_ok.mp hallowed)

/-- The post goes below the endpoint that was checked, and so to the same host. -/
theorem postCredentials_wp {hosts : WebUrl.HostParser} (hstandard : X.FollowsUrlStandard hosts)
    {job : DeliveryJob} {endpoint : String} {minted : List Minted}
    (hallowed : service.outbound.Allows X endpoint) :
    (postCredentials service job endpoint minted).wp (fun _ => Admitted service)
      (fun _ _ => True) past := by
  unfold postCredentials
  rw [Program.wp_bind]
  refine Program.wp_perform.mpr ⟨nofun, fun now => ?_⟩
  rw [Program.wp_bind]
  refine Program.wp_perform.mpr ⟨nofun, fun jti => ?_⟩
  rw [Program.wp_bind, Program.wp_ask]
  refine ⟨?_, fun answer => ?_⟩
  · rintro _ ⟨⟩
    exact OutboundPolicy.admits_credentials hstandard hallowed
  · rw [Program.wp_ofExcept]
    intro status _
    rw [Program.wp_bind, Program.wp_require]
    exact fun _ => Program.wp_pure.mpr trivial

theorem tryDeliverIssuedCredential_wp {hosts : WebUrl.HostParser}
    (hstandard : X.FollowsUrlStandard hosts) {job : DeliveryJob} :
    (tryDeliverIssuedCredential service job).wp (fun _ => Admitted service) (fun _ _ => True)
      past := by
  unfold tryDeliverIssuedCredential
  rw [Program.wp_bind]
  refine Program.wp_post deliveryEndpoint_wp (fun later endpoint hallowed => ?_)
  rw [Program.wp_bind]
  exact Program.wp_post mintDefinitions_wp fun _ _ _ => postCredentials_wp hstandard hallowed

theorem proofVerifyingKey_wp {key : Oid4vci.ProofKey} :
    (proofVerifyingKey service key).wp (fun _ => Admitted service) (fun _ _ => True) past := by
  cases key with
  | jwk x y did =>
      rw [proofVerifyingKey, Program.wp_ofExcept]
      exact fun _ _ => trivial
  | didUrl kid did =>
      rw [proofVerifyingKey, Program.wp_bind, Program.wp_require]
      intro _
      rw [Program.wp_bind, Program.wp_ofExcept]
      intro _ hdid
      rw [Except.mapError_eq_ok] at hdid
      rw [Program.wp_bind]
      refine Program.wp_post (resolveDid_wp hdid) (fun later doc _ => ?_)
      exact Program.wp_ofExcept.mpr fun _ _ => trivial

theorem verifyProofSignature_wp {proof : String} {key : Oid4vci.ProofKey} :
    (verifyProofSignature service proof key).wp (fun _ => Admitted service) (fun _ _ => True)
      past := by
  unfold verifyProofSignature
  rw [Program.wp_bind]
  refine Program.wp_post proofVerifyingKey_wp (fun later verifyingKey _ => ?_)
  exact Program.wp_ofExcept.mpr fun _ _ => trivial

/-! ## The same as a task, and as a function of the answer

A delivery is also a task of `Issuer.Delivery`, which other tasks may come between, and the
check of a proof a function of what the DID resolved to. Undisturbed they do the same. -/

/-- The status list hands out indexes; nothing else changes the tables. -/
def issuerEnvironment (X : External) : Environment (issuerEffects X) AppState where
  respond app e app' :=
    match e with
    | ⟨IssuerOp.allocate, none⟩ => app.issued.statusList.allocate = none ∧ app' = app
    | ⟨IssuerOp.allocate, some index⟩ =>
        ∃ list, app.issued.statusList.allocate = some (index, list) ∧
          app' = { app with issued := app.issued.withList list }
    | _ => app' = app

variable (service) in
/-- Steps of one task, and the answers to its posts. -/
inductive TaskRun : AppState → Delivery → AppState → Delivery → Prop
  | refl (app : AppState) (task : Delivery) : TaskRun app task app task
  | step {app app₁ app' : AppState} {task task₁ task' : Delivery} (event : DeliveryEvent X) :
      deliveryStep service true app task event = some (app₁, task₁) →
        TaskRun app₁ task₁ app' task' → TaskRun app task app' task'
  | answered {app app' : AppState} {task task₁ task' : Delivery} (status : ℕ) :
      task.answer status = some task₁ → TaskRun app task₁ app' task' → TaskRun app task app' task'

theorem TaskRun.trans {app app₁ app' : AppState} {task task₁ task' : Delivery}
    (h : TaskRun service app task app₁ task₁) (h' : TaskRun service app₁ task₁ app' task') :
    TaskRun service app task app' task' := by
  induction h with
  | refl => exact h'
  | step event hstep _ ih => exact .step event hstep (ih h')
  | answered status hanswer _ ih => exact .answered status hanswer (ih h')

/-- The phase a delivery is closed from. -/
def Left (task : Delivery) : Except String (List IssuedCredential) → Prop
  | .ok records => task.phase = .answered records
  | .error e => ∃ allocated, task.phase = .failed allocated e

variable {app app' : AppState} {job : DeliveryJob}

theorem resolveDid_comesTo {did : String} {insecureHttp : Bool}
    {result : Except String X.DidDocument}
    (h : (issuerEnvironment X).ComesTo (resolveDid did insecureHttp) app result app') :
    app' = app := by
  rcases h.ofExcept_cases with ⟨e, -, -, happ⟩ | ⟨url, -, hfetch⟩
  · exact happ
  · obtain ⟨answer, app₁, happ, hanswer⟩ := hfetch.ask
    rw [hanswer.ofExcept.2, show app₁ = app from happ]

theorem findEndpoint_eq (service : IssuerService X) (holderDid : String)
    (answer : Except String X.DidDocument) :
    findEndpoint service holderDid answer =
      ((service.outbound.checkDid X holderDid service.insecureHttp).mapError
        OutboundError.toString).bind (fun _ => answer.bind (fun doc =>
          (X.serviceEndpointUrl doc "CredentialService").bind (fun endpoint =>
            ((service.outbound.checkUrl X endpoint).mapError OutboundError.toString).bind
              (fun _ => .ok endpoint)))) := by
  unfold findEndpoint
  cases service.outbound.checkDid X holderDid service.insecureHttp with
  | error e => rfl
  | ok _ =>
      cases answer with
      | error e => rfl
      | ok doc =>
          dsimp only [Except.mapError, Except.bind]
          cases X.serviceEndpointUrl doc "CredentialService" with
          | error e => rfl
          | ok endpoint =>
              dsimp only
              cases service.outbound.checkUrl X endpoint <;> rfl

theorem deliveryEndpoint_comesTo {holderDid : String} {result : Except String String}
    (h : (issuerEnvironment X).ComesTo (deliveryEndpoint service holderDid) app result app') :
    app' = app ∧ ∃ answer, findEndpoint service holderDid answer = result := by
  simp only [findEndpoint_eq]
  rcases h.ofExcept_cases with ⟨e, hdid, rfl, happ⟩ | ⟨_, hdid, h₁⟩
  · rw [hdid]
    exact ⟨happ, .error e, rfl⟩
  rw [hdid]
  rcases h₁.bind_cases with ⟨e, rfl, hresolve⟩ | ⟨doc, app₁, hresolve, h₂⟩
  · exact ⟨resolveDid_comesTo hresolve, .error e, rfl⟩
  obtain rfl := resolveDid_comesTo hresolve
  rcases h₂.ofExcept_cases with ⟨e, hendpoint, rfl, happ⟩ | ⟨endpoint, hendpoint, h₃⟩
  · refine ⟨happ, .ok doc, ?_⟩
    simp only [Except.bind, hendpoint]
  rcases h₃.ofExcept_cases with ⟨e, hallowed, rfl, happ⟩ | ⟨_, hallowed, h₄⟩
  · refine ⟨happ, .ok doc, ?_⟩
    simp only [Except.bind, hendpoint, hallowed]
  · obtain ⟨rfl, happ⟩ := h₄.pure
    refine ⟨happ, .ok doc, ?_⟩
    simp only [Except.bind, hendpoint, hallowed]

/-- The credentials are minted one step at a time. -/
theorem mintDefinitions_task {endpoint : String} {minted : List Minted}
    {todo : List CredentialDefinition} {task : Delivery} {result : Except String (List Minted)}
    (hphase : task.phase = .minting job endpoint todo minted)
    (h : (issuerEnvironment X).ComesTo (mintDefinitions service job minted todo) app result app') :
    (∀ all, result = .ok all →
      TaskRun service app task app' { task with phase := .minting job endpoint [] all }) ∧
    ∀ e, result = .error e → ∃ allocated,
      TaskRun service app task app' { task with phase := .failed allocated e } := by
  induction todo generalizing app task minted with
  | nil =>
      obtain ⟨rfl, rfl⟩ := h.pure
      refine ⟨?_, nofun⟩
      rintro _ ⟨⟩
      rw [← hphase]
      exact .refl app' task
  | cons definition todo ih =>
      obtain ⟨allocated, app₁, hresponds, h₁⟩ := h.ask
      cases allocated with
      | none =>
          obtain ⟨hnone, rfl⟩ := hresponds
          rcases h₁.ofExcept_cases with ⟨e, hindex, rfl, rfl⟩ | ⟨index, hindex, -⟩
          · cases hindex
            refine ⟨nofun, ?_⟩
            rintro _ ⟨⟩
            refine ⟨mintedIndexes minted, .step (.mint 0 "") ?_ (.refl _ _)⟩
            simp only [deliveryStep, hphase, hnone]
          · cases hindex
      | some index =>
          obtain ⟨list, hsome, rfl⟩ := hresponds
          rcases h₁.ofExcept_cases with ⟨e, hindex, -⟩ | ⟨_, hindex, h₂⟩
          · cases hindex
          cases hindex
          obtain ⟨now, app₂, happ₂, h₃⟩ := h₂.ask
          obtain ⟨uuid, app₃, happ₃, h₄⟩ := h₃.ask
          obtain rfl : app₂ = _ := happ₂
          obtain rfl : app₃ = _ := happ₃
          have hstep : deliveryStep service true app task (.mint now uuid) =
              some ({ app with issued := app.issued.withList list },
                { task with
                    phase := .minting job endpoint todo
                      (minted ++ [mintForJob service job definition index now uuid]) }) := by
            simp only [deliveryStep, hphase, hsome]
          have hphase₁ : Delivery.phase
              { task with
                phase := .minting job endpoint todo
                  (minted ++ [mintForJob service job definition index now uuid]) } = _ := rfl
          obtain ⟨hall, hfailed⟩ := ih hphase₁ h₄
          refine ⟨fun all hresult => .step _ hstep (hall all hresult), fun e hresult => ?_⟩
          obtain ⟨allocated, hrun⟩ := hfailed e hresult
          exact ⟨allocated, .step _ hstep hrun⟩

/-- The post is answered, or lost. -/
theorem postCredentials_task {endpoint : String} {minted : List Minted} {task : Delivery}
    (hphase : task.phase = .minting job endpoint [] minted)
    {result : Except String (List IssuedCredential)}
    (h : (issuerEnvironment X).ComesTo (postCredentials service job endpoint minted) app result
      app') :
    ∃ task', TaskRun service app task app' task' ∧ Left task' result := by
  obtain ⟨now, app₁, happ₁, h₁⟩ := h.ask
  obtain ⟨jti, app₂, happ₂, h₂⟩ := h₁.ask
  obtain ⟨posted, app₃, happ₃, h₃⟩ := h₂.ask
  obtain rfl : app₁ = app := happ₁
  obtain rfl : app₂ = app₁ := happ₂
  obtain rfl : app₃ = app₂ := happ₃
  let call : StorageCall :=
    { url := endpoint ++ "/credentials"
      bearer := deliveryToken service job now jti
      message := deliveryMessage job minted
      indexes := mintedIndexes minted
      answer := none }
  have hpost : TaskRun service app₃ task app₃
      { task with phase := .waiting minted, posts := call :: task.posts } := by
    refine .step (.post now jti) ?_ (.refl _ _)
    simp only [deliveryStep, hphase]
    rfl
  rcases h₃.ofExcept_cases with ⟨e, rfl, rfl, rfl⟩ | ⟨status, rfl, h₄⟩
  · exact ⟨_, hpost.trans (.step (.lose e) rfl (.refl _ _)), mintedIndexes minted, rfl⟩
  have hanswered := hpost.trans (.answered status rfl (.refl _ _))
  rcases h₄.bind_cases with ⟨e, rfl, hfailed⟩ | ⟨_, app₄, hsuccess, h₅⟩
  · obtain ⟨hresult, rfl⟩ := hfailed.require
    split at hresult
    · cases hresult
    · rename_i hstatus
      cases hresult
      exact ⟨_, hanswered.trans (.step .receive (if_neg hstatus) (.refl _ _)),
        mintedIndexes minted, rfl⟩
  · obtain ⟨hresult, rfl⟩ := hsuccess.require
    obtain ⟨rfl, rfl⟩ := h₅.pure
    split at hresult
    · rename_i hstatus
      exact ⟨_, hanswered.trans (.step .receive (if_pos hstatus) (.refl _ _)), rfl⟩
    · cases hresult

/-- **A delivery task does what the program does**, and ends in the phase it is closed
from. -/
theorem delivery_task {task : Delivery} (hphase : task.phase = .resolving job)
    {result : Except String (List IssuedCredential)}
    (h : (issuerEnvironment X).ComesTo (tryDeliverIssuedCredential service job) app result app') :
    ∃ task', TaskRun service app task app' task' ∧ Left task' result := by
  rcases h.bind_cases with ⟨e, rfl, hendpoint⟩ | ⟨endpoint, app₁, hendpoint, h₁⟩
  · obtain ⟨rfl, answer, hfind⟩ := deliveryEndpoint_comesTo hendpoint
    refine ⟨{ task with phase := .failed [] e }, .step (.resolve answer) ?_ (.refl _ _), [], rfl⟩
    simp only [deliveryStep, hphase, hfind]
  obtain ⟨rfl, answer, hfind⟩ := deliveryEndpoint_comesTo hendpoint
  have hresolved : deliveryStep service true app₁ task (.resolve answer) =
      some (app₁, { task with phase := .minting job endpoint job.definitions [] }) := by
    simp only [deliveryStep, hphase, hfind]
  have hphase₁ : Delivery.phase
      { task with phase := .minting job endpoint job.definitions [] } = _ := rfl
  rcases h₁.bind_cases with ⟨e, rfl, hmint⟩ | ⟨minted, app₂, hmint, h₂⟩
  · obtain ⟨allocated, hrun⟩ := (mintDefinitions_task hphase₁ hmint).2 e rfl
    exact ⟨_, .step _ hresolved hrun, allocated, rfl⟩
  have hminted := (mintDefinitions_task hphase₁ hmint).1 minted rfl
  have hphase₂ : Delivery.phase { task with phase := .minting job endpoint [] minted } = _ := rfl
  obtain ⟨task', hposted, hleft⟩ := postCredentials_task hphase₂ h₂
  exact ⟨task', .step _ hresolved (hminted.trans hposted), hleft⟩

/-- **The check of a proof** is the function of what the DID resolves to. -/
theorem verifyProofSignature_eval (oracle : (op : IssuerOp) → IssuerOp.Answer X op)
    (proof : String) (key : Oid4vci.ProofKey) :
    (verifyProofSignature service proof key).eval oracle =
      Oid4vci.verifyProofSignature service proof key
        ((X.didWebToUrl key.holderDid service.insecureHttp).bind
          (fun url => oracle (.fetchDocument url))) := by
  cases key with
  | jwk x y did =>
      simp only [verifyProofSignature, proofVerifyingKey, Oid4vci.verifyProofSignature,
        Program.eval_bind, Program.eval_ofExcept]
      rfl
  | didUrl kid did =>
      have hresolve : (resolveDid did service.insecureHttp).eval oracle =
          (X.didWebToUrl did service.insecureHttp).bind
            (fun url => oracle (.fetchDocument url)) := by
        rw [resolveDid, Program.eval_bind, Program.eval_ofExcept]
        congr 1
        funext url
        exact Program.eval_ofExcept (E := issuerEffects X) oracle (oracle (.fetchDocument url))
      simp only [verifyProofSignature, proofVerifyingKey, Program.eval_bind,
        Program.eval_ofExcept, Program.eval_require, hresolve]
      change _ = Oid4vci.verifyProofSignature service proof _ ((X.didWebToUrl did _).bind _)
      generalize (X.didWebToUrl did service.insecureHttp).bind
        (fun url => oracle (.fetchDocument url)) = resolved
      dsimp only [Oid4vci.verifyProofSignature]
      generalize "did:web:".toList.isPrefixOf did.toList = web
      cases web with
      | false => rfl
      | true =>
          cases service.outbound.checkDid X did service.insecureHttp with
          | error e => rfl
          | ok _ => cases resolved <;> rfl

end IssuerProgram

end IdentityHub
