import IdentityHub.Http.Client
import IdentityHub.Lib.Interleaving
import IdentityHub.Lib.RecentSet
import IdentityHub.Messages

/-!
# What a hub process asks of its surroundings

The hub's handlers are programs over the operations below: reading the clock,
fetching a DID document, sending a request, drawing a UUID, remembering the `jti`
of a token, the cached snapshot of the trusted issuers registry, and the store of
credentials and of offers. Nothing is assumed about what the network answers.
-/

namespace IdentityHub

open Json (Value)

/-- What a trust list says of an issuer and a credential type. -/
structure TrustDecision where
  trusted : Bool
  reason : Option String
deriving DecidableEq

/-- What the handlers of this part use besides the functions of `External`. Of
`trusted_issuers_core`, a verified snapshot is a `TrustList`; `listedTypes` are the
types an issuer's record names. A body is parsed, and then read as what is asked
for: `decodeError` is why a value is not that. -/
structure HubExternal extends External where
  -- trusted_issuers_core
  TrustList : Type
  listIat : TrustList → ℕ
  listExp : TrustList → ℕ
  listedTypes : TrustList → String → Option (List String)
  checkTrust : TrustList → String → String → ℕ → TrustDecision
  snapshotKid : String → Except String String
  verifySnapshot : String → String → VerifyingKey → ℕ → Except String TrustList
  -- std: a string as Debug prints it
  debugText : String → String
  -- serde_json
  parseJson : String → Except String Value
  decodeError : Value → String
  -- reqwest: the query of a URL
  queryPairs : String → Except String (List (String × String))
  -- dcp_core, p256 and sha2
  publicKeyXy : SigningKey → List UInt8 × List UInt8
  ecdsaSign : SigningKey → List UInt8 → List UInt8
  sha256 : List UInt8 → List UInt8

instance : CoeOut HubExternal External := ⟨HubExternal.toExternal⟩

/-- A snapshot and when it was fetched. -/
structure CachedTrustList (X : HubExternal) where
  list : X.TrustList
  fetchedAt : ℕ

/-- A delivered batch as the store keeps it. -/
structure StoredCredentialBatch where
  issuerPid : String
  holderPid : Option String
  status : String
  rejectionReason : Option String
  credentials : List CredentialContainer
deriving DecidableEq

/-- A credential of an accepted offer. -/
structure OfferedCredential where
  id : String
  credentialType : Option String
deriving DecidableEq

/-- An accepted offer as it is handed to the store. -/
structure NewAcceptedOffer where
  issuer : String
  credentials : List OfferedCredential
deriving DecidableEq

/-- One operation of a handler. -/
inductive HubOp (X : HubExternal) where
  | now
  | fetchDocument (url : String)
  | send (request : HttpRequest)
  | uuid
  | rememberJti (jti : String)
  | readTrustCache
  | writeTrustCache (cached : CachedTrustList X)
  | storeBatch (batch : StoredCredentialBatch)
  | credentialsOfTypes (types : List String)
  | addOffer (offer : NewAcceptedOffer)

variable (X : HubExternal)

/-- What each operation answers: the clock reading, a document or a response or
why there is none, the UUID, whether the `jti` was new, the cached snapshot,
the stored credentials of some types, and the id an offer is kept under. -/
abbrev HubOp.Answer : HubOp X → Type
  | .now => ℕ
  | .fetchDocument _ => Except String X.DidDocument
  | .send _ => Except String HttpResponse
  | .uuid => String
  | .rememberJti _ => Bool
  | .readTrustCache => Option (CachedTrustList X)
  | .writeTrustCache _ => Unit
  | .storeBatch _ => Unit
  | .credentialsOfTypes _ => List CredentialContainer
  | .addOffer _ => String

abbrev hubEffects : Effects where
  Op := HubOp X
  Answer := HubOp.Answer X

abbrev HubProgram (ε α : Type) := Program (hubEffects X) ε α

abbrev HubEvent := Event (hubEffects X)

/-! ## Events -/

/-- The clock was read. -/
def clockRead (reading : ℕ) : HubEvent X := ⟨HubOp.now, reading⟩

/-- A document was asked for at `url`. -/
def documentFetched (url : String) (answer : Except String X.DidDocument) : HubEvent X :=
  ⟨HubOp.fetchDocument url, answer⟩

/-- A `jti` was offered to the cache of seen ones. -/
def jtiOffered (jti : String) (new : Bool) : HubEvent X := ⟨HubOp.rememberJti jti, new⟩

/-- The cached snapshot was read. -/
def trustCacheRead (cached : Option (CachedTrustList X)) : HubEvent X :=
  ⟨HubOp.readTrustCache, cached⟩

/-- A batch was stored. -/
def batchStored (batch : StoredCredentialBatch) : HubEvent X := ⟨HubOp.storeBatch batch, ()⟩

/-- The store was asked for the credentials of some types. -/
def credentialsRead (types : List String) (found : List CredentialContainer) : HubEvent X :=
  ⟨HubOp.credentialsOfTypes types, found⟩

/-- An offer was recorded under an id. -/
def offerRecorded (offer : NewAcceptedOffer) (id : String) : HubEvent X :=
  ⟨HubOp.addOffer offer, id⟩

/-! ## The operations as programs -/

variable {X} {ε : Type}

/-- `now_secs`. -/
def nowSecs : HubProgram X ε ℕ := .ask HubOp.now .pure

def drawUuid : HubProgram X ε String := .ask HubOp.uuid .pure

def storeBatch (batch : StoredCredentialBatch) : HubProgram X ε Unit :=
  .ask (HubOp.storeBatch batch) .pure

def credentialsOfTypes (types : List String) : HubProgram X ε (List CredentialContainer) :=
  .ask (HubOp.credentialsOfTypes types) .pure

def addOffer (offer : NewAcceptedOffer) : HubProgram X ε String :=
  .ask (HubOp.addOffer offer) .pure

/-- Remember a `jti`; the answer is whether it was new. -/
def rememberJti (jti : String) : HubProgram X ε Bool := .ask (HubOp.rememberJti jti) .pure

/-- Send a request; `describe` makes the error of a request that failed. -/
def send (request : HttpRequest) (describe : String → ε) : HubProgram X ε HttpResponse :=
  .ask (HubOp.send request) (fun answer => .ofExcept (answer.mapError describe))

def readTrustCache : HubProgram X ε (Option (CachedTrustList X)) :=
  .ask HubOp.readTrustCache .pure

def writeTrustCache (cached : CachedTrustList X) : HubProgram X ε Unit :=
  .ask (HubOp.writeTrustCache cached) .pure

/-- `resolve_did`: the document at the URL the DID names. -/
def resolveDid (did : String) (insecureHttp : Bool) : HubProgram X String X.DidDocument := do
  let url ← .ofExcept (X.didWebToUrl did insecureHttp)
  .ask (HubOp.fetchDocument url) .ofExcept

theorem nowSecs_returns (reading : ℕ) :
    (nowSecs : HubProgram X ε ℕ).Returns [clockRead X reading] reading :=
  .ask (.refl _)

theorem rememberJti_returns (jti : String) (new : Bool) :
    (rememberJti jti : HubProgram X ε Bool).Returns [jtiOffered X jti new] new :=
  .ask (.refl _)

theorem resolveDid_returns {did url : String} {insecureHttp : Bool}
    (hurl : X.didWebToUrl did insecureHttp = .ok url) (doc : X.DidDocument) :
    (resolveDid did insecureHttp).Returns [documentFetched X url (.ok doc)] doc :=
  .after (.ofExcept hurl) (.ask (.refl _))

section

variable {Q : List (HubEvent X) → HubOp X → Prop} {past : List (HubEvent X)}

@[simp] theorem wp_nowSecs {post : List (HubEvent X) → ℕ → Prop} :
    (nowSecs : HubProgram X ε ℕ).wp Q post past ↔
      Q past .now ∧ ∀ reading, post (past ++ [clockRead X reading]) reading := Program.wp_perform

@[simp] theorem wp_rememberJti {jti : String} {post : List (HubEvent X) → Bool → Prop} :
    (rememberJti jti : HubProgram X ε Bool).wp Q post past ↔
      Q past (.rememberJti jti) ∧ ∀ new, post (past ++ [jtiOffered X jti new]) new := Program.wp_perform

@[simp] theorem wp_drawUuid {post : List (HubEvent X) → String → Prop} :
    (drawUuid : HubProgram X ε String).wp Q post past ↔
      Q past .uuid ∧ ∀ uuid, post (past ++ [⟨HubOp.uuid, uuid⟩]) uuid := Program.wp_perform

@[simp] theorem wp_storeBatch {batch : StoredCredentialBatch}
    {post : List (HubEvent X) → Unit → Prop} :
    (storeBatch batch : HubProgram X ε Unit).wp Q post past ↔
      Q past (.storeBatch batch) ∧ ∀ answer, post (past ++ [batchStored X batch]) answer := Program.wp_perform

@[simp] theorem wp_credentialsOfTypes {types : List String}
    {post : List (HubEvent X) → List CredentialContainer → Prop} :
    (credentialsOfTypes types : HubProgram X ε _).wp Q post past ↔
      Q past (.credentialsOfTypes types) ∧
        ∀ found, post (past ++ [credentialsRead X types found]) found := Program.wp_perform

@[simp] theorem wp_addOffer {offer : NewAcceptedOffer}
    {post : List (HubEvent X) → String → Prop} :
    (addOffer offer : HubProgram X ε String).wp Q post past ↔
      Q past (.addOffer offer) ∧ ∀ id, post (past ++ [offerRecorded X offer id]) id := Program.wp_perform

@[simp] theorem wp_readTrustCache
    {post : List (HubEvent X) → Option (CachedTrustList X) → Prop} :
    (readTrustCache : HubProgram X ε _).wp Q post past ↔
      Q past .readTrustCache ∧ ∀ cached, post (past ++ [trustCacheRead X cached]) cached := Program.wp_perform

@[simp] theorem wp_writeTrustCache {cached : CachedTrustList X}
    {post : List (HubEvent X) → Unit → Prop} :
    (writeTrustCache cached : HubProgram X ε Unit).wp Q post past ↔
      Q past (.writeTrustCache cached) ∧
        ∀ answer, post (past ++ [⟨HubOp.writeTrustCache cached, answer⟩]) answer := Program.wp_perform

@[simp] theorem wp_send {request : HttpRequest} {describe : String → ε}
    {post : List (HubEvent X) → HttpResponse → Prop} :
    (send request describe : HubProgram X ε HttpResponse).wp Q post past ↔
      Q past (.send request) ∧
        ∀ response, post (past ++ [⟨HubOp.send request, .ok response⟩]) response := by
  unfold send
  rw [Program.wp_ask]
  refine and_congr_right (fun _ => ?_)
  constructor
  · intro h response
    exact Program.wp_ofExcept.mp (h (.ok response)) response rfl
  · intro h answer
    rw [Program.wp_ofExcept]
    intro response hanswer
    rw [Except.mapError_eq_ok] at hanswer
    subst hanswer
    exact h response

@[simp] theorem wp_resolveDid {did : String} {insecureHttp : Bool}
    {post : List (HubEvent X) → X.DidDocument → Prop} :
    (resolveDid did insecureHttp).wp Q post past ↔
      ∀ url, X.didWebToUrl did insecureHttp = .ok url → Q past (.fetchDocument url) ∧
        ∀ doc, post (past ++ [documentFetched X url (.ok doc)]) doc := by
  unfold resolveDid
  rw [Program.wp_bind, Program.wp_ofExcept]
  refine forall₂_congr (fun url _ => ?_)
  rw [Program.wp_ask]
  refine and_congr_right (fun _ => ?_)
  constructor
  · intro h doc
    exact Program.wp_ofExcept.mp (h (.ok doc)) doc rfl
  · intro h answer
    rw [Program.wp_ofExcept]
    intro doc hanswer
    subst hanswer
    exact h doc

end

section

variable (oracle : (op : HubOp X) → HubOp.Answer X op)

@[simp] theorem eval_nowSecs : (nowSecs : HubProgram X ε ℕ).eval oracle = .ok (oracle .now) := rfl

@[simp] theorem eval_resolveDid (did : String) (insecureHttp : Bool) :
    (resolveDid did insecureHttp).eval oracle =
      (X.didWebToUrl did insecureHttp).bind (fun url => oracle (.fetchDocument url)) := by
  unfold resolveDid
  rw [Program.eval_bind, Program.eval_ofExcept]
  congr 1
  funext url
  exact Program.eval_ofExcept (E := hubEffects X) oracle (oracle (.fetchDocument url))

end

end IdentityHub
