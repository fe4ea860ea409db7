import IdentityHub.Hub.Reception
import IdentityHub.Lib.Reaches
import IdentityHub.Oid4vci.Granted
import IdentityHub.Wallet.BothSides

/-!
# A hub beside the issuer

`withIssuer` bounds what a hub is answered by the issuer of this repository. Here the
issuer's endpoints answer on all their URLs, the documents of all DIDs are fixed, and each
answer of the issuer is one that it comes to by its own steps (`Genuine`): the surroundings
in which a run of the hub is to be found, operation by operation.
-/

namespace IdentityHub.Wallet

open Json (Value)
open Oid4vci (CredentialCall MintedCode)
open StepSystem (Reachable Steps anyStep)

variable {X : HubExternal}

/-! ## Every endpoint of the issuer -/

/-- An answer at the URL of the authorization server's metadata is its document. -/
def ServesServerMetadata (service : Oid4vci.Service X) (request : HttpRequest)
    (response : HttpResponse) : Prop :=
  request.method = .get →
    wellKnownUrl service.baseUrl authorizationServerWellKnown = .ok request.url →
      response.isSuccess = true → response.body =
        .ok (X.jsonText (Oid4vci.authorizationServerMetadata service.baseUrl))

/-- An answer of the Token Endpoint is the one to a form that arrived meanwhile. -/
def GrantsToken (service : Oid4vci.Service X) (s s' : Oid4vci.Sys X) (request : HttpRequest)
    (response : HttpResponse) : Prop :=
  request.method = .post → request.url = service.baseUrl ++ "/oid4vci/token" →
    response.isSuccess = true →
      ∃ i form granted, s.tokenCalls.length ≤ i ∧
        s'.tokenCalls[i]? = some { form := form, phase := .granted granted } ∧
          request.body = .form form ∧ response.body = .ok (X.jsonText granted.response.toJson)

/-- An answer of the Nonce Endpoint is a nonce that was drawn meanwhile. -/
def HandsOutNonce (service : Oid4vci.Service X) (s s' : Oid4vci.Sys X) (request : HttpRequest)
    (response : HttpResponse) : Prop :=
  request.method = .post → request.url = service.baseUrl ++ "/oid4vci/nonce" →
    response.isSuccess = true →
      ∃ i cNonce time, s.nonceCalls.length ≤ i ∧ s'.nonceCalls[i]? = some (cNonce, time) ∧
        response.body = .ok (X.jsonText (Oid4vci.nonceResponse cNonce))

/-- What a request is answered with is what the issuer's endpoints answer. -/
structure Genuine (service : Oid4vci.Service X) (start : ℕ) (s s' : Oid4vci.Sys X)
    (request : HttpRequest) (response : HttpResponse) : Prop where
  metadata : ServesMetadata service start s s' request response
  server : ServesServerMetadata service request response
  token : GrantsToken service s s' request response
  nonce : HandsOutNonce service s s' request response
  credential : AnswersRequest service s s' request response

/-- The hub's surroundings with the whole issuer at its URLs: the documents are these, and
no reading of the clock is later than `now`. -/
def besideIssuer (service : Oid4vci.Service X) (start : ℕ)
    (documents : String → Except String X.DidDocument) (now : ℕ) :
    Environment (hubEffects X) (BothSides X) where
  respond w e w' :=
    Steps (Oid4vci.credentialIssuer service start) anyStep w.issuer w'.issuer ∧
      (reception documents now).respond w.hub e w'.hub ∧
        ∀ request response, e = ⟨HubOp.send request, .ok response⟩ →
          Genuine service start w.issuer w'.issuer request response

section

variable {service : Oid4vci.Service X} {start : ℕ} {s s' : Oid4vci.Sys X}
  {request : HttpRequest} {response : HttpResponse}

theorem withIssuer_of_besideIssuer {documents : String → Except String X.DidDocument} {now : ℕ}
    {w w' : BothSides X} {e : HubEvent X}
    (h : (besideIssuer service start documents now).respond w e w') :
    (withIssuer service start).respond w e w' := by
  obtain ⟨hsteps, ⟨-, hrespond⟩, hgenuine⟩ := h
  refine ⟨hsteps, hrespond, ?_⟩
  intro request response he
  have hanswer := hgenuine request response he
  exact ⟨hanswer.metadata, hanswer.credential⟩

/-- The two metadata documents have URLs of their own. -/
theorem wellKnownUrl_apart {issuer url : String}
    (h : wellKnownUrl issuer credentialIssuerWellKnown = .ok url) :
    wellKnownUrl issuer authorizationServerWellKnown ≠ .ok url := by
  intro h'
  unfold wellKnownUrl at h h'
  dsimp only at h h'
  split at h
  · cases h
  · rename_i scheme rest hsplit
    rw [hsplit] at h'
    dsimp only at h'
    split at h
    · cases h
    · rename_i hauthority
      rw [if_neg hauthority] at h'
      have hsame := Except.ok.inj (h.trans h'.symm)
      have hchars := congrArg String.toList hsame
      simp [credentialIssuerWellKnown, authorizationServerWellKnown] at hchars

theorem genuine_metadata (hget : request.method = .get)
    (hurl : wellKnownUrl service.baseUrl credentialIssuerWellKnown = .ok request.url)
    (hbody : response.body = .ok (X.jsonText
      (Oid4vci.credentialIssuerMetadata service.baseUrl s.issuer.app.definitions))) :
    Genuine service start s s request response where
  metadata _ _ _ := ⟨s, .refl, .refl, hbody⟩
  server _ hserver := absurd hserver (wellKnownUrl_apart hurl)
  token hpost := by rw [hget] at hpost; cases hpost
  nonce hpost := by rw [hget] at hpost; cases hpost
  credential hpost := by rw [hget] at hpost; cases hpost

theorem genuine_server (hget : request.method = .get)
    (hurl : wellKnownUrl service.baseUrl authorizationServerWellKnown = .ok request.url)
    (hbody : response.body =
      .ok (X.jsonText (Oid4vci.authorizationServerMetadata service.baseUrl))) :
    Genuine service start s s request response where
  metadata _ hmetadata := absurd hurl (wellKnownUrl_apart hmetadata)
  server _ _ _ := hbody
  token hpost := by rw [hget] at hpost; cases hpost
  nonce hpost := by rw [hget] at hpost; cases hpost
  credential hpost := by rw [hget] at hpost; cases hpost

/-- The three endpoints that take a `POST` have URLs of their own. -/
theorem endpoint_apart {base url path path' : String} (h : url = base ++ path)
    (hpaths : path ≠ path') : url ≠ base ++ path' := by
  rintro rfl
  exact hpaths ((String.append_right_inj base).mp h.symm)

theorem genuine_token (hpost : request.method = .post)
    (hurl : request.url = service.baseUrl ++ "/oid4vci/token")
    (h : ∃ i form granted, s.tokenCalls.length ≤ i ∧
      s'.tokenCalls[i]? = some { form := form, phase := .granted granted } ∧
        request.body = .form form ∧ response.body = .ok (X.jsonText granted.response.toJson)) :
    Genuine service start s s' request response where
  metadata hget := by rw [hpost] at hget; cases hget
  server hget := by rw [hpost] at hget; cases hget
  token _ _ _ := h
  nonce _ hnonce := absurd hnonce (endpoint_apart hurl (by decide))
  credential _ hcredential := absurd hcredential (endpoint_apart hurl (by decide))

theorem genuine_nonce (hpost : request.method = .post)
    (hurl : request.url = service.baseUrl ++ "/oid4vci/nonce")
    (h : ∃ i cNonce time, s.nonceCalls.length ≤ i ∧ s'.nonceCalls[i]? = some (cNonce, time) ∧
      response.body = .ok (X.jsonText (Oid4vci.nonceResponse cNonce))) :
    Genuine service start s s' request response where
  metadata hget := by rw [hpost] at hget; cases hget
  server hget := by rw [hpost] at hget; cases hget
  token _ htoken := absurd htoken (endpoint_apart hurl (by decide))
  nonce _ _ _ := h
  credential _ hcredential := absurd hcredential (endpoint_apart hurl (by decide))

theorem genuine_credential (hpost : request.method = .post)
    (hurl : request.url = service.baseUrl ++ "/oid4vci/credential")
    (h : ∃ i c x jws, s.credentialCalls.length ≤ i ∧ s'.credentialCalls[i]? = some c ∧
      request.headers.lookup "Authorization" = c.authorization ∧ request.body = .json c.body ∧
        c.phase = .issued x jws ∧
          response.body = .ok (X.jsonText (Oid4vci.credentialResponse jws))) :
    Genuine service start s s' request response where
  metadata hget := by rw [hpost] at hget; cases hget
  server hget := by rw [hpost] at hget; cases hget
  token _ htoken := absurd htoken (endpoint_apart hurl (by decide))
  nonce _ hnonce := absurd hnonce (endpoint_apart hurl (by decide))
  credential _ _ _ := h

end

/-! ## One operation at a time -/

section

variable {hub : Hub X} {service : Oid4vci.Service X} {start now : ℕ}
  {documents : String → Except String X.DidDocument} {w : BothSides X} {ε : Type}

theorem reaches_nowSecs {post : ℕ → BothSides X → Prop} (hclock : w.hub.clock ≤ now)
    (h : post now { w with hub := { w.hub with clock := now } }) :
    (besideIssuer service start documents now).Reaches (nowSecs : HubProgram X ε ℕ) post w := by
  unfold nowSecs
  rw [Environment.reaches_ask]
  refine ⟨now, { w with hub := { w.hub with clock := now } },
    ⟨.refl, ⟨le_rfl, hclock, rfl⟩, ?_⟩, Environment.reaches_done.mpr h⟩
  intro request response he
  cases he

theorem reaches_drawUuid {post : String → BothSides X → Prop} (uuid : String) (h : post uuid w) :
    (besideIssuer service start documents now).Reaches (drawUuid : HubProgram X ε String) post
      w := by
  unfold drawUuid
  rw [Environment.reaches_ask]
  refine ⟨uuid, w, ⟨.refl, ⟨trivial, rfl⟩, ?_⟩, Environment.reaches_done.mpr h⟩
  intro request response he
  cases he

theorem reaches_resolveDid {did url : String} {insecureHttp : Bool} {doc : X.DidDocument}
    {post : X.DidDocument → BothSides X → Prop} (hurl : X.didWebToUrl did insecureHttp = .ok url)
    (hdoc : documents url = .ok doc) (h : post doc w) :
    (besideIssuer service start documents now).Reaches (resolveDid did insecureHttp) post w := by
  unfold resolveDid
  rw [Environment.reaches_bind, Environment.reaches_ofExcept]
  refine ⟨url, hurl, ?_⟩
  rw [Environment.reaches_ask]
  refine ⟨documents url, w, ⟨.refl, ⟨rfl, rfl⟩, ?_⟩, ?_⟩
  · intro request response he
    cases he
  · rw [hdoc]
    exact Environment.reaches_ofExcept.mpr ⟨doc, rfl, h⟩

theorem reaches_storeBatch {batch : StoredCredentialBatch} {post : Unit → BothSides X → Prop}
    (h : post () { w with hub := { w.hub with store := w.hub.store.store batch } }) :
    (besideIssuer service start documents now).Reaches (storeBatch batch : HubProgram X ε Unit) post
      w := by
  unfold storeBatch
  rw [Environment.reaches_ask]
  refine ⟨(), { w with hub := { w.hub with store := w.hub.store.store batch } },
    ⟨.refl, ⟨trivial, rfl⟩, ?_⟩, Environment.reaches_done.mpr h⟩
  intro request response he
  cases he

/-- A request that is answered, with the issuer's help or without. -/
theorem reaches_send {request : HttpRequest} {describe : String → ε} {s' : Oid4vci.Sys X}
    {post : HttpResponse → BothSides X → Prop} (response : HttpResponse)
    (hsteps : Steps (Oid4vci.credentialIssuer service start) anyStep w.issuer s')
    (hgenuine : Genuine service start w.issuer s' request response)
    (h : post response { w with issuer := s' }) :
    (besideIssuer service start documents now).Reaches
      (send request describe : HubProgram X ε HttpResponse) post w := by
  unfold send
  rw [Environment.reaches_ask]
  refine ⟨.ok response, { w with issuer := s' }, ⟨hsteps, ⟨trivial, rfl⟩, ?_⟩, ?_⟩
  · intro request' response' he
    cases he
    exact hgenuine
  · exact Environment.reaches_ofExcept.mpr ⟨response, rfl, h⟩

/-- A successful answer with this body. -/
def answerWith (X : HubExternal) (v : Value) : HttpResponse where
  status := 200
  dpopNonce := none
  wwwAuthenticate := none
  body := .ok (X.jsonText v)

variable (hparses : X.ParsesOwnText)
include hparses

theorem readBody_answerWith {α : Type} {read : Value → Option α} {v : Value} {a : α}
    (hv : CanonicalJson v) (hread : read v = some a) :
    readBody X read (answerWith X v) = .ok a := by
  unfold readBody answerWith
  rw [Except.ok_bind, hparses v hv, Except.ok_bind, hread]
  rfl

theorem readJson_answerWith {α : Type} {read : Value → Option α} {v : Value} {a : α} {url : String}
    (hv : CanonicalJson v) (hread : read v = some a) :
    readJson X read url (answerWith X v) = .ok a := by
  have hsuccess : (answerWith X v).isSuccess = true := rfl
  rw [readJson, if_pos hsuccess, readBody_answerWith hparses hv hread]
  rfl

theorem reaches_getJson {α : Type} {read : Value → Option α} {url : String} {v : Value} {a : α}
    {post : α → BothSides X → Prop} (hallowed : hub.outbound.checkUrl X url = .ok ())
    (hv : CanonicalJson v) (hread : read v = some a)
    (hgenuine : Genuine service start w.issuer w.issuer (.ofUrl url) (answerWith X v))
    (h : post a w) :
    (besideIssuer service start documents now).Reaches (getJson hub read url) post w := by
  have hsuccess : (answerWith X v).isSuccess = true := rfl
  unfold getJson checkOutbound
  simp only [Environment.reaches_bind, Environment.reaches_ofExcept, Environment.reaches_require,
    Except.mapError_eq_ok]
  refine ⟨(), hallowed, ?_⟩
  apply reaches_send (answerWith X v) .refl hgenuine
  exact ⟨hsuccess, a, readBody_answerWith hparses hv hread, h⟩

end

end IdentityHub.Wallet
