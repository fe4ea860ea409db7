import IdentityHub.Issuer.System
import IdentityHub.Oid4vci.Endpoints

/-!
# The Credential Issuer under every interleaving

The endpoints next to the Issuer Service they are part of: the service's state,
the four tables, and every call that was ever made with the phase it is in. An
action is one critical section of a call, a call's arrival, the network's answer
to a DID resolution, or an action of the Issuer Service itself; the latter starts
no redemption, since only the Credential Endpoint does.

The clock never goes back: a section's readings are in order and none lies
before the last one. `random_token` does not repeat: a token is drawn once.
-/

namespace IdentityHub.Oid4vci

open Json (Value)
open StepSystem (Machine)

structure Sys (X : External) where
  issuer : IssuerSys
  state : IssuerState
  offerCalls : List OfferCall
  tokenCalls : List TokenCall
  credentialCalls : List (CredentialCall X)
  /-- The nonces handed out, with the clock at that moment. -/
  nonceCalls : List (String × ℕ)
  /-- The codes token requests presented to the table, in order, each with the
  Transaction Code beside it; kept for the record. -/
  presented : List (String × Option String)
  clock : ℕ
  /-- The random tokens drawn so far. -/
  drawn : List String

inductive Action (X : External) where
  | issuer (action : IssuerAction X)
  | createOffer (request : OfferRequest)
  | offer (call : ℕ) (event : OfferEvent)
  | offerByReference (id : String) (now : ℕ)
  | token (form : TokenForm)
  | tokenCall (call : ℕ) (event : TokenEvent)
  | nonce (now : ℕ) (cNonce : String)
  | credential (authorization : Option String) (body : Value)
  | credentialCall (call : ℕ) (event : CredentialEvent X)
  | redeem (call : ℕ)
  | answer (call : ℕ)

variable {X : External} (service : Service X)

/-! ## Clock readings and draws -/

def OfferEvent.readings : OfferEvent → List ℕ
  | .check => []
  | .mint now _ _ => [now]
  | .list now _ => [now]

def TokenEvent.readings : TokenEvent → List ℕ
  | .exchange readAt takenAt => [readAt, takenAt]
  | .grant now _ => [now]

def CredentialEvent.readings : CredentialEvent X → List ℕ
  | .authorize now => [now]
  | .inspect now => [now]
  | .verify _ => []
  | .takeNonce now => [now]

/-- What an action reads from the clock, in order. -/
def Action.readings : Action X → List ℕ
  | .offer _ event => event.readings
  | .offerByReference _ now => [now]
  | .tokenCall _ event => event.readings
  | .nonce now _ => [now]
  | .credentialCall _ event => event.readings
  | _ => []

/-- The clock after its readings, if none goes back. -/
def advance (clock : ℕ) : List ℕ → Option ℕ
  | [] => some clock
  | now :: rest => if clock ≤ now then advance now rest else none

/-- The random token an action draws. -/
def Action.draws : Action X → List String
  | .offer _ (.mint _ code _) => [code]
  | .tokenCall _ (.grant _ accessToken) => [accessToken]
  | .nonce _ cNonce => [cNonce]
  | _ => []

/-! ## Steps -/

/-- The action starts a redemption. -/
def isRedeem : IssuerAction X → Bool
  | .redeem _ _ => true
  | _ => false

/-- What a token request adds to `presented`. -/
def TokenCall.presents (call : TokenCall) (state : IssuerState) :
    TokenEvent → List (String × Option String)
  | .exchange _ _ =>
    match presentedCode call.form with
    | .ok presented => if state.codesPoisoned then [] else [presented]
    | .error _ => []
  | .grant _ _ => []

/-- `record_and_mint` starts: the definition is looked up once more. -/
def startRedemption (s : Sys X) (consumed : Consumed X) : IssuerSys × CredentialPhase X :=
  match issuerPerform service.toIssuerService s.issuer
      (.redeem consumed.checked.configId consumed.checked.key.holderDid) with
  | some issuer => (issuer, .redeeming consumed s.issuer.redemptions.length)
  | none => (s.issuer, .denied consumed (notOffered consumed.checked.configId))

/-- The answer to a redemption that has ended. -/
def redemptionAnswer (consumed : Consumed X) : RedemptionPhase → Option (CredentialPhase X)
  | .issued jws => some (.issued consumed jws)
  | .refused status description =>
      some (.denied consumed ⟨status, "credential_request_denied", description⟩)
  | _ => none

/-- What an action does, its clock readings and draws apart. -/
def perform (s : Sys X) : Action X → Option (Sys X)
  | .issuer action =>
      if isRedeem action then none
      else (issuerStep service.toIssuerService s.issuer action).map (fun issuer =>
        { s with issuer := issuer })
  | .createOffer request =>
      some { s with offerCalls := s.offerCalls ++ [{ request := request, phase := .called }] }
  | .offer call event =>
      (s.offerCalls[call]?).bind (fun c =>
        (offerStep service s.issuer.app.definitions s.state s.presented.length c event).map
          (fun out =>
            { s with
              state := out.1
              offerCalls := s.offerCalls.set call { c with phase := out.2 } }))
  | .offerByReference id now => some { s with state := (offerByReference s.state id now).2 }
  | .token form =>
      some { s with tokenCalls := s.tokenCalls ++ [{ form := form, phase := .called }] }
  | .tokenCall call event =>
      (s.tokenCalls[call]?).bind (fun c =>
        (tokenStep s.state s.presented.length c event).map (fun out =>
          { s with
            state := out.1
            tokenCalls := s.tokenCalls.set call { c with phase := out.2 }
            presented := s.presented ++ c.presents s.state event }))
  | .nonce now cNonce =>
      some { s with
        state := nonce s.state cNonce now
        nonceCalls := s.nonceCalls ++ [(cNonce, now)] }
  | .credential authorization body =>
      some { s with
        credentialCalls := s.credentialCalls ++
          [{ authorization := authorization, body := body, phase := .called }] }
  | .credentialCall call event =>
      (s.credentialCalls[call]?).bind (fun c =>
        (credentialStep service s.issuer.app.definitions s.state c event).map (fun out =>
          { s with
            state := out.1
            credentialCalls := s.credentialCalls.set call { c with phase := out.2 } }))
  | .redeem call =>
      (s.credentialCalls[call]?).bind (fun c =>
        match c.phase with
        | .consumed consumed =>
            let out := startRedemption service s consumed
            some { s with
              issuer := out.1
              credentialCalls := s.credentialCalls.set call { c with phase := out.2 } }
        | _ => none)
  | .answer call =>
      (s.credentialCalls[call]?).bind (fun c =>
        match c.phase with
        | .redeeming consumed task =>
            (s.issuer.redemptions[task]?).bind (fun redemption =>
              (redemptionAnswer consumed redemption).map (fun phase =>
                { s with
                  credentialCalls := s.credentialCalls.set call { c with phase := phase } }))
        | _ => none)

def step (s : Sys X) (a : Action X) : Option (Sys X) :=
  match advance s.clock a.readings with
  | none => none
  | some clock =>
    if ∀ token ∈ a.draws, token ∉ s.drawn then
      (perform service s a).map (fun s' =>
        { s' with clock := clock, drawn := a.draws ++ s.drawn })
    else none

def Sys.start (now : ℕ) : Sys X where
  issuer := .start now
  state := .default
  offerCalls := []
  tokenCalls := []
  credentialCalls := []
  nonceCalls := []
  presented := []
  clock := now
  drawn := []

/-- The Credential Issuer, started at `start`. -/
def credentialIssuer (start : ℕ) : Machine (Sys X) (Action X) where
  init := .start start
  step := step service

variable {service} {start : ℕ}

theorem step_eq_some {s s' : Sys X} {a : Action X}
    (h : (credentialIssuer service start).step s a = some s') :
    ∃ s₁ clock, perform service s a = some s₁ ∧ advance s.clock a.readings = some clock ∧
      (∀ token ∈ a.draws, token ∉ s.drawn) ∧
        s' = { s₁ with clock := clock, drawn := a.draws ++ s.drawn } := by
  change step service s a = some s' at h
  unfold step at h
  split at h
  · cases h
  · rename_i clock hclock
    split at h
    · rename_i hfresh
      obtain ⟨s₁, hperform, rfl⟩ := Option.map_eq_some_iff.mp h
      exact ⟨s₁, clock, hperform, hclock, hfresh, rfl⟩
    · cases h

/-- The clock does not go back, and every reading lies in between. -/
theorem advance_spec : ∀ {readings : List ℕ} {clock clock' : ℕ},
    advance clock readings = some clock' →
      clock ≤ clock' ∧ ∀ now ∈ readings, clock ≤ now ∧ now ≤ clock'
  | [], clock, clock', h => by
      cases h
      exact ⟨le_rfl, fun _ h => absurd h List.not_mem_nil⟩
  | now :: rest, clock, clock', h => by
      rw [advance] at h
      split at h
      · rename_i hle
        obtain ⟨hmono, hrest⟩ := advance_spec h
        refine ⟨hle.trans hmono, fun t ht => ?_⟩
        rcases List.mem_cons.mp ht with rfl | ht
        · exact ⟨hle, hmono⟩
        · exact ⟨hle.trans (hrest t ht).1, (hrest t ht).2⟩
      · cases h

theorem advance_one {now clock clock' : ℕ} (h : advance clock [now] = some clock') :
    clock ≤ now ∧ now = clock' := by
  rw [advance] at h
  split at h
  · rename_i hle
    cases h
    exact ⟨hle, rfl⟩
  · cases h

theorem advance_two {first second clock clock' : ℕ}
    (h : advance clock [first, second] = some clock') :
    clock ≤ first ∧ first ≤ second ∧ second = clock' := by
  rw [advance] at h
  split at h
  · rename_i hle
    exact ⟨hle, advance_one h⟩
  · cases h

end IdentityHub.Oid4vci
