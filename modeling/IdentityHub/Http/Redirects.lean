import IdentityHub.Http.Outbound
import IdentityHub.Lib.Program

/-!
# The shared HTTP client

A handler hands its requests to one client, which follows redirects: what a program asks
for once becomes a request at its URL, and one more at each place an answer sends the
client to. Its redirect policy holds each of them to the outbound allow-list.

A remote end answers anything. A request is known by its URL here; which program it is
for does not matter, as long as it says which of its operations are requests.
-/

namespace IdentityHub

/-- `MAX_OUTBOUND_REDIRECTS`. -/
def maxOutboundRedirects : ℕ := 10

/-- `redirect_policy`: may a request that was made at `previous` be made at `url` next? -/
def redirectPolicy (X : External) (outbound : OutboundPolicy) (previous : List String)
    (url : String) : Except String Unit :=
  if maxOutboundRedirects ≤ previous.length then .error "too many redirects"
  else (outbound.checkUrl X url).mapError (fun e => "redirect refused: " ++ e.toString)

theorem redirectPolicy_eq_ok {X : External} {outbound : OutboundPolicy} {previous : List String}
    {url : String} : redirectPolicy X outbound previous url = .ok () ↔
      previous.length < maxOutboundRedirects ∧ outbound.Allows X url := by
  unfold redirectPolicy
  rw [← OutboundPolicy.checkUrl_eq_ok]
  by_cases hmany : maxOutboundRedirects ≤ previous.length
  · rw [if_pos hmany]
    constructor
    · intro h
      cases h
    · rintro ⟨hfew, -⟩
      exact absurd hmany (Nat.not_le.mpr hfew)
  · rw [if_neg hmany, Except.mapError_eq_ok]
    exact (and_iff_right (Nat.lt_of_not_le hmany)).symm

/-- A request that is handed to the client: its URL, and how a failure of the client
reads. -/
structure ClientCall (A : Type) where
  url : String
  failed : String → A

/-- The operations of `E` that are requests. -/
abbrev Requests (E : Effects) := (op : E.Op) → Option (ClientCall (E.Answer op))

/-- What leaves the process: a request at a URL, which an operation led to. Any other
operation is none of the client's. -/
inductive WireOp (E : Effects) where
  | request (op : E.Op) (url : String)
  | other (op : E.Op)

/-- An answer: the `Location` it redirects to, if it does, and how it reads when it is not
followed. -/
structure Reply (A : Type) where
  location : Option String
  answer : A

abbrev WireOp.Answer {E : Effects} : WireOp E → Type
  | .request op _ => Reply (E.Answer op)
  | .other op => E.Answer op

abbrev wireEffects (E : Effects) : Effects where
  Op := WireOp E
  Answer := WireOp.Answer

/-- The shared client. `join` is the URL, as it prints, that a `Location` leads to from
another one. -/
structure Client where
  outbound : OutboundPolicy
  join : String → String → Option String

variable {E : Effects} {ε α : Type} (X : External) (client : Client) (requests : Requests E)

namespace Client

/-- A request at `url` after those at `previous`, and what it is redirected to. -/
def exchange (op : E.Op) (failed : String → E.Answer op) (previous : List String) (url : String) :
    Program (wireEffects E) ε (E.Answer op) :=
  .ask (WireOp.request op url) (fun reply =>
    match reply.location.bind (client.join url) with
    | none => .pure reply.answer
    | some next =>
      match _hpolicy : redirectPolicy X client.outbound (previous ++ [url]) next with
      | .error e => .pure (failed e)
      | .ok () => exchange op failed (previous ++ [url]) next)
termination_by maxOutboundRedirects - previous.length
decreasing_by
  have hfew := (redirectPolicy_eq_ok.mp _hpolicy).1
  rw [List.length_append, List.length_singleton] at hfew ⊢
  omega

/-- An operation as the client carries it out. A text that is no URL goes nowhere. -/
def carry (op : E.Op) : Program (wireEffects E) ε (E.Answer op) :=
  match requests op with
  | none => .ask (WireOp.other op) .pure
  | some call =>
    match X.parseUrl call.url with
    | .error e => .pure (call.failed e)
    | .ok _ => client.exchange X op call.failed [] call.url

end Client

/-- The URL an operation is a request at. -/
def WireOp.url? : WireOp E → Option String
  | .request _ url => some url
  | .other _ => none

/-- A program may make requests at these URLs, in this order, redirects included. -/
def Client.MayRequest (p : Program E ε α) (urls : List String) : Prop :=
  ∃ events q, (p.interpret (client.carry X requests)).Evolves events q ∧
    urls = events.filterMap (fun e => WireOp.url? e.op)

/-! ## Its runs -/

section

variable {X client requests} {op : E.Op} {failed : String → E.Answer op} {previous : List String}
  {url : String}

theorem exchange_answered (answer : E.Answer op) :
    (client.exchange X op failed previous url : Program (wireEffects E) ε _).Returns
      [⟨WireOp.request op url, { location := none, answer := answer }⟩] answer := by
  rw [Client.exchange]
  exact .ask (.refl _)

theorem exchange_redirected {location next : String} {answer a : E.Answer op}
    {events : List (Event (wireEffects E))} (hjoin : client.join url location = some next)
    (hpolicy : redirectPolicy X client.outbound (previous ++ [url]) next = .ok ())
    (h : (client.exchange X op failed (previous ++ [url]) next : Program _ ε _).Returns events a) :
    (client.exchange X op failed previous url : Program (wireEffects E) ε _).Returns
      (⟨WireOp.request op url, { location := some location, answer := answer }⟩ :: events) a := by
  rw [Client.exchange]
  refine .ask ?_
  dsimp only
  rw [Option.bind_some, hjoin]
  dsimp only
  split
  · rename_i hrefused
    rw [hpolicy] at hrefused
    cases hrefused
  · exact h

theorem carry_eq_exchange {call : ClientCall (E.Answer op)} {parsed : Url}
    (hcall : requests op = some call) (hparse : X.parseUrl call.url = .ok parsed) :
    (client.carry X requests op : Program _ ε _) =
      client.exchange X op call.failed [] call.url := by
  rw [Client.carry, hcall]
  dsimp only
  rw [hparse]

end

/-! ## Confinement -/

variable {X client requests}

/-- If this is a URL, it is on the list. -/
def OutboundPolicy.Admits (X : External) (policy : OutboundPolicy) (url : String) : Prop :=
  ∀ parsed, X.parseUrl url = .ok parsed → policy.Allows X url

/-- What is posted below an allowed endpoint goes where the endpoint is. -/
theorem OutboundPolicy.admits_credentials {policy : OutboundPolicy} {hosts : WebUrl.HostParser}
    (hstandard : X.FollowsUrlStandard hosts) {endpoint : String}
    (h : policy.Allows X endpoint) : policy.Admits X (endpoint ++ "/credentials") := by
  intro parsed hparsed
  have hsame := parseUrl_credentials hstandard h hparsed
  obtain ⟨checked, host, hchecked, hrest⟩ := h
  rw [hchecked] at hsame
  cases hsame
  exact ⟨parsed, host, hparsed, hrest⟩

/-- Only allowed URLs leave the process. -/
def WireOp.Confined (X : External) (policy : OutboundPolicy) (asked : WireOp E) : Prop :=
  ∀ url, asked.url? = some url → policy.Allows X url

/-- The first request is at an allowed URL, and the policy lets no other one follow. -/
theorem exchange_wp {op : E.Op} {failed : String → E.Answer op} {previous : List String}
    {url : String} {past : List (Event (wireEffects E))} (h : client.outbound.Allows X url) :
    (client.exchange X op failed previous url : Program _ ε _).wp
      (fun _ => WireOp.Confined X client.outbound) (fun _ _ => True) past := by
  induction hleft : maxOutboundRedirects - previous.length using Nat.strong_induction_on
    generalizing previous url past with
  | h left ih =>
      rw [Client.exchange, Program.wp_ask]
      refine ⟨fun _ hurl => Option.some_inj.mp hurl ▸ h, fun reply => ?_⟩
      split
      · exact Program.wp_pure.mpr trivial
      · rename_i next _
        split
        · exact Program.wp_pure.mpr trivial
        · rename_i hpolicy
          obtain ⟨hfew, hnext⟩ := redirectPolicy_eq_ok.mp hpolicy
          rw [List.length_append, List.length_singleton] at hfew
          refine ih _ ?_ hnext rfl
          rw [List.length_append, List.length_singleton]
          omega

theorem carry_wp {op : E.Op} {past : List (Event (wireEffects E))}
    (h : ∀ call, requests op = some call → client.outbound.Admits X call.url) :
    (client.carry X requests op : Program _ ε _).wp
      (fun _ => WireOp.Confined X client.outbound) (fun _ _ => True) past := by
  unfold Client.carry
  split
  · rw [Program.wp_ask]
    exact ⟨nofun, fun _ => Program.wp_pure.mpr trivial⟩
  · rename_i call hcall
    split
    · exact Program.wp_pure.mpr trivial
    · rename_i parsed hparsed
      exact exchange_wp (h call hcall parsed hparsed)

/-- **A program that asks for nothing but admitted URLs** makes no request past the
allow-list, wherever it is redirected to. -/
theorem Client.MayRequest.allowed {p : Program E ε α} {urls : List String}
    (hurls : client.MayRequest X requests p urls) {post : List (Event E) → α → Prop}
    (h : p.wp (fun _ op => ∀ call, requests op = some call →
      client.outbound.Admits X call.url) post []) :
    ∀ url ∈ urls, client.outbound.Allows X url := by
  obtain ⟨events, q, hruns, rfl⟩ := hurls
  intro url hurl
  obtain ⟨e, he, hrequest⟩ := List.mem_filterMap.mp hurl
  obtain ⟨before, after, rfl⟩ := List.append_of_mem he
  have hcarried : (p.interpret (client.carry X requests)).wp
      (fun _ => WireOp.Confined X client.outbound) (fun _ _ => True) [] :=
    Program.wp_interpret h (fun _ _ hop _ => carry_wp hop) []
  exact Program.wp_asked hcarried hruns url hrequest

end IdentityHub
