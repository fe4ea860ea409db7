import IdentityHub.External
import IdentityHub.Lib.Text

/-!
# The outbound allow-list

Every request to a destination the hub did not choose is checked against a
list of hosts first: the scheme must be `http` or `https` and the host, in any
letter case, must be on the list.
-/

namespace IdentityHub

inductive OutboundError where
  | hostNotAllowed (host : String)
  | unsupportedScheme (scheme : String)
  | malformed (detail : String)
deriving DecidableEq

def OutboundError.toString : OutboundError → String
  | .hostNotAllowed host => "outbound host '" ++ host ++ "' is not on this service's allow-list"
  | .unsupportedScheme scheme =>
      "outbound URL scheme '" ++ scheme ++ "' is not supported (only http/https)"
  | .malformed detail => "outbound destination is not a usable URL: " ++ detail

/-- A deny-by-default host allow-list; the hosts are kept lower-cased. -/
structure OutboundPolicy where
  allowedHosts : List String

namespace OutboundPolicy

/-- `check_url`: the scheme, then the host. -/
def checkUrl (X : External) (policy : OutboundPolicy) (url : String) :
    Except OutboundError Unit :=
  match X.parseUrl url with
  | .error e => .error (.malformed e)
  | .ok parsed =>
    if parsed.scheme = "http" ∨ parsed.scheme = "https" then
      match parsed.host with
      | none => .error (.malformed ("'" ++ url ++ "' has no host component"))
      | some host =>
        -- a parsed host is ASCII: international names are in punycode by now
        if Text.asciiLower host ∈ policy.allowedHosts then .ok ()
        else .error (.hostNotAllowed (Text.asciiLower host))
    else .error (.unsupportedScheme parsed.scheme)

/-- `check_did`: the URL the DID resolves to, without resolving it. -/
def checkDid (X : External) (policy : OutboundPolicy) (did : String) (insecureHttp : Bool) :
    Except OutboundError Unit :=
  match X.didWebToUrl did insecureHttp with
  | .error e => .error (.malformed e)
  | .ok url => checkUrl X policy url

/-- The URL has one of the two schemes, and its host is on the list. -/
def Allows (X : External) (policy : OutboundPolicy) (url : String) : Prop :=
  ∃ parsed host, X.parseUrl url = .ok parsed ∧
    (parsed.scheme = "http" ∨ parsed.scheme = "https") ∧ parsed.host = some host ∧
      Text.asciiLower host ∈ policy.allowedHosts

theorem checkUrl_eq_ok {X : External} {policy : OutboundPolicy} {url : String} :
    policy.checkUrl X url = .ok () ↔ policy.Allows X url := by
  unfold checkUrl Allows
  cases hparse : X.parseUrl url with
  | error e => simp
  | ok parsed =>
      dsimp only
      by_cases hscheme : parsed.scheme = "http" ∨ parsed.scheme = "https"
      · rw [if_pos hscheme]
        cases hhost : parsed.host with
        | none => simp [hhost]
        | some host => by_cases hmem : Text.asciiLower host ∈ policy.allowedHosts <;> simp_all
      · rw [if_neg hscheme]
        constructor
        · intro h
          cases h
        · rintro ⟨parsed', host, hparsed, hscheme', -⟩
          cases hparsed
          exact absurd hscheme' hscheme

/-- The URL that is asked for goes where the checked one goes, if it is a URL at all. -/
theorem parseUrl_continued {X : External} {policy : OutboundPolicy} {hosts : WebUrl.HostParser}
    (hstandard : X.FollowsUrlStandard hosts) {url tail : String} {parsed : Url}
    (htail : ∀ c ∈ tail.toList, WebUrl.isC0OrSpace c = false) (h : policy.Allows X url)
    (hlonger : X.parseUrl (url ++ "/" ++ tail) = .ok parsed) : X.parseUrl url = .ok parsed := by
  obtain ⟨checked, host, hchecked, hhttp, -⟩ := h
  have hscheme := hstandard.scheme url checked hchecked
  have hschemes : WebUrl.scheme url = some "http" ∨ WebUrl.scheme url = some "https" := by
    rw [hscheme, Option.some_inj, Option.some_inj]
    exact hhttp
  obtain ⟨scheme, host, hparse, rfl⟩ := (hstandard.http url hschemes checked).mp hchecked
  have hschemes' := hschemes.imp (WebUrl.scheme_append htail) (WebUrl.scheme_append htail)
  obtain ⟨scheme', host', hparse', rfl⟩ := (hstandard.http _ hschemes' parsed).mp hlonger
  obtain ⟨rfl, rfl⟩ := Prod.mk.inj (WebUrl.parse_append htail hparse hparse')
  exact hchecked

theorem parseUrl_credentials {X : External} {policy : OutboundPolicy} {hosts : WebUrl.HostParser}
    (hstandard : X.FollowsUrlStandard hosts) {endpoint : String} {parsed : Url}
    (h : policy.Allows X endpoint) (hposted : X.parseUrl (endpoint ++ "/credentials") = .ok parsed) :
    X.parseUrl endpoint = .ok parsed := by
  have htail : ∀ c ∈ "credentials".toList, WebUrl.isC0OrSpace c = false := by
    intro c hc
    have hall : "credentials".toList.all (fun c => !WebUrl.isC0OrSpace c) = true := rfl
    have hkept := List.all_eq_true.mp hall c hc
    rwa [Bool.not_eq_true'] at hkept
  have htext : endpoint ++ "/credentials" = endpoint ++ "/" ++ "credentials" := by
    rw [String.append_assoc]
    rfl
  rw [htext] at hposted
  exact parseUrl_continued hstandard htail h hposted

theorem checkUrl_of_checkDid {X : External} {policy : OutboundPolicy} {did url : String}
    {insecureHttp : Bool} (h : policy.checkDid X did insecureHttp = .ok ())
    (hurl : X.didWebToUrl did insecureHttp = .ok url) : policy.checkUrl X url = .ok () := by
  unfold checkDid at h
  rwa [hurl] at h

end OutboundPolicy

end IdentityHub
