import IdentityHub.Hub.Presentation
import IdentityHub.Hub.Reference
import Mathlib.Algebra.Order.Ring.Rat
import Mathlib.Tactic.NormNum

/-!
# Validity windows

A date in a JWT is a number, in any form JSON has for one. The hub reads `exp` and
`nbf` as unsigned integers and takes anything else for a bound that is not there.
So an expired or not yet valid credential is refused and left out exactly when one
of its bounds that is violated reads as an unsigned integer.
-/

namespace IdentityHub

open Json (Value)

variable {X : HubExternal}

/-- A date of a payload has passed: it is a number up to `now`, or is there and is no
number at all. -/
def Expired (payload : Value) (now : ℕ) : Prop :=
  ∃ exp, payload.get "exp" = some exp ∧ ∀ q, exp.asNumber = some q → q ≤ now

/-- The start of a payload's window is more than the skew ahead, or is there and is
no number at all. -/
def NotYetValid (payload : Value) (now : ℕ) : Prop :=
  ∃ nbf, payload.get "nbf" = some nbf ∧ ∀ q, nbf.asNumber = some q → now + clockSkewSecs < q

/-- Every delivery a container is part of is refused. -/
def RefusedAt (X : HubExternal) (container : CredentialContainer) (now : ℕ) : Prop :=
  ∀ credentials ownDid trustedIssuerDids, container ∈ credentials →
    checkCredentialClaims X credentials ownDid trustedIssuerDids now ≠ .ok ()

/-- No presentation has the container, whatever else is stored. -/
def LeftOutAt (X : HubExternal) (container : CredentialContainer) (now : ℕ) : Prop :=
  ∀ credentials, container ∉ presentable X credentials now

/-- Outside its window a credential is neither stored nor presented. -/
def FailsClosed (X : HubExternal) (container : CredentialContainer) (payload : Value) (now : ℕ) :
    Prop :=
  Expired payload now ∨ NotYetValid payload now →
    RefusedAt X container now ∧ LeftOutAt X container now

/-- The bound is there and is not written as an unsigned integer. -/
def Unread (payload : Value) (claim : String) : Prop :=
  (payload.get claim).isSome ∧ payload.getU64 claim = none

/-- A bound in a form the hub does not read is violated, and none it reads is. -/
def ViolationUnread (payload : Value) (now : ℕ) : Prop :=
  ((Unread payload "exp" ∧ Expired payload now) ∨
    (Unread payload "nbf" ∧ NotYetValid payload now)) ∧
  (∀ exp, payload.getU64 "exp" = some exp → now < exp) ∧
    ∀ nbf, payload.getU64 "nbf" = some nbf → nbf ≤ now + clockSkewSecs

/-! ## What the hub reads -/

theorem expired_iff_of_read {payload : Value} {now exp : ℕ}
    (h : payload.getU64 "exp" = some exp) : Expired payload now ↔ exp ≤ now := by
  obtain ⟨v, hget, hv⟩ := Option.bind_eq_some_iff.mp h
  have hnumber := Value.asNumber_of_asU64 hv
  constructor
  · rintro ⟨v', hget', hle⟩
    rw [hget] at hget'
    cases hget'
    exact_mod_cast hle _ hnumber
  · intro hle
    refine ⟨v, hget, fun q hq => ?_⟩
    rw [hnumber] at hq
    cases hq
    exact_mod_cast hle

theorem notYetValid_iff_of_read {payload : Value} {now nbf : ℕ}
    (h : payload.getU64 "nbf" = some nbf) :
    NotYetValid payload now ↔ now + clockSkewSecs < nbf := by
  obtain ⟨v, hget, hv⟩ := Option.bind_eq_some_iff.mp h
  have hnumber := Value.asNumber_of_asU64 hv
  constructor
  · rintro ⟨v', hget', hlt⟩
    rw [hget] at hget'
    cases hget'
    exact_mod_cast hlt _ hnumber
  · intro hlt
    refine ⟨v, hget, fun q hq => ?_⟩
    rw [hnumber] at hq
    cases hq
    exact_mod_cast hlt

/-- Outside its window and taken for valid: the violation is one the hub does not
read. -/
theorem violationUnread_iff {payload : Value} {now : ℕ} :
    ViolationUnread payload now ↔
      (Expired payload now ∨ NotYetValid payload now) ∧ isWithinValidity payload now = true := by
  rw [isWithinValidity_iff, ViolationUnread]
  refine and_congr_left (fun ⟨hexp, hnbf⟩ => ?_)
  refine or_congr ⟨And.right, fun h => ⟨?_, h⟩⟩ ⟨And.right, fun h => ⟨?_, h⟩⟩
  · obtain ⟨v, hget, -⟩ := id h
    refine ⟨by rw [hget]; rfl, ?_⟩
    cases hread : payload.getU64 "exp" with
    | none => rfl
    | some exp =>
        exact absurd (hexp exp hread) (not_lt.mpr ((expired_iff_of_read hread).mp h))
  · obtain ⟨v, hget, -⟩ := id h
    refine ⟨by rw [hget]; rfl, ?_⟩
    cases hread : payload.getU64 "nbf" with
    | none => rfl
    | some nbf =>
        exact absurd ((notYetValid_iff_of_read hread).mp h) (not_lt.mpr (hnbf nbf hread))

/-! ## What the hub does -/

section

variable {container : CredentialContainer} {jws : String} {header payload : Value} {now : ℕ}

theorem presentsValid_of_decoded (hpayload : container.payload = .string jws)
    (hdecoded : X.decodeJwsUnverified jws = .ok (header, payload)) :
    presentsValid X now container = isWithinValidity payload now := by
  rw [presentsValid, hpayload, Value.asStr_string, Option.map_some, hdecoded]

theorem refusedAt_of_invalid (hpayload : container.payload = .string jws)
    (hdecoded : X.decodeJwsUnverified jws = .ok (header, payload))
    (h : isWithinValidity payload now = false) : RefusedAt X container now := by
  intro credentials ownDid trustedIssuerDids hmem hok
  have hcontainer := checkCredentialClaims_eq_ok.mp hok container hmem
  obtain ⟨jws', header', payload', hholds⟩ := checkContainerClaims_eq_ok.mp hcontainer
  obtain ⟨hpayload', hdecoded'⟩ := containerJws_eq_ok.mp hholds.decoded
  rw [hpayload] at hpayload'
  cases hpayload'
  rw [hdecoded] at hdecoded'
  cases hdecoded'
  rw [hholds.validity] at h
  cases h

theorem leftOutAt_iff : LeftOutAt X container now ↔ presentsValid X now container = false := by
  constructor
  · intro h
    by_contra hvalid
    rw [Bool.not_eq_false] at hvalid
    refine h [container] ?_
    simp [presentable, firstOfEachPayload, hvalid]
  · intro h credentials hmem
    have hvalid := (List.mem_filter.mp hmem).2
    rw [h] at hvalid
    cases hvalid

/-- **When a validity window fails closed**: unless it is violated in a bound that
is not written as an unsigned integer, and in no other. -/
theorem failsClosed_iff (hpayload : container.payload = .string jws)
    (hdecoded : X.decodeJwsUnverified jws = .ok (header, payload)) :
    FailsClosed X container payload now ↔ ¬ ViolationUnread payload now := by
  rw [violationUnread_iff, FailsClosed]
  constructor
  · rintro h ⟨hviolated, hvalid⟩
    have hleftOut := leftOutAt_iff.mp (h hviolated).2
    rw [presentsValid_of_decoded hpayload hdecoded, hvalid] at hleftOut
    cases hleftOut
  · intro h hviolated
    have hinvalid : isWithinValidity payload now = false := by
      by_contra hvalid
      exact h ⟨hviolated, by simpa using hvalid⟩
    refine ⟨refusedAt_of_invalid hpayload hdecoded hinvalid, leftOutAt_iff.mpr ?_⟩
    rw [presentsValid_of_decoded hpayload hdecoded, hinvalid]

end

/-! ### A credential that has expired at a fractional second -/

def fractionalExpPayload : Value :=
  .object
    [("iss", .string "did:web:issuer"), ("sub", .string "did:web:hub"),
     ("vc", .object [("type", .array [.string "MembershipCredential"])]),
     ("exp", .number (.float (3 / 2)))]

def fractionalExpContainer : CredentialContainer where
  credentialType := "MembershipCredential"
  payload := .string (reference.signJws fractionalExpPayload "issuer" "key-1")
  format := "jwt"

theorem fractionalExp_decoded :
    hubReference.decodeJwsUnverified (reference.signJws fractionalExpPayload "issuer" "key-1") =
      .ok (Reference.header "key-1", fractionalExpPayload) :=
  reference_decode_sign fractionalExpPayload "key-1" "issuer"

/-- Long after its `exp` of one and a half seconds it is stored and presented. -/
theorem fractionalExp_accepted :
    Expired fractionalExpPayload 100 ∧
      checkCredentialClaims hubReference [fractionalExpContainer] "did:web:hub"
        (some ["did:web:issuer"]) 100 = .ok () ∧
      fractionalExpContainer ∈ presentable hubReference [fractionalExpContainer] 100 ∧
      ¬ FailsClosed hubReference fractionalExpContainer fractionalExpPayload 100 := by
  have hexpired : Expired fractionalExpPayload 100 := by
    refine ⟨.number (.float (3 / 2)), rfl, fun q hq => ?_⟩
    cases hq
    show (3 / 2 : ℚ) ≤ 100
    norm_num
  have hstored : checkCredentialClaims hubReference [fractionalExpContainer] "did:web:hub"
      (some ["did:web:issuer"]) 100 = .ok () := by
    rw [checkCredentialClaims_eq_ok]
    intro container hmem
    rw [List.mem_singleton] at hmem
    subst hmem
    refine checkContainerClaims_eq_ok.mpr ⟨_, _, _,
      containerJws_eq_ok.mpr ⟨rfl, fractionalExp_decoded⟩, rfl, ?_, rfl, rfl⟩
    rintro trusted h
    cases h
    exact List.mem_singleton.mpr rfl
  have hpresented : fractionalExpContainer ∈
      presentable hubReference [fractionalExpContainer] 100 := by
    have hvalid : presentsValid hubReference 100 fractionalExpContainer = true :=
      presentsValid_of_decoded rfl fractionalExp_decoded
    simp [presentable, firstOfEachPayload, hvalid]
  refine ⟨hexpired, hstored, hpresented, fun h => ?_⟩
  exact (h (Or.inl hexpired)).2 _ hpresented

theorem failsClosed_iff_fractionalExp :
    FailsClosed hubReference fractionalExpContainer fractionalExpPayload 1 ↔
      ¬ ViolationUnread fractionalExpPayload 1 :=
  failsClosed_iff rfl fractionalExp_decoded

end IdentityHub
