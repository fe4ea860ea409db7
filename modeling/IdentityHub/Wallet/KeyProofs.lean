import IdentityHub.Hub.Reference
import IdentityHub.Wallet.Proofs

/-!
# Key proofs, built and inspected

What the issuer asks of a `jwt` key proof, said without the order the checks come in
(`WellFormedProof`), and that a proof the wallet builds meets it for as long as its
`iat` is fresh. The wallet writes a proof as the texts of two JSON objects in base64; the
one law relied on is that such a text decodes to the two objects.
-/

namespace IdentityHub

open Json (Value)

/-! ## The law of decoding -/

/-- A value as a parser holds it: the members of an object are sorted by name. -/
inductive CanonicalJson : Value → Prop
  | null : CanonicalJson .null
  | bool (b : Bool) : CanonicalJson (.bool b)
  | natural (n : UInt64) : CanonicalJson (.number (.posInt n))
  | string (s : String) : CanonicalJson (.string s)
  | array {items : List Value} : (∀ v ∈ items, CanonicalJson v) → CanonicalJson (.array items)
  | object {fields : List (String × Value)} : (fields.map Prod.fst).Pairwise (· < ·) →
      (∀ field ∈ fields, CanonicalJson field.2) → CanonicalJson (.object fields)

/-- Decoding a compact serialisation of two values gives them back. -/
def HubExternal.DecodesCompact (X : HubExternal) : Prop :=
  ∀ (header payload : Value) (signature : List UInt8), CanonicalJson header → CanonicalJson payload →
    X.decodeJwsUnverified (Wallet.b64Text (X.jsonText header) ++ "." ++
      Wallet.b64Text (X.jsonText payload) ++ "." ++
        String.ofList (Base64Url.encode signature)) = .ok (header, payload)

namespace Oid4vci

variable {X : External} {header payload : Value} {credentialIssuer : String} {now : ℕ}

/-! ## What is accepted -/

/-- The header has a `kid` that is a DID URL, and no `jwk`. -/
def NamesDid (header : Value) : Prop :=
  (∃ kid, header.get "kid" = some (.string kid) ∧ "did:".toList <+: kid.toList) ∧
    header.get "jwk" = none

/-- The header has a `jwk` that is the public half of a P-256 key, and no `kid`. -/
def CarriesJwk (header : Value) : Prop :=
  header.get "kid" = none ∧ ∃ fields, header.get "jwk" = some (.object fields) ∧
    (Value.object fields).get "kty" = some (.string "EC") ∧
      (Value.object fields).get "crv" = some (.string "P-256") ∧
        (∃ x, (Value.object fields).get "x" = some (.string x)) ∧
          (∃ y, (Value.object fields).get "y" = some (.string y)) ∧
            (Value.object fields).get "d" = none

/-- What a key proof must say. -/
structure WellFormedProof (header payload : Value) (credentialIssuer : String) (now : ℕ) :
    Prop where
  typ : header.get "typ" = some (.string "openid4vci-proof+jwt")
  alg : header.get "alg" = some (.string "ES256")
  key : NamesDid header ∨ CarriesJwk header
  aud : payload.get "aud" = some (.string credentialIssuer) ∨
    ∃ auds, payload.get "aud" = some (.array auds) ∧ .string credentialIssuer ∈ auds
  iat : ∃ iat, payload.get "iat" = some (.number (.posInt iat)) ∧
    iat.toNat ≤ now + 30 ∧ now ≤ iat.toNat + 300

theorem getStr_eq_some {v : Value} {key s : String} :
    v.getStr key = some s ↔ v.get key = some (.string s) := by
  rw [Value.getStr, Option.bind_eq_some_iff]
  constructor
  · rintro ⟨w, hw, hs⟩
    rw [hw, Value.asStr_eq_some.mp hs]
  · intro h
    exact ⟨_, h, rfl⟩

theorem getU64_eq_some {v : Value} {key : String} {n : ℕ} :
    v.getU64 key = some n ↔ ∃ m : UInt64, v.get key = some (.number (.posInt m)) ∧ m.toNat = n := by
  rw [Value.getU64, Option.bind_eq_some_iff]
  constructor
  · rintro ⟨w, hw, hn⟩
    unfold Value.asU64 at hn
    split at hn
    · rename_i m
      exact ⟨m, hw, Option.some_inj.mp hn⟩
    · cases hn
  · rintro ⟨m, hm, rfl⟩
    exact ⟨_, hm, rfl⟩

theorem proofKey_isSome :
    (∃ key, proofKey X header = some key) ↔ NamesDid header ∨ CarriesJwk header := by
  unfold proofKey
  split
  · rename_i kid hkid hjwk
    by_cases hdid : "did:".toList.isPrefixOf kid.toList = true
    · rw [if_pos hdid]
      have hprefix := List.isPrefixOf_iff_prefix.mp hdid
      exact ⟨fun _ => Or.inl ⟨⟨kid, hkid, hprefix⟩, hjwk⟩, fun _ => ⟨_, rfl⟩⟩
    · rw [if_neg hdid]
      constructor
      · rintro ⟨key, hnone⟩
        cases hnone
      · rintro (⟨⟨kid', hkid', hprefix⟩, -⟩ | ⟨hnone, -⟩)
        · rw [hkid] at hkid'
          cases hkid'
          exact absurd (List.isPrefixOf_iff_prefix.mpr hprefix) hdid
        · rw [hkid] at hnone
          cases hnone
  · rename_i fields hkid hjwk
    dsimp only
    constructor
    · rintro ⟨key, hkey⟩
      split at hkey
      · cases hkey
      · rename_i hpublic
        rw [not_or, not_or, not_not, not_not, Bool.not_eq_true, Option.isSome_eq_false_iff,
          Option.isNone_iff_eq_none] at hpublic
        obtain ⟨hkty, hcrv, hd⟩ := hpublic
        split at hkey
        · rename_i x y hx hy
          exact Or.inr ⟨hkid, fields, hjwk, getStr_eq_some.mp hkty, getStr_eq_some.mp hcrv,
            ⟨x, getStr_eq_some.mp hx⟩, ⟨y, getStr_eq_some.mp hy⟩, hd⟩
        · cases hkey
    · rintro (⟨⟨kid, hkid', -⟩, -⟩ | ⟨-, fields', hjwk', hkty, hcrv, ⟨x, hx⟩, ⟨y, hy⟩, hd⟩)
      · rw [hkid] at hkid'
        cases hkid'
      · rw [hjwk] at hjwk'
        cases hjwk'
        rw [getStr_eq_some.mpr hkty, getStr_eq_some.mpr hcrv, getStr_eq_some.mpr hx,
          getStr_eq_some.mpr hy, hd]
        exact ⟨_, rfl⟩
  · rename_i hnoDid hnoJwk
    constructor
    · rintro ⟨key, hnone⟩
      cases hnone
    · rintro (⟨⟨kid, hkid, -⟩, hjwk⟩ | ⟨hkid, fields, hjwk, -⟩)
      · exact (hnoDid kid hkid hjwk).elim
      · exact (hnoJwk fields hkid hjwk).elim

theorem audienceNames_iff : audienceNames payload credentialIssuer = true ↔
    payload.get "aud" = some (.string credentialIssuer) ∨
      ∃ auds, payload.get "aud" = some (.array auds) ∧ .string credentialIssuer ∈ auds := by
  unfold audienceNames
  split
  · rename_i aud haud
    simp [haud]
  · rename_i auds haud
    simp only [haud, List.any_eq_true, decide_eq_true_eq, Value.asStr_eq_some, Option.some_inj]
    constructor
    · rintro ⟨a, ha, rfl⟩
      exact Or.inr ⟨auds, rfl, ha⟩
    · rintro (h | ⟨auds', heq, hmem⟩)
      · cases h
      · cases heq
        exact ⟨_, hmem, rfl⟩
  · rename_i hstring harray
    constructor
    · intro h
      cases h
    · rintro (h | ⟨auds, h, -⟩)
      · exact (hstring _ h).elim
      · exact (harray _ h).elim

theorem iatFresh_iff : iatFresh payload now = true ↔
    ∃ iat, payload.get "iat" = some (.number (.posInt iat)) ∧
      iat.toNat ≤ now + 30 ∧ now ≤ iat.toNat + 300 := by
  unfold iatFresh
  cases hiat : payload.getU64 "iat" with
  | none =>
      constructor
      · intro h
        cases h
      · rintro ⟨iat, hget, -⟩
        rw [getU64_eq_some.mpr ⟨iat, hget, rfl⟩] at hiat
        cases hiat
  | some n =>
      obtain ⟨iat, hget, rfl⟩ := getU64_eq_some.mp hiat
      dsimp only
      rw [Bool.and_eq_true, decide_eq_true_eq, decide_eq_true_eq, proofIatLeewaySecs,
        proofMaxAgeSecs]
      constructor
      · rintro ⟨hahead, hold⟩
        exact ⟨iat, hget, hahead, hold⟩
      · rintro ⟨iat', hget', hahead, hold⟩
        rw [hget] at hget'
        cases hget'
        exact ⟨hahead, hold⟩

/-- **Acceptance.** -/
theorem inspectJwtProof_isOk {proof : String}
    (hdecoded : X.decodeJwsUnverified proof = .ok (header, payload)) :
    (∃ inspected, inspectJwtProof X proof credentialIssuer now = .ok inspected) ↔
      WellFormedProof header payload credentialIssuer now := by
  unfold inspectJwtProof
  rw [hdecoded]
  dsimp only
  constructor
  · rintro ⟨inspected, h⟩
    split at h
    · cases h
    · rename_i htyp
      split at h
      · cases h
      · rename_i halg
        split at h
        · cases h
        · rename_i key hkey
          split at h
          · cases h
          · rename_i haud
            split at h
            · cases h
            · rename_i hiat
              rw [not_not, getStr_eq_some] at htyp halg
              rw [Bool.not_eq_true', Bool.not_eq_false] at haud hiat
              exact ⟨htyp, halg, proofKey_isSome.mp ⟨key, hkey⟩, audienceNames_iff.mp haud,
                iatFresh_iff.mp hiat⟩
  · intro h
    obtain ⟨key, hkey⟩ := proofKey_isSome.mpr h.key
    have htyp : header.getStr "typ" = some proofJwtTyp := getStr_eq_some.mpr h.typ
    rw [if_neg (not_not.mpr htyp), if_neg (not_not.mpr (getStr_eq_some.mpr h.alg)), hkey,
      audienceNames_iff.mpr h.aud, iatFresh_iff.mpr h.iat]
    exact ⟨(key, payload.getStr "nonce"), rfl⟩

/-! ## Without overflow -/

/-- A `u64` addition; `none` where it overflows. -/
def checkedAdd (a b : ℕ) : Option ℕ := if a + b < 2 ^ 64 then some (a + b) else none

theorem checkedAdd_of_lt {a b : ℕ} (h : a + b < 2 ^ 64) : checkedAdd a b = some (a + b) := if_pos h

/-- The check of `iat` with its additions, in the order they are made in. -/
def iatFreshChecked (payload : Value) (now : ℕ) : Option Bool :=
  match payload.getU64 "iat" with
  | none => some false
  | some iat => do
      let latest ← checkedAdd now proofIatLeewaySecs
      if iat ≤ latest then
        let expiry ← checkedAdd iat proofMaxAgeSecs
        return decide (now ≤ expiry)
      else return false

/-- The second addition is only made for an `iat` that the first bounds. -/
theorem iatFreshChecked_eq (hclock : now < 2 ^ 63) :
    iatFreshChecked payload now = some (iatFresh payload now) := by
  unfold iatFreshChecked iatFresh
  cases payload.getU64 "iat" with
  | none => rfl
  | some iat =>
      have hlatest : checkedAdd now proofIatLeewaySecs = some (now + proofIatLeewaySecs) :=
        checkedAdd_of_lt (by rw [proofIatLeewaySecs]; omega)
      dsimp only
      rw [hlatest, Option.bind_eq_bind, Option.bind_some]
      by_cases hahead : iat ≤ now + proofIatLeewaySecs
      · have hexpiry : checkedAdd iat proofMaxAgeSecs = some (iat + proofMaxAgeSecs) := by
          apply checkedAdd_of_lt
          rw [proofIatLeewaySecs] at hahead
          rw [proofMaxAgeSecs]
          omega
        rw [if_pos hahead, hexpiry, decide_eq_true hahead]
        rfl
      · rw [if_neg hahead, decide_eq_false hahead]
        rfl

end Oid4vci

namespace Wallet

open Oid4vci

variable {X : HubExternal} {identity : ServiceIdentity X}

/-! ## The round trip -/

/-- The key id is the DID, which is one, and a fragment. -/
structure KeyIdOfDid (identity : ServiceIdentity X) : Prop where
  did : "did:".toList <+: identity.ownDid.toList
  plain : '#' ∉ identity.ownDid.toList
  keyId : ∃ fragment, identity.ownKeyId = identity.ownDid ++ "#" ++ fragment

/-- The payload of a key proof made at `now`. -/
def proofPayload (credentialIssuer : String) (nonce clientId : Option String) (now : ℕ) : Value :=
  .object
    ([("aud", .string credentialIssuer), ("iat", .ofNat now)] ++
      clientId.toList.map (fun id => ("iss", .string id)) ++
      nonce.toList.map (fun n => ("nonce", .string n)))

def proofHeader (identity : ServiceIdentity X) (key : ProofKeyRef) : Value :=
  .object
    (("alg", .string "ES256") ::
      match key with
      | .didUrl => [("kid", .string identity.ownKeyId), ("typ", .string Oid4vci.proofJwtTyp)]
      | .jwk => [("jwk", publicJwk X identity.signingKey), ("typ", .string Oid4vci.proofJwtTyp)])

theorem buildJwtProofForClient_returns {ε : Type} {credentialIssuer : String}
    {nonce clientId : Option String} {key : ProofKeyRef} {t : ℕ} {proof : String}
    (h : (buildJwtProofForClient (ε := ε) identity credentialIssuer nonce clientId key).Returns
      [clockRead X t] proof) :
    proof = signJwsWithHeader X (proofHeader identity key)
      (proofPayload credentialIssuer nonce clientId t) identity.signingKey := by
  unfold buildJwtProofForClient at h
  cases h with
  | ask hrest =>
      cases hrest
      rfl

theorem canonical_proofPayload (credentialIssuer : String) (nonce clientId : Option String)
    (now : ℕ) : CanonicalJson (proofPayload credentialIssuer nonce clientId now) := by
  refine .object ?_ ?_
  · cases nonce with
    | none =>
        cases clientId with
        | none => exact (by decide : ["aud", "iat"].Pairwise (· < ·))
        | some id => exact (by decide : ["aud", "iat", "iss"].Pairwise (· < ·))
    | some n =>
        cases clientId with
        | none => exact (by decide : ["aud", "iat", "nonce"].Pairwise (· < ·))
        | some id => exact (by decide : ["aud", "iat", "iss", "nonce"].Pairwise (· < ·))
  · intro field hfield
    simp only [List.mem_append, List.mem_cons, List.not_mem_nil, or_false, List.mem_map] at hfield
    rcases hfield with ((rfl | rfl) | ⟨id, -, rfl⟩) | ⟨n, -, rfl⟩
    · exact .string _
    · exact .natural _
    · exact .string _
    · exact .string _

theorem canonical_publicJwk (key : X.SigningKey) : CanonicalJson (publicJwk X key) := by
  have hsorted : ["crv", "kty", "x", "y"].Pairwise (· < ·) := by decide
  refine .object hsorted ?_
  intro field hfield
  simp only [List.mem_cons, List.not_mem_nil, or_false] at hfield
  rcases hfield with rfl | rfl | rfl | rfl <;> exact .string _

theorem canonical_proofHeader (key : ProofKeyRef) : CanonicalJson (proofHeader identity key) := by
  cases key with
  | didUrl =>
      have hsorted : ["alg", "kid", "typ"].Pairwise (· < ·) := by decide
      refine .object hsorted ?_
      intro field hfield
      simp only [List.mem_cons, List.not_mem_nil, or_false] at hfield
      rcases hfield with rfl | rfl | rfl <;> exact .string _
  | jwk =>
      have hsorted : ["alg", "jwk", "typ"].Pairwise (· < ·) := by decide
      refine .object hsorted ?_
      intro field hfield
      simp only [List.mem_cons, List.not_mem_nil, or_false] at hfield
      rcases hfield with rfl | rfl | rfl
      · exact .string _
      · exact canonical_publicJwk identity.signingKey
      · exact .string _

/-- What the wallet signs decodes to the header and the payload it wrote. -/
theorem decode_signed (hdecodes : X.DecodesCompact) {header payload : Value}
    (hheader : CanonicalJson header) (hpayload : CanonicalJson payload) (key : X.SigningKey) :
    X.decodeJwsUnverified (signJwsWithHeader X header payload key) = .ok (header, payload) :=
  hdecodes header payload _ hheader hpayload

/-- The holder a proof names. -/
def proofHolder (identity : ServiceIdentity X) : ProofKeyRef → String
  | .didUrl => identity.ownDid
  | .jwk => didJwk X (String.ofList (Base64Url.encode (X.publicKeyXy identity.signingKey).1))
      (String.ofList (Base64Url.encode (X.publicKeyXy identity.signingKey).2))

theorem takeWhile_keyId (h : KeyIdOfDid identity) :
    String.ofList (identity.ownKeyId.toList.takeWhile (· != '#')) = identity.ownDid := by
  obtain ⟨fragment, hkeyId⟩ := h.keyId
  have hall : ∀ c ∈ identity.ownDid.toList, (c != '#') = true := by
    intro c hc
    rw [bne_iff_ne]
    rintro rfl
    exact h.plain hc
  have htext : identity.ownKeyId.toList = identity.ownDid.toList ++ '#' :: fragment.toList := by
    rw [hkeyId, String.toList_append, String.toList_append, List.append_assoc]
    rfl
  rw [htext, List.takeWhile_append_of_pos hall, List.takeWhile_cons_of_neg (by simp),
    List.append_nil, String.ofList_toList]

/-- The key a proof's header names. -/
theorem proofKey_proofHeader {key : ProofKeyRef} (h : key = .didUrl → KeyIdOfDid identity) :
    ∃ k, proofKey X (proofHeader identity key) = some k ∧
      k.holderDid = proofHolder identity key := by
  cases key with
  | didUrl =>
      have hid := h rfl
      obtain ⟨fragment, hkeyId⟩ := hid.keyId
      have hdid : "did:".toList.isPrefixOf identity.ownKeyId.toList = true := by
        rw [List.isPrefixOf_iff_prefix, hkeyId, String.toList_append, String.toList_append,
          List.append_assoc]
        exact hid.did.trans (List.prefix_append _ _)
      have hkid : (proofHeader identity .didUrl).get "kid" = some (.string identity.ownKeyId) := by
        simp [proofHeader]
      have hjwk : (proofHeader identity .didUrl).get "jwk" = none := by
        simp [proofHeader, Value.get]
      refine ⟨.didUrl identity.ownKeyId
        (String.ofList (identity.ownKeyId.toList.takeWhile (· != '#'))), ?_, takeWhile_keyId hid⟩
      rw [proofKey, hkid, hjwk]
      dsimp only
      rw [if_pos hdid]
  | jwk =>
      have hkid : (proofHeader identity .jwk).get "kid" = none := by
        simp [proofHeader, Value.get]
      have hjwk : (proofHeader identity .jwk).get "jwk" =
          some (publicJwk X identity.signingKey) := by
        simp [proofHeader]
      refine ⟨.jwk (String.ofList (Base64Url.encode (X.publicKeyXy identity.signingKey).1))
        (String.ofList (Base64Url.encode (X.publicKeyXy identity.signingKey).2))
        (proofHolder identity .jwk), ?_, rfl⟩
      have hprivate : (Value.object []).get "d" = none := rfl
      rw [proofKey, hkid, hjwk]
      simp [publicJwk, Value.getStr, proofHolder, hprivate]

/-- **Round trip.** A proof made at `t` is accepted from 30 s before to 300 s after, with
its nonce and for its holder. -/
theorem inspect_built (hdecodes : X.DecodesCompact) {ε : Type} {credentialIssuer : String}
    {nonce clientId : Option String} {key : ProofKeyRef} {t now : ℕ} {proof : String}
    (hkeyId : key = .didUrl → KeyIdOfDid identity) (hclock : t < 2 ^ 63)
    (hbuilt : (buildJwtProofForClient (ε := ε) identity credentialIssuer nonce clientId key).Returns
      [clockRead X t] proof)
    (hahead : t ≤ now + 30) (hold : now ≤ t + 300) :
    ∃ k, inspectJwtProof X proof credentialIssuer now = .ok (k, nonce) ∧
      k.holderDid = proofHolder identity key := by
  have hproof := buildJwtProofForClient_returns hbuilt
  have hheader : CanonicalJson (proofHeader identity key) := canonical_proofHeader key
  have hdecoded := decode_signed hdecodes hheader
    (canonical_proofPayload credentialIssuer nonce clientId t) identity.signingKey
  obtain ⟨k, hk, hholder⟩ := proofKey_proofHeader hkeyId
  refine ⟨k, ?_, hholder⟩
  have htyp : (proofHeader identity key).getStr "typ" = some proofJwtTyp := by
    cases key <;> simp [proofHeader, Value.getStr]
  have halg : (proofHeader identity key).getStr "alg" = some "ES256" := by
    cases key <;> simp [proofHeader, Value.getStr]
  have haud : audienceNames (proofPayload credentialIssuer nonce clientId t) credentialIssuer =
      true := by
    rw [audienceNames_iff]
    exact Or.inl (by simp [proofPayload])
  have hword : t < 2 ^ 64 := by omega
  have hnat : (UInt64.ofNat t).toNat = t := UInt64.toNat_ofNat_of_lt' hword
  have hiat : iatFresh (proofPayload credentialIssuer nonce clientId t) now = true := by
    rw [iatFresh_iff]
    exact ⟨UInt64.ofNat t, by simp [proofPayload, Value.ofNat], by omega, by omega⟩
  have hnonce : (proofPayload credentialIssuer nonce clientId t).getStr "nonce" = nonce := by
    cases nonce <;> cases clientId <;> rfl
  unfold inspectJwtProof
  rw [hproof, hdecoded]
  dsimp only
  rw [if_neg (not_not.mpr htyp), if_neg (not_not.mpr halg), hk, haud, hiat, hnonce]
  rfl

/-- **Key proofs**: exactly which are accepted, that checking the `iat` overflows at no
reading of the clock, and that what the wallet builds is accepted. -/
theorem keyProofs_exact (X : HubExternal) :
    (∀ proof header payload credentialIssuer now,
      X.decodeJwsUnverified proof = .ok (header, payload) →
        ((∃ inspected, inspectJwtProof X proof credentialIssuer now = .ok inspected) ↔
          WellFormedProof header payload credentialIssuer now)) ∧
    (∀ payload now, now < 2 ^ 63 → iatFreshChecked payload now = some (iatFresh payload now)) ∧
    (X.DecodesCompact → ∀ (identity : ServiceIdentity X) (credentialIssuer : String)
      (nonce clientId : Option String) (key : ProofKeyRef) (t now : ℕ) (proof : String),
      (key = .didUrl → KeyIdOfDid identity) → t < 2 ^ 63 →
        (buildJwtProofForClient (ε := String) identity credentialIssuer nonce clientId key).Returns
          [clockRead X t] proof → t ≤ now + 30 → now ≤ t + 300 →
            ∃ k, inspectJwtProof X proof credentialIssuer now = .ok (k, nonce) ∧
              k.holderDid = proofHolder identity key) := by
  refine ⟨?_, ?_, ?_⟩
  · intro proof header payload credentialIssuer now hdecoded
    exact inspectJwtProof_isOk hdecoded
  · intro payload now hclock
    exact iatFreshChecked_eq hclock
  · intro hdecodes identity credentialIssuer nonce clientId key t now proof hkeyId hclock hbuilt
      hahead hold
    exact inspect_built hdecodes hkeyId hclock hbuilt hahead hold

/-! ### Decoding compact texts -/

theorem toList_loop (bytes : ByteArray) (i : ℕ) (read : List UInt8) :
    ByteArray.toList.loop bytes i read = read.reverse ++ bytes.data.toList.drop i := by
  fun_induction ByteArray.toList.loop bytes i read with
  | case1 i read h ih =>
      have hi : i < bytes.data.toList.length := h
      have hget : bytes.get! i = bytes.data.toList[i] := getElem!_pos bytes.data i h
      rw [ih, List.reverse_cons, List.append_assoc, List.drop_eq_getElem_cons hi, hget,
        List.singleton_append]
  | case2 i read h =>
      have hi : bytes.data.toList.length ≤ i := Nat.le_of_not_lt h
      rw [List.drop_eq_nil_of_le hi, List.append_nil]

/-- One part of a compact token: base64, UTF-8 and JSON. -/
def decodePart (part : List Char) : Option Value := do
  let bytes ← Base64Url.decode part
  let text ← String.fromUTF8? ⟨bytes.toArray⟩
  Json.Text.parse text.toList

theorem decodePart_b64Text (v : Value) :
    decodePart (b64Text (Reference.jsonText v)).toList = some v := by
  have hbytes : ∀ s : String, (⟨s.toUTF8.toList.toArray⟩ : ByteArray) = s.toUTF8 := by
    intro s
    have hlist : s.toUTF8.toList = s.toUTF8.data.toList := toList_loop s.toUTF8 0 []
    rw [hlist]
  have hvalid : (Reference.jsonText v).toUTF8.IsValidUTF8 := (Reference.jsonText v).isValidUTF8
  have htext : String.fromUTF8? (Reference.jsonText v).toUTF8 = some (Reference.jsonText v) := by
    rw [String.fromUTF8?, dif_pos hvalid]
    rfl
  rw [decodePart, b64Text, String.toList_ofList, Base64Url.decode_encode, Option.bind_eq_bind,
    Option.bind_some, hbytes, htext, Option.bind_eq_bind, Option.bind_some, Reference.jsonText,
    String.toList_ofList, Json.Text.parse_print]

theorem dot_notMem_encode (bytes : List UInt8) : '.' ∉ Base64Url.encode bytes := by
  have hsymbol : ∀ n, '.' ≠ Base64Url.symbol n := by
    intro n h
    have hdot : '.' ∉ Base64Url.alphabet := by decide
    rw [Base64Url.symbol, List.getD_eq_getElem?_getD] at h
    cases hget : Base64Url.alphabet[n]? with
    | none =>
        rw [hget] at h
        exact absurd h (by decide)
    | some c =>
        rw [hget] at h
        rw [Option.getD_some] at h
        exact hdot (h ▸ List.mem_of_getElem? hget)
  fun_induction Base64Url.encode bytes with
  | case1 a b c rest ih => simp [hsymbol, ih]
  | case2 a b => simp [hsymbol]
  | case3 a => simp [hsymbol]
  | case4 => simp

/-- The header and the payload of a compact token. -/
def decodeCompact (token : String) : Except String (Value × Value) :=
  let afterHeader := token.toList.dropWhile (· != '.')
  match decodePart (token.toList.takeWhile (· != '.')),
      decodePart ((afterHeader.drop 1).takeWhile (· != '.')) with
  | some header, some payload => .ok (header, payload)
  | _, _ => .error "not a compact JWS"

theorem decodeCompact_token (header payload : Value) (signature : List UInt8) :
    decodeCompact (b64Text (Reference.jsonText header) ++ "." ++
      b64Text (Reference.jsonText payload) ++ "." ++
        String.ofList (Base64Url.encode signature)) = .ok (header, payload) := by
  have htakes : ∀ v : Value, ∀ c ∈ (b64Text (Reference.jsonText v)).toList, (c != '.') = true := by
    intro v c hc
    rw [b64Text, String.toList_ofList] at hc
    rw [bne_iff_ne]
    rintro rfl
    exact dot_notMem_encode _ hc
  have htoken : (b64Text (Reference.jsonText header) ++ "." ++
      b64Text (Reference.jsonText payload) ++ "." ++
        String.ofList (Base64Url.encode signature)).toList =
      (b64Text (Reference.jsonText header)).toList ++ '.' ::
        ((b64Text (Reference.jsonText payload)).toList ++ '.' :: Base64Url.encode signature) := by
    simp [String.toList_append]
  unfold decodeCompact
  rw [htoken]
  rw [List.takeWhile_append_of_pos (htakes header), List.dropWhile_append_of_pos (htakes header),
    List.takeWhile_cons_of_neg (by simp), List.dropWhile_cons_of_neg (by simp), List.append_nil]
  dsimp only
  rw [List.drop_succ_cons, List.drop_zero, List.takeWhile_append_of_pos (htakes payload),
    List.takeWhile_cons_of_neg (by simp), List.append_nil, decodePart_b64Text, decodePart_b64Text]

/-- The sample functions, with tokens in the compact form. -/
def compactReference : HubExternal :=
  { hubReference with decodeJwsUnverified := decodeCompact }

theorem compactReference_decodes : compactReference.DecodesCompact := by
  intro header payload signature _ _
  exact decodeCompact_token header payload signature

def proofIdentity : ServiceIdentity compactReference where
  ownDid := "did:web:holder.example:credential-service"
  ownKeyId := "did:web:holder.example:credential-service#key-1"
  signingKey := "holder"

/-- A proof with a nonce, under the DID, at the end of its time. -/
theorem keyProofs_exact_didUrl :
    ∃ k, inspectJwtProof compactReference
        (signJwsWithHeader compactReference (proofHeader proofIdentity .didUrl)
          (proofPayload "https://issuer" (some "n-1") none 1000) "holder") "https://issuer" 1300 =
        .ok (k, some "n-1") ∧
      k.holderDid = proofHolder proofIdentity .didUrl := by
  have hkeyId : KeyIdOfDid proofIdentity := ⟨by decide, by decide, "key-1", rfl⟩
  exact (keyProofs_exact compactReference).2.2 compactReference_decodes proofIdentity
    "https://issuer" (some "n-1") none .didUrl 1000 1300 _ (fun _ => hkeyId) (by decide)
    (.ask (.refl _)) (by decide) (by decide)

end Wallet

end IdentityHub
