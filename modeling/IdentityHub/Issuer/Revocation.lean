import IdentityHub.Issuer.Indexes

/-!
# The published revocation list tells the truth

What a relying party reads out of the signed list (`publishedBits`) is compared
with the issued-credential records at the time of the fetch. Two facts carry the
result: a bit is set exactly when a record with that index is revoked (part of
`Accounts`), and a cached list was signed over the bits as they still are
(`Fresh`), because every operation that changes a bit drops it.

The codecs are assumed to be invertible: decoding a signed token gives its
payload back, and unpacking a gzip file its contents.
-/

namespace IdentityHub

open Json (Value)
open StepSystem (Reachable Steps anyStep)

variable {X : External} {service : IssuerService X} {start : ℕ}

/-- What a relying party reads out of a status-list token: `encodedList`,
decoded and unpacked. -/
def publishedBits (X : External) (gunzip : List UInt8 → Option (List UInt8)) (jwt : String) :
    Option (List UInt8) :=
  match X.decodeJwsUnverified jwt with
  | .error _ => none
  | .ok (_, payload) =>
      ((payload.pointer ["vc", "credentialSubject", "encodedList"]).bind Value.asStr).bind
        (fun text => (Base64Url.decode text.toList).bind gunzip)

theorem encodedList_statusListPayload (list : StatusList) (now : ℕ) :
    ((statusListPayload service list now).pointer
      ["vc", "credentialSubject", "encodedList"]).bind Value.asStr = some (list.encoded X) := by
  simp only [statusListPayload, Value.pointer_cons, Value.pointer_nil, Value.get_object_cons,
    String.reduceEq, if_false, if_true, Option.bind_some, Value.asStr_string]

section Published

variable {gunzip : List UInt8 → Option (List UInt8)} (hsign : X.SignRoundTrip)
  (hgzip : ∀ bytes, gunzip (X.gzip bytes) = some bytes)

include hsign hgzip

/-- A signed list publishes the bits it was signed over. -/
theorem publishedBits_sign (list : StatusList) (now : ℕ) :
    publishedBits X gunzip (service.identity.sign (statusListPayload service list now)) =
      some list.bits := by
  obtain ⟨header, hdecode, -⟩ := hsign (statusListPayload service list now)
    service.identity.signingKey service.identity.ownKeyId
  unfold publishedBits ServiceIdentity.sign
  rw [hdecode]
  dsimp only
  rw [encodedList_statusListPayload, Option.bind_some, StatusList.encoded, String.toList_ofList,
    Base64Url.decode_encode, Option.bind_some, hgzip]

end Published

/-! ## The cached list is up to date -/

/-- A cached list was signed over the bits as they are. -/
def Fresh (service : IssuerService X) (list : StatusList) : Prop :=
  ∀ jwt, list.cachedJwt = some jwt → ∃ (signed : StatusList) (now : ℕ),
    signed.bits = list.bits ∧ jwt = service.identity.sign (statusListPayload service signed now)

theorem Fresh.congr {list list' : StatusList} (h : Fresh service list)
    (hbits : list'.bits = list.bits) (hcache : list'.cachedJwt = list.cachedJwt) :
    Fresh service list' := by
  intro jwt hjwt
  rw [hcache] at hjwt
  rw [hbits]
  exact h jwt hjwt

section

variable {s s' : IssuerSys} {a : IssuerAction X}

/-- Only a revocation touches the bits, and only a fetch fills the cache. -/
theorem StoreMove.fresh (hs : Accounts s) (hm : StoreMove service s a s')
    (h : Fresh service s.app.issued.statusList) : Fresh service s'.app.issued.statusList := by
  cases hm with
  | same hi _ _ => exact hi ▸ h
  | signed now hi _ _ =>
      intro jwt hjwt
      rw [hi] at hjwt ⊢
      exact ⟨s.app.issued.statusList, now, rfl, (Option.some_inj.mp hjwt).symm⟩
  | revoked id record hrevoke _ _ =>
      obtain ⟨old, -, -, -, hlist, -⟩ := IssuedCredentials.revoke_eq_some hrevoke
      intro jwt hjwt
      rw [hlist] at hjwt ⊢
      -- the cache survives only when the bit was set already
      have hsame := StatusList.cachedJwt_set hjwt
      rw [hsame] at hjwt ⊢
      exact h jwt hjwt
  | worker held held' unrecorded unrecorded' rest restRecords hw hheld _ _ _ =>
      cases hw with
      | keep hi _ _ => exact hi ▸ h
      | take index list new hallocate hi _ _ _ _ =>
          obtain ⟨hbits, hcache, -⟩ := StatusList.allocate_eq_some hallocate
          rw [hi]
          exact h.congr hbits hcache
      | giveBack hi _ _ =>
          obtain ⟨free, hfold, -⟩ := hs.giveBack hheld
          rw [hi, hfold]
          exact h.congr rfl rfl
      | store records hi _ _ _ _ =>
          rw [hi, IssuedCredentials.statusList_foldl_insert]
          exact h

theorem fresh_of_reachable (h : Reachable (issuer service start) s) :
    Fresh service s.app.issued.statusList := by
  refine h.invariant_of (I := fun s => Fresh service s.app.issued.statusList)
    (fun _ => accounts_of_reachable) ?_ ?_
  · intro jwt hjwt
    cases hjwt
  · intro s₁ a s₂ hs hfresh hstep
    exact (issuer_step_store hstep).fresh hs hfresh

/-- A set bit stays set. -/
theorem StoreMove.isSet (hs : Accounts s) (hm : StoreMove service s a s') {i : ℕ}
    (h : s.app.issued.statusList.isSet i = true) : s'.app.issued.statusList.isSet i = true := by
  cases hm with
  | same hi _ _ => exact hi ▸ h
  | signed now hi _ _ =>
      rw [hi]
      exact h
  | revoked id record hrevoke _ _ =>
      obtain ⟨old, hold, -, -, hlist, -⟩ := IssuedCredentials.revoke_eq_some hrevoke
      rw [hlist, StatusList.isSet_set (hs.index_lt hold), h, Bool.or_true]
  | worker held held' unrecorded unrecorded' rest restRecords hw hheld _ _ _ =>
      cases hw with
      | keep hi _ _ => exact hi ▸ h
      | take index list new hallocate hi _ _ _ _ =>
          rw [hi]
          show list.isSet i = true
          unfold StatusList.isSet
          rw [(StatusList.allocate_eq_some hallocate).1]
          exact h
      | giveBack hi _ _ =>
          obtain ⟨free, hfold, -⟩ := hs.giveBack hheld
          rw [hi, hfold]
          exact h
      | store records hi _ _ _ _ =>
          rw [hi, IssuedCredentials.statusList_foldl_insert]
          exact h

theorem isSet_kept (h : Reachable (issuer service start) s)
    (hss : Steps (issuer service start) anyStep s s') {i : ℕ}
    (hi : s.app.issued.statusList.isSet i = true) : s'.app.issued.statusList.isSet i = true := by
  refine hss.mono (R := fun _ s₁ => s₁.app.issued.statusList.isSet i = true) h hi ?_
  intro s₁ a s₂ hr _ hstep hset
  exact (issuer_step_store hstep).isSet (accounts_of_reachable hr) hset

end

/-! ## What is served -/

section Served

variable {gunzip : List UInt8 → Option (List UInt8)} (hsign : X.SignRoundTrip)
  (hgzip : ∀ bytes, gunzip (X.gzip bytes) = some bytes)

include hsign hgzip

/-- The served token publishes the bits of the list. -/
theorem publishedBits_statusList {s : IssuerSys} (h : Reachable (issuer service start) s)
    (now : ℕ) : publishedBits X gunzip (statusList service s.app now).1 =
      some s.app.issued.statusList.bits := by
  unfold statusList
  cases hc : s.app.issued.statusList.cachedJwt with
  | none => exact publishedBits_sign hsign hgzip s.app.issued.statusList now
  | some jwt =>
      obtain ⟨signed, now', hbits, rfl⟩ := fresh_of_reachable h jwt hc
      dsimp only
      rw [publishedBits_sign hsign hgzip, hbits]

/-- **The published list tells the truth.** Whatever was cached, a fetch in a
reachable state serves a list of 131072 bits whose bit `i` is set exactly when
some record with index `i` is revoked; a revocation shows in every later fetch;
a bit published as set is never published as clear again; and setting a bit
changes no other. -/
theorem published_list_truthful {s : IssuerSys} (h : Reachable (issuer service start) s) :
    (∀ now, ∃ bits, publishedBits X gunzip (statusList service s.app now).1 = some bits ∧
      8 * bits.length = 131072 ∧
        ∀ i, Bitstring.bit bits i = true ↔
          ∃ k r, s.app.issued.get k = some r ∧ r.status = .revoked ∧ r.statusListIndex = i) ∧
    (∀ id r s' s'', s.app.issued.get id = some r →
      (issuer service start).step s (.revokeCredential id) = some s' →
        Steps (issuer service start) anyStep s' s'' → ∀ now bits,
          publishedBits X gunzip (statusList service s''.app now).1 = some bits →
            Bitstring.bit bits r.statusListIndex = true) ∧
    (∀ s' now now' bits bits' i, Steps (issuer service start) anyStep s s' →
      publishedBits X gunzip (statusList service s.app now).1 = some bits →
        publishedBits X gunzip (statusList service s'.app now').1 = some bits' →
          Bitstring.bit bits i = true → Bitstring.bit bits' i = true) ∧
    (∀ i j, i < statusListBits → j ≠ i →
      (s.app.issued.statusList.set i).isSet j = s.app.issued.statusList.isSet j) := by
  have hs := accounts_of_reachable h
  refine ⟨fun now => ?_, ?_, ?_, ?_⟩
  · refine ⟨s.app.issued.statusList.bits, publishedBits_statusList hsign hgzip h now, ?_,
      fun i => ?_⟩
    · rw [s.app.issued.statusList.length_bits]
      rfl
    · refine (hs.bits i).trans ⟨?_, ?_⟩
      · rintro ⟨r, hr, hrest⟩
        obtain ⟨k, hk⟩ := IssuedCredentials.mem_recordList.mp hr
        exact ⟨k, r, hk, hrest⟩
      · rintro ⟨k, r, hk, hrest⟩
        exact ⟨r, IssuedCredentials.mem_recordList.mpr ⟨k, hk⟩, hrest⟩
  · intro id r s' s'' hget hstep hss now bits hbits
    rw [publishedBits_statusList hsign hgzip ((h.step hstep).trans hss)] at hbits
    cases hbits
    refine isSet_kept (h.step hstep) hss ?_
    obtain ⟨-, -, s₁, hp, rfl⟩ := issuer_step_eq_some hstep
    cases hp
    show (s.settle ((revokeCredential s.app id).map (·.2))).app.issued.statusList.isSet _ = true
    unfold revokeCredential IssuedCredentials.revoke
    rw [hget]
    show (s.app.issued.statusList.set r.statusListIndex).isSet r.statusListIndex = true
    rw [StatusList.isSet_set (hs.index_lt hget), decide_eq_true rfl, Bool.true_or]
  · intro s' now now' bits bits' i hss hb hb' hi
    rw [publishedBits_statusList hsign hgzip h] at hb
    rw [publishedBits_statusList hsign hgzip (h.trans hss)] at hb'
    cases hb
    cases hb'
    exact isSet_kept h hss hi
  · intro i j hi hj
    rw [StatusList.isSet_set hi, decide_eq_false hj, Bool.false_or]

end Served

/-- A credential is delivered, the list fetched, the credential revoked and the
list fetched again. -/
def deliverFetchRevokeFetch : List (IssuerAction reference) :=
  sampleRequest "p1" "acme" 10 :: sampleDelivery 0 "c1" "j1" 11 ++
    [.fetchStatusList 20, .revokeCredential "urn:uuid:c1", .fetchStatusList 21]

set_option maxRecDepth 4000 in
/-- The bit of that credential is published as set. -/
theorem published_list_truthful_sample :
    ∃ s, Reachable (issuer (sampleIssuer .auto) 0) s ∧
      s.app.issued.statusList.cachedJwt.isSome ∧
        ∃ bits, publishedBits reference Reference.gunzip
            (statusList (sampleIssuer .auto) s.app 22).1 = some bits ∧
          Bitstring.bit bits 0 = true ∧ 8 * bits.length = 131072 := by
  obtain ⟨s, hr, hp⟩ := StepSystem.exists_reachable_of_run
    (M := issuer (sampleIssuer .auto) 0) deliverFetchRevokeFetch
    (p := fun s => s.app.issued.statusList.cachedJwt.isSome ∧
      (s.app.issued.get "urn:uuid:c1").map (fun r => (r.status, r.statusListIndex)) =
        some (.revoked, 0))
    (by decide +kernel)
  obtain ⟨hcached, hrecord⟩ := of_decide_eq_true hp
  obtain ⟨r, hget, hfields⟩ := Option.map_eq_some_iff.mp hrecord
  obtain ⟨hrevoked, hindex⟩ := Prod.mk.inj hfields
  obtain ⟨bits, hbits, hlen, htruth⟩ :=
    (published_list_truthful reference_signRoundTrip Reference.gunzip_gzip hr).1 22
  exact ⟨s, hr, hcached, bits, hbits,
    (htruth 0).mpr ⟨"urn:uuid:c1", r, hget, hrevoked, hindex⟩, hlen⟩

end IdentityHub
