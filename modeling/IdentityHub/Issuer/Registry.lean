import IdentityHub.Issuer.Moves
import IdentityHub.Lib.IndexedTable

/-!
# The holder registry over time

Three structures describe the registered holders: the records under their ids,
the index from `holderKey` of the DID to the id, and the order of insertion.
They always describe the same holders, nobody is ever removed or renamed, and a
rejection lasts: whatever happens until the operator approves the holder, its
Credential Requests create nothing.
-/

namespace IdentityHub

open Json (Value)
open StepSystem (Steps Reachable Guard anyStep)

/-! ## The representation -/

/-- Records, DID index and order describe the same holders, and they fit. -/
structure HolderRegistry.Consistent (registry : HolderRegistry) : Prop where
  indexed : KeyedTable.Indexed Holder.holderId (fun h => holderKey h.did) registry.holders
    registry.didIndex registry.order
  fits : KeyedTable.size registry.holders ≤ maxHolders

namespace HolderRegistry.Consistent

variable {registry registry' : HolderRegistry}

theorem empty : HolderRegistry.empty.Consistent where
  indexed := .empty _ _
  fits := Nat.zero_le _

theorem keyed (h : registry.Consistent) : registry.Keyed := h.indexed.keyed

/-- A lookup by DID finds the holder in every spelling of its DID. -/
theorem byDid (h : registry.Consistent) {k did : String} {holder : Holder}
    (hget : registry.get k = some holder) (hdid : holderKey did = holderKey holder.did) :
    registry.byDid did = some holder := by
  rw [HolderRegistry.byDid_congr hdid]
  exact h.indexed.find hget

theorem insert (h : registry.Consistent) {holder : Holder}
    (hins : registry.insert holder = .ok (holder, registry')) : registry'.Consistent := by
  obtain ⟨-, hid, hdid, hroom, hr⟩ := HolderRegistry.insert_eq_ok hins
  have hkey : holder.holderId ∉ registry.holders := AList.lookup_eq_none.mp hid
  dsimp only at hr
  rw [hr]
  exact
    { indexed := h.indexed.insert (r := holder) hkey (h.indexed.lookup_eq_none hdid)
      fits := by
        show KeyedTable.size (registry.holders.insert holder.holderId holder) ≤ maxHolders
        rw [KeyedTable.size_insert _ hkey]
        exact hroom }

theorem modify (h : registry.Consistent) (k : String) {f : Holder → Holder}
    (hid : ∀ x, (f x).holderId = x.holderId) (hdid : ∀ x, (f x).did = x.did) :
    (registry.modify k f).Consistent where
  indexed := h.indexed.modify k hid (fun x => congrArg holderKey (hdid x))
  fits := (KeyedTable.size_map ..).trans_le h.fits

end HolderRegistry.Consistent

variable {X : External} {service : IssuerService X} {start : ℕ}

theorem HoldersMove.consistent {holders holders' : HolderRegistry} {vouched vouched' : List String}
    (hm : HoldersMove service holders vouched holders' vouched') (h : holders.Consistent) :
    holders'.Consistent := by
  cases hm with
  | same => exact h
  | contact holder hins => exact h.insert hins
  | register holder hins => exact h.insert hins
  | edit holderId f hf => exact h.modify holderId (fun x => (hf x).1) (fun x => (hf x).2.1)

theorem consistent_of_reachable {s : IssuerSys} (h : Reachable (issuer service start) s) :
    s.app.holders.Consistent := by
  refine h.invariant (I := fun s => s.app.holders.Consistent) .empty ?_
  intro s₁ a s₂ hc hstep
  cases issuer_step_move hc.keyed hstep with
  | quiet hh => exact hh.consistent hc
  | accepted p holder hh => exact hh.consistent hc
  | recorded p hh =>
      rw [hh]
      exact hc
  | decided holderId status next now holder _ _ hh =>
      rw [hh]
      exact hc.modify holderId (fun _ => rfl) (fun _ => rfl)
  | task i t t' event _ _ hh =>
      rw [hh]
      exact hc
  | answered i t t' _ _ _ _ _ _ happ =>
      rw [happ]
      exact hc

/-! ## What a step leaves of a holder -/

/-- The record a step leaves: the same id and DID, and the same status unless
the operator decided on the holder. -/
structure Holder.Later (a : IssuerAction X) (holder holder' : Holder) : Prop where
  sameId : holder'.holderId = holder.holderId
  sameDid : holder'.did = holder.did
  status : holder'.status = holder.status ∨ holder'.status = .rejected ∨
    ∃ now, a = .approveHolder holder.holderId now

/-- **Step lemma.** No holder is removed or renamed. -/
theorem holder_later {s s' : IssuerSys} {a : IssuerAction X} (hc : s.app.holders.Consistent)
    (hstep : (issuer service start).step s a = some s') {k : String} {holder : Holder}
    (hget : s.app.holders.get k = some holder) :
    ∃ holder', s'.app.holders.get k = some holder' ∧ holder.Later a holder' := by
  have moved : HoldersMove service s.app.holders s.vouched s'.app.holders s'.vouched →
      ∃ holder', s'.app.holders.get k = some holder' ∧ holder.Later a holder' := by
    intro hh
    obtain ⟨holder', hget', hid, hdid, hstatus⟩ := hh.get_kept hget
    exact ⟨holder', hget', hid, hdid, Or.inl hstatus⟩
  have stays : s'.app.holders = s.app.holders →
      ∃ holder', s'.app.holders.get k = some holder' ∧ holder.Later a holder' := by
    intro hh
    exact ⟨holder, by rw [hh, hget], rfl, rfl, Or.inl rfl⟩
  cases issuer_step_move hc.keyed hstep with
  | quiet hh => exact moved hh
  | accepted p _ hh => exact moved hh
  | recorded p hh => exact stays hh
  | decided holderId status next now _ _ hpair hh _ _ ha =>
      rw [hh, HolderRegistry.get_modify, hget]
      by_cases hk : k = holderId
      · rw [if_pos hk]
        refine ⟨{ holder with status := status }, rfl, rfl, rfl, ?_⟩
        rcases hpair with ⟨hstatus, -⟩ | ⟨hstatus, -⟩
        · rw [hc.keyed k holder hget, hk]
          exact Or.inr (Or.inr ⟨now, ha hstatus⟩)
        · exact Or.inr (Or.inl hstatus)
      · rw [if_neg hk]
        exact ⟨holder, rfl, rfl, rfl, Or.inl rfl⟩
  | task i t t' event _ _ hh => exact stays hh
  | answered i t t' _ _ _ _ _ _ happ => exact stays (by rw [happ])

/-- **Run lemma.** -/
theorem holder_kept {G : Guard IssuerSys (IssuerAction X)} {s s' : IssuerSys}
    (h : Reachable (issuer service start) s) (hsteps : Steps (issuer service start) G s s')
    {k : String} {holder : Holder} (hget : s.app.holders.get k = some holder) :
    ∃ holder', s'.app.holders.get k = some holder' ∧ holder'.holderId = holder.holderId ∧
      holder'.did = holder.did := by
  refine hsteps.mono (R := fun _ s' : IssuerSys => ∃ holder', s'.app.holders.get k = some holder' ∧
    holder'.holderId = holder.holderId ∧ holder'.did = holder.did) h ⟨holder, hget, rfl, rfl⟩ ?_
  rintro s₁ a s₂ hr - hstep ⟨holder₁, hget₁, hid₁, hdid₁⟩
  obtain ⟨holder₂, hget₂, hlater⟩ := holder_later (consistent_of_reachable hr) hstep hget₁
  exact ⟨holder₂, hget₂, hlater.sameId.trans hid₁, hlater.sameDid.trans hdid₁⟩

/-- The steps that leave a rejection of `holderId` standing. -/
def unapproved (holderId : String) : Guard IssuerSys (IssuerAction X) :=
  fun _ a => ∀ now, a ≠ .approveHolder holderId now

/-- A rejected holder stays rejected until the operator approves it. -/
theorem rejected_kept {s s' : IssuerSys} {k : String} {holder : Holder}
    (h : Reachable (issuer service start) s)
    (hsteps : Steps (issuer service start) (unapproved k) s s')
    (hget : s.app.holders.get k = some holder) (hrejected : holder.status = .rejected) :
    ∃ holder', s'.app.holders.get k = some holder' ∧ holder'.did = holder.did ∧
      holder'.status = .rejected := by
  refine hsteps.mono (R := fun _ s' : IssuerSys => ∃ holder', s'.app.holders.get k = some holder' ∧
    holder'.did = holder.did ∧ holder'.status = .rejected) h ⟨holder, hget, rfl, hrejected⟩ ?_
  rintro s₁ a s₂ hr hguard hstep ⟨holder₁, hget₁, hdid₁, hstatus₁⟩
  have hc := consistent_of_reachable hr
  obtain ⟨holder₂, hget₂, hlater⟩ := holder_later hc hstep hget₁
  refine ⟨holder₂, hget₂, hlater.sameDid.trans hdid₁, ?_⟩
  rcases hlater.status with hsame | hstatus | ⟨now, ha⟩
  · exact hsame.trans hstatus₁
  · exact hstatus
  · rw [hc.keyed k holder₁ hget₁] at ha
    exact absurd ha (hguard now)

/-- What `reject_holder` leaves behind. -/
theorem rejectHolder_get {s s' : IssuerSys} {k : String} {now : ℕ} {holder : Holder}
    (hstep : (issuer service start).step s (.rejectHolder k now) = some s')
    (hget : s.app.holders.get k = some holder) :
    s'.app.holders.get k = some { holder with status := .rejected } := by
  obtain ⟨-, -, s₁, hp, rfl⟩ := issuer_step_eq_some hstep
  cases hp
  show (operatorDecision s k .rejected .rejected now).app.holders.get k = _
  unfold operatorDecision decideHolder
  rw [hget]
  show (s.app.holders.modify k _).get k = _
  rw [HolderRegistry.get_modify, if_pos rfl, hget]
  rfl

/-! ## A rejected holder's Credential Requests -/

/-- A refusal for the ids is a 400. -/
theorem refuseIds_status {definitions : DefinitionCatalog} {ids : List String} {r : Response}
    (h : refuseIds definitions ids = some r) : r.status = 400 := by
  unfold refuseIds at h
  split at h
  · cases h
    rfl
  · split at h
    · cases h
      rfl
    · obtain ⟨unknown, -, rfl⟩ := Option.map_eq_some_iff.mp h
      rfl

/-- A rejected holder's request changes nothing: 403, or a 400 that names what
is wrong with the ids. -/
theorem credentialRequest_of_rejected {app : AppState} {k sub : String} {holder : Holder}
    (hc : app.holders.Consistent) (hget : app.holders.get k = some holder)
    (hrejected : holder.status = .rejected) (hsub : holderKey sub = holderKey holder.did)
    {claims : Value} (hclaims : claims.getStr "sub" = some sub)
    (message : CredentialRequestMessage) (now : ℕ) (processId holderUuid : String) :
    credentialRequest service app claims message now processId holderUuid =
      { response :=
          (refuseIds app.definitions (distinctIds [] message.credentials)).getD
            { status := 403, body := "holder has been rejected by this issuer" }
        app := app
        deliverNow := false } := by
  unfold credentialRequest
  rw [hclaims]
  cases hids : refuseIds app.definitions (distinctIds [] message.credentials) with
  | some r => rfl
  | none =>
      have hfind : findOrInsertHolder service app.holders sub now holderUuid =
          .ok (holder, app.holders) := by
        unfold findOrInsertHolder
        rw [hc.byDid hget hsub]
      dsimp only
      rw [hfind]
      dsimp only
      unfold admitRequest
      rw [hrejected]
      rfl

/-! ## Refused insertions -/

/-- The action asks the registry for a new holder and is refused. -/
def HolderRefused (service : IssuerService X) (s : IssuerSys) : IssuerAction X → Prop
  | .registerHolder registration now uuid =>
      ∃ e, registerHolder s.app registration now uuid = .error e
  | .credentialRequest claims _ now _ uuid =>
      ∃ sub e, claims.getStr "sub" = some sub ∧
        findOrInsertHolder service s.app.holders sub now uuid = .error e
  | .redemption task (.govern now uuid) =>
      ∃ definition did e, s.redemptions[task]? = some (.governing definition did) ∧
        findOrInsertHolder service s.app.holders did now uuid = .error e
  | _ => False

theorem app_of_refused {s s' : IssuerSys} {a : IssuerAction X}
    (hstep : (issuer service start).step s a = some s') (hrefused : HolderRefused service s a) :
    s'.app = s.app := by
  obtain ⟨-, -, s₁, hp, rfl⟩ := issuer_step_eq_some hstep
  show s₁.app = s.app
  cases a with
  | registerHolder registration now uuid =>
      obtain ⟨e, he⟩ := hrefused
      simp only [issuerPerform, he, Option.some.injEq] at hp
      rw [← hp]
  | credentialRequest claims message now processId uuid =>
      obtain ⟨sub, e, hclaims, he⟩ := hrefused
      cases hp
      show (credentialRequest service s.app claims message now processId uuid).app = s.app
      unfold credentialRequest
      simp only [hclaims, he]
      split <;> rfl
  | redemption task event =>
      cases event with
      | govern now uuid =>
          obtain ⟨definition, did, e, hphase, he⟩ := hrefused
          have hnone : s.app.holders.byDid did = none := by
            cases hby : s.app.holders.byDid did with
            | none => rfl
            | some holder =>
                unfold findOrInsertHolder at he
                rw [hby] at he
                cases he
          simp only [issuerPerform, hphase, Option.bind_some, redemptionStep, hnone, he,
            Option.map_some, Option.some.injEq] at hp
          rw [← hp]
      | _ => exact hrefused.elim
  | _ => exact hrefused.elim

/-! ## The registry -/

/-- **The holder registry represents its holders and its decisions last.** In
every reachable state the records, the DID index and the order list describe the
same holders, no two of them share a `holderKey`, and they fit. A holder stays
registered under its id and DID in every later state, and an insertion that is
refused changes nothing. After a rejection and until an approval of the same
holder, a Credential Request in its name changes nothing and is answered 403,
or 400 where its ids are refused first. -/
theorem holder_registry_lasts {s : IssuerSys} (h : Reachable (issuer service start) s) :
    (s.app.holders.order.Nodup ∧
        (∀ k, k ∈ s.app.holders.order ↔ ∃ holder, s.app.holders.get k = some holder) ∧
        (∀ k holder, s.app.holders.get k = some holder → holder.holderId = k) ∧
        (∀ key k, s.app.holders.didIndex.lookup key = some k ↔
          ∃ holder, s.app.holders.get k = some holder ∧ holderKey holder.did = key) ∧
        (∀ k k' holder holder', s.app.holders.get k = some holder →
          s.app.holders.get k' = some holder' → holderKey holder.did = holderKey holder'.did →
            k = k') ∧
        KeyedTable.size s.app.holders.holders ≤ maxHolders) ∧
      (∀ s', Steps (issuer service start) anyStep s s' →
        ∀ k holder, s.app.holders.get k = some holder →
          ∃ holder', s'.app.holders.get k = some holder' ∧
            holder'.holderId = holder.holderId ∧ holder'.did = holder.did) ∧
        (∀ a s', (issuer service start).step s a = some s' → HolderRefused service s a →
          s'.app = s.app) ∧
          ∀ k now holder s₁ s₂, s.app.holders.get k = some holder →
            (issuer service start).step s (.rejectHolder k now) = some s₁ →
              Steps (issuer service start) (unapproved k) s₁ s₂ →
                ∀ claims sub message now processId uuid, claims.getStr "sub" = some sub →
                  holderKey sub = holderKey holder.did →
                    ∃ response, credentialRequest service s₂.app claims message now processId uuid =
                        { response := response, app := s₂.app, deliverNow := false } ∧
                      (refuseIds s₂.app.definitions (distinctIds [] message.credentials) = none →
                        response.status = 403) ∧
                      (refuseIds s₂.app.definitions (distinctIds [] message.credentials) ≠ none →
                        response.status = 400) := by
  have hc := consistent_of_reachable h
  refine ⟨⟨hc.indexed.queued.nodup, fun k => ?_, hc.keyed, hc.indexed.indexed,
    fun k k' holder holder' hget hget' => hc.indexed.eq_of_tag hget hget', hc.fits⟩,
    fun s' hsteps k holder hget => holder_kept h hsteps hget,
    fun a s' hstep hrefused => app_of_refused hstep hrefused,
    fun k now holder s₁ s₂ hget hreject hsteps claims sub message now' processId uuid hclaims
      hsub => ?_⟩
  · rw [hc.indexed.queued.mem k]
    exact ⟨fun hk => KeyedTable.exists_lookup hk, fun ⟨_, hk⟩ => KeyedTable.mem_of_lookup hk⟩
  · have h₁ : Reachable (issuer service start) s₁ := h.step hreject
    have h₂ : Reachable (issuer service start) s₂ := Steps.trans h₁ hsteps.any
    obtain ⟨holder₂, hget₂, hdid, hstatus⟩ :=
      rejected_kept h₁ hsteps (rejectHolder_get hreject hget) rfl
    refine ⟨_, credentialRequest_of_rejected (consistent_of_reachable h₂) hget₂ hstatus
      (hsub.trans (congrArg holderKey hdid.symm)) hclaims message now' processId uuid,
      fun hnone => ?_, fun hsome => ?_⟩
    · rw [hnone]
      rfl
    · obtain ⟨r, hr⟩ := Option.ne_none_iff_exists'.mp hsome
      rw [hr]
      exact refuseIds_status hr

/-! ## A rejected holder asks again -/

def acmeClaims : Value := .object [("sub", .string "did:web:acme.example")]

def acmeRequest (credentials : List String) : CredentialRequestMessage where
  context := [dcpContext]
  messageType := "CredentialRequestMessage"
  holderPid := "acme-1"
  credentials := credentials

/-- Acme has asked for a credential, and is now rejected. -/
theorem acme_rejected :
    ∃ s s₁ holder, Reachable (issuer (sampleIssuer .auto) 0) s ∧
      s.app.holders.get "holder-1" = some holder ∧ holder.did = "did:web:acme.example" ∧
        (issuer (sampleIssuer .auto) 0).step s (.rejectHolder "holder-1" 6) = some s₁ ∧
          refuseIds s₁.app.definitions ["membership-credential"] = none := by
  obtain ⟨s, hr, hp⟩ := StepSystem.exists_reachable_of_run
    (M := issuer (sampleIssuer .auto) 0) [sampleRequest "process-1" "holder-1" 5]
    (p := fun s =>
      (s.app.holders.get "holder-1").any (fun h => h.did = "did:web:acme.example") &&
        ((issuer (sampleIssuer .auto) 0).step s (.rejectHolder "holder-1" 6)).any
          (fun s₁ => refuseIds s₁.app.definitions ["membership-credential"] = none))
    (by decide +kernel)
  rw [Bool.and_eq_true, Option.any_eq_true, Option.any_eq_true] at hp
  obtain ⟨⟨holder, hget, hdid⟩, s₁, hstep, hids⟩ := hp
  exact ⟨s, s₁, holder, hr, hget, of_decide_eq_true hdid, hstep, of_decide_eq_true hids⟩

theorem holder_registry_lasts_sample :
    ∃ s s₁, Reachable (issuer (sampleIssuer .auto) 0) s ∧
      (issuer (sampleIssuer .auto) 0).step s (.rejectHolder "holder-1" 6) = some s₁ ∧
        (credentialRequest (sampleIssuer .auto) s₁.app acmeClaims
          (acmeRequest ["membership-credential"]) 7 "process-2" "holder-2").response.status =
            403 := by
  obtain ⟨s, s₁, holder, hr, hget, hdid, hstep, hids⟩ := acme_rejected
  obtain ⟨response, hout, h403, -⟩ := (holder_registry_lasts hr).2.2.2 "holder-1" 6 holder s₁ s₁
    hget hstep .refl acmeClaims "did:web:acme.example" (acmeRequest ["membership-credential"]) 7
    "process-2" "holder-2" rfl (congrArg holderKey hdid.symm)
  refine ⟨s, s₁, hr, hstep, ?_⟩
  rw [hout]
  exact h403 hids

/-- An empty request of a rejected holder is a 400. -/
theorem rejected_holder_gets_400 :
    ∃ s s₁ holder, Reachable (issuer (sampleIssuer .auto) 0) s ∧
      s.app.holders.get "holder-1" = some holder ∧ holder.did = "did:web:acme.example" ∧
        (issuer (sampleIssuer .auto) 0).step s (.rejectHolder "holder-1" 6) = some s₁ ∧
          (credentialRequest (sampleIssuer .auto) s₁.app acmeClaims (acmeRequest []) 7 "process-2"
            "holder-2").response.status ≠ 403 := by
  obtain ⟨s, s₁, holder, hr, hget, hdid, hstep, -⟩ := acme_rejected
  refine ⟨s, s₁, holder, hr, hget, hdid, hstep, ?_⟩
  show (400 : ℕ) ≠ 403
  decide

end IdentityHub
