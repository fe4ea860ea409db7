import IdentityHub.Issuer.HandedOut
import IdentityHub.Issuer.Progress
import IdentityHub.Oid4vci.Chain

/-!
# Credentials that were returned are on record

A Credential Request hands over to a redemption and takes over its result. The two are
linked by an index only, and the redemption forgets what it was about once it has ended;
so the link is an invariant. Each credential that a request was answered with has a
record: of the configuration the request named, for the holder its proof named. No two
requests have a redemption in common, and no two redemptions sign one credential.
-/

namespace IdentityHub

open Json (Value)
open StepSystem (Reachable)

variable {X : External}

section

variable {service : IssuerService X} {start : ℕ} {s s' : IssuerSys} {a : IssuerAction X}
  {configId holderDid jws : String}

/-! ## Records of one definition for one holder -/

/-- There is a record of the credential. -/
def RecordedAs (service : IssuerService X) (s : IssuerSys) (configId holderDid jws : String) :
    Prop :=
  ∃ record ∈ s.app.issued.all, record.AgreesWith service jws ∧
    record.credentialDefinitionId = configId ∧ record.holderDid = holderDid

/-- A record is not lost: at most it is marked as revoked. -/
theorem record_kept (h : Reachable (issuer service start) s)
    (hstep : (issuer service start).step s a = some s') {record : IssuedCredential}
    (hrecord : record ∈ s.app.issued.all) :
    ∃ record' ∈ s'.app.issued.all,
      record' = record ∨ record' = { record with status := .revoked } := by
  cases list_move h hstep with
  | same hall => exact ⟨record, hall ▸ hrecord, Or.inl rfl⟩
  | revoked id hall =>
      refine ⟨IssuedCredentials.revokedIn id record, ?_, ?_⟩
      · rw [hall]
        exact List.mem_map_of_mem hrecord
      · unfold IssuedCredentials.revokedIn
        split
        · exact Or.inr rfl
        · exact Or.inl rfl
  | delivered i t records ha ht hphase hall =>
      exact ⟨record, hall ▸ List.mem_append_left _ hrecord, Or.inl rfl⟩
  | redeemed i job holderId processId index now uuid ha hred hphases hall =>
      exact ⟨record, hall ▸ List.mem_append_left _ hrecord, Or.inl rfl⟩

theorem RecordedAs.step (hrecorded : RecordedAs service s configId holderDid jws)
    (h : Reachable (issuer service start) s)
    (hstep : (issuer service start).step s a = some s') :
    RecordedAs service s' configId holderDid jws := by
  obtain ⟨record, hmem, hagrees, hdefinition, hholder⟩ := hrecorded
  obtain ⟨record', hmem', rfl | hrevoked⟩ := record_kept h hstep hmem
  · exact ⟨record', hmem', hagrees, hdefinition, hholder⟩
  · refine ⟨record', hmem', hagrees.congr hrevoked, ?_, ?_⟩
    · rw [hrevoked, hdefinition]
    · rw [hrevoked, hholder]

/-! ## What a redemption is about -/

/-- The redemption is about this configuration and this holder; if it has signed a
credential, that is on record. -/
def RedemptionPhase.IsFor (service : IssuerService X) (s : IssuerSys)
    (configId holderDid : String) : RedemptionPhase → Prop
  | .governing definition did => definition.id = configId ∧ did = holderDid
  | .allocating job _ => job.definition.id = configId ∧ job.holderDid = holderDid
  | .inserting job _ _ => job.definition.id = configId ∧ job.holderDid = holderDid
  | .recording job _ _ _ => job.definition.id = configId ∧ job.holderDid = holderDid
  | .refusing _ => True
  | .refused _ _ => True
  | .issued jws => RecordedAs service s configId holderDid jws

/-- The record that a redemption makes is new and is listed. -/
theorem redeemed_record (h : Reachable (issuer service start) s) {i now index : ℕ}
    {uuid holderId processId : String} {job : RedemptionJob} {r : RedemptionPhase}
    (hstep : (issuer service start).step s (.redemption i (.record now uuid)) = some s')
    (hout : redemptionStep service s.app (.recording job holderId index processId)
      (.record now uuid) = some (s'.app, r)) :
    let minted := mintCredential service job.definition job.holderDid (some index) now uuid
    r = .issued minted.jws ∧ minted.id ∉ s.app.issued.records ∧
      s'.app.issued.all =
        s.app.issued.all ++ [redemptionRecord job holderId processId index minted] := by
  obtain ⟨-, hfresh, -⟩ := issuer_step_eq_some hstep
  have hnew : credentialId uuid ∉ s.app.issued.records :=
    (accounts_of_reachable h).redeemed_new (hfresh uuid (List.mem_singleton.mpr rfl))
  obtain ⟨app', happ⟩ : ∃ app', app' = s'.app := ⟨_, rfl⟩
  rw [← happ] at hout ⊢
  cases hout
  refine ⟨rfl, hnew, ?_⟩
  exact (IssuedCredentials.all_insert _ (listed_of_reachable h) hnew).2

/-- **Step lemma.** A redemption stays about what it was started for. -/
theorem RedemptionPhase.IsFor.step {t : ℕ} {phase : RedemptionPhase}
    (hfor : phase.IsFor service s configId holderDid) (h : Reachable (issuer service start) s)
    (hstep : (issuer service start).step s a = some s') (ht : s.redemptions[t]? = some phase) :
    ∃ phase', s'.redemptions[t]? = some phase' ∧ phase'.IsFor service s' configId holderDid := by
  rcases redemption_at hstep ht with hsame | ⟨event, phase', rfl, hset, -, hout⟩
  · refine ⟨phase, hsame, ?_⟩
    cases phase with
    | issued jws => exact RecordedAs.step hfor h hstep
    | _ => exact hfor
  · refine ⟨phase', ?_, ?_⟩
    · rw [hset, List.getElem?_set_self (List.getElem?_eq_some_iff.mp ht).1]
    · cases phase with
      | recording job holderId index processId =>
          cases event with
          | record now uuid =>
              obtain ⟨rfl, -, hall⟩ := redeemed_record h hstep hout
              refine ⟨_, ?_, agrees_redemptionRecord job holderId processId index now uuid,
                hfor.1, hfor.2⟩
              rw [hall]
              exact List.mem_append_right _ (List.mem_singleton.mpr rfl)
          | _ => cases hout
      | _ =>
          obtain ⟨app', happ⟩ : ∃ app', app' = s'.app := ⟨_, rfl⟩
          rw [← happ] at hout
          cases event <;> simp only [redemptionStep] at hout <;> repeat' split at hout
          all_goals cases hout
          all_goals first | exact trivial | exact hfor

/-- A redemption that is found after a step was there before or is new. -/
theorem redemption_before (hstep : (issuer service start).step s a = some s') {t : ℕ}
    {phase' : RedemptionPhase} (ht : s'.redemptions[t]? = some phase') :
    (∃ phase, s.redemptions[t]? = some phase) ∨
      ∃ definition did, phase' = .governing definition did := by
  by_cases hold : t < s.redemptions.length
  · exact Or.inl ⟨_, List.getElem?_eq_getElem hold⟩
  · right
    have hlt := (List.getElem?_eq_some_iff.mp ht).1
    cases pool_move hstep with
    | opened definition did hwork hdeliveries hredemptions =>
        rw [hredemptions, List.length_append, List.length_singleton] at hlt
        rw [hredemptions, List.getElem?_append_right (by omega),
          show t - s.redemptions.length = 0 by omega] at ht
        exact ⟨definition, did, (Option.some_inj.mp ht).symm⟩
    | spawned ids hwork hdeliveries hredemptions =>
        rw [hredemptions] at hlt
        omega
    | answered i task task' hwork htask hphase hdeliveries hredemptions =>
        rw [hredemptions] at hlt
        omega
    | task i event task task' ha htask hout hdeliveries hredemptions =>
        rw [hredemptions] at hlt
        omega
    | redemption i event r r' ha hr hout hdeliveries hredemptions =>
        rw [hredemptions, List.length_set] at hlt
        omega

/-- Every redemption is about some configuration and some holder. -/
theorem isFor_of_reachable (h : Reachable (issuer service start) s) {t : ℕ}
    {phase : RedemptionPhase} (ht : s.redemptions[t]? = some phase) :
    ∃ configId holderDid, phase.IsFor service s configId holderDid := by
  refine h.invariant_of (J := fun s => Reachable (issuer service start) s)
    (I := fun s : IssuerSys => ∀ t phase, s.redemptions[t]? = some phase →
      ∃ configId holderDid, phase.IsFor service s configId holderDid)
    (fun _ hs => hs) ?_ ?_ t phase ht
  · intro t phase ht
    cases ht
  · intro s₁ a s₂ hr hbefore hstep t phase' ht
    rcases redemption_before hstep ht with ⟨phase, hphase⟩ | ⟨definition, did, rfl⟩
    · obtain ⟨configId, holderDid, hfor⟩ := hbefore t phase hphase
      obtain ⟨phase'', ht'', hfor'⟩ := hfor.step hr hstep hphase
      rw [ht] at ht''
      cases ht''
      exact ⟨configId, holderDid, hfor'⟩
    · exact ⟨definition.id, did, rfl, rfl⟩

/-! ## One credential for each redemption -/

/-- A signed payload is found in the token. -/
theorem AgreesWith.id_eq (hsign : X.SignRoundTrip) {record record' : IssuedCredential}
    (h : record.AgreesWith service jws) (h' : record'.AgreesWith service jws) :
    record.id = record'.id := by
  obtain ⟨payload, hjws, hdescribes⟩ := h
  obtain ⟨payload', hjws', hdescribes'⟩ := h'
  obtain ⟨header, hdecoded, -⟩ := hsign payload service.identity.signingKey
    service.identity.ownKeyId
  obtain ⟨header', hdecoded', -⟩ := hsign payload' service.identity.signingKey
    service.identity.ownKeyId
  have hsame : X.decodeJwsUnverified (service.identity.sign payload) =
      X.decodeJwsUnverified (service.identity.sign payload') := by rw [← hjws, ← hjws']
  change X.decodeJwsUnverified (service.identity.sign payload) = _ at hdecoded
  change X.decodeJwsUnverified (service.identity.sign payload') = _ at hdecoded'
  rw [hdecoded, hdecoded'] at hsame
  have hpayload : payload = payload' := (Prod.mk.inj (Except.ok.inj hsame)).2
  have hjti := hdescribes.jti
  rw [hpayload, hdescribes'.jti] at hjti
  exact (Value.string.inj (Option.some_inj.mp hjti)).symm

/-- A redemption that has ended had ended before, or the step was its last. -/
theorem issued_before (hstep : (issuer service start).step s a = some s') {t : ℕ}
    (ht : s'.redemptions[t]? = some (RedemptionPhase.issued jws)) :
    s.redemptions[t]? = some (RedemptionPhase.issued jws) ∨
      ∃ now uuid job holderId index processId, a = .redemption t (.record now uuid) ∧
        s.redemptions[t]? = some (RedemptionPhase.recording job holderId index processId) ∧
        redemptionStep service s.app (.recording job holderId index processId)
          (.record now uuid) = some (s'.app, .issued jws) := by
  rcases redemption_before hstep ht with ⟨phase, hphase⟩ | ⟨definition, did, hgoverning⟩
  · rcases redemption_at hstep hphase with hsame | ⟨event, phase', rfl, hset, -, hout⟩
    · left
      rw [ht] at hsame
      rw [hphase, hsame]
    · right
      rw [hset, List.getElem?_set_self (List.getElem?_eq_some_iff.mp hphase).1] at ht
      cases ht
      obtain ⟨app', happ⟩ : ∃ app', app' = s'.app := ⟨_, rfl⟩
      rw [← happ] at hout ⊢
      cases phase with
      | recording job holderId index processId =>
          cases event with
          | record now uuid => exact ⟨now, uuid, job, holderId, index, processId, rfl, hphase, hout⟩
          | _ => cases hout
      | _ =>
          cases event <;> simp only [redemptionStep] at hout <;> repeat' split at hout
          all_goals cases hout
  · cases hgoverning

/-- A credential that a step signs has a record of its own. -/
theorem issued_anew (hsign : X.SignRoundTrip) (h : Reachable (issuer service start) s)
    (hstep : (issuer service start).step s a = some s') {t t' : ℕ} {jws' : String}
    {record record' : IssuedCredential}
    (hold : s.redemptions[t]? = some (RedemptionPhase.issued jws))
    (ht' : s'.redemptions[t']? = some (RedemptionPhase.issued jws'))
    (hrecord : record.AgreesWith service jws) (hrecord' : record'.AgreesWith service jws')
    (hid : record.id = record'.id) :
    s.redemptions[t']? = some (RedemptionPhase.issued jws') := by
  rcases issued_before hstep ht' with hbefore |
    ⟨now, uuid, job, holderId, index, processId, rfl, hphase, hout⟩
  · exact hbefore
  · obtain ⟨configId, holderDid, listed, hlisted, hagrees, -⟩ := isFor_of_reachable h hold
    obtain ⟨hjws, hnew, -⟩ := redeemed_record h hstep hout
    have hminted : (redemptionRecord job holderId processId index (mintCredential service
        job.definition job.holderDid (some index) now uuid)).AgreesWith service jws' := by
      rw [RedemptionPhase.issued.inj hjws]
      exact agrees_redemptionRecord job holderId processId index now uuid
    obtain ⟨k, hget⟩ := (IssuedCredentials.mem_all (listed_of_reachable h)).mp hlisted
    have hkey : listed.id = k := (accounts_of_reachable h).keyed k listed hget
    have hmem : k ∈ s.app.issued.records := KeyedTable.mem_of_lookup hget
    rw [← hkey, AgreesWith.id_eq hsign hagrees hrecord, hid,
      AgreesWith.id_eq hsign hrecord' hminted] at hmem
    exact absurd hmem hnew

/-- **Two redemptions do not share a record.** -/
theorem issued_once (hsign : X.SignRoundTrip) (h : Reachable (issuer service start) s) {t t' : ℕ}
    {jws' : String} {record record' : IssuedCredential}
    (ht : s.redemptions[t]? = some (RedemptionPhase.issued jws))
    (ht' : s.redemptions[t']? = some (RedemptionPhase.issued jws'))
    (hrecord : record.AgreesWith service jws) (hrecord' : record'.AgreesWith service jws')
    (hid : record.id = record'.id) : t = t' := by
  refine h.invariant_of (J := fun s => Reachable (issuer service start) s)
    (I := fun s : IssuerSys => ∀ t t', s.redemptions[t]? = some (RedemptionPhase.issued jws) →
      s.redemptions[t']? = some (RedemptionPhase.issued jws') → t = t')
    (fun _ hs => hs) ?_ ?_ t t' ht ht'
  · intro t t' ht
    cases ht
  · intro s₁ a s₂ hr hbefore hstep t t' ht ht'
    -- of two that the same step ends, there is one only
    rcases issued_before hstep ht with hold | ⟨_, _, _, _, _, _, ha, -⟩
    · exact hbefore t t' hold (issued_anew hsign hr hstep hold ht' hrecord hrecord' hid)
    · rcases issued_before hstep ht' with hold' | ⟨_, _, _, _, _, _, ha', -⟩
      · exact hbefore t t' (issued_anew hsign hr hstep hold' ht hrecord' hrecord hid.symm) hold'
      · rw [ha] at ha'
        exact (IssuerAction.redemption.inj ha').1

end

/-- A redemption that is opened is about a configuration of the catalog. -/
theorem redeem_opens
    (hstep : (issuer service start).step s (.redeem configId holderDid) = some s') :
    ∃ definition : CredentialDefinition, definition.id = configId ∧
      s'.redemptions = s.redemptions ++ [.governing definition holderDid] := by
  obtain ⟨-, -, s₁, hperform, rfl⟩ := issuer_step_eq_some hstep
  obtain ⟨definition, hget, rfl⟩ := Option.map_eq_some_iff.mp hperform
  refine ⟨definition, ?_, rfl⟩
  exact eq_of_beq (List.find?_some (p := fun d : CredentialDefinition => d.id == configId) hget)

/-! ## Credential Requests and their redemptions -/

namespace Oid4vci

variable {service : Service X} {start : ℕ} {s s' : Sys X} {a : Action X}

/-- The phase has no redemption to do with. -/
def CredentialPhase.Apart : CredentialPhase X → Prop
  | .redeeming _ _ => False
  | .issued _ _ => False
  | _ => True

/-- What a step does to the Credential Requests and to the Issuer Service inside. -/
inductive CallMove (service : Service X) (start : ℕ) (s s' : Sys X) : Prop
  | issuer (action : IssuerAction X) :
      (IdentityHub.issuer service.toIssuerService start).step s.issuer action = some s'.issuer →
        s'.credentialCalls = s.credentialCalls → CallMove service start s s'
  | same : s'.issuer = s.issuer → s'.credentialCalls = s.credentialCalls →
      CallMove service start s s'
  | called (c : CredentialCall X) : s'.issuer = s.issuer → c.phase = .called →
      s'.credentialCalls = s.credentialCalls ++ [c] → CallMove service start s s'
  | moved (i : ℕ) (c : CredentialCall X) (phase : CredentialPhase X) : s'.issuer = s.issuer →
      s.credentialCalls[i]? = some c → c.phase.Apart → phase.Apart →
        s'.credentialCalls = s.credentialCalls.set i { c with phase := phase } →
          CallMove service start s s'
  | redeemed (i : ℕ) (c : CredentialCall X) (x : Consumed X) :
      s.credentialCalls[i]? = some c → c.phase = .consumed x →
        (IdentityHub.issuer service.toIssuerService start).step s.issuer
          (.redeem x.checked.configId x.checked.key.holderDid) = some s'.issuer →
          s'.credentialCalls = s.credentialCalls.set i
            { c with phase := .redeeming x s.issuer.redemptions.length } →
            CallMove service start s s'
  | answered (i : ℕ) (c : CredentialCall X) (x : Consumed X) (t : ℕ) (redemption : RedemptionPhase)
      (phase : CredentialPhase X) : s'.issuer = s.issuer → s.credentialCalls[i]? = some c →
        c.phase = .redeeming x t → s.issuer.redemptions[t]? = some redemption →
          redemptionAnswer x redemption = some phase →
            s'.credentialCalls = s.credentialCalls.set i { c with phase := phase } →
              CallMove service start s s'

/-- The sections of a request up to its nonce have no redemption to do with. -/
theorem credentialStep_apart {definitions : DefinitionCatalog} {state state' : IssuerState}
    {call : CredentialCall X} {event : CredentialEvent X} {phase : CredentialPhase X}
    (h : credentialStep service definitions state call event = some (state', phase)) :
    call.phase.Apart ∧ phase.Apart := by
  cases event <;> simp only [credentialStep] at h <;> split at h
  all_goals rename_i hphase
  all_goals first | cases h | rw [hphase]
  all_goals refine ⟨trivial, ?_⟩
  all_goals split at h <;> cases h
  all_goals first | trivial | (split <;> trivial)

theorem call_move (h : (credentialIssuer service start).step s a = some s') :
    CallMove service start s s' := by
  obtain ⟨s₁, clock, hperform, -, -, rfl⟩ := step_eq_some h
  cases a with
  | issuer action =>
      simp only [perform] at hperform
      split at hperform
      · cases hperform
      · obtain ⟨issuer, hissuer, rfl⟩ := Option.map_eq_some_iff.mp hperform
        exact .issuer action hissuer rfl
  | credential authorization body =>
      cases hperform
      exact .called _ rfl rfl rfl
  | credentialCall i event =>
      obtain ⟨c, hc, hrest⟩ := Option.bind_eq_some_iff.mp hperform
      obtain ⟨out, hout, rfl⟩ := Option.map_eq_some_iff.mp hrest
      obtain ⟨hbefore, hafter⟩ := credentialStep_apart hout
      exact .moved i c out.2 rfl hc hbefore hafter rfl
  | redeem i =>
      obtain ⟨c, hc, hrest⟩ := Option.bind_eq_some_iff.mp hperform
      split at hrest
      · rename_i x hphase
        cases hrest
        cases hissuer : issuerPerform service.toIssuerService s.issuer
            (.redeem x.checked.configId x.checked.key.holderDid) with
        | none =>
            refine .moved i c (.denied x (notOffered x.checked.configId)) ?_ hc ?_ trivial ?_
            · simp only [startRedemption, hissuer]
            · rw [hphase]
              trivial
            · simp only [startRedemption, hissuer]
        | some issuer =>
            refine .redeemed i c x hc hphase ?_ ?_
            · simp only [startRedemption, hissuer]
              -- a redemption that starts draws nothing and reads no clock
              show issuerStep service.toIssuerService s.issuer (IssuerAction.redeem
                x.checked.configId x.checked.key.holderDid) = some issuer
              unfold issuerStep
              rw [if_pos ⟨List.nodup_nil, fun _ hu => absurd hu List.not_mem_nil⟩, hissuer]
              obtain ⟨definition, -, rfl⟩ := Option.map_eq_some_iff.mp hissuer
              rfl
            · simp only [startRedemption, hissuer]
      · cases hrest
  | answer i =>
      obtain ⟨c, hc, hrest⟩ := Option.bind_eq_some_iff.mp hperform
      split at hrest
      · rename_i x t hphase
        obtain ⟨redemption, hredemption, hr⟩ := Option.bind_eq_some_iff.mp hrest
        obtain ⟨phase, hanswer, rfl⟩ := Option.map_eq_some_iff.mp hr
        exact .answered i c x t redemption phase rfl hc hphase hredemption hanswer rfl
      · cases hrest
  | offer call event =>
      obtain ⟨c, -, hc⟩ := Option.bind_eq_some_iff.mp hperform
      obtain ⟨out, -, rfl⟩ := Option.map_eq_some_iff.mp hc
      exact .same rfl rfl
  | tokenCall call event =>
      obtain ⟨c, -, hc⟩ := Option.bind_eq_some_iff.mp hperform
      obtain ⟨out, -, rfl⟩ := Option.map_eq_some_iff.mp hc
      exact .same rfl rfl
  | _ =>
      cases hperform
      exact .same rfl rfl

/-- The redemption behind a request: the one it waits for, or the one it was answered from. -/
inductive CredentialPhase.From (service : Service X) (s : IssuerSys) :
    CredentialPhase X → ℕ → Prop
  | waiting (x : Consumed X) (t : ℕ) (redemption : RedemptionPhase) :
      s.redemptions[t]? = some redemption →
        redemption.IsFor service.toIssuerService s x.checked.configId x.checked.key.holderDid →
          From service s (.redeeming x t) t
  | answered (x : Consumed X) (jws : String) (t : ℕ) :
      s.redemptions[t]? = some (RedemptionPhase.issued jws) →
        RecordedAs service.toIssuerService s x.checked.configId x.checked.key.holderDid jws →
          From service s (.issued x jws) t

section

variable {phase : CredentialPhase X} {t t' : ℕ} {b b' : IssuerSys} {action : IssuerAction X}

theorem CredentialPhase.From.step (hfrom : phase.From service b t)
    (h : Reachable (IdentityHub.issuer service.toIssuerService start) b)
    (hstep : (IdentityHub.issuer service.toIssuerService start).step b action = some b') :
    phase.From service b' t := by
  cases hfrom with
  | waiting x _ redemption ht hfor =>
      obtain ⟨redemption', ht', hfor'⟩ := hfor.step h hstep ht
      exact .waiting x t redemption' ht' hfor'
  | answered x jws _ ht hrecorded =>
      rcases redemption_at hstep ht with hsame | ⟨event, phase', -, -, -, hout⟩
      · exact .answered x jws t hsame (hrecorded.step h hstep)
      · -- a redemption that has ended takes no further step
        cases event <;> cases hout

/-- There is one redemption behind a request. -/
theorem CredentialPhase.From.unique (hsign : X.SignRoundTrip)
    (h : Reachable (IdentityHub.issuer service.toIssuerService start) b)
    (hfrom : phase.From service b t) (hfrom' : phase.From service b t') : t = t' := by
  cases hfrom with
  | waiting x _ redemption ht hfor =>
      cases hfrom'
      rfl
  | answered x jws _ ht hrecorded =>
      cases hfrom' with
      | answered _ _ _ ht' _ =>
          obtain ⟨record, -, hagrees, -⟩ := hrecorded
          exact issued_once hsign h ht ht' hagrees hagrees rfl

theorem CredentialPhase.From.not_apart (hfrom : phase.From service b t) : ¬ phase.Apart := by
  cases hfrom <;> exact id

theorem CredentialPhase.From.lt (hfrom : phase.From service b t) : t < b.redemptions.length := by
  cases hfrom with
  | waiting x _ redemption ht hfor => exact (List.getElem?_eq_some_iff.mp ht).1
  | answered x jws _ ht hrecorded => exact (List.getElem?_eq_some_iff.mp ht).1

end

/-- The requests have each a redemption of their own behind them. -/
structure RequestsBacked (service : Service X) (s : Sys X) : Prop where
  backed : ∀ (i : ℕ) (c : CredentialCall X), s.credentialCalls[i]? = some c → ¬ c.phase.Apart →
    ∃ t, c.phase.From service s.issuer t
  apart : ∀ (i j : ℕ) (c d : CredentialCall X) (t : ℕ), s.credentialCalls[i]? = some c →
    s.credentialCalls[j]? = some d → c.phase.From service s.issuer t →
      d.phase.From service s.issuer t → i = j

/-- The call was there before with the same redemption behind it, which goes on. -/
def Continues (service : Service X) (s s' : Sys X) (i : ℕ) (c : CredentialCall X) : Prop :=
  ∃ c₀ t, s.credentialCalls[i]? = some c₀ ∧ c₀.phase.From service s.issuer t ∧
    c.phase.From service s'.issuer t

/-- At most one call gets a redemption, and that is a new one. -/
theorem RequestsBacked.of_continues (hsign : X.SignRoundTrip) (hs : RequestsBacked service s)
    (h' : Reachable (IdentityHub.issuer service.toIssuerService start) s'.issuer) (i₀ : ℕ)
    (hcalls : ∀ (i : ℕ) c, s'.credentialCalls[i]? = some c → ¬ c.phase.Apart →
      Continues service s s' i c ∨
        (i = i₀ ∧ c.phase.From service s'.issuer s.issuer.redemptions.length)) :
    RequestsBacked service s' where
  backed i c hc hphase := by
    rcases hcalls i c hc hphase with ⟨c₀, t, -, -, hfrom⟩ | ⟨-, hfrom⟩
    · exact ⟨t, hfrom⟩
    · exact ⟨_, hfrom⟩
  apart i j c d t hc hd hfrom hfrom' := by
    have hold : ∀ {k : ℕ} {e : CredentialCall X}, Continues service s s' k e →
        e.phase.From service s'.issuer t →
          ∃ e₀, s.credentialCalls[k]? = some e₀ ∧ e₀.phase.From service s.issuer t := by
      rintro k e ⟨e₀, t', he₀, hbefore, hafter⟩ he
      rw [CredentialPhase.From.unique hsign h' he hafter]
      exact ⟨e₀, he₀, hbefore⟩
    rcases hcalls i c hc hfrom.not_apart with hic | ⟨rfl, hnew⟩
    · obtain ⟨c₀, hc₀, hbefore⟩ := hold hic hfrom
      rcases hcalls j d hd hfrom'.not_apart with hjd | ⟨rfl, hnew⟩
      · obtain ⟨d₀, hd₀, hbefore'⟩ := hold hjd hfrom'
        exact hs.apart i j c₀ d₀ t hc₀ hd₀ hbefore hbefore'
      · have hlt := hbefore.lt
        rw [CredentialPhase.From.unique hsign h' hfrom' hnew] at hlt
        exact absurd hlt (lt_irrefl _)
    · rcases hcalls j d hd hfrom'.not_apart with hjd | ⟨rfl, hnew'⟩
      · obtain ⟨d₀, hd₀, hbefore'⟩ := hold hjd hfrom'
        have hlt := hbefore'.lt
        rw [CredentialPhase.From.unique hsign h' hfrom hnew] at hlt
        exact absurd hlt (lt_irrefl _)
      · rfl

theorem getElem?_set_cases {α : Type*} {l : List α} {i j : ℕ} {a b : α}
    (h : (l.set i a)[j]? = some b) : (j = i ∧ b = a) ∨ l[j]? = some b := by
  rw [List.getElem?_set] at h
  by_cases hij : i = j
  · rw [if_pos hij] at h
    split at h
    · left
      exact ⟨hij.symm, (Option.some_inj.mp h).symm⟩
    · cases h
  · rw [if_neg hij] at h
    exact Or.inr h

/-- **Step lemma.** Whatever the Credential Issuer does, each request that waits for a
redemption or was answered by one has it for itself. -/
theorem RequestsBacked.step (hsign : X.SignRoundTrip) (hs : RequestsBacked service s)
    (h : Reachable (credentialIssuer service start) s)
    (hstep : (credentialIssuer service start).step s a = some s') : RequestsBacked service s' := by
  have hissuer := issuer_reachable h
  have hissuer' := issuer_reachable (h.step hstep)
  have hsame : ∀ {i : ℕ} {c : CredentialCall X}, s'.issuer = s.issuer →
      s.credentialCalls[i]? = some c → ¬ c.phase.Apart → Continues service s s' i c := by
    intro i c hsame hc hphase
    obtain ⟨t, hfrom⟩ := hs.backed i c hc hphase
    exact ⟨c, t, hc, hfrom, by rwa [hsame]⟩
  have hmoved : ∀ {action : IssuerAction X} {i : ℕ} {c : CredentialCall X},
      (IdentityHub.issuer service.toIssuerService start).step s.issuer action = some s'.issuer →
        s.credentialCalls[i]? = some c → ¬ c.phase.Apart → Continues service s s' i c := by
    intro action i c hmove hc hphase
    obtain ⟨t, hfrom⟩ := hs.backed i c hc hphase
    exact ⟨c, t, hc, hfrom, hfrom.step hissuer hmove⟩
  cases call_move hstep with
  | same hissuers hcalls =>
      apply hs.of_continues hsign hissuer' 0
      intro i c hc hphase
      rw [hcalls] at hc
      exact Or.inl (hsame hissuers hc hphase)
  | issuer action hmove hcalls =>
      apply hs.of_continues hsign hissuer' 0
      intro i c hc hphase
      rw [hcalls] at hc
      exact Or.inl (hmoved hmove hc hphase)
  | called c₀ hissuers hphase₀ hcalls =>
      apply hs.of_continues hsign hissuer' 0
      intro i c hc hphase
      rw [hcalls, List.getElem?_append] at hc
      split at hc
      · exact Or.inl (hsame hissuers hc hphase)
      · rw [List.mem_singleton.mp (List.mem_of_getElem? hc), hphase₀] at hphase
        exact absurd trivial hphase
  | moved i₀ c₀ phase hissuers hc₀ hbefore hafter hcalls =>
      apply hs.of_continues hsign hissuer' 0
      intro i c hc hphase
      rw [hcalls] at hc
      rcases getElem?_set_cases hc with ⟨-, rfl⟩ | hold
      · exact absurd hafter hphase
      · exact Or.inl (hsame hissuers hold hphase)
  | redeemed i₀ c₀ x hc₀ hphase₀ hmove hcalls =>
      apply hs.of_continues hsign hissuer' i₀
      intro i c hc hphase
      rw [hcalls] at hc
      rcases getElem?_set_cases hc with ⟨rfl, rfl⟩ | hold
      · right
        refine ⟨rfl, ?_⟩
        obtain ⟨definition, hfind, hopened⟩ := redeem_opens hmove
        refine .waiting x _ (.governing definition x.checked.key.holderDid) ?_ ?_
        · rw [hopened, List.getElem?_concat_length]
        · exact ⟨hfind, rfl⟩
      · exact Or.inl (hmoved hmove hold hphase)
  | answered i₀ c₀ x t redemption phase hissuers hc₀ hphase₀ ht hanswer hcalls =>
      apply hs.of_continues hsign hissuer' 0
      intro i c hc hphase
      rw [hcalls] at hc
      left
      rcases getElem?_set_cases hc with ⟨rfl, rfl⟩ | hold
      · obtain ⟨t', hfrom⟩ := hs.backed i c₀ hc₀ (by rw [hphase₀]; exact id)
        refine ⟨c₀, t', hc₀, hfrom, ?_⟩
        rw [hphase₀] at hfrom
        cases hfrom with
        | waiting _ _ redemption' ht' hfor =>
            rw [ht] at ht'
            cases ht'
            cases redemption with
            | issued jws =>
                cases hanswer
                rw [hissuers]
                exact .answered x jws t ht hfor
            | refused status description =>
                cases hanswer
                exact absurd trivial hphase
            | _ => cases hanswer
      · exact hsame hissuers hold hphase

/-- In every reachable state the requests have each a redemption of their own. -/
theorem requests_backed (hsign : X.SignRoundTrip)
    (h : Reachable (credentialIssuer service start) s) : RequestsBacked service s := by
  refine h.invariant_of (J := fun s => Reachable (credentialIssuer service start) s)
    (I := fun s => RequestsBacked service s) (fun _ hs => hs) ?_ ?_
  · constructor
    · intro i c hc
      cases hc
    · intro i j c d t hc
      cases hc
  · intro s₁ a s₂ hr hs hstep
    exact hs.step hsign hr hstep

/-! ## What was answered -/

/-- An answer is final. -/
theorem answered_kept {i : ℕ} {c : CredentialCall X} {x : Consumed X} {jws : String}
    (hsteps : StepSystem.Steps (credentialIssuer service start) StepSystem.anyStep s s')
    (hc : s.credentialCalls[i]? = some c) (hphase : c.phase = .issued x jws) :
    s'.credentialCalls[i]? = some c := by
  refine hsteps.preserves (I := fun s => s.credentialCalls[i]? = some c) hc ?_
  intro s₁ a s₂ hc _ hstep
  have hother : ∀ {j : ℕ} {d d' : CredentialCall X}, s₁.credentialCalls[j]? = some d →
      d.phase ≠ .issued x jws → s₂.credentialCalls = s₁.credentialCalls.set j d' →
        s₂.credentialCalls[i]? = some c := by
    intro j d d' hd hne hcalls
    have hij : j ≠ i := by
      rintro rfl
      rw [hc] at hd
      cases hd
      exact hne hphase
    rw [hcalls, List.getElem?_set_ne hij, hc]
  cases call_move hstep with
  | same _ hcalls => rw [hcalls, hc]
  | issuer action _ hcalls => rw [hcalls, hc]
  | called c₀ _ _ hcalls =>
      rw [hcalls, List.getElem?_append_left (List.getElem?_eq_some_iff.mp hc).1, hc]
  | moved j d phase _ hd hbefore _ hcalls =>
      refine hother hd ?_ hcalls
      intro heq
      rw [heq] at hbefore
      exact hbefore
  | redeemed j d y hd hbefore _ hcalls =>
      refine hother hd ?_ hcalls
      rw [hbefore]
      intro heq
      cases heq
  | answered j d y t redemption phase _ hd hbefore _ _ hcalls =>
      refine hother hd ?_ hcalls
      rw [hbefore]
      intro heq
      cases heq

/-- Calls are never forgotten. -/
theorem credentialCalls_length_le
    (hsteps : StepSystem.Steps (credentialIssuer service start) StepSystem.anyStep s s') :
    s.credentialCalls.length ≤ s'.credentialCalls.length := by
  refine hsteps.preserves (I := fun s' => s.credentialCalls.length ≤ s'.credentialCalls.length)
    le_rfl ?_
  intro s₁ a s₂ hle _ hstep
  apply hle.trans
  cases call_move hstep with
  | same _ hcalls => rw [hcalls]
  | issuer action _ hcalls => rw [hcalls]
  | called c₀ _ _ hcalls => rw [hcalls, List.length_append]; exact Nat.le_add_right _ _
  | moved j d phase _ _ _ _ hcalls => rw [hcalls, List.length_set]
  | redeemed j d y _ _ _ hcalls => rw [hcalls, List.length_set]
  | answered j d y t redemption phase _ _ _ _ _ hcalls => rw [hcalls, List.length_set]

/-- The requests answered with credentials, and the credentials. -/
def Sys.Answered (s : Sys X) (i : ℕ) (x : Consumed X) (jws : String) : Prop :=
  ∃ c, s.credentialCalls[i]? = some c ∧ c.phase = .issued x jws

/-- The redemption a request was answered from has signed the credential. -/
theorem Sys.Answered.from (hs : RequestsBacked service s) {i : ℕ} {x : Consumed X} {jws : String}
    (h : s.Answered i x jws) :
    ∃ c t, s.credentialCalls[i]? = some c ∧ c.phase.From service s.issuer t ∧
      s.issuer.redemptions[t]? = some (RedemptionPhase.issued jws) ∧
        RecordedAs service.toIssuerService s.issuer x.checked.configId x.checked.key.holderDid
          jws := by
  obtain ⟨c, hc, hphase⟩ := h
  obtain ⟨t, hfrom⟩ := hs.backed i c hc (by rw [hphase]; exact id)
  have hfrom' := hfrom
  rw [hphase] at hfrom'
  cases hfrom' with
  | answered _ _ _ ht hrecorded => exact ⟨c, t, hc, hfrom, ht, hrecorded⟩

/-- What was answered is on record, for the configuration and the holder of the request. -/
theorem answered_recorded (hsign : X.SignRoundTrip)
    (h : Reachable (credentialIssuer service start) s) {i : ℕ} {x : Consumed X} {jws : String}
    (hanswered : s.Answered i x jws) :
    RecordedAs service.toIssuerService s.issuer x.checked.configId x.checked.key.holderDid jws := by
  obtain ⟨c, t, -, -, -, hrecorded⟩ := hanswered.from (requests_backed hsign h)
  exact hrecorded

/-- Two requests do not share a record. -/
theorem answered_apart (hsign : X.SignRoundTrip)
    (h : Reachable (credentialIssuer service start) s) {i j : ℕ} {x y : Consumed X}
    {jws jws' : String} (hanswered : s.Answered i x jws) (hanswered' : s.Answered j y jws')
    {record record' : IssuedCredential}
    (hrecord : record.AgreesWith service.toIssuerService jws)
    (hrecord' : record'.AgreesWith service.toIssuerService jws') (hid : record.id = record'.id) :
    i = j := by
  have hs := requests_backed hsign h
  obtain ⟨c, t, hc, hfrom, ht, -⟩ := hanswered.from hs
  obtain ⟨d, t', hd, hfrom', ht', -⟩ := hanswered'.from hs
  have hsame := issued_once hsign (issuer_reachable h) ht ht' hrecord hrecord' hid
  exact hs.apart i j c d t hc hd hfrom (hsame ▸ hfrom')

/-- **Every credential that was returned is on record**, for the configuration the request
named and the holder its proof named; and two requests do not share a record. -/
theorem answers_recorded (hsign : X.SignRoundTrip)
    (h : Reachable (credentialIssuer service start) s) :
    (∀ i x jws, s.Answered i x jws → RecordedAs service.toIssuerService s.issuer x.checked.configId
      x.checked.key.holderDid jws) ∧
    ∀ i j x y jws jws' (record record' : IssuedCredential), s.Answered i x jws →
      s.Answered j y jws' → record.AgreesWith service.toIssuerService jws →
        record'.AgreesWith service.toIssuerService jws' → record.id = record'.id → i = j := by
  constructor
  · intro i x jws hanswered
    exact answered_recorded hsign h hanswered
  · intro i j x y jws jws' record record' hanswered hanswered' hrecord hrecord' hid
    exact answered_apart hsign h hanswered hanswered' hrecord hrecord' hid

set_option maxRecDepth 4000 in
theorem answers_recorded_sample :
    ∃ s : Sys reference, Reachable (credentialIssuer sampleService 0) s ∧ ∃ i x jws,
      s.Answered i x jws ∧ RecordedAs sampleService.toIssuerService s.issuer x.checked.configId
        x.checked.key.holderDid jws := by
  obtain ⟨s, hr, hp⟩ := StepSystem.exists_reachable_of_run
    (M := credentialIssuer sampleService 0) sampleRun (p := fun s => (issuedCall s).isSome)
    (by decide +kernel)
  obtain ⟨⟨call, x⟩, hcall⟩ := Option.isSome_iff_exists.mp hp
  obtain ⟨hmem, jws, hphase⟩ := issuedCall_spec hcall
  obtain ⟨i, hi⟩ := List.getElem?_of_mem hmem
  exact ⟨s, hr, i, x, jws, ⟨call, hi, hphase⟩,
    (answers_recorded reference_signRoundTrip hr).1 i x jws ⟨call, hi, hphase⟩⟩

end Oid4vci

end IdentityHub
