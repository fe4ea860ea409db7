import IdentityHub.Hub.State
import IdentityHub.Wallet.Confined

/-!
# A redemption is all or nothing

A redemption that goes through is a list of rounds, one for each thing the offer and
the token ask for. What it stores and what it reports are read off these rounds; a
redemption that fails stores nothing.
-/

namespace IdentityHub.Wallet

open Json (Value)

variable {X : HubExternal} {hub : Hub X} {clientId : Option String}

/-! ## Rounds -/

/-- One Credential Request that was answered: what it was made for, the credentials
of the answer, and the types they were accepted under, if they are of the one format
that is kept. -/
structure Round where
  configId : String
  configuration : CredentialConfiguration
  target : String × Value
  credentials : List Value
  types : List String

namespace Round

def kept (round : Round) : Prop := round.configuration.format = formatJwtVcJson

instance (round : Round) : Decidable round.kept := by
  unfold kept
  infer_instance

/-- The containers a round adds. -/
def containers (round : Round) : List CredentialContainer :=
  if round.kept then
    (round.types.zip round.credentials).map (fun filed =>
      { credentialType := filed.1, payload := filed.2, format := formatJwtVcJson })
  else []

/-- What a round reports as stored. -/
def stored (round : Round) : List RedeemedCredential :=
  if round.kept then
    round.types.map (fun credentialType =>
      { credentialConfigurationId := round.configId, credentialType := credentialType })
  else []

/-- What a round reports as not stored. -/
def notStored (round : Round) : List NotStoredCredential :=
  if round.kept then []
  else
    [{ credentialConfigurationId := round.configId
       format := round.configuration.format
       count := round.credentials.length
       reason := "only " ++ formatJwtVcJson ++ " credentials can be presented over DCP" }]

end Round

/-- Credentials that were accepted one after another, each under its type. -/
inductive Accepted (hub : Hub X) : List Value → List String → List (HubEvent X) → Prop
  | nil : Accepted hub [] [] []
  | cons {credential : Value} {credentialType : String} {credentials : List Value}
      {types : List String} {before after : List (HubEvent X)} :
      (acceptIssuedCredential hub credential).Returns before credentialType →
        Accepted hub credentials types after →
          Accepted hub (credential :: credentials) (credentialType :: types) (before ++ after)

/-- The run of one round, from one DPoP nonce to the next. -/
def Round.Ran (hub : Hub X) (clientId : Option String) (discovery : Discovery)
    (token : TokenResponse) (round : Round) (nonce : Option String)
    (events : List (HubEvent X)) (nonce' : Option String) : Prop :=
  ∃ before after, events = before ++ after ∧
    (requestCredentials hub clientId discovery token round.configuration round.target nonce).Returns
      before (round.credentials, nonce') ∧
    if round.kept then Accepted hub round.credentials round.types after
    else round.types = [] ∧ after = []

/-- The runs of several rounds. -/
inductive Ran (hub : Hub X) (clientId : Option String) (discovery : Discovery)
    (token : TokenResponse) :
    Option String → List Round → List (HubEvent X) → Option String → Prop
  | nil (nonce : Option String) : Ran hub clientId discovery token nonce [] [] nonce
  | cons {round : Round} {rounds : List Round} {nonce nonce₁ nonce₂ : Option String}
      {before after : List (HubEvent X)} :
      round.Ran hub clientId discovery token nonce before nonce₁ →
        Ran hub clientId discovery token nonce₁ rounds after nonce₂ →
          Ran hub clientId discovery token nonce (round :: rounds) (before ++ after) nonce₂

theorem Ran.append {discovery : Discovery} {token : TokenResponse} {rounds rounds' : List Round}
    {nonce nonce₁ nonce₂ : Option String} {before after : List (HubEvent X)}
    (h : Ran hub clientId discovery token nonce rounds before nonce₁)
    (h' : Ran hub clientId discovery token nonce₁ rounds' after nonce₂) :
    Ran hub clientId discovery token nonce (rounds ++ rounds') (before ++ after) nonce₂ := by
  induction h with
  | nil => exact h'
  | cons hround _ ih =>
      rw [List.append_assoc]
      exact .cons hround (ih h')

/-- What has been gathered after some rounds. -/
def Progress.after (progress : Progress) (rounds : List Round) (nonce : Option String) :
    Progress where
  nonce := nonce
  containers := progress.containers ++ rounds.flatMap Round.containers
  stored := progress.stored ++ rounds.flatMap Round.stored
  notStored := progress.notStored ++ rounds.flatMap Round.notStored

theorem Progress.after_nil (progress : Progress) :
    progress.after [] progress.nonce = progress := by
  simp [Progress.after]

theorem Progress.after_append (progress : Progress) (rounds rounds' : List Round)
    (nonce nonce' : Option String) :
    (progress.after rounds nonce).after rounds' nonce' =
      progress.after (rounds ++ rounds') nonce' := by
  simp [Progress.after, List.append_assoc]

/-! ## The loops -/

theorem acceptCredentials_returns {configId : String} {credentials : List Value}
    {progress progress' : Progress} {events : List (HubEvent X)}
    (h : (acceptCredentials hub configId credentials progress).Returns events progress') :
    ∃ types, Accepted hub credentials types events ∧
      progress'.nonce = progress.nonce ∧
      progress'.containers = progress.containers ++ (types.zip credentials).map (fun filed =>
        { credentialType := filed.1, payload := filed.2, format := formatJwtVcJson }) ∧
      progress'.stored = progress.stored ++ types.map (fun credentialType =>
        { credentialConfigurationId := configId, credentialType := credentialType }) ∧
      progress'.notStored = progress.notStored := by
  induction credentials generalizing progress events with
  | nil =>
      obtain ⟨rfl, rfl⟩ := Program.returns_pure.mp h
      exact ⟨[], .nil, rfl, by simp, by simp, rfl⟩
  | cons credential rest ih =>
      obtain ⟨before, credentialType, after, rfl, haccept, hrest⟩ := Program.returns_bind h
      obtain ⟨types, haccepted, hnonce, hcontainers, hstored, hnotStored⟩ := ih hrest
      refine ⟨credentialType :: types, .cons haccept haccepted, hnonce, ?_, ?_, hnotStored⟩
      · rw [hcontainers]
        simp [Progress.accept]
      · rw [hstored]
        simp [Progress.accept]

theorem redeemTarget_returns {discovery : Discovery} {token : TokenResponse} {configId : String}
    {configuration : CredentialConfiguration} {target : String × Value}
    {progress progress' : Progress} {events : List (HubEvent X)}
    (h : (redeemTarget hub clientId discovery token configId configuration target
      progress).Returns events progress') :
    ∃ round : Round, round.configId = configId ∧ round.configuration = configuration ∧
      round.target = target ∧
        round.Ran hub clientId discovery token progress.nonce events progress'.nonce ∧
          progress' = progress.after [round] progress'.nonce := by
  obtain ⟨before, ⟨credentials, nonce⟩, after, rfl, hrequest, hrest⟩ := Program.returns_bind h
  dsimp only at hrest
  split_ifs at hrest with hformat
  · obtain ⟨types, haccepted, hnonce, hcontainers, hstored, hnotStored⟩ :=
      acceptCredentials_returns hrest
    have hkept : Round.kept ⟨configId, configuration, target, credentials, types⟩ := hformat
    refine ⟨⟨configId, configuration, target, credentials, types⟩, rfl, rfl, rfl,
      ⟨before, after, rfl, ?_, ?_⟩, ?_⟩
    · rw [hnonce]
      exact hrequest
    · rw [if_pos hkept]
      exact haccepted
    · obtain ⟨nonce', containers', stored', notStored'⟩ := progress'
      dsimp only at hcontainers hstored hnotStored
      subst hcontainers hstored hnotStored
      simp [Progress.after, Round.containers, Round.stored, Round.notStored, hkept]
  · obtain ⟨rfl, rfl⟩ := Program.returns_pure.mp hrest
    have hkept : ¬ Round.kept ⟨configId, configuration, target, credentials, []⟩ := hformat
    refine ⟨⟨configId, configuration, target, credentials, []⟩, rfl, rfl, rfl,
      ⟨before, [], rfl, hrequest, ?_⟩, ?_⟩
    · rw [if_neg hkept]
      exact ⟨rfl, rfl⟩
    · simp [Progress.after, Progress.leaveOut, Round.containers, Round.stored, Round.notStored,
        hkept]

theorem redeemTargets_returns {discovery : Discovery} {token : TokenResponse} {configId : String}
    {configuration : CredentialConfiguration} {targets : List (String × Value)}
    {progress progress' : Progress} {events : List (HubEvent X)}
    (h : (redeemTargets hub clientId discovery token configId configuration targets
      progress).Returns events progress') :
    ∃ rounds : List Round, rounds.map (fun r => (r.configId, r.target)) =
        targets.map (fun target => (configId, target)) ∧
      (∀ r ∈ rounds, r.configuration = configuration ∧ r.configId = configId) ∧
        Ran hub clientId discovery token progress.nonce rounds events progress'.nonce ∧
          progress' = progress.after rounds progress'.nonce := by
  induction targets generalizing progress events with
  | nil =>
      obtain ⟨rfl, rfl⟩ := Program.returns_pure.mp h
      exact ⟨[], rfl, by simp, .nil _, progress.after_nil.symm⟩
  | cons target rest ih =>
      obtain ⟨before, progress₁, after, rfl, hround, hrest⟩ := Program.returns_bind h
      obtain ⟨round, hid, hconfiguration, htarget, hran, hprogress⟩ := redeemTarget_returns hround
      obtain ⟨rounds, htargets, hall, hrans, hprogress'⟩ := ih hrest
      refine ⟨round :: rounds, ?_, ?_, .cons hran hrans, ?_⟩
      · rw [List.map_cons, List.map_cons, htargets, hid, htarget]
      · intro r hr
        rcases List.mem_cons.mp hr with rfl | hr
        · exact ⟨hconfiguration, hid⟩
        · exact hall r hr
      · rw [hprogress', hprogress, Progress.after_append]
        rfl

/-- What the rounds of a redemption are made for, in order. -/
def requestedRounds (token : TokenResponse) (configIds : List String) :
    List (String × String × Value) :=
  configIds.flatMap (fun id => (requestTargets token id).map (fun target => (id, target)))

theorem redeemConfigurations_returns {discovery : Discovery} {token : TokenResponse}
    {configIds : List String} {progress progress' : Progress} {events : List (HubEvent X)}
    (h : (redeemConfigurations hub clientId discovery token configIds progress).Returns events
      progress') :
    ∃ rounds : List Round, rounds.map (fun r => (r.configId, r.target)) =
        requestedRounds token configIds ∧
      (∀ r ∈ rounds, discovery.metadata.credentialConfigurationsSupported.lookup r.configId =
        some r.configuration) ∧
        Ran hub clientId discovery token progress.nonce rounds events progress'.nonce ∧
          progress' = progress.after rounds progress'.nonce := by
  induction configIds generalizing progress events with
  | nil =>
      obtain ⟨rfl, rfl⟩ := Program.returns_pure.mp h
      exact ⟨[], rfl, by simp, .nil _, progress.after_nil.symm⟩
  | cons configId rest ih =>
      obtain ⟨_, configuration, _, rfl, hfound, hrounds⟩ := Program.returns_bind h
      obtain ⟨rfl, hlookup⟩ := Program.returns_ofExcept.mp hfound
      rw [Option.okOr_eq_ok] at hlookup
      obtain ⟨before, progress₁, after, rfl, hround, hrest⟩ := Program.returns_bind hrounds
      obtain ⟨rounds, htargets, hall, hrans, hprogress⟩ := redeemTargets_returns hround
      obtain ⟨rounds', htargets', hall', hrans', hprogress'⟩ := ih hrest
      refine ⟨rounds ++ rounds', ?_, ?_, hrans.append hrans', ?_⟩
      · rw [List.map_append, htargets, htargets', requestedRounds, requestedRounds,
          List.flatMap_cons]
      · intro r hr
        rcases List.mem_append.mp hr with hr | hr
        · obtain ⟨hconfiguration, hid⟩ := hall r hr
          rw [hid, hconfiguration, hlookup]
        · exact hall' r hr
      · rw [hprogress', hprogress, Progress.after_append]
        rfl

/-! ## What is stored -/

/-- The batch an event stores, if it stores one. -/
def batchOf (e : HubEvent X) : Option StoredCredentialBatch :=
  match e with
  | ⟨HubOp.storeBatch batch, _⟩ => some batch
  | _ => none

/-- The batches a run stores, in order. -/
def storedBatches (events : List (HubEvent X)) : List StoredCredentialBatch :=
  events.filterMap batchOf

theorem batchOf_eq_some {e : HubEvent X} {batch : StoredCredentialBatch}
    (h : batchOf e = some batch) : e = batchStored X batch := by
  unfold batchOf at h
  split at h
  · cases h
    rfl
  · cases h

theorem store_respond {s s' : HubState X} {e : HubEvent X}
    (h : (hubEnvironment X).respond s e s') :
    s'.store = (batchOf e).elim s.store s.store.store := by
  cases hbatch : batchOf e with
  | none =>
      rw [Option.elim_none]
      refine (framed_of_respond h).store ?_
      rintro batch rfl
      cases hbatch
  | some batch =>
      rw [batchOf_eq_some hbatch] at h
      have hs : s' = { s with store := s.store.store batch } := h
      rw [hs, Option.elim_some]

/-- The store after a run is the one before it with these batches added. -/
theorem store_replays {s s' : HubState X} {events : List (HubEvent X)}
    (h : (hubEnvironment X).Replays s events s') :
    s'.store = (storedBatches events).foldl CredentialStore.store s.store := by
  induction h with
  | nil => rfl
  | @cons s₁ s₂ s₃ e events hrespond _ ih =>
      rw [ih, store_respond hrespond]
      unfold storedBatches
      cases hbatch : batchOf e with
      | none => rw [List.filterMap_cons_none hbatch, Option.elim_none]
      | some batch => rw [List.filterMap_cons_some hbatch, Option.elim_some, List.foldl_cons]

/-- A part that is not to store anything does not. -/
theorem storedBatches_of_wp {ε α : Type} {p q : HubProgram X ε α}
    {own : List (HubEvent X) → HubOp X → Prop} {post : List (HubEvent X) → α → Prop}
    {events : List (HubEvent X)} (h : p.wp (Confined hub own) post [])
    (hown : ∀ past batch, ¬ own past (.storeBatch batch)) (hr : p.Evolves events q) :
    storedBatches events = [] := by
  unfold storedBatches
  rw [List.filterMap_eq_nil_iff]
  rintro ⟨op, answer⟩ hmem
  obtain ⟨before, after, rfl⟩ := List.append_of_mem hmem
  have hasked := Program.wp_asked h hr
  cases op with
  | storeBatch batch => exact absurd hasked (hown _ batch)
  | _ => rfl

/-- Before the end nothing is stored. -/
theorem gather_stores_nothing {body : RedeemOfferBody}
    {q : HubProgram X WalletError (Discovery × Progress)} {events : List (HubEvent X)}
    (h : (gather hub clientId body).Evolves events q) : storedBatches events = [] := by
  have hwp := @gather_wp X hub clientId (fun _ op => ∀ batch, op ≠ .storeBatch batch) [] body
    (fun _ _ _ => nofun) (fun _ _ _ _ => nofun)
  exact storedBatches_of_wp hwp (fun past batch hnot => hnot batch rfl) h

/-! ## The rounds add up -/

theorem Accepted.length_eq {credentials : List Value} {types : List String}
    {events : List (HubEvent X)} (h : Accepted hub credentials types events) :
    types.length = credentials.length := by
  induction h with
  | nil => rfl
  | cons _ _ ih => rw [List.length_cons, List.length_cons, ih]

/-- What a round that ran has added: its own credentials, one for one, if they are
kept; otherwise they are counted. -/
structure Round.Faithful (round : Round) : Prop where
  payloads : round.containers.map (fun c => c.payload) =
    if round.kept then round.credentials else []
  reported : round.stored.map (fun r => r.credentialType) =
    round.containers.map (fun c => c.credentialType)
  counted : (round.notStored.map (fun n => n.count)).sum =
    if round.kept then 0 else round.credentials.length

theorem Round.Ran.faithful {d : Discovery} {token : TokenResponse} {round : Round}
    {nonce nonce' : Option String} {events : List (HubEvent X)}
    (h : round.Ran hub clientId d token nonce events nonce') : round.Faithful := by
  obtain ⟨before, after, rfl, -, hrest⟩ := h
  by_cases hkept : round.kept
  · rw [if_pos hkept] at hrest
    have hlength := hrest.length_eq
    constructor
    · rw [containers, if_pos hkept, if_pos hkept, List.map_map]
      exact List.map_snd_zip hlength.ge
    · rw [stored, containers, if_pos hkept, if_pos hkept, List.map_map, List.map_map]
      have hfst : (round.types.zip round.credentials).map Prod.fst = round.types :=
        List.map_fst_zip hlength.le
      exact (List.map_id round.types).trans hfst.symm
    · rw [notStored, if_pos hkept, if_pos hkept]
      rfl
  · constructor
    · rw [containers, if_neg hkept, if_neg hkept]
      rfl
    · rw [stored, containers, if_neg hkept, if_neg hkept]
      rfl
    · rw [notStored, if_neg hkept, if_neg hkept]
      rfl

theorem Ran.faithful {d : Discovery} {token : TokenResponse} {rounds : List Round}
    {nonce nonce' : Option String} {events : List (HubEvent X)}
    (h : Ran hub clientId d token nonce rounds events nonce') :
    ∀ round ∈ rounds, round.Faithful := by
  induction h with
  | nil =>
      intro round hmem
      cases hmem
  | cons hround _ ih =>
      intro round hmem
      rcases List.mem_cons.mp hmem with rfl | hmem
      · exact hround.faithful
      · exact ih round hmem

/-! ## All or nothing -/

theorem storeRedeemed_throws {containers : List CredentialContainer} {e : WalletError}
    {events : List (HubEvent X)} :
    ¬ (storeRedeemed containers : HubProgram X WalletError Unit).Evolves events (.throw e) := by
  unfold storeRedeemed
  split
  · intro h
    cases h
  · intro h
    rcases Program.evolves_bind h with ⟨p, hdraw, hp⟩ | ⟨before, uuid, after, -, -, hstore⟩
    · cases hdraw with
      | refl => cases hp
      | ask hdraw =>
          cases hdraw
          cases hp
    · cases hstore with
      | ask hstore => cases hstore

theorem storeRedeemed_returns {containers : List CredentialContainer} {u : Unit}
    {events : List (HubEvent X)}
    (h : (storeRedeemed containers : HubProgram X WalletError Unit).Returns events u) :
    (containers = [] ∧ storedBatches events = []) ∨
      (containers ≠ [] ∧ ∃ uuid, storedBatches events = [redeemedBatch uuid containers]) := by
  unfold storeRedeemed at h
  split_ifs at h with hnil
  · obtain ⟨rfl, -⟩ := Program.returns_pure.mp h
    exact Or.inl ⟨hnil, rfl⟩
  · obtain ⟨before, uuid, after, rfl, hdraw, hstore⟩ := Program.returns_bind h
    refine Or.inr ⟨hnil, uuid, ?_⟩
    cases hdraw with
    | ask hdraw =>
        cases hdraw
        cases hstore with
        | ask hstore =>
            cases hstore
            rfl

/-- What a redemption that went through has done: its rounds were made for what the
offer and the token name, in that order, and what it stored and reports is theirs. -/
structure Redeemed (hub : Hub X) (clientId : Option String) (body : RedeemOfferBody)
    (events : List (HubEvent X)) (response : RedeemOfferResponse) (d : Discovery)
    (rounds : List Round) : Prop where
  ran : ∃ token discovered asked during after nonce,
    events = discovered ++ (asked ++ (during ++ after)) ∧
      (discover hub body).Returns discovered d ∧
        (requestToken hub clientId d body.txCode).Returns asked token ∧
          Ran hub clientId d token none rounds during nonce ∧
            rounds.map (fun r => (r.configId, r.target)) =
              requestedRounds token d.offer.credentialConfigurationIds
  described : ∀ r ∈ rounds,
    d.metadata.credentialConfigurationsSupported.lookup r.configId = some r.configuration
  stores : (rounds.flatMap Round.containers = [] ∧ storedBatches events = []) ∨
    (rounds.flatMap Round.containers ≠ [] ∧
      ∃ uuid, storedBatches events = [redeemedBatch uuid (rounds.flatMap Round.containers)])
  faithful : ∀ r ∈ rounds, r.Faithful
  stored : response.stored = rounds.flatMap Round.stored
  notStored : response.notStored = rounds.flatMap Round.notStored

/-- **A redemption is all or nothing.** One that fails stores nothing. One that goes
through stores nothing or one issued batch: the credentials of the configurations that
are kept, in order, each under the type it was accepted with; it reports these one for
one, and counts the others. -/
theorem redemption_atomic (body : RedeemOfferBody) (events : List (HubEvent X)) :
    (∀ e, (redeem hub clientId body).Evolves events (.throw e) → storedBatches events = []) ∧
    (∀ response, (redeem hub clientId body).Returns events response →
      ∃ d rounds, Redeemed hub clientId body events response d rounds) ∧
    ∀ s s', (hubEnvironment X).Replays s events s' →
      s'.store = (storedBatches events).foldl CredentialStore.store s.store := by
  refine ⟨fun e h => ?_, fun response h => ?_, fun s s' hreplays => store_replays hreplays⟩
  · rcases Program.evolves_bind h with
      ⟨p, hgather, -⟩ | ⟨before, gathered, after, rfl, hgather, hafter⟩
    · exact gather_stores_nothing hgather
    · rcases Program.evolves_bind hafter with ⟨p, hstore, hp⟩ | ⟨_, _, _, -, -, hlast⟩
      · cases p with
        | throw e' => exact absurd hstore storeRedeemed_throws
        | pure u => cases hp
        | ask op next => cases hp
      · cases hlast
  · obtain ⟨before, ⟨d, progress⟩, after, rfl, hgather, h⟩ := Program.returns_bind h
    obtain ⟨storing, u, last, rfl, hstore, hlast⟩ := Program.returns_bind h
    obtain ⟨rfl, rfl⟩ := Program.returns_pure.mp hlast
    have hbefore := gather_stores_nothing hgather
    obtain ⟨discovered, d', _, rfl, hdiscover, hrest⟩ := Program.returns_bind hgather
    obtain ⟨asked, token, _, rfl, htoken, hrest⟩ := Program.returns_bind hrest
    obtain ⟨during, progress', _, rfl, hloop, hpure⟩ := Program.returns_bind hrest
    obtain ⟨rfl, hsame⟩ := Program.returns_pure.mp hpure
    cases hsame
    obtain ⟨rounds, htargets, hdescribed, hran, hprogress⟩ := redeemConfigurations_returns hloop
    have hcontainers : progress.containers = rounds.flatMap Round.containers := by
      rw [hprogress]
      rfl
    have hstores : storedBatches ((discovered ++ (asked ++ (during ++ []))) ++ (storing ++ [])) =
        storedBatches storing := by
      rw [storedBatches, List.filterMap_append, ← storedBatches, hbefore, List.append_nil]
      rfl
    refine ⟨d, rounds, ⟨token, discovered, asked, during, storing, progress.nonce, by simp,
      hdiscover, htoken, hran, htargets⟩, hdescribed, ?_, hran.faithful, ?_, ?_⟩
    · rw [hstores, ← hcontainers]
      exact storeRedeemed_returns hstore
    · rw [hprogress]
      rfl
    · rw [hprogress]
      rfl

end IdentityHub.Wallet
