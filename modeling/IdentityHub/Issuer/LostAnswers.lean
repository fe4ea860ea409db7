import IdentityHub.Issuer.Indexes
import IdentityHub.Issuer.Lifecycle

/-!
# Indexes of accepted credentials, and lost answers

A Storage API that answers 2xx holds the credentials it was sent. The hub gives
the indexes of a delivery back when its request fails, and the request can fail
after the Storage API has answered: then the index of an accepted credential
goes to the next delivery, and no record says that it is in use.

`Heard` says of a step that no 2xx answer is lost in it. In a run of such steps
the index of an accepted credential stays with its task and then with its record
(`accepted_index_kept`); a run with one lost answer breaks it
(`lost_answer_gives_index_away`).
-/

namespace IdentityHub

open StepSystem (Machine Reachable ReachableBy Steps anyStep)

variable {X : External} {service : IssuerService X} {start : ℕ}

/-- The Storage API answered this post with a 2xx status. -/
def StorageCall.isAccepted (call : StorageCall) : Bool := call.answer.any isSuccess

def Phase.isWaiting : Phase → Bool
  | .waiting _ => true
  | _ => false

/-- The step loses no 2xx answer: a request does not fail after it was answered
2xx, and a 2xx answer comes while the task waits for it. -/
def heard (s : IssuerSys) : IssuerAction X → Bool
  | .delivery j (.lose _) =>
      (s.deliveries[j]?).all (fun t => t.posts.all (fun call => !call.isAccepted))
  | .storageAnswers j status =>
      !isSuccess status || (s.deliveries[j]?).all (fun t => t.phase.isWaiting)
  | _ => true

def Heard (s : IssuerSys) (a : IssuerAction X) : Prop := heard s a = true

theorem Heard.unaccepted {s : IssuerSys} {j : ℕ} {error : String} {t : Delivery}
    (h : Heard (X := X) s (.delivery j (.lose error))) (ht : s.deliveries[j]? = some t) :
    ∀ call ∈ t.posts, call.isAccepted = false := by
  intro call hcall
  change (s.deliveries[j]?).all _ = true at h
  rw [ht] at h
  have := List.all_eq_true.mp h call hcall
  simpa using this

theorem Heard.waiting {s : IssuerSys} {j status : ℕ} {t : Delivery}
    (h : Heard (X := X) s (.storageAnswers j status)) (ht : s.deliveries[j]? = some t)
    (hs : isSuccess status) : ∃ minted, t.phase = .waiting minted := by
  change (!isSuccess status || (s.deliveries[j]?).all _) = true at h
  rw [ht, hs] at h
  change t.phase.isWaiting = true at h
  cases hp : t.phase with
  | waiting minted => exact ⟨minted, rfl⟩
  | _ =>
      rw [hp] at h
      cases h

/-- A record of this process carries the index. -/
def RecordedFor (issued : IssuedCredentials) (processId : String) (i : ℕ) : Prop :=
  ∃ r ∈ issued.recordList, r.statusListIndex = i ∧ r.issuanceProcessId = processId

/-- Index `i`, carried by an accepted credential of the task `t` at position `j`,
is not given away: it is not free and not the next to be handed out, nobody but
the task holds it and no record but the task's carries it; and once the task has
ended, there is such a record. -/
structure NotGivenAway (s : IssuerSys) (j : ℕ) (t : Delivery) (i : ℕ) : Prop where
  unfree : i ∉ s.app.issued.statusList.free
  unallocated : ∀ list, s.app.issued.statusList.allocate ≠ some (i, list)
  holder : ∀ (j' : ℕ) (t' : Delivery), s.deliveries[j']? = some t' → i ∈ t'.phase.held → j' = j
  unredeemed : ∀ r ∈ s.redemptions, i ∉ r.held
  record : ∀ r ∈ s.app.issued.recordList, r.statusListIndex = i →
    r.issuanceProcessId = t.processId
  revocable : t.phase.isDone → RecordedFor s.app.issued t.processId i

/-- No index of an accepted credential is given away. -/
def IndexesKept (s : IssuerSys) : Prop :=
  ∀ (j : ℕ) (t : Delivery) (call : StorageCall) (i : ℕ), s.deliveries[j]? = some t →
    call ∈ t.posts → call.isAccepted → i ∈ call.indexes → NotGivenAway s j t i

/-! ## A task works on its own process -/

/-- Everything a task carries belongs to its process, and the post it waits for
carries the indexes it holds. -/
structure Delivery.OwnWork (t : Delivery) : Prop where
  claimed : ∀ p, t.phase = .claimed p → p.id = t.processId
  resolving : ∀ job, t.phase = .resolving job → job.processId = t.processId
  minting : ∀ job endpoint todo minted, t.phase = .minting job endpoint todo minted →
    job.processId = t.processId
  records : ∀ r ∈ t.phase.unrecorded, r.issuanceProcessId = t.processId
  posted : ∀ minted, t.phase = .waiting minted →
    ∃ call, t.posts = [call] ∧ call.indexes = mintedIndexes minted

theorem Delivery.ownWork_new (processId : String) : (Delivery.new processId).OwnWork where
  claimed _ h := nomatch h
  resolving _ h := nomatch h
  minting _ _ _ _ h := nomatch h
  records _ h := nomatch h
  posted _ h := nomatch h

theorem deliveryStep_ownWork {permitFree : Bool} {app app' : AppState} {t t' : Delivery}
    {event : DeliveryEvent X} (hs : t.Sound) (ho : t.OwnWork)
    (hkeys : ∀ p, app.requests.get t.processId = some p → p.id = t.processId)
    (h : deliveryStep service permitFree app t event = some (app', t')) : t'.OwnWork := by
  obtain ⟨hc, hr, hm, hrec, hp⟩ := ho
  cases event with
  | mint now uuid =>
      simp only [deliveryStep] at h
      split at h
      · rename_i job endpoint definition todo minted hphase
        have hjob := hm _ _ _ _ hphase
        rw [hphase] at hrec
        split at h
        · cases h
          constructor <;> simp [Phase.unrecorded]
        · cases h
          refine ⟨by simp, by simp, ?_, ?_, by simp⟩
          · rintro _ _ _ _ ⟨⟩
            exact hjob
          · intro r hmem
            change r ∈ (minted ++ [_]).map Minted.record at hmem
            rw [List.map_append, List.mem_append] at hmem
            rcases hmem with hmem | hmem
            · exact hrec r hmem
            · rw [List.mem_singleton.mp hmem]
              exact hjob
      · cases h
  | resolve answer =>
      simp only [deliveryStep] at h
      split at h
      · rename_i job hphase
        have hjob := hr _ hphase
        split at h
        · cases h
          constructor <;> simp [Phase.unrecorded]
        · cases h
          refine ⟨by simp, by simp, ?_, by simp [Phase.unrecorded], by simp⟩
          rintro _ _ _ _ ⟨⟩
          exact hjob
      · cases h
  | post now jti =>
      simp only [deliveryStep] at h
      split at h
      · rename_i job endpoint minted hphase
        rw [hphase] at hrec
        have hposts : t.posts = [] := hs.noPost (by rw [hphase]; rfl)
        cases h
        refine ⟨by simp, by simp, by simp, hrec, ?_⟩
        rintro _ ⟨⟩
        exact ⟨_, by rw [hposts], rfl⟩
      · cases h
  | _ =>
      simp only [deliveryStep] at h
      repeat' split at h
      all_goals cases h
      all_goals constructor
      all_goals simp_all [Phase.unrecorded]

/-- A task's step keeps the posts it made. -/
theorem deliveryStep_posts {permitFree : Bool} {app app' : AppState} {t t' : Delivery}
    {event : DeliveryEvent X} {call : StorageCall}
    (h : deliveryStep service permitFree app t event = some (app', t')) (hcall : call ∈ t.posts) :
    call ∈ t'.posts := by
  cases event with
  | post now jti =>
      simp only [deliveryStep] at h
      split at h
      · cases h
        exact List.mem_cons_of_mem _ hcall
      · cases h
  | _ =>
      simp only [deliveryStep] at h
      repeat' split at h
      all_goals cases h
      all_goals exact hcall

/-! ## Where the indexes of an accepted post are -/

/-- With the task that waits for the answer or has it, or in its records. -/
def Kept (issued : IssuedCredentials) (t : Delivery) (call : StorageCall) : Prop :=
  (∃ minted, t.phase = .waiting minted ∧ call.indexes = mintedIndexes minted) ∨
    (∃ records, t.phase = .answered records ∧
      call.indexes = records.map (·.statusListIndex)) ∨
    ∀ i ∈ call.indexes, RecordedFor issued t.processId i

/-- Every task works on its own process and keeps what was accepted of it. -/
def AllKept (s : IssuerSys) : Prop :=
  ∀ t ∈ s.deliveries, t.OwnWork ∧
    ∀ call ∈ t.posts, call.isAccepted → Kept s.app.issued t call

section

variable {s s' : IssuerSys} {a : IssuerAction X}

/-- A record stays, with its index and its process. -/
theorem RecordedFor.step (hs : Accounts s) (hm : StoreMove service s a s')
    (hnodup : a.draws.Nodup) (hfresh : ∀ u ∈ a.draws, u ∉ s.drawn) {k : String} {i : ℕ}
    (h : RecordedFor s.app.issued k i) : RecordedFor s'.app.issued k i := by
  cases hm with
  | same hi _ _ => exact hi ▸ h
  | signed now hi _ _ => exact hi ▸ h
  | revoked id record hrevoke _ _ =>
      obtain ⟨old, hold, rfl, -, -, hget⟩ := IssuedCredentials.revoke_eq_some hrevoke
      obtain ⟨r, hr, hidx, hpid⟩ := h
      obtain ⟨id', hid'⟩ := IssuedCredentials.mem_recordList.mp hr
      by_cases hsame : id' = id
      · subst hsame
        rw [hold] at hid'
        cases hid'
        exact ⟨_, IssuedCredentials.mem_recordList.mpr ⟨id', (hget id').trans (if_pos rfl)⟩,
          hidx, hpid⟩
      · exact ⟨r, IssuedCredentials.mem_recordList.mpr
          ⟨id', (hget id').trans ((if_neg hsame).trans hid')⟩, hidx, hpid⟩
  | worker held held' unrecorded unrecorded' rest restRecords hw _ _ hrec _ =>
      cases hw with
      | keep hi _ _ => exact hi ▸ h
      | take index list new _ hi _ _ _ _ => exact hi ▸ h
      | giveBack hi _ _ => exact hi ▸ h
      | store records hi _ _ _ hrecords =>
          obtain ⟨r, hr, hrest⟩ := h
          obtain ⟨-, hrl, -, -⟩ := IssuedCredentials.foldl_insert
            (hs.store_nodup hnodup hfresh hrec hrecords)
          refine ⟨r, ?_, hrest⟩
          rw [hi, ← Multiset.mem_coe, hrl]
          exact Multiset.mem_add.mpr (Or.inr hr)

/-- The step that stores an answered delivery's records. -/
theorem recordedFor_recordAll {app : AppState} {records : List IssuedCredential}
    (hnodup : ((↑(records.map (·.id)) : Multiset String) + ↑app.issued.records.keys).Nodup)
    {r : IssuedCredential} (hr : r ∈ records) :
    RecordedFor (recordAll app records).issued r.issuanceProcessId r.statusListIndex := by
  obtain ⟨-, hrl, -, -⟩ := IssuedCredentials.foldl_insert hnodup
  refine ⟨r, ?_, rfl, rfl⟩
  show r ∈ (records.foldl IssuedCredentials.insert app.issued).recordList
  rw [← Multiset.mem_coe, hrl]
  exact Multiset.mem_add.mpr (Or.inl hr)

/-- A task's own step keeps what was accepted of it, if it loses no answer. -/
theorem deliveryStep_kept {permitFree : Bool} {app app' : AppState} {t t' : Delivery}
    {event : DeliveryEvent X} (hs : t.Sound) (ho : t.OwnWork)
    (h : deliveryStep service permitFree app t event = some (app', t'))
    (hstay : ∀ k i, RecordedFor app.issued k i → RecordedFor app'.issued k i)
    (hstore : ∀ records, t.phase = .answered records →
      ((↑(records.map (·.id)) : Multiset String) + ↑app.issued.records.keys).Nodup)
    (hheard : ∀ error, event = .lose error → ∀ call ∈ t.posts, call.isAccepted = false)
    (hkept : ∀ call ∈ t.posts, call.isAccepted → Kept app.issued t call) :
    ∀ call ∈ t'.posts, call.isAccepted → Kept app'.issued t' call := by
  have none_posted : t.phase.beforePost → t'.posts = t.posts →
      ∀ call ∈ t'.posts, call.isAccepted → Kept app'.issued t' call := by
    intro hphase hposts call hcall
    rw [hposts, hs.noPost hphase] at hcall
    cases hcall
  -- outside the two phases, what was accepted is recorded
  have past : (∀ minted, t.phase ≠ .waiting minted) → (∀ records, t.phase ≠ .answered records) →
      t'.posts = t.posts → t'.processId = t.processId →
        ∀ call ∈ t'.posts, call.isAccepted → Kept app'.issued t' call := by
    intro hw ha hposts hpid call hcall hacc
    rw [hposts] at hcall
    rcases hkept call hcall hacc with ⟨minted, hphase, -⟩ | ⟨records, hphase, -⟩ | hall
    · exact absurd hphase (hw minted)
    · exact absurd hphase (ha records)
    · refine Or.inr (Or.inr (fun i hi => ?_))
      rw [hpid]
      exact hstay _ _ (hall i hi)
  cases event with
  | post now jti =>
      simp only [deliveryStep] at h
      split at h
      · rename_i hphase
        cases h
        intro call hcall hacc
        rw [hs.noPost (by rw [hphase]; rfl)] at hcall
        rw [List.mem_singleton.mp hcall] at hacc
        cases hacc
      · cases h
  | receive =>
      simp only [deliveryStep] at h
      split at h
      · rename_i minted status url bearer message indexes earlier hphase hposts
        obtain ⟨posted, hone, hindexes⟩ := ho.posted _ hphase
        rw [hposts] at hone
        obtain ⟨rfl, rfl⟩ := List.cons.inj hone
        intro call hcall hacc
        split at h
        · cases h
          rw [hposts] at hcall
          rw [List.mem_singleton.mp hcall]
          refine Or.inr (Or.inl ⟨_, rfl, ?_⟩)
          rw [hindexes, List.map_map]
          rfl
        · rename_i hfailed
          cases h
          rw [hposts] at hcall
          rw [List.mem_singleton.mp hcall] at hacc
          exact absurd hacc hfailed
      · cases h
  | lose error =>
      simp only [deliveryStep] at h
      split at h
      · cases h
        intro call hcall hacc
        rw [hheard error rfl call hcall] at hacc
        cases hacc
      · cases h
  | record =>
      simp only [deliveryStep] at h
      split at h
      · rename_i records hphase
        cases h
        intro call hcall hacc
        right
        right
        intro i hi
        rcases hkept call hcall hacc with ⟨minted, hw, -⟩ | ⟨records', ha, hindexes⟩ | hall
        · rw [hphase] at hw
          cases hw
        · rw [hphase] at ha
          cases ha
          rw [hindexes] at hi
          obtain ⟨r, hr, rfl⟩ := List.mem_map.mp hi
          have hpid : r.issuanceProcessId = t.processId := ho.records r (by rw [hphase]; exact hr)
          rw [← hpid]
          exact recordedFor_recordAll (hstore records hphase) hr
        · exact hstay _ _ (hall i hi)
      · cases h
  | release =>
      simp only [deliveryStep] at h
      split at h
      · rename_i hphase
        cases h
        exact past (by rw [hphase]; simp) (by rw [hphase]; simp) rfl rfl
      · cases h
  | finish now =>
      simp only [deliveryStep] at h
      split at h
      · rename_i hphase
        cases h
        exact past (by rw [hphase]; simp) (by rw [hphase]; simp) rfl rfl
      · cases h
  | _ =>
      simp only [deliveryStep] at h
      repeat' split at h
      all_goals cases h
      all_goals refine none_posted ?_ rfl
      all_goals simp_all [Phase.beforePost, Phase.beforeClaim]

/-- The other party's answer, when the task hears it. -/
theorem answer_kept {issued : IssuedCredentials} {t t' : Delivery} {status : ℕ} (ho : t.OwnWork)
    (h : t.answer status = some t')
    (hheard : isSuccess status → ∃ minted, t.phase = .waiting minted)
    (hkept : ∀ call ∈ t.posts, call.isAccepted → Kept issued t call) :
    t'.OwnWork ∧ ∀ call ∈ t'.posts, call.isAccepted → Kept issued t' call := by
  obtain ⟨head, earlier, hposts, -, rfl⟩ := Delivery.answer_eq_some h
  obtain ⟨hc, hr, hm, hrec, hp⟩ := ho
  refine ⟨⟨hc, hr, hm, hrec, fun minted hphase => ?_⟩, fun call hcall hacc => ?_⟩
  · obtain ⟨call, hone, hindexes⟩ := hp minted hphase
    rw [hposts] at hone
    obtain ⟨rfl, rfl⟩ := List.cons.inj hone
    exact ⟨_, rfl, hindexes⟩
  · rcases List.mem_cons.mp hcall with rfl | hcall
    · obtain ⟨minted, hphase⟩ := hheard hacc
      obtain ⟨call, hone, hindexes⟩ := hp minted hphase
      rw [hposts] at hone
      obtain ⟨rfl, rfl⟩ := List.cons.inj hone
      exact Or.inl ⟨minted, hphase, hindexes⟩
    · exact hkept call (hposts ▸ List.mem_cons_of_mem _ hcall) hacc

theorem Kept.stay {issued issued' : IssuedCredentials} {t : Delivery} {call : StorageCall}
    (h : Kept issued t call) (hstay : ∀ k i, RecordedFor issued k i → RecordedFor issued' k i) :
    Kept issued' t call := by
  rcases h with h | h | h
  · exact Or.inl h
  · exact Or.inr (Or.inl h)
  · exact Or.inr (Or.inr (fun i hi => hstay _ _ (h i hi)))

/-- **A step that loses no answer keeps what was accepted.** -/
theorem AllKept.step (hr : Reachable (issuer service start) s) (hk : AllKept s)
    (hheard : Heard s a) (hstep : (issuer service start).step s a = some s') : AllKept s' := by
  have hs := standing_of_reachable hr
  have hacc := accounts_of_reachable hr
  obtain ⟨hnodup, hfresh, -⟩ := issuer_step_eq_some hstep
  have hstay : ∀ k i, RecordedFor s.app.issued k i → RecordedFor s'.app.issued k i :=
    fun k i h => h.step hacc (issuer_step_store hstep) hnodup hfresh
  intro t' ht'
  obtain ⟨j, hj⟩ := List.getElem?_of_mem ht'
  cases hold : s.deliveries[j]? with
  | none =>
      obtain ⟨k, rfl, -⟩ := (move_of_reachable hr hstep).delivery_new hs hold hj
      exact ⟨Delivery.ownWork_new k, fun call hcall => nomatch hcall⟩
  | some t =>
      have hmem : t ∈ s.deliveries := List.mem_of_getElem? hold
      have hlt := (List.getElem?_eq_some_iff.mp hold).1
      obtain ⟨ho, hkept⟩ := hk t hmem
      rcases delivery_at hstep hold with hsame | ⟨event, x, rfl, hd, -, hout⟩ |
        ⟨status, x, rfl, hd, hanswer⟩
      · rw [hsame] at hj
        cases hj
        exact ⟨ho, fun call hcall h => (hkept call hcall h).stay hstay⟩
      · rw [hd, List.getElem?_set_self hlt] at hj
        cases hj
        refine ⟨deliveryStep_ownWork (hs.sound t hmem) ho
          (fun p hp => (hs.processKeys _ p hp).1) hout, ?_⟩
        refine deliveryStep_kept (hs.sound t hmem) ho hout hstay ?_ ?_ hkept
        · intro records hphase
          obtain ⟨rest, hrec, -⟩ := KeyedList.coe_flatMap_set (·.phase.unrecorded) hold
          rw [hphase] at hrec
          exact hacc.store_nodup hnodup hfresh hrec (Or.inl rfl)
        · rintro error rfl
          exact hheard.unaccepted hold
      · rw [hd, List.getElem?_set_self hlt] at hj
        cases hj
        obtain ⟨ho', hkept'⟩ := answer_kept ho hanswer (hheard.waiting hold) hkept
        exact ⟨ho', fun call hcall h => (hkept' call hcall h).stay hstay⟩

theorem allKept_of_reachableBy (h : ReachableBy (issuer service start) Heard s) : AllKept s := by
  have both : Reachable (issuer service start) s ∧ AllKept s := by
    refine Steps.preserves (I := fun s => Reachable (issuer service start) s ∧ AllKept s) h
      ⟨.refl, fun t ht => absurd ht List.not_mem_nil⟩ ?_
    rintro s₁ a s₂ ⟨hr, hk⟩ hheard hstep
    exact ⟨hr.step hstep, hk.step hr hheard hstep⟩
  exact both.2

/-! ## What is kept is not given away -/

/-- An index with an owner is neither free nor the next to be handed out. -/
theorem Accounts.owned_unfree (hs : Accounts s) {i : ℕ}
    (h : i ∈ s.ledger.held ∨ i ∈ s.ledger.recorded) :
    i ∉ s.app.issued.statusList.free ∧
      ∀ list, s.app.issued.statusList.allocate ≠ some (i, list) := by
  have hfree : i ∉ s.app.issued.statusList.free := by
    intro hf
    rcases h with h | h
    · exact hs.balanced.held_of_free hf h
    · exact hs.balanced.recorded_of_free hf h
  refine ⟨hfree, fun list hal => ?_⟩
  obtain ⟨-, -, ⟨hf, -⟩ | ⟨-, -, hnext, -, -⟩⟩ := StatusList.allocate_eq_some hal
  · exact hfree (SortedSet.mem_def.mpr (hf ▸ List.mem_cons_self))
  · exact absurd hnext (ne_of_lt (hs.balanced.lt_next_iff.mpr (Or.inr h)))

theorem held_of_delivery {j i : ℕ} {t : Delivery} (ht : s.deliveries[j]? = some t)
    (hi : i ∈ t.phase.held) : i ∈ s.ledger.held :=
  Multiset.mem_add.mpr (Or.inl (List.mem_flatMap.mpr ⟨t, List.mem_of_getElem? ht, hi⟩))

theorem held_of_redemption {i : ℕ} {r : RedemptionPhase} (hr : r ∈ s.redemptions)
    (hi : i ∈ r.held) : i ∈ s.ledger.held :=
  Multiset.mem_add.mpr (Or.inr (List.mem_flatMap.mpr ⟨r, hr, hi⟩))

/-- While its task holds it. -/
theorem NotGivenAway.of_held (hs : Accounts s) {j i : ℕ} {t : Delivery}
    (ht : s.deliveries[j]? = some t) (hi : i ∈ t.phase.held) (hdone : t.phase.isDone = false) :
    NotGivenAway s j t i := by
  have hheld := held_of_delivery ht hi
  obtain ⟨hfree, hnext⟩ := hs.owned_unfree (Or.inl hheld)
  have hnodup : (↑(s.deliveries.flatMap (·.phase.held)) +
      ↑(s.redemptions.flatMap (·.held)) : Multiset ℕ).Nodup := hs.balanced.held_nodup
  obtain ⟨hd, -, hdisj⟩ := Multiset.nodup_add.mp hnodup
  refine ⟨hfree, hnext, fun j' t' ht' hi' => ?_, fun r hr hi' => ?_, fun r hr hidx => ?_, ?_⟩
  · exact KeyedList.owner_unique (Multiset.coe_nodup.mp hd) ht' ht hi' hi
  · exact Multiset.disjoint_left.mp hdisj
      (List.mem_flatMap.mpr ⟨t, List.mem_of_getElem? ht, hi⟩) (List.mem_flatMap.mpr ⟨r, hr, hi'⟩)
  · exact absurd (List.mem_map.mpr ⟨r, hr, hidx⟩) (hs.balanced.recorded_of_held hheld)
  · rw [hdone]
    nofun

/-- Once its task has recorded it. -/
theorem NotGivenAway.of_recorded (hs : Accounts s) {j i : ℕ} {t : Delivery}
    (h : RecordedFor s.app.issued t.processId i) : NotGivenAway s j t i := by
  obtain ⟨r, hr, hidx, hpid⟩ := h
  have hrec : i ∈ s.ledger.recorded := List.mem_map.mpr ⟨r, hr, hidx⟩
  obtain ⟨hfree, hnext⟩ := hs.owned_unfree (Or.inr hrec)
  refine ⟨hfree, hnext, fun j' t' ht' hi' => ?_, fun r' hr' hi' => ?_, fun r' hr' hidx' => ?_,
    fun _ => ⟨r, hr, hidx, hpid⟩⟩
  · exact absurd hrec (hs.balanced.recorded_of_held (held_of_delivery ht' hi'))
  · exact absurd hrec (hs.balanced.recorded_of_held (held_of_redemption hr' hi'))
  · have hnodup : (s.app.issued.recordList.map (·.statusListIndex)).Nodup :=
      Multiset.coe_nodup.mp hs.balanced.recorded_nodup
    rw [List.inj_on_of_nodup_map hnodup hr' hr (hidx'.trans hidx.symm)]
    exact hpid

theorem AllKept.indexesKept (hs : Accounts s) (hk : AllKept s) : IndexesKept s := by
  intro j t call i ht hcall haccepted hi
  rcases (hk t (List.mem_of_getElem? ht)).2 call hcall haccepted with
    ⟨minted, hphase, hindexes⟩ | ⟨records, hphase, hindexes⟩ | hall
  · rw [hindexes] at hi
    exact .of_held hs ht (by rw [hphase]; exact hi) (by rw [hphase]; rfl)
  · rw [hindexes] at hi
    exact .of_held hs ht (by rw [hphase]; exact hi) (by rw [hphase]; rfl)
  · exact .of_recorded hs (hall i hi)

/-- An answered post stays on its task's list, and keeps its answer. -/
theorem accepted_post_kept (h : Reachable (issuer service start) s) {G : StepSystem.Guard _ _}
    (hss : Steps (issuer service start) G s s') {j : ℕ} {t : Delivery} {call : StorageCall}
    (ht : s.deliveries[j]? = some t) (hcall : call ∈ t.posts) (hacc : call.isAccepted) :
    ∃ t', s'.deliveries[j]? = some t' ∧ t'.processId = t.processId ∧ call ∈ t'.posts := by
  refine hss.mono (R := fun _ s₁ => ∃ t', s₁.deliveries[j]? = some t' ∧
    t'.processId = t.processId ∧ call ∈ t'.posts) h ⟨t, ht, rfl, hcall⟩ ?_
  rintro s₁ a s₂ - - hstep ⟨t₁, ht₁, hpid, hcall₁⟩
  have hlt := (List.getElem?_eq_some_iff.mp ht₁).1
  rcases delivery_at hstep ht₁ with hsame | ⟨event, x, -, hd, -, hout⟩ |
    ⟨status, x, -, hd, hanswer⟩
  · exact ⟨t₁, hsame, hpid, hcall₁⟩
  · refine ⟨x, by rw [hd, List.getElem?_set_self hlt], ?_, ?_⟩
    · exact (deliveryStep_move hout).2.1.trans hpid
    · exact deliveryStep_posts hout hcall₁
  · refine ⟨x, by rw [hd, List.getElem?_set_self hlt], ?_, ?_⟩
    · obtain ⟨head, earlier, -, -, rfl⟩ := Delivery.answer_eq_some hanswer
      exact hpid
    · obtain ⟨head, earlier, hposts, hnone, rfl⟩ := Delivery.answer_eq_some hanswer
      rw [hposts] at hcall₁
      rcases List.mem_cons.mp hcall₁ with rfl | hcall₁
      · rw [StorageCall.isAccepted, hnone] at hacc
        cases hacc
      · exact List.mem_cons_of_mem _ hcall₁

end

/-- **When no 2xx answer is lost, no index of an accepted credential is given
away**: in every state of a run of such steps, and from then on. -/
theorem accepted_index_kept {s : IssuerSys} (h : ReachableBy (issuer service start) Heard s) :
    IndexesKept s ∧
      ∀ (s' : IssuerSys) (j : ℕ) (t : Delivery) (call : StorageCall) (i : ℕ),
        Steps (issuer service start) Heard s s' → s.deliveries[j]? = some t → call ∈ t.posts →
          call.isAccepted → i ∈ call.indexes →
            ∃ t', s'.deliveries[j]? = some t' ∧ t'.processId = t.processId ∧
              NotGivenAway s' j t' i := by
  have kept : ∀ {s₁ : IssuerSys}, ReachableBy (issuer service start) Heard s₁ →
      IndexesKept s₁ :=
    fun h₁ => (allKept_of_reachableBy h₁).indexesKept (accounts_of_reachable h₁.reachable)
  refine ⟨kept h, fun s' j t call i hss ht hcall hacc hi => ?_⟩
  obtain ⟨t', ht', hpid, hcall'⟩ := accepted_post_kept h.reachable hss ht hcall hacc
  exact ⟨t', ht', hpid, kept (h.trans hss) j t' call i ht' hcall' hacc hi⟩

/-- A delivery in which the answer comes and is heard. -/
theorem accepted_index_kept_sample :
    ∃ s, ReachableBy (issuer (sampleIssuer .auto) 0) Heard s ∧
      s.deliveries.map (fun t => t.posts.map (fun call => (call.isAccepted, call.indexes))) =
        [[(true, [0])]] ∧
      RecordedFor s.app.issued "p1" 0 := by
  obtain ⟨s, hr, hp⟩ := StepSystem.exists_reachableBy_of_run
    (M := issuer (sampleIssuer .auto) 0) (g := heard)
    ((sampleRequest "p1" "acme" 10 :: sampleDelivery 0 "c1" "j1" 11))
    (p := fun s => s.deliveries.map (fun t => (t.processId, t.phase.isDone,
      t.posts.map (fun call => (call.isAccepted, call.indexes)))) = [("p1", true, [(true, [0])])])
    (by decide +kernel)
  obtain ⟨t, hd, hfields⟩ := List.map_eq_singleton_iff.mp (of_decide_eq_true hp)
  obtain ⟨hpid, hrest⟩ := Prod.mk.inj hfields
  obtain ⟨hdone, hposts⟩ := Prod.mk.inj hrest
  obtain ⟨call, hone, hcall⟩ := List.map_eq_singleton_iff.mp hposts
  obtain ⟨hacc, hindexes⟩ := Prod.mk.inj hcall
  refine ⟨s, hr, ?_, ?_⟩
  · rw [hd, List.map_singleton, hposts]
  · rw [← hpid]
    exact ((accepted_index_kept hr).1 0 t call 0 (by rw [hd]; rfl)
      (by rw [hone]; exact List.mem_singleton_self _) hacc
      (by rw [hindexes]; exact List.mem_singleton_self _)).revocable hdone

/-- The Storage API answers 200 and the answer is lost; the index goes to the
next delivery, whose record then carries it. -/
def acceptedButLost : List (IssuerAction reference) :=
  [sampleRequest "p1" "acme" 10, sampleRequest "p2" "unused" 11] ++
    (samplePosting 0 "c1" "j1" 12 ++
      [.storageAnswers 0 200, .delivery 0 (.lose "operation timed out"), .delivery 0 .release,
        .delivery 0 (.finish 13)]) ++
      sampleDelivery 1 "c2" "j2" 14

/-- **One lost answer gives an index away.** -/
theorem lost_answer_gives_index_away :
    ¬ ∀ s, Reachable (issuer (sampleIssuer .auto) 0) s → IndexesKept s := by
  intro hall
  obtain ⟨s, hr, hp⟩ := StepSystem.exists_reachable_of_run
    (M := issuer (sampleIssuer .auto) 0) acceptedButLost
    (p := fun s =>
      (s.deliveries[0]?).map (fun t => (t.processId, t.phase.isDone,
        t.posts.map (fun call => (call.isAccepted, call.indexes)))) =
          some ("p1", true, [(true, [0])]) ∧
      s.app.issued.recordList.map (fun r => (r.issuanceProcessId, r.statusListIndex)) =
        [("p2", 0)])
    (by decide +kernel)
  obtain ⟨hd, hrecords⟩ := of_decide_eq_true hp
  obtain ⟨t, ht, hfields⟩ := Option.map_eq_some_iff.mp hd
  obtain ⟨hpid, hrest⟩ := Prod.mk.inj hfields
  obtain ⟨hdone, hposts⟩ := Prod.mk.inj hrest
  obtain ⟨call, hone, hcall⟩ := List.map_eq_singleton_iff.mp hposts
  obtain ⟨hacc, hindexes⟩ := Prod.mk.inj hcall
  have hkept := hall s hr 0 t call 0 ht (by rw [hone]; exact List.mem_singleton_self _) hacc
    (by rw [hindexes]; exact List.mem_singleton_self _)
  obtain ⟨r, hlist, hr'⟩ := List.map_eq_singleton_iff.mp hrecords
  obtain ⟨hrpid, hridx⟩ := Prod.mk.inj hr'
  have hsame := hkept.record r (by rw [hlist]; exact List.mem_singleton_self _) hridx
  rw [hrpid, hpid] at hsame
  exact absurd hsame (by decide)

end IdentityHub
