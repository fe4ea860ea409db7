import IdentityHub.Hub.Replay
import IdentityHub.Hub.Trust

/-!
# The age of a snapshot that is used

Calls of `trust_list`, one after another: they share a lock, which a call holds while
it fetches. A call reads the clock once, before it fetches, and judges by that reading
even when the answers took long. So the snapshot it returns is the newest one that was to be
had (`Young`), but it may have expired by then: it has not exactly when no
snapshot the call may use runs out while it waits (`NoneRunsOut`).
-/

namespace IdentityHub

open Json (Value)

variable {X : HubExternal}

/-- The snapshot an event puts into the cache. -/
def trustWritten : HubEvent X → Option (CachedTrustList X)
  | ⟨HubOp.writeTrustCache cached, _⟩ => some cached
  | _ => none

theorem trustWritten_eq_some {e : HubEvent X} {cached : CachedTrustList X}
    (h : trustWritten e = some cached) : e.op = .writeTrustCache cached := by
  unfold trustWritten at h
  split at h
  · cases h
    rfl
  · cases h

theorem trustCache_of_respond {s s' : HubState X} {e : HubEvent X}
    (h : (hubEnvironment X).respond s e s') :
    s'.trustCache = (trustWritten e).or s.trustCache := by
  cases hwritten : trustWritten e with
  | none =>
      rw [Option.none_or]
      refine (framed_of_respond h).trustCache (fun cached hop => ?_)
      obtain ⟨op, answer⟩ := e
      cases hop
      cases hwritten
  | some cached =>
      have hop := trustWritten_eq_some hwritten
      obtain ⟨op, answer⟩ := e
      cases hop
      exact congrArg HubState.trustCache h

/-- Events that write nothing keep the cache. -/
theorem trustCache_of_replays {events : List (HubEvent X)} {s s' : HubState X}
    (h : (hubEnvironment X).Replays s events s') (hnone : ∀ e ∈ events, trustWritten e = none) :
    s'.trustCache = s.trustCache := by
  induction h with
  | nil => rfl
  | cons he _ ih =>
      have hfirst := trustCache_of_respond he
      rw [hnone _ List.mem_cons_self, Option.none_or] at hfirst
      rw [ih (fun e hmem => hnone e (List.mem_cons_of_mem _ hmem)), hfirst]

/-- A snapshot the cache holds was there before, or has been put there since. -/
theorem trustWritten_of_cached {events : List (HubEvent X)} {s s' : HubState X}
    (h : (hubEnvironment X).Replays s events s') {cached : CachedTrustList X}
    (hcached : s'.trustCache = some cached) :
    s.trustCache = some cached ∨ ∃ e ∈ events, trustWritten e = some cached := by
  refine h.origin (P := fun s => s.trustCache = some cached) (fun s e s' he hmid => ?_) hcached
  rw [trustCache_of_respond he, Option.or_eq_some_iff] at hmid
  rcases hmid with hnow | ⟨-, hbefore⟩
  · exact Or.inr hnow
  · exact Or.inl hbefore

theorem clock_of_replays {events : List (HubEvent X)} {s s' : HubState X}
    (h : (hubEnvironment X).Replays s events s') : s.clock ≤ s'.clock :=
  h.invariant (I := fun t => s.clock ≤ t.clock) le_rfl
    (fun _ _ _ hle he => le_trans hle (framed_of_respond he).clock)

/-! ## One call -/

variable (hub : Hub X) (source : TrustedIssuersRegistry)

/-- A new snapshot was put into the cache. -/
def snapshotWritten (list : X.TrustList) (now : ℕ) : HubEvent X :=
  ⟨HubOp.writeTrustCache { list := list, fetchedAt := now }, ()⟩

/-- The snapshot a call returns, from what was cached, its reading of the clock and
what happened then. -/
inductive Chosen (cached : Option (CachedTrustList X)) (now : ℕ) :
    List (HubEvent X) → X.TrustList → Prop
  | fresh {c : CachedTrustList X} : cached = some c → c.stale now = false → Chosen cached now [] c.list
  | renewed {fetch : List (HubEvent X)} {list : X.TrustList} :
      (∀ c, cached = some c → c.stale now = true) →
        (fetchTrustList hub source now).Returns fetch list →
          Chosen cached now (fetch ++ [snapshotWritten list now]) list
  | fallback {fetch : List (HubEvent X)} {c : CachedTrustList X} {e : String} :
      cached = some c → c.stale now = true →
        (fetchTrustList hub source now).Evolves fetch (.throw e) → now < X.listExp c.list →
          Chosen cached now fetch c.list

variable {hub source} {events : List (HubEvent X)} {now : ℕ}

theorem notWritten_of_fetchTrustList {q : HubProgram X String X.TrustList}
    (h : (fetchTrustList hub source now).Evolves events q) :
    ∀ e ∈ events, trustWritten e = none := by
  intro e he
  obtain ⟨before, after, rfl⟩ := List.append_of_mem he
  have hwp : (fetchTrustList hub source now).wp
      (fun _ op => ∀ cached, op ≠ HubOp.writeTrustCache cached) (fun _ _ => True) [] := by
    simp only [fetchTrustList, Program.wp_bind, Program.wp_ofExcept, Program.wp_mapError,
      Program.wp_require, wp_resolveDid, wp_send]
    simp
  have hasked := Program.wp_asked hwp h
  unfold trustWritten
  split
  · rename_i cached answer
    exact absurd rfl (hasked cached)
  · rfl

/-- What follows the decision to fetch: the answer is still awaited, or it is a new snapshot
and was put into the cache, or it is an error and `otherwise` decides. -/
theorem afterFetch_evolves {otherwise : String → HubProgram X String X.TrustList}
    {q : HubProgram X String X.TrustList}
    (h : ((fetchTrustList hub source now).attempt >>= fun fetched =>
      match fetched with
      | .ok list => do
          writeTrustCache { list := list, fetchedAt := now }
          return list
      | .error e => otherwise e : HubProgram X String X.TrustList).Evolves events q)
    (hotherwise : ∀ e after, (otherwise e).Evolves after q → after = [] ∧ q = otherwise e) :
    (∃ q', (fetchTrustList hub source now).Evolves events q' ∧ ∀ list, q ≠ .pure list) ∨
      (∃ list fetch, events = fetch ++ [snapshotWritten list now] ∧ q = .pure list ∧
        (fetchTrustList hub source now).Returns fetch list) ∨
      ∃ e, (fetchTrustList hub source now).Evolves events (.throw e) ∧ q = otherwise e := by
  rcases Program.evolves_bind h with ⟨p', hattempt, rfl⟩ | ⟨fetch, fetched, after, rfl, hattempt, h⟩
  · obtain ⟨p, hfetch, rfl⟩ := Program.evolves_attempt hattempt
    cases p with
    | pure list => exact Or.inl ⟨_, hfetch, fun list hq => nomatch hq⟩
    | throw e => exact Or.inr (Or.inr ⟨e, hfetch, rfl⟩)
    | ask op next => exact Or.inl ⟨_, hfetch, fun list hq => nomatch hq⟩
  · have hfetch := Program.returns_attempt hattempt
    cases fetched with
    | ok list =>
        cases h with
        | refl => 
            rw [List.append_nil]
            exact Or.inl ⟨_, hfetch, fun list hq => nomatch hq⟩
        | ask hrest =>
            cases hrest
            exact Or.inr (Or.inl ⟨list, fetch, rfl, rfl, hfetch⟩)
    | error e =>
        obtain ⟨rfl, hq⟩ := hotherwise e after h
        rw [List.append_nil]
        exact Or.inr (Or.inr ⟨e, hfetch, hq⟩)

/-- **One call.** It returns the snapshot it chooses, and until then has written
nothing. -/
theorem trustList_evolves {q : HubProgram X String X.TrustList}
    (h : (trustList hub source).Evolves events q) :
    ((∀ e ∈ events, trustWritten e = none) ∧ ∀ list, q ≠ .pure list) ∨
      ∃ cached now rest list, events = trustCacheRead X cached :: clockRead X now :: rest ∧
        q = .pure list ∧ Chosen hub source cached now rest list := by
  unfold trustList at h
  cases h with
  | refl => exact Or.inl ⟨fun e he => absurd he List.not_mem_nil, fun list hq => by cases hq⟩
  | @ask _ _ cached _ _ h =>
      cases h with
      | refl =>
          refine Or.inl ⟨fun e he => ?_, fun list hq => by cases hq⟩
          rw [List.mem_singleton.mp he]
          rfl
      | @ask _ _ now rest _ h =>
          have hpast : ∀ later : List (HubEvent X), (∀ e ∈ later, trustWritten e = none) →
              ∀ e ∈ trustCacheRead X cached :: clockRead X now :: later, trustWritten e = none := by
            intro later hlater e he
            rcases List.mem_cons.mp he with rfl | he
            · rfl
            · rcases List.mem_cons.mp he with rfl | he
              · rfl
              · exact hlater e he
          dsimp only [Program.bind] at h
          split at h
          · rename_i c hfresh
            obtain ⟨hcached, hstale⟩ := Option.filter_eq_some_iff.mp hfresh
            cases h
            exact Or.inr ⟨cached, now, [], c.list, rfl, rfl,
              .fresh hcached ((Bool.not_eq_true' _).mp hstale)⟩
          · rename_i hnone
            have hstale : ∀ c, cached = some c → c.stale now = true := by
              rintro c rfl
              rw [Option.filter_eq_none_iff] at hnone
              simpa using hnone c rfl
            have hsettled := afterFetch_evolves h fun e after hafter => by
              split at hafter <;> cases hafter <;> exact ⟨rfl, rfl⟩
            rcases hsettled with ⟨q', hfetch, hq⟩ | ⟨list, fetch, rfl, rfl, hfetch⟩ |
                ⟨e, hfetch, hq⟩
            · exact Or.inl ⟨hpast rest (notWritten_of_fetchTrustList hfetch), hq⟩
            · exact Or.inr ⟨cached, now, _, list, rfl, rfl, .renewed hstale hfetch⟩
            · split at hq
              · rename_i c hunexpired
                obtain ⟨hcached, hlive⟩ := Option.filter_eq_some_iff.mp hunexpired
                exact Or.inr ⟨cached, now, rest, c.list, rfl, hq,
                  .fallback hcached (hstale c hcached) hfetch (of_decide_eq_true hlive)⟩
              · refine Or.inl ⟨hpast rest (notWritten_of_fetchTrustList hfetch), fun list hlist => ?_⟩
                rw [hq] at hlist
                cases hlist

/-! ## Calls one after another -/

/-- One call: what it asked for and what came back, what is left of it (its result, or
the rest of it when it was given up), and the time by then. -/
structure TrustCall (X : HubExternal) where
  events : List (HubEvent X)
  left : HubProgram X String X.TrustList
  endedAt : ℕ

/-- A sequence of calls from an empty cache. Between two calls anything may happen except
to the cached snapshot. -/
inductive TrustRun (hub : Hub X) (source : TrustedIssuersRegistry) :
    List (TrustCall X) → HubState X → Prop
  | start {s : HubState X} : s.trustCache = none → TrustRun hub source [] s
  | idle {calls : List (TrustCall X)} {s s' : HubState X} :
      TrustRun hub source calls s → s'.trustCache = s.trustCache → s.clock ≤ s'.clock →
        TrustRun hub source calls s'
  | call {calls : List (TrustCall X)} {s s' : HubState X} (c : TrustCall X) :
      TrustRun hub source calls s → (trustList hub source).Evolves c.events c.left →
        (hubEnvironment X).Replays s c.events s' → s'.clock ≤ c.endedAt →
          TrustRun hub source (calls ++ [c]) { s' with clock := c.endedAt }

/-- The call began at `fetchedAt` and put the snapshot it fetched into the cache. -/
def TrustCall.Fetched (hub : Hub X) (source : TrustedIssuersRegistry) (c : TrustCall X)
    (list : X.TrustList) (fetchedAt : ℕ) : Prop :=
  ∃ cached fetch, c.events = trustCacheRead X cached :: clockRead X fetchedAt ::
      (fetch ++ [snapshotWritten list fetchedAt]) ∧
    (fetchTrustList hub source fetchedAt).Returns fetch list

/-- The snapshot comes from a fetch of one of the calls that was no older, when this
call read the clock, than a quarter of its lifetime; or the refresh in this call failed. -/
def Young (hub : Hub X) (source : TrustedIssuersRegistry) (calls : List (TrustCall X))
    (list : X.TrustList) (now : ℕ) (rest : List (HubEvent X)) : Prop :=
  ∃ c ∈ calls, ∃ fetchedAt, c.Fetched hub source list fetchedAt ∧ fetchedAt ≤ now ∧
    (now ≤ fetchedAt + (X.listExp list - X.listIat list) / 4 ∨
      ∃ e, (fetchTrustList hub source now).Evolves rest (.throw e))

/-- No snapshot the call may use runs out before it ends: not the cached one, when it
is fresh or the refresh fails, and not the one that is fetched. -/
structure NoneRunsOut (hub : Hub X) (source : TrustedIssuersRegistry)
    (cached : Option (CachedTrustList X)) (now : ℕ) (rest : List (HubEvent X)) (endedAt : ℕ) :
    Prop where
  kept : ∀ c, cached = some c → now < X.listExp c.list →
    (c.stale now = false ∨ ∃ e, (fetchTrustList hub source now).Evolves rest (.throw e)) →
      endedAt < X.listExp c.list
  renewed : ∀ fetch list, rest = fetch ++ [snapshotWritten list now] →
    (∀ c, cached = some c → c.stale now = true) →
      (fetchTrustList hub source now).Returns fetch list → endedAt < X.listExp list

theorem lt_exp_of_fresh {c : CachedTrustList X} (h : c.stale now = false) :
    now < X.listExp c.list :=
  (lt_of_needsRefresh_eq_false h).2

/-- A failed fetch wrote nothing. -/
theorem not_failed_of_written {fetch : List (HubEvent X)} {list : X.TrustList} {e : String} :
    ¬ (fetchTrustList hub source now).Evolves (fetch ++ [snapshotWritten list now]) (.throw e) := by
  intro h
  have hwritten := notWritten_of_fetchTrustList h (snapshotWritten list now) (by simp)
  cases hwritten

/-- **When the snapshot of a call is unexpired at its end.** -/
theorem lt_exp_iff_noneRunsOut {cached : Option (CachedTrustList X)} {rest : List (HubEvent X)}
    {list : X.TrustList} {endedAt : ℕ} (h : Chosen hub source cached now rest list) :
    endedAt < X.listExp list ↔ NoneRunsOut hub source cached now rest endedAt := by
  cases h with
  | @fresh c hcached hfresh =>
      constructor
      · intro hlive
        refine ⟨fun c' hc' _ _ => ?_, fun fetch list hrest => ?_⟩
        · rw [hcached] at hc'
          cases hc'
          exact hlive
        · exact absurd hrest.symm (by simp)
      · exact fun h => h.kept c hcached (lt_exp_of_fresh hfresh) (Or.inl hfresh)
  | @renewed fetch list hstale hfetch =>
      constructor
      · intro hlive
        refine ⟨fun c hcached _ hused => ?_, fun fetch' list' hrest _ _ => ?_⟩
        · rcases hused with hfresh | ⟨e, hfailed⟩
          · rw [hstale c hcached] at hfresh
            cases hfresh
          · exact absurd hfailed not_failed_of_written
        · obtain ⟨-, hlast⟩ := List.append_inj' hrest rfl
          cases hlast
          exact hlive
      · exact fun h => h.renewed fetch list rfl hstale hfetch
  | @fallback fetch c e hcached hstale hfailed hunexpired =>
      constructor
      · intro hlive
        refine ⟨fun c' hc' _ _ => ?_, fun fetch list hrest _ hfetched => ?_⟩
        · rw [hcached] at hc'
          cases hc'
          exact hlive
        · subst hrest
          exact absurd hfailed not_failed_of_written
      · exact fun h => h.kept c hcached hunexpired (Or.inr ⟨e, hfailed⟩)

/-- What a run knows of the cached snapshot: which call fetched it, and when. -/
def Sourced (hub : Hub X) (source : TrustedIssuersRegistry) (calls : List (TrustCall X))
    (s : HubState X) : Prop :=
  ∀ c, s.trustCache = some c →
    c.fetchedAt ≤ s.clock ∧ ∃ call ∈ calls, call.Fetched hub source c.list c.fetchedAt

/-- A call reads the cache and the clock first. -/
theorem replays_reads {cached : Option (CachedTrustList X)} {rest : List (HubEvent X)}
    {s s' : HubState X}
    (h : (hubEnvironment X).Replays s (trustCacheRead X cached :: clockRead X now :: rest) s') :
    cached = s.trustCache ∧ s.clock ≤ now ∧
      (hubEnvironment X).Replays { s with clock := now } rest s' := by
  cases h with
  | cons hread h =>
      cases h with
      | cons hclock h =>
          obtain ⟨hcached, rfl⟩ := hread
          obtain ⟨hle, rfl⟩ := hclock
          exact ⟨hcached, hle, h⟩

/-- A fetch that was written is what the cache holds afterwards. -/
theorem trustCache_of_written {fetch : List (HubEvent X)} {list : X.TrustList} {s s' : HubState X}
    (h : (hubEnvironment X).Replays s (fetch ++ [snapshotWritten list now]) s') :
    s'.trustCache = some { list := list, fetchedAt := now } := by
  obtain ⟨s₁, -, hlast⟩ := h.split
  cases hlast with
  | cons he hnil =>
      cases hnil
      exact trustCache_of_respond he

variable {calls : List (TrustCall X)} {s : HubState X}

theorem Sourced.mono {s' : HubState X} {calls' : List (TrustCall X)}
    (h : Sourced hub source calls s) (hcalls : calls ⊆ calls') (hcache : s'.trustCache = s.trustCache)
    (hclock : s.clock ≤ s'.clock) : Sourced hub source calls' s' := by
  intro c hc
  rw [hcache] at hc
  obtain ⟨hle, call, hcall, hfetched⟩ := h c hc
  exact ⟨le_trans hle hclock, call, hcalls hcall, hfetched⟩

theorem Young.mono {calls' : List (TrustCall X)} {list : X.TrustList} {rest : List (HubEvent X)}
    (h : Young hub source calls list now rest) (hcalls : calls ⊆ calls') :
    Young hub source calls' list now rest := by
  obtain ⟨c, hc, hrest⟩ := h
  exact ⟨c, hcalls hc, hrest⟩

/-- What is known of a call that returned a snapshot. -/
def Accounted (hub : Hub X) (source : TrustedIssuersRegistry) (calls : List (TrustCall X))
    (c : TrustCall X) : Prop :=
  ∀ list, c.left = .pure list → ∃ cached now rest,
    c.events = trustCacheRead X cached :: clockRead X now :: rest ∧ now ≤ c.endedAt ∧
      Chosen hub source cached now rest list ∧ Young hub source calls list now rest

theorem Accounted.mono {calls' : List (TrustCall X)} {c : TrustCall X}
    (h : Accounted hub source calls c) (hcalls : calls ⊆ calls') :
    Accounted hub source calls' c := by
  intro list hlist
  obtain ⟨cached, now, rest, hevents, hle, hchosen, hyoung⟩ := h list hlist
  exact ⟨cached, now, rest, hevents, hle, hchosen, hyoung.mono hcalls⟩

/-- One more call. -/
theorem Sourced.call {c : TrustCall X} {s' : HubState X} (h : Sourced hub source calls s)
    (hcall : (trustList hub source).Evolves c.events c.left)
    (hreplays : (hubEnvironment X).Replays s c.events s') (hended : s'.clock ≤ c.endedAt) :
    Sourced hub source (calls ++ [c]) { s' with clock := c.endedAt } ∧
      Accounted hub source (calls ++ [c]) c := by
  have hclock := le_trans (clock_of_replays hreplays) hended
  have hold : calls ⊆ calls ++ [c] := List.subset_append_left _ _
  have hself : c ∈ calls ++ [c] := by simp
  rcases trustList_evolves hcall with ⟨hnone, hleft⟩ |
      ⟨cached, now, rest, list, hevents, hleft, hchosen⟩
  · have hsame : s'.trustCache = s.trustCache := trustCache_of_replays hreplays hnone
    refine ⟨h.mono hold hsame hclock, fun list hlist => ?_⟩
    exact absurd hlist (hleft list)
  · rw [hevents] at hreplays
    obtain ⟨hcached, hnow, hrest⟩ := replays_reads hreplays
    have hlater : now ≤ c.endedAt := le_trans (clock_of_replays hrest) hended
    have hyoung : Young hub source (calls ++ [c]) list now rest →
        Accounted hub source (calls ++ [c]) c := by
      intro hyoung list' hlist'
      rw [hleft] at hlist'
      cases hlist'
      exact ⟨cached, now, rest, hevents, hlater, hchosen, hyoung⟩
    cases hchosen with
    | @fresh cachedList hcached' hfresh =>
        cases hrest
        refine ⟨h.mono hold rfl hclock, hyoung ?_⟩
        obtain ⟨hle, call, hmem, hfetched⟩ := h cachedList (hcached ▸ hcached')
        exact ⟨call, hold hmem, _, hfetched, le_trans hle hnow,
          Or.inl (Nat.le_of_lt (lt_of_needsRefresh_eq_false hfresh).1)⟩
    | @renewed fetch list hstale hfetch =>
        have hfetched : c.Fetched hub source list now := ⟨cached, fetch, hevents, hfetch⟩
        refine ⟨fun c' hc' => ?_, hyoung ⟨c, hself, now, hfetched, le_rfl, Or.inl (by omega)⟩⟩
        have hwritten : s'.trustCache = some c' := hc'
        rw [trustCache_of_written hrest] at hwritten
        cases hwritten
        exact ⟨hlater, c, hself, hfetched⟩
    | @fallback fetch cachedList e hcached' hstale hfailed hunexpired =>
        have hsame := trustCache_of_replays hrest (notWritten_of_fetchTrustList hfailed)
        refine ⟨h.mono hold hsame hclock, hyoung ?_⟩
        · obtain ⟨hle, call, hmem, hfetched⟩ := h cachedList (hcached ▸ hcached')
          exact ⟨call, hold hmem, _, hfetched, le_trans hle hnow, Or.inr ⟨e, hfailed⟩⟩

/-- **Every call of a run** is accounted for. -/
theorem accounted_of_run (h : TrustRun hub source calls s) :
    Sourced hub source calls s ∧ ∀ c ∈ calls, Accounted hub source calls c := by
  induction h with
  | start hnone =>
      refine ⟨fun c hc => ?_, fun c hc => absurd hc List.not_mem_nil⟩
      rw [hnone] at hc
      cases hc
  | idle _ hcache hclock ih => exact ⟨ih.1.mono (List.Subset.refl _) hcache hclock, ih.2⟩
  | @call calls s s' c _ hcall hreplays hended ih =>
      obtain ⟨hsourced, haccounted⟩ := ih.1.call hcall hreplays hended
      refine ⟨hsourced, fun c' hc' => ?_⟩
      rcases List.mem_append.mp hc' with hold | hnew
      · exact (ih.2 c' hold).mono (List.subset_append_left _ _)
      · rw [List.mem_singleton.mp hnew]
        exact haccounted

/-- **The snapshots that are used.** In any sequence of calls, a returned snapshot is
unexpired when the call ends exactly if no snapshot the call may use ran out while it
waited; and it is a young one. -/
theorem returned_snapshot_unexpired_iff (h : TrustRun hub source calls s) :
    ∀ c ∈ calls, ∀ list, c.left = .pure list →
      ∃ cached now rest, c.events = trustCacheRead X cached :: clockRead X now :: rest ∧
        now ≤ c.endedAt ∧
        (c.endedAt < X.listExp list ↔ NoneRunsOut hub source cached now rest c.endedAt) ∧
          Young hub source calls list now rest := by
  intro c hc list hlist
  obtain ⟨cached, now, rest, hevents, hle, hchosen, hyoung⟩ :=
    (accounted_of_run h).2 c hc list hlist
  exact ⟨cached, now, rest, hevents, hle, lt_exp_iff_noneRunsOut hchosen, hyoung⟩

/-! ### A refresh that fails too late

The registry's snapshot is valid for 100 seconds. Five seconds before its end it is to be
fetched again, and the request fails after ten. -/

def snapshotSource : TrustedIssuersRegistry where
  baseUrl := "https://registry"
  did := "did:web:registry"

def snapshotHub : Hub hubReference :=
  { sampleHub with
    outbound := { allowedHosts := ["registry"] }
    trustedIssuersRegistry := some snapshotSource }

def snapshotPayload : Value :=
  .object [("iss", .string "did:web:registry"), ("iat", .ofNat 0), ("exp", .ofNat 100),
    ("issuers", .object [])]

def snapshotToken : String := hubReference.signJws snapshotPayload "registry" "key-1"

def snapshotDocument : hubReference.DidDocument :=
  { keys := [("key-1", "registry")]
    capabilityInvocation := []
    services := [] : ReferenceDocument }

def snapshotList : hubReference.TrustList :=
  { iat := 0, exp := 100, issuers := .object [] : ReferenceTrustList }

/-- The snapshot is asked for, and the answer to that. -/
def snapshotAnswered (answer : Except String HttpResponse) : HubEvent hubReference :=
  ⟨HubOp.send (.ofUrl "https://registry/v1/snapshot"), answer⟩

def snapshotFetch : List (HubEvent hubReference) :=
  [snapshotAnswered (.ok
      { status := 200, dpopNonce := none, wwwAuthenticate := none, body := .ok snapshotToken }),
    documentFetched hubReference "https://registry/.well-known/did.json" (.ok snapshotDocument)]

theorem trim_snapshotToken : Text.trim snapshotToken = snapshotToken := by decide +kernel

theorem snapshotToken_eq :
    snapshotToken = Reference.token (Reference.header "key-1") snapshotPayload "registry" := by
  unfold snapshotToken
  exact reference_signJws "key-1" snapshotPayload "registry"

theorem snapshot_decoded :
    Reference.decodeJws snapshotToken = .ok (Reference.header "key-1", snapshotPayload) := by
  rw [snapshotToken_eq, Reference.decodeJws_token]

theorem snapshot_kid : hubReference.snapshotKid snapshotToken = .ok "key-1" := by
  have hkid : hubReference.snapshotKid = Reference.snapshotKid := rfl
  rw [hkid, Reference.snapshotKid, snapshot_decoded]
  dsimp only
  rw [Reference.header_kid]
  rfl

theorem snapshot_verified :
    hubReference.verifySnapshot snapshotToken "did:web:registry" "registry" 0 =
      .ok snapshotList := by
  have hsigned : Reference.verifyJws snapshotToken "registry" = .ok () := by
    rw [snapshotToken_eq, Reference.verifyJws_token, if_pos rfl]
  have hverify : hubReference.verifySnapshot = Reference.verifySnapshot := rfl
  rw [hverify, Reference.verifySnapshot, hsigned, snapshot_decoded]
  rfl

theorem snapshotFetch_returns :
    (fetchTrustList snapshotHub snapshotSource 0).Returns snapshotFetch snapshotList := by
  have hdid : hubReference.didWebToUrl snapshotSource.did snapshotHub.insecureHttp =
      .ok "https://registry/.well-known/did.json" := rfl
  unfold fetchTrustList
  refine .after (.ofExcept rfl) ?_
  refine .afterEvent (.ask (.refl _)) ?_
  refine .after (.require rfl) ?_
  refine .after (.ofExcept rfl) ?_
  refine .after (.ofExcept rfl) ?_
  refine .afterEvent (.mapError (resolveDid_returns hdid snapshotDocument)) ?_
  rw [trim_snapshotToken]
  refine .after (.ofExcept snapshot_kid) ?_
  refine .after (.ofExcept rfl) ?_
  exact .ofExcept snapshot_verified

/-- The first call fetches the snapshot at time 0. -/
def firstSnapshotCall : TrustCall hubReference where
  events := trustCacheRead hubReference none :: clockRead hubReference 0 ::
    (snapshotFetch ++ [snapshotWritten snapshotList 0])
  left := .pure snapshotList
  endedAt := 0

/-- The second reads the clock at 95, and the request fails at 105. -/
def lateSnapshotCall : TrustCall hubReference where
  events := [trustCacheRead hubReference (some { list := snapshotList, fetchedAt := 0 }),
    clockRead hubReference 95, snapshotAnswered (.error "operation timed out")]
  left := .pure snapshotList
  endedAt := 105

theorem firstSnapshotCall_evolves :
    (trustList snapshotHub snapshotSource).Evolves firstSnapshotCall.events
      firstSnapshotCall.left := by
  refine .ask (.ask ?_)
  have hattempt : ((fetchTrustList snapshotHub snapshotSource 0).attempt :
      HubProgram hubReference String _).Evolves snapshotFetch (.pure (.ok snapshotList)) :=
    snapshotFetch_returns.attempt
  exact hattempt.bind.trans (.ask (.refl _))

theorem lateSnapshotCall_evolves :
    (trustList snapshotHub snapshotSource).Evolves lateSnapshotCall.events
      lateSnapshotCall.left :=
  .ask (.ask (.ask (.refl _)))

theorem snapshotRun :
    ∃ s, TrustRun snapshotHub snapshotSource [firstSnapshotCall, lateSnapshotCall] s := by
  have hstart : TrustRun snapshotHub snapshotSource [] (sampleState (.empty 1)) := .start rfl
  let cached : CachedTrustList hubReference := { list := snapshotList, fetchedAt := 0 }
  have hfirst : (hubEnvironment hubReference).Replays (sampleState (.empty 1))
      firstSnapshotCall.events { sampleState (.empty 1) with trustCache := some cached } :=
    .cons ⟨rfl, rfl⟩ (.cons ⟨le_rfl, rfl⟩ (.cons rfl (.cons rfl (.cons rfl (.nil _)))))
  have hlate : (hubEnvironment hubReference).Replays
      { sampleState (.empty 1) with trustCache := some cached } lateSnapshotCall.events
      { sampleState (.empty 1) with clock := 95, trustCache := some cached } :=
    .cons ⟨rfl, rfl⟩ (.cons ⟨Nat.zero_le 95, rfl⟩ (.cons rfl (.nil _)))
  exact ⟨_, .call lateSnapshotCall
    (.call firstSnapshotCall hstart firstSnapshotCall_evolves hfirst le_rfl)
    lateSnapshotCall_evolves hlate (by decide)⟩

/-- The first of the two calls returns an unexpired snapshot. -/
theorem returned_snapshot_unexpired_iff_first :
    ∃ cached now rest, firstSnapshotCall.events =
        trustCacheRead hubReference cached :: clockRead hubReference now :: rest ∧
      now ≤ firstSnapshotCall.endedAt ∧
      (firstSnapshotCall.endedAt < hubReference.listExp snapshotList ↔
        NoneRunsOut snapshotHub snapshotSource cached now rest firstSnapshotCall.endedAt) ∧
      Young snapshotHub snapshotSource [firstSnapshotCall, lateSnapshotCall] snapshotList now
        rest := by
  obtain ⟨s, hrun⟩ := snapshotRun
  exact returned_snapshot_unexpired_iff hrun firstSnapshotCall List.mem_cons_self snapshotList rfl

theorem reference_verifySnapshot_current {token did : String} {key : hubReference.VerifyingKey}
    {n : ℕ} {list : hubReference.TrustList}
    (h : hubReference.verifySnapshot token did key n = .ok list) : n < hubReference.listExp list := by
  have hverify : hubReference.verifySnapshot = Reference.verifySnapshot := rfl
  rw [hverify] at h
  unfold Reference.verifySnapshot at h
  obtain ⟨_, -, h⟩ := Except.bind_eq_ok.mp h
  obtain ⟨⟨_, payload⟩, -, h⟩ := Except.bind_eq_ok.mp h
  dsimp only at h
  split at h
  · split at h
    · rename_i hcurrent
      cases h
      exact hcurrent.2
    · cases h
  · cases h

/-- A snapshot that expired at 100 is returned at 105: nothing keeps the calls from that. -/
theorem expired_snapshot_returned :
    ¬ ∀ (X : HubExternal) (hub : Hub X) (source : TrustedIssuersRegistry)
      (calls : List (TrustCall X)) (s : HubState X),
      (∀ token did key n list, X.verifySnapshot token did key n = .ok list →
        n < X.listExp list) →
      TrustRun hub source calls s →
        ∀ c ∈ calls, ∀ list, c.left = .pure list → c.endedAt < X.listExp list := by
  intro hclaim
  obtain ⟨s, hrun⟩ := snapshotRun
  have hlate := hclaim hubReference snapshotHub snapshotSource _ s
    (fun _ _ _ _ _ => reference_verifySnapshot_current) hrun lateSnapshotCall (by simp)
    snapshotList rfl
  exact absurd hlate (by decide)

end IdentityHub
