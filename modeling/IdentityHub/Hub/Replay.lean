import IdentityHub.Hub.Auth
import IdentityHub.Hub.Reference
import IdentityHub.Hub.State

/-!
# Replay of tokens

Calls of `verify_bearer_token` that share one cache of `jti` values, in any
interleaving. A call that is accepted has put its token's `jti` into the cache
and found it new. So a token that carries a `jti` is accepted a second time only
after the cache has evicted that `jti`, which takes as many other accepted tokens
as the cache has places.
-/

namespace IdentityHub

open Json (Value)

variable {X : HubExternal}

/-- What an event offers to the cache. -/
def jtiOffer : HubEvent X → Option (String × Bool)
  | ⟨HubOp.rememberJti jti, new⟩ => some (jti, new)
  | _ => none

theorem eq_jtiOffered {e : HubEvent X} {jti : String} {new : Bool}
    (h : jtiOffer e = some (jti, new)) : e = jtiOffered X jti new := by
  unfold jtiOffer at h
  split at h
  · cases h
    rfl
  · cases h

theorem seenJti_of_respond {s s' : HubState X} {e : HubEvent X}
    (h : (hubEnvironment X).respond s e s') (hnone : jtiOffer e = none) :
    s'.seenJti = s.seenJti := by
  refine (framed_of_respond h).seenJti ?_
  rintro jti new rfl
  cases hnone

/-- The cache only sees the offers. -/
theorem replay_offers {events : List (HubEvent X)} {s s' : HubState X}
    (h : (hubEnvironment X).Replays s events s') :
    s.seenJti.replay (events.filterMap jtiOffer) = some s'.seenJti := by
  induction h with
  | nil => rfl
  | @cons s s₁ s' e events he _ ih =>
      cases hoffer : jtiOffer e with
      | none =>
          rw [List.filterMap_cons_none hoffer, ← seenJti_of_respond he hoffer]
          exact ih
      | some offer =>
          obtain ⟨jti, new⟩ := offer
          have heq := eq_jtiOffered hoffer
          subst heq
          have hinsert : s.seenJti.insert jti = (new, s₁.seenJti) := he.1
          rw [List.filterMap_cons_some hoffer, RecentSet.replay, hinsert, if_pos rfl]
          exact ih

/-! ## One call -/

variable {hub : Hub X} {authorizationHeader : Option String}
  {events : List (HubEvent X)}

/-- The checks before the `jti` offer nothing to the cache. -/
theorem notOffered_of_checkBearerToken {before after : List (HubEvent X)}
    {e : HubEvent X} {q : HubProgram X AuthError Value}
    (h : (checkBearerToken hub authorizationHeader).Evolves (before ++ e :: after) q) :
    jtiOffer e = none := by
  have hasked := Program.wp_asked (checkBearerToken_wp authorizationHeader) h
  unfold jtiOffer
  split
  · exact absurd hasked id
  · rfl

/-- The end of a call: nothing is offered and the call is not over unless the
token has no `jti`, or its `jti` was offered and decides. -/
theorem checkReplay_evolves {payload : Value} {q : HubProgram X AuthError Value}
    (h : (checkReplay payload >>= fun _ => pure payload).Evolves events q) :
    (events = [] ∧ ∀ a, q = .pure a → a = payload ∧ payload.getStr "jti" = none) ∨
      ∃ jti new, payload.getStr "jti" = some jti ∧ events = [jtiOffered X jti new] ∧
        q = if new = true then .pure payload else .throw .tokenReplayed := by
  unfold checkReplay at h
  cases hjti : payload.getStr "jti" with
  | none =>
      rw [hjti] at h
      cases h
      refine Or.inl ⟨rfl, fun a ha => ⟨?_, rfl⟩⟩
      cases ha
      rfl
  | some jti =>
      rw [hjti] at h
      cases h with
      | refl => exact Or.inl ⟨rfl, fun _ ha => nomatch ha⟩
      | @ask _ _ new _ _ hrest =>
          refine Or.inr ⟨jti, new, rfl, ?_⟩
          cases new with
          | false =>
              cases hrest
              exact ⟨rfl, rfl⟩
          | true =>
              cases hrest
              exact ⟨rfl, rfl⟩

/-- A `jti` a call finds new is the one of the token it was given, and the call
is accepted with it. -/
theorem accepted_of_jtiOffered {before after : List (HubEvent X)} {jti : String}
    {q : HubProgram X AuthError Value}
    (h : (verifyBearerToken hub authorizationHeader).Evolves
      (before ++ jtiOffered X jti true :: after) q) :
    ∃ payload, payload.getStr "jti" = some jti ∧ q = .pure payload := by
  have hoffer : jtiOffer (jtiOffered X jti true) = some (jti, true) := rfl
  rcases Program.evolves_bind h with ⟨p', hp, -⟩ | ⟨checks, payload, rest, hevents, hp, hrest⟩
  · rw [notOffered_of_checkBearerToken hp] at hoffer
    cases hoffer
  · rcases List.append_eq_append_iff.mp hevents with ⟨c, rfl, hc⟩ | ⟨c, rfl, rfl⟩
    · cases c with
      | nil =>
          rw [List.nil_append] at hc
          subst hc
          rcases checkReplay_evolves hrest with ⟨hnil, -⟩ | ⟨jti', new, hjti, hevent, hq⟩
          · cases hnil
          · cases hevent
            exact ⟨payload, hjti, hq⟩
      | cons e c =>
          obtain ⟨rfl, -⟩ := List.cons_eq_cons.mp hc
          rw [notOffered_of_checkBearerToken hp] at hoffer
          cases hoffer
    · rcases checkReplay_evolves hrest with ⟨hnil, -⟩ | ⟨jti', new, hjti, hevent, hq⟩
      · simp at hnil
      · cases c with
        | nil =>
            cases hevent
            exact ⟨payload, hjti, hq⟩
        | cons e c => simp at hevent

/-- An accepted call ends by finding its token's `jti` new, where there is one. -/
theorem jtiOffered_of_accepted {payload : Value} {jti : String}
    (h : (verifyBearerToken hub authorizationHeader).Returns events payload)
    (hjti : payload.getStr "jti" = some jti) :
    ∃ before, events = before ++ [jtiOffered X jti true] := by
  obtain ⟨checks, payload', rest, rfl, -, hrest⟩ := Program.returns_bind h
  rcases checkReplay_evolves hrest with ⟨-, hnone⟩ | ⟨jti', new, hjti', rfl, hq⟩
  · obtain ⟨rfl, hjti'⟩ := hnone payload rfl
    rw [hjti] at hjti'
    cases hjti'
  · cases new with
    | false => cases hq
    | true =>
        cases hq
        rw [hjti] at hjti'
        cases hjti'
        exact ⟨checks, rfl⟩

/-- What is known of the token of an accepted call. -/
theorem tokenChecked_of_accepted {payload : Value}
    (h : (verifyBearerToken hub authorizationHeader).Returns events payload) :
    ∃ checks token header doc, checks <+: events ∧
      TokenChecked hub authorizationHeader checks token header payload doc := by
  obtain ⟨checks, payload', rest, rfl, hchecks, hrest⟩ := Program.returns_bind h
  obtain ⟨token, header, doc, hchecked⟩ :=
    Program.wp_returns (checkBearerToken_wp authorizationHeader) hchecks
  have heq : payload = payload' := by
    rcases checkReplay_evolves hrest with ⟨-, hnone⟩ | ⟨jti', new, -, -, hq⟩
    · exact (hnone payload rfl).1
    · cases new with
      | false => cases hq
      | true =>
          cases hq
          rfl
  subst heq
  exact ⟨checks, token, header, doc, List.prefix_append _ _, hchecked⟩

/-! ## Many calls -/

variable {ι : Type} [DecidableEq ι] {start : HubState X} {headers : ι → Option String}

/-- Interleaved calls, each with its own `Authorization` header. -/
abbrev AuthRun (hub : Hub X) (start : HubState X) (headers : ι → Option String) :=
  Interleaving (hubEnvironment X) start (fun i => verifyBearerToken hub (headers i))

/-- The call `i` presented `token` and was accepted with its claims. -/
def Accepted (run : AuthRun hub start headers) (i : ι) (token : String) (claims : Value) : Prop :=
  bearerOf (headers i) = .ok token ∧ run.thread i = .pure claims

/-- Between the acceptance of call `i` and that of the later call `j`, whose token
carries the same `jti`, calls were accepted whose tokens carry the values `others`. -/
def AcceptedBetween (run : AuthRun hub start headers) (i j : ι) (jti : String)
    (others : List String) : Prop :=
  ∃ pre mid post,
    run.log = pre ++ ((i, jtiOffered X jti true) :: mid ++ [(j, jtiOffered X jti true)]) ++ post ∧
      ∀ other ∈ others, ∃ k claims, (k, jtiOffered X other true) ∈ mid ∧
        run.thread k = .pure claims ∧ claims.getStr "jti" = some other

theorem Accepted.returns {run : AuthRun hub start headers} {i : ι} {token : String}
    {claims : Value} (h : Accepted run i token claims) :
    (verifyBearerToken hub (headers i)).Returns (eventsOf i run.log) claims := by
  have hevolves := run.evolves i
  rwa [h.2] at hevolves

/-- The claims of an accepted token are its payload. -/
theorem Accepted.decoded {run : AuthRun hub start headers} {i : ι} {token : String}
    {claims : Value} (h : Accepted run i token claims) :
    ∃ header, X.decodeJwsUnverified token = .ok (header, claims) := by
  obtain ⟨checks, token', header, doc, -, hchecked⟩ := tokenChecked_of_accepted h.returns
  have hpresented := hchecked.presented
  rw [h.1] at hpresented
  cases hpresented
  exact ⟨header, hchecked.decoded⟩

/-- Where an accepted call put its token's `jti` into the cache. -/
theorem Accepted.place {run : AuthRun hub start headers} {i : ι} {token : String}
    {claims : Value} (h : Accepted run i token claims) {jti : String}
    (hjti : claims.getStr "jti" = some jti) :
    ∃ pre post, run.log = pre ++ (i, jtiOffered X jti true) :: post := by
  obtain ⟨before, hbefore⟩ := jtiOffered_of_accepted h.returns hjti
  obtain ⟨pre, post, hlog, -⟩ := eventsOf_split hbefore
  exact ⟨pre, post, hlog⟩

/-- What was recorded in a part of the log was recorded by accepted calls. -/
theorem accepted_of_recorded {run : AuthRun hub start headers} {part : List (ι × HubEvent X)}
    (hpart : ∀ entry ∈ part, entry ∈ run.log) {other : String}
    (h : other ∈ RecentSet.recorded ((part.map Prod.snd).filterMap jtiOffer)) :
    ∃ k claims, (k, jtiOffered X other true) ∈ part ∧ run.thread k = .pure claims ∧
      claims.getStr "jti" = some other := by
  obtain ⟨⟨other', new⟩, hmem, rfl⟩ := List.mem_map.mp h
  obtain ⟨hmem, hnew⟩ := List.mem_filter.mp hmem
  obtain ⟨e, he, hoffer⟩ := List.mem_filterMap.mp hmem
  obtain ⟨⟨k, e'⟩, hentry, rfl⟩ := List.mem_map.mp he
  have hnew : new = true := hnew
  subst hnew
  have heq := eq_jtiOffered hoffer
  dsimp only at heq
  subst heq
  obtain ⟨before, after, hsplit⟩ :=
    List.append_of_mem (mem_eventsOf.mpr (hpart _ hentry))
  have hevolves := run.evolves k
  rw [hsplit] at hevolves
  obtain ⟨claims, hjti, hthread⟩ := accepted_of_jtiOffered hevolves
  exact ⟨k, claims, hentry, hthread, hjti⟩

theorem acceptedBetween_of_places (run : AuthRun hub start headers) {i j : ι} {jti : String}
    {pre mid post : List (ι × HubEvent X)}
    (hlog : run.log =
      pre ++ ((i, jtiOffered X jti true) :: mid ++ [(j, jtiOffered X jti true)]) ++ post) :
    ∃ others, others.length = start.seenJti.capacity ∧ others.Nodup ∧ jti ∉ others ∧
      AcceptedBetween run i j jti others := by
  have hreplay := replay_offers run.replays
  rw [hlog, List.map_append, List.filterMap_append, List.map_append, List.filterMap_append]
    at hreplay
  obtain ⟨s₂, hreplay, -⟩ := RecentSet.replay_append hreplay
  obtain ⟨s₁, hpre, hmid⟩ := RecentSet.replay_append hreplay
  have hoffers : (((i, jtiOffered X jti true) :: mid ++ [(j, jtiOffered X jti true)]).map
      Prod.snd).filterMap jtiOffer =
        (jti, true) :: (mid.map Prod.snd).filterMap jtiOffer ++ [(jti, true)] := by
    rw [List.map_append, List.filterMap_append]
    rfl
  rw [hoffers] at hmid
  obtain ⟨others, hsub, hlength, hnodup, hnotMem⟩ := RecentSet.evicted_after_capacity hmid
  refine ⟨others, hlength.trans (RecentSet.capacity_replay hpre), hnodup, hnotMem,
    pre, mid, post, hlog, fun other hother => ?_⟩
  refine accepted_of_recorded (fun entry hentry => ?_) (hsub.subset hother)
  rw [hlog]
  simp [hentry]

/-- **A token is remembered for as long as the cache has places.** When two calls
are accepted with one token and it carries a `jti`, then between them as many calls
were accepted as the cache has places, with `jti` values that differ from each
other and from that one. -/
theorem replayed_token_was_evicted (run : AuthRun hub start headers) {i j : ι} (hij : i ≠ j)
    {token jti : String} {claims claims' : Value} (hi : Accepted run i token claims)
    (hj : Accepted run j token claims') (hjti : claims.getStr "jti" = some jti) :
    ∃ others, others.length = start.seenJti.capacity ∧ others.Nodup ∧ jti ∉ others ∧
      (AcceptedBetween run i j jti others ∨ AcceptedBetween run j i jti others) := by
  have hsame : claims' = claims := by
    obtain ⟨header, hdecoded⟩ := hi.decoded
    obtain ⟨header', hdecoded'⟩ := hj.decoded
    rw [hdecoded] at hdecoded'
    cases hdecoded'
    rfl
  subst hsame
  obtain ⟨pre, post, hplace⟩ := hi.place hjti
  obtain ⟨pre', post', hplace'⟩ := hj.place hjti
  have hne : (i, jtiOffered X jti true) ≠ (j, jtiOffered X jti true) :=
    fun h => hij (congrArg Prod.fst h)
  rcases split_at_two hplace hplace' hne with ⟨pre, mid, post, hlog⟩ | ⟨pre, mid, post, hlog⟩
  · obtain ⟨others, hlength, hnodup, hnotMem, hbetween⟩ := acceptedBetween_of_places run hlog
    exact ⟨others, hlength, hnodup, hnotMem, Or.inl hbetween⟩
  · obtain ⟨others, hlength, hnodup, hnotMem, hbetween⟩ := acceptedBetween_of_places run hlog
    exact ⟨others, hlength, hnodup, hnotMem, Or.inr hbetween⟩

/-! ### A run in which tokens are accepted again

One caller, whose document is always the same, presents tokens of the token
service's age: some carry a `jti`, some do not. -/

def sampleCaller : String := "did:web:caller"

def sampleHub : Hub hubReference where
  identity := { ownDid := "did:web:hub", ownKeyId := "did:web:hub#key-1", signingKey := "hub" }
  stsParty := { ownDid := "did:web:sts", ownKeyId := "did:web:sts#key-1", signingKey := "sts" }
  insecureHttp := false
  outbound := { allowedHosts := ["caller"] }
  trustedIssuerDids := []
  knownHolderPids := []
  trustedIssuersRegistry := none
  scopeType := some

def sampleDocument : hubReference.DidDocument :=
  { keys := [("key-1", "caller")]
    capabilityInvocation := ["key-1"]
    services := [] : ReferenceDocument }

def samplePayload (jti : Option String) : Value :=
  .object
    ([("iss", .string sampleCaller), ("sub", .string sampleCaller),
      ("aud", .string "did:web:hub"), ("exp", .ofNat 300)] ++
      jti.toList.map (fun j => ("jti", .string j)))

def sampleToken (jti : Option String) : String :=
  hubReference.signJws (samplePayload jti) "caller" "key-1"

def sampleHeader (jti : Option String) : String := "Bearer " ++ sampleToken jti

def sampleState (cache : SeenJtiCache) : HubState hubReference where
  clock := 0
  seenJti := cache
  trustCache := none
  store := []

/-- What happens in a call with such a token. -/
def sampleEvents (jti : Option String) : List (HubEvent hubReference) :=
  [documentFetched hubReference "https://caller/.well-known/did.json" (.ok sampleDocument),
    clockRead hubReference 0] ++ jti.toList.map (fun j => jtiOffered hubReference j true)

theorem sample_presented (jti : Option String) :
    bearerOf (some (sampleHeader jti)) = .ok (sampleToken jti) := by
  have hstrip : Text.stripPrefix "Bearer ".toList (sampleHeader jti).toList =
      some (sampleToken jti).toList := by
    rw [Text.stripPrefix_eq_some, sampleHeader, String.toList_append]
  rw [bearerOf, Option.bind_some, hstrip]
  simp

theorem sample_jti (jti : Option String) : (samplePayload jti).getStr "jti" = jti := by
  cases jti <;> rfl

theorem sample_returns (jti : Option String) :
    (verifyBearerToken sampleHub (some (sampleHeader jti))).Returns (sampleEvents jti)
      (samplePayload jti) := by
  have hdecoded : hubReference.decodeJwsUnverified (sampleToken jti) =
      .ok (Reference.header "key-1", samplePayload jti) :=
    reference_decode_sign (samplePayload jti) "key-1" "caller"
  have hsignature : hubReference.verifyJwsSignature (sampleToken jti) "caller" = .ok () :=
    reference_verify_sign (samplePayload jti) "key-1" "caller"
  have hnbf : (samplePayload jti).getU64 "nbf" = none := by cases jti <;> rfl
  have hiat : (samplePayload jti).getU64 "iat" = none := by cases jti <;> rfl
  have hchecks : (checkBearerToken sampleHub (some (sampleHeader jti))).Returns
      [documentFetched hubReference "https://caller/.well-known/did.json" (.ok sampleDocument),
        clockRead hubReference 0] (samplePayload jti) :=
    checkBearerToken_returns (sample_presented jti) hdecoded rfl (Reference.header_kid _) rfl rfl
      rfl hsignature (List.mem_singleton.mpr rfl) rfl rfl rfl (by decide) hnbf hiat
  have hreturns := verifyBearerToken_returns hchecks
  rw [sample_jti] at hreturns
  exact hreturns

/-- The headers of calls made with tokens carrying `jtis`. -/
def sampleHeaders (jtis : List (Option String)) (i : ℕ) : Option String :=
  (jtis[i]?).map sampleHeader

theorem replays_sampleEvents (jti : Option String) {cache cache' : SeenJtiCache}
    (h : cache.replay (jti.toList.map (fun j => (j, true))) = some cache') :
    (hubEnvironment hubReference).Replays (sampleState cache) (sampleEvents jti)
      (sampleState cache') := by
  unfold sampleEvents
  refine .cons (respond_documentFetched _ _ _) (.cons (respond_clockRead _ (Nat.zero_le 0)) ?_)
  cases jti with
  | none =>
      cases h
      exact .nil _
  | some j =>
      rw [Option.toList_some, List.map_singleton, RecentSet.replay] at h
      split at h
      · rename_i hnew
        cases h
        exact .cons (respond_jtiOffered _ hnew) (.nil _)
      · cases h

theorem replays_flatMap_sampleEvents : ∀ {jtis : List (Option String)} {cache cache' : SeenJtiCache},
    cache.replay ((jtis.filterMap id).map (fun j => (j, true))) = some cache' →
      (hubEnvironment hubReference).Replays (sampleState cache) (jtis.flatMap sampleEvents)
        (sampleState cache')
  | [], cache, cache', h => by
      cases h
      exact .nil _
  | jti :: jtis, cache, cache', h => by
      have hsplit : (((jti :: jtis).filterMap id).map (fun j => (j, true))) =
          jti.toList.map (fun j => (j, true)) ++ (jtis.filterMap id).map (fun j => (j, true)) := by
        cases jti <;> rfl
      rw [hsplit] at h
      obtain ⟨cache₁, hfirst, hrest⟩ := RecentSet.replay_append h
      rw [List.flatMap_cons]
      exact (replays_sampleEvents jti hfirst).append (replays_flatMap_sampleEvents hrest)

theorem flatMap_range_getElem? {α β : Type*} (f : α → List β) :
    ∀ xs : List α, (List.range xs.length).flatMap (fun i => (xs[i]?.map f).getD []) = xs.flatMap f
  | [] => rfl
  | x :: xs => by
      rw [List.length_cons, List.range_succ_eq_map, List.flatMap_cons, List.flatMap_map,
        List.flatMap_cons, ← flatMap_range_getElem? f xs]
      rfl

/-- How each of the calls ends; the others never get a header. -/
def sampleThread (jtis : List (Option String)) (i : ℕ) : HubProgram hubReference AuthError Value :=
  match jtis[i]? with
  | some jti => .pure (samplePayload jti)
  | none => verifyBearerToken sampleHub none

/-- The calls made one after another, all accepted. -/
def sampleRun (jtis : List (Option String)) {cache cache' : SeenJtiCache}
    (h : cache.replay ((jtis.filterMap id).map (fun j => (j, true))) = some cache') :
    AuthRun sampleHub (sampleState cache) (sampleHeaders jtis) where
  log := (List.range jtis.length).flatMap
    (fun i => ((jtis[i]?.map sampleEvents).getD []).map (Prod.mk i))
  thread := sampleThread jtis
  evolves i := by
    rw [eventsOf_flatMap _ _ List.nodup_range, sampleHeaders, sampleThread]
    cases hi : jtis[i]? with
    | none =>
        simp
        exact .refl _
    | some jti =>
        have hmem : i ∈ List.range jtis.length :=
          List.mem_range.mpr (List.getElem?_eq_some_iff.mp hi).1
        rw [if_pos hmem]
        exact sample_returns jti
  final := sampleState cache'
  replays := by
    rw [List.map_flatMap]
    simp only [List.map_map, Function.comp_def, List.map_id']
    rw [flatMap_range_getElem?]
    exact replays_flatMap_sampleEvents h

theorem sampleRun_accepted {jtis : List (Option String)} {cache cache' : SeenJtiCache}
    (h : cache.replay ((jtis.filterMap id).map (fun j => (j, true))) = some cache') {i : ℕ}
    {jti : Option String} (hi : jtis[i]? = some jti) :
    Accepted (sampleRun jtis h) i (sampleToken jti) (samplePayload jti) := by
  refine ⟨?_, ?_⟩
  · rw [sampleHeaders, hi]
    exact sample_presented jti
  · show sampleThread jtis i = _
    rw [sampleThread, hi]

/-- A `jti` of `i` letters. -/
def sampleJti (i : ℕ) : String := String.ofList (List.replicate i 'j')

theorem sampleJti_injective : Function.Injective sampleJti := by
  intro i j h
  have hlength := congrArg (fun s => s.toList.length) h
  simpa [sampleJti] using hlength

/-- Tokens with the `jti` values `0` to `n`, and the first once more. -/
def sampleJtis (n : ℕ) : List (Option String) :=
  ((sampleJti 0 :: (List.range n).map (fun i => sampleJti (i + 1))) ++ [sampleJti 0]).map some

theorem sampleJtis_replay (n : ℕ) :
    ∃ cache', (RecentSet.empty n : SeenJtiCache).replay
      (((sampleJtis n).filterMap id).map (fun j => (j, true))) = some cache' := by
  have hnodup : (sampleJti 0 :: (List.range n).map (fun i => sampleJti (i + 1))).Nodup := by
    rw [List.nodup_cons]
    constructor
    · rw [List.mem_map]
      rintro ⟨i, -, hi⟩
      exact absurd (sampleJti_injective hi) (Nat.succ_ne_zero i)
    · exact List.nodup_range.map (fun i j h => Nat.succ_injective (sampleJti_injective h))
  have hcycle := RecentSet.replay_cycle hnodup
  rw [List.length_map, List.length_range] at hcycle
  simpa [sampleJtis, List.filterMap_map] using hcycle

/-- With a cache of one place, one other token is enough. -/
theorem replayed_sample_was_evicted :
    ∃ run : AuthRun sampleHub (sampleState (.empty 1)) (sampleHeaders (sampleJtis 1)),
      ∃ others : List String, others.length = 1 ∧ others.Nodup ∧ sampleJti 0 ∉ others ∧
        (AcceptedBetween run 0 2 (sampleJti 0) others ∨
          AcceptedBetween run 2 0 (sampleJti 0) others) := by
  obtain ⟨cache', hreplay⟩ := sampleJtis_replay 1
  have hfirst : (sampleJtis 1)[0]? = some (some (sampleJti 0)) := rfl
  have hagain : (sampleJtis 1)[2]? = some (some (sampleJti 0)) := rfl
  exact ⟨sampleRun (sampleJtis 1) hreplay,
    replayed_token_was_evicted (sampleRun (sampleJtis 1) hreplay) (by decide)
      (sampleRun_accepted hreplay hfirst) (sampleRun_accepted hreplay hagain) (sample_jti _)⟩

/-- An unexpired token is accepted twice: when it carries no `jti`, and when it
does and as many other tokens as the cache has places came in between. -/
theorem token_accepted_twice :
    (∃ (run : AuthRun sampleHub (sampleState (.empty maxSeenJti))
        (sampleHeaders [none, none])) (token : String) (claims : Value),
      Accepted run 0 token claims ∧ Accepted run 1 token claims ∧
        claims.getU64 "exp" = some 300 ∧ run.final.clock < 300) ∧
    ∃ (run : AuthRun sampleHub (sampleState (.empty maxSeenJti))
        (sampleHeaders (sampleJtis maxSeenJti))) (token : String) (claims : Value),
      Accepted run 0 token claims ∧ Accepted run (maxSeenJti + 1) token claims ∧
        (claims.getStr "jti").isSome ∧ claims.getU64 "exp" = some 300 ∧ run.final.clock < 300 := by
  constructor
  · have hreplay : (RecentSet.empty maxSeenJti : SeenJtiCache).replay
        ((([none, none] : List (Option String)).filterMap id).map (fun j => (j, true))) =
          some (.empty maxSeenJti) := rfl
    exact ⟨sampleRun [none, none] hreplay, sampleToken none, samplePayload none,
      sampleRun_accepted hreplay rfl, sampleRun_accepted hreplay rfl, rfl, Nat.succ_pos 299⟩
  · obtain ⟨cache', hreplay⟩ := sampleJtis_replay maxSeenJti
    have hfirst : (sampleJtis maxSeenJti)[0]? = some (some (sampleJti 0)) := by
      simp [sampleJtis]
    have hlast : (sampleJtis maxSeenJti)[maxSeenJti + 1]? = some (some (sampleJti 0)) := by
      simp [sampleJtis]
    exact ⟨sampleRun (sampleJtis maxSeenJti) hreplay, sampleToken (some (sampleJti 0)),
      samplePayload (some (sampleJti 0)), sampleRun_accepted hreplay hfirst,
      sampleRun_accepted hreplay hlast, rfl, rfl, Nat.succ_pos 299⟩

/-! ### The cache as a window

What the cache remembers, and what a call does to it: whatever calls and other
requests are interleaved with it, a step of a call changes the cache only where
the token it was given is accepted. -/

/-- A step of a call that changes the cache records the `jti` of its token, and
the call is accepted. -/
theorem accepted_of_seenJti_changed {before after : List (HubEvent X)} {e : HubEvent X}
    {q : HubProgram X AuthError Value} {s s' : HubState X}
    (h : (verifyBearerToken hub authorizationHeader).Evolves (before ++ e :: after) q)
    (hstep : (hubEnvironment X).respond s e s') (hchanged : s'.seenJti ≠ s.seenJti) :
    ∃ claims jti, q = .pure claims ∧ claims.getStr "jti" = some jti ∧
      s.seenJti.insert jti = (true, s'.seenJti) := by
  cases hoffer : jtiOffer e with
  | none => exact absurd (seenJti_of_respond hstep hoffer) hchanged
  | some offer =>
      obtain ⟨jti, new⟩ := offer
      have heq := eq_jtiOffered hoffer
      subst heq
      have hinsert : s.seenJti.insert jti = (new, s'.seenJti) := hstep.1
      cases new with
      | false =>
          -- a `jti` found there leaves the cache as it is
          have hmem : jti ∈ s.seenJti.order := by
            by_contra hnotMem
            have hnew := RecentSet.insert_new_iff.mpr hnotMem
            rw [hinsert] at hnew
            cases hnew
          rw [RecentSet.insert_of_mem hmem] at hinsert
          exact absurd (congrArg Prod.snd hinsert).symm hchanged
      | true =>
          obtain ⟨claims, hjti, hq⟩ := accepted_of_jtiOffered h
          exact ⟨claims, jti, hq, hjti, hinsert⟩

/-- **The cache of seen tokens is an exact sliding window**, and a call changes it
only by recording the `jti` of a token it accepts. -/
theorem seenJti_is_window :
    (∀ (capacity : ℕ) (jtis : List String) (jti : String),
      ((((RecentSet.empty capacity).insertAll jtis).insert jti).1 = false ↔
        jti ∈ ((RecentSet.empty capacity).accepted jtis).rtake capacity) ∧
      ((RecentSet.empty capacity).insertAll jtis).seen =
        ((RecentSet.empty capacity).insertAll jtis).order.toFinset ∧
      ((RecentSet.empty capacity).insertAll jtis).order.Nodup ∧
      ((RecentSet.empty capacity).insertAll jtis).order.length ≤ capacity) ∧
    ∀ (X : HubExternal) (hub : Hub X) (authorizationHeader : Option String)
      (before after : List (HubEvent X)) (e : HubEvent X) (q : HubProgram X AuthError Value)
      (s s' : HubState X),
      (verifyBearerToken hub authorizationHeader).Evolves (before ++ e :: after) q →
        (hubEnvironment X).respond s e s' → s'.seenJti ≠ s.seenJti →
          ∃ claims jti, q = .pure claims ∧ claims.getStr "jti" = some jti ∧
            s.seenJti.insert jti = (true, s'.seenJti) := by
  refine ⟨fun capacity jtis jti => ?_, ?_⟩
  · have hbounded := ((RecentSet.empty capacity).insertAll jtis).bounded
    rw [RecentSet.capacity_insertAll] at hbounded
    exact ⟨RecentSet.insert_insertAll_iff, RecentSet.agree _, RecentSet.nodup _, hbounded⟩
  · intro X hub authorizationHeader before after e q s s' h hstep hchanged
    exact accepted_of_seenJti_changed h hstep hchanged

/-- The first token with a `jti` is recorded. -/
theorem sample_is_recorded :
    ∃ claims jti, (.pure (samplePayload (some "j")) : HubProgram hubReference AuthError Value) =
      .pure claims ∧ claims.getStr "jti" = some jti ∧
        (RecentSet.empty 1).insert jti = (true, ((RecentSet.empty 1).insert "j").2) := by
  have hnew : ((RecentSet.empty 1).insert "j").1 = true := by decide
  have hchanged : ((RecentSet.empty 1).insert "j").2 ≠ (RecentSet.empty 1 : SeenJtiCache) := by
    intro heq
    exact absurd (congrArg RecentSet.order heq) (by decide)
  exact seenJti_is_window.2 hubReference sampleHub (some (sampleHeader (some "j")))
    [documentFetched hubReference "https://caller/.well-known/did.json" (.ok sampleDocument),
      clockRead hubReference 0] [] (jtiOffered hubReference "j" true) _
    (sampleState (.empty 1)) (sampleState ((RecentSet.empty 1).insert "j").2)
    (sample_returns (some "j")) (respond_jtiOffered _ hnew) hchanged

end IdentityHub
