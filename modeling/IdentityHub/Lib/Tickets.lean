import Mathlib.Algebra.Order.Group.Multiset

/-!
# Tickets with a lifetime

Tickets are issued under keys that never repeat, live for a fixed time and are
redeemed at most once. A keeper holds the live ones; it may lose a ticket at any
moment (it expired, or had to make room) but must neither invent one nor hold on
to one that was redeemed.

`Sound.step` says that this is all it takes: whatever is live was issued, with
the content and the time it was issued with, and was not redeemed before.
-/

/-- What was issued (key, time, content), what is live (expiry, content) and
what was redeemed, up to a moment. -/
structure Tickets (κ ν : Type*) where
  issued : Multiset (κ × ℕ × ν)
  live : κ → Option (ℕ × ν)
  redeemed : Multiset κ
  clock : ℕ

namespace Tickets

variable {κ ν : Type*}

def keys (T : Tickets κ ν) : Multiset κ := T.issued.map Prod.fst

/-- What can happen to tickets that live for `ttl`. -/
inductive Step (ttl : ℕ) (T : Tickets κ ν) : Tickets κ ν → Prop
  | lapse (live' : κ → Option (ℕ × ν)) (now : ℕ) :
      T.clock ≤ now → (∀ k e, live' k = some e → T.live k = some e) →
        Step ttl T { T with live := live', clock := now }
  | issue (key : κ) (content : ν) (live' : κ → Option (ℕ × ν)) (now : ℕ) :
      T.clock ≤ now → key ∉ T.keys →
        (∀ k e, live' k = some e → (k = key ∧ e = (now + ttl, content)) ∨ T.live k = some e) →
          Step ttl T
            { T with issued := {(key, now, content)} + T.issued, live := live', clock := now }
  | redeem (key : κ) (entry : ℕ × ν) (live' : κ → Option (ℕ × ν)) (now : ℕ) :
      T.clock ≤ now → T.live key = some entry → live' key = none →
        (∀ k e, live' k = some e → T.live k = some e) →
          Step ttl T { T with live := live', redeemed := {key} + T.redeemed, clock := now }

/-- Every live ticket was issued and not redeemed, and no key was issued or
redeemed twice. -/
structure Sound (ttl : ℕ) (T : Tickets κ ν) : Prop where
  live_issued : ∀ k exp v, T.live k = some (exp, v) → ∃ m, (k, m, v) ∈ T.issued ∧ exp = m + ttl
  live_unredeemed : ∀ k e, T.live k = some e → k ∉ T.redeemed
  keys_nodup : T.keys.Nodup
  redeemed_nodup : T.redeemed.Nodup
  redeemed_issued : ∀ k ∈ T.redeemed, k ∈ T.keys
  issued_before : ∀ x ∈ T.issued, x.2.1 ≤ T.clock

variable {ttl : ℕ} {T T' : Tickets κ ν}

theorem mem_keys_of_issued {k : κ} {m : ℕ} {v : ν} (h : (k, m, v) ∈ T.issued) : k ∈ T.keys :=
  Multiset.mem_map_of_mem Prod.fst h

theorem sound_init (clock : ℕ) : Sound ttl (⟨0, fun _ => none, 0, clock⟩ : Tickets κ ν) where
  live_issued _ _ _ h := nomatch h
  live_unredeemed _ _ h := nomatch h
  keys_nodup := Multiset.nodup_zero
  redeemed_nodup := Multiset.nodup_zero
  redeemed_issued _ h := absurd h (Multiset.notMem_zero _)
  issued_before _ h := absurd h (Multiset.notMem_zero _)

/-- **Every step keeps the books right.** -/
theorem Sound.step (h : T.Sound ttl) (hs : Step ttl T T') : T'.Sound ttl := by
  obtain ⟨hissued, hunredeemed, hkeys, hredeemed, hsub, hbefore⟩ := h
  cases hs with
  | lapse live' now hclock hlive =>
      exact
        { live_issued := fun k exp v hk => hissued k exp v (hlive k _ hk)
          live_unredeemed := fun k e hk => hunredeemed k e (hlive k e hk)
          keys_nodup := hkeys
          redeemed_nodup := hredeemed
          redeemed_issued := hsub
          issued_before := fun x hx => (hbefore x hx).trans hclock }
  | issue key content live' now hclock hfresh hlive =>
      have hkeys' : ({(key, now, content)} + T.issued).map Prod.fst = {key} + T.keys := by
        rw [Multiset.map_add, Multiset.map_singleton, keys]
      refine ⟨fun k exp v hk => ?_, fun k e hk => ?_, ?_, hredeemed, fun k hk => ?_,
        fun x hx => ?_⟩
      · rcases hlive k _ hk with ⟨rfl, he⟩ | hold
        · cases he
          exact ⟨now, Multiset.mem_add.mpr (Or.inl (Multiset.mem_singleton_self _)), rfl⟩
        · obtain ⟨m, hm, hexp⟩ := hissued k exp v hold
          exact ⟨m, Multiset.mem_add.mpr (Or.inr hm), hexp⟩
      · rcases hlive k e hk with ⟨rfl, -⟩ | hold
        · exact fun hr => hfresh (hsub _ hr)
        · exact hunredeemed k e hold
      · show (Multiset.map Prod.fst _).Nodup
        rw [hkeys', Multiset.singleton_add]
        exact Multiset.nodup_cons.mpr ⟨hfresh, hkeys⟩
      · show k ∈ Multiset.map Prod.fst _
        rw [hkeys']
        exact Multiset.mem_add.mpr (Or.inr (hsub k hk))
      · rcases Multiset.mem_add.mp hx with hnew | hold
        · rw [Multiset.mem_singleton.mp hnew]
        · exact (hbefore x hold).trans hclock
  | redeem key entry live' now hclock hkey hgone hlive =>
      refine ⟨fun k exp v hk => hissued k exp v (hlive k _ hk), fun k e hk hr => ?_, hkeys, ?_,
        fun k hk => ?_, fun x hx => (hbefore x hx).trans hclock⟩
      · rcases Multiset.mem_add.mp hr with hnew | hold
        · rw [Multiset.mem_singleton.mp hnew] at hk
          exact nomatch hgone.symm.trans hk
        · exact hunredeemed k e (hlive k e hk) hold
      · show ({key} + T.redeemed).Nodup
        rw [Multiset.singleton_add]
        exact Multiset.nodup_cons.mpr ⟨hunredeemed key entry hkey, hredeemed⟩
      · rcases Multiset.mem_add.mp hk with hnew | hold
        · obtain ⟨exp, v⟩ := entry
          obtain ⟨m, hm, -⟩ := hissued key exp v hkey
          rw [Multiset.mem_singleton.mp hnew]
          exact mem_keys_of_issued hm
        · exact hsub k hold

/-- A live ticket, presented before it expires, is younger than `ttl`. -/
theorem Sound.age (h : T.Sound ttl) {k : κ} {exp : ℕ} {v : ν} {now : ℕ}
    (hlive : T.live k = some (exp, v)) (hclock : T.clock ≤ now) (hnow : now < exp) :
    ∃ m, (k, m, v) ∈ T.issued ∧ m ≤ now ∧ now < m + ttl := by
  obtain ⟨m, hm, rfl⟩ := h.live_issued k exp v hlive
  exact ⟨m, hm, (h.issued_before _ hm).trans hclock, hnow⟩

end Tickets
