import IdentityHub.Issuer.HolderKey

/-!
# What a holder's key folds

A key spells its identifier another way and no more: the characters stay where they are
and change at most the case of an ASCII letter, and folding a key again changes nothing.
Two identifiers of one key are the same, or two `did:web` identifiers that are spelled
alike segment by segment.
-/

namespace IdentityHub

open DidWeb (didWebPrefix)
open Text (isHexDigit)

/-- The same character, or an ASCII letter in the other case. -/
def CaseAlike (c d : Char) : Prop :=
  c = d ∨ (c.isAlpha = true ∧ d.isAlpha = true ∧ c.toLower = d.toLower)

/-- Two texts that differ only in the case of ASCII letters. -/
def SameButCase (a b : String) : Prop := List.Forall₂ CaseAlike a.toList b.toList

theorem CaseAlike.refl (c : Char) : CaseAlike c c := Or.inl rfl

theorem CaseAlike.toLower (c : Char) : CaseAlike c c.toLower := by
  by_cases hc : c.isAlpha = true
  · exact Or.inr ⟨hc, by simpa using hc, by simp⟩
  · have hupper : ¬ c.isUpper = true := fun h => hc (by simp [Char.isAlpha, h])
    exact Or.inl (Char.toLower_eq_of_not_isUpper hupper).symm

theorem CaseAlike.toUpper (c : Char) : CaseAlike c c.toUpper := by
  by_cases hc : c.isAlpha = true
  · exact Or.inr ⟨hc, by simpa using hc, by simp⟩
  · have hlower : ¬ c.isLower = true := fun h => hc (by simp [Char.isAlpha, h])
    exact Or.inl (Char.toUpper_eq_of_not_isLower hlower).symm

theorem CaseAlike.of_toLower {c d : Char} (h : c.toLower = d.toLower) : CaseAlike c d := by
  have halpha : c.isAlpha = d.isAlpha := by
    rw [← Char.isAlpha_toLower_eq_isAlpha c, h, Char.isAlpha_toLower_eq_isAlpha]
  by_cases hc : c.isAlpha = true
  · exact Or.inr ⟨hc, halpha ▸ hc, h⟩
  · exact Or.inl ((eq_of_toLower_eq rfl (by simpa using hc)).trans
      (h.trans (eq_of_toLower_eq rfl (by simpa [← halpha] using hc)).symm))

/-- An ASCII letter takes one byte. -/
theorem utf8Size_of_isAlpha {c : Char} (h : c.isAlpha = true) : c.utf8Size = 1 := by
  rw [Char.utf8Size_eq_one_iff, UInt32.le_iff_toNat_le]
  simp only [Char.isAlpha, Char.isUpper, Char.isLower, Bool.or_eq_true, Bool.and_eq_true,
    decide_eq_true_eq, ge_iff_le, UInt32.le_iff_toNat_le] at h
  have hZ : 'Z'.val.toNat = 90 := rfl
  have hz : 'z'.val.toNat = 122 := rfl
  have hmax : (127 : UInt32).toNat = 127 := rfl
  omega

theorem CaseAlike.utf8Size_eq {c d : Char} (h : CaseAlike c d) : c.utf8Size = d.utf8Size := by
  rcases h with rfl | ⟨hc, hd, -⟩
  · rfl
  · rw [utf8Size_of_isAlpha hc, utf8Size_of_isAlpha hd]

theorem SameButCase.utf8ByteSize_eq {a b : String} (h : SameButCase a b) :
    a.utf8ByteSize = b.utf8ByteSize := by
  have hlen : ∀ {s t : List Char}, List.Forall₂ CaseAlike s t →
      String.utf8Len s = String.utf8Len t := by
    intro s t hst
    induction hst with
    | nil => rfl
    | cons hcd _ ih => rw [String.utf8Len, String.utf8Len, ih, hcd.utf8Size_eq]
  rw [← String.ofList_toList (s := a), ← String.ofList_toList (s := b),
    String.utf8ByteSize_ofList, String.utf8ByteSize_ofList, hlen h]

/-! ## Segment by segment -/

theorem forall₂_caseAlike_refl (s : List Char) : List.Forall₂ CaseAlike s s :=
  List.forall₂_same.mpr (fun c _ => .refl c)

theorem uppercaseEscapes_sameButCase (s : List Char) :
    List.Forall₂ CaseAlike s (uppercaseEscapes s) := by
  fun_induction uppercaseEscapes s with
  | case1 => exact .nil
  | case2 a => exact forall₂_caseAlike_refl _
  | case3 a b => exact forall₂_caseAlike_refl _
  | case4 p a b rest h ih =>
      obtain ⟨rfl, -, -⟩ := h
      exact .cons (.refl _) (.cons (.toUpper a) (.cons (.toUpper b) ih))
  | case5 p a b rest h ih => exact .cons (.refl p) ih

theorem foldHost_sameButCase (h : List Char) : List.Forall₂ CaseAlike h (foldHost h) := by
  unfold foldHost
  split
  · rw [List.forall₂_map_right_iff]
    exact List.forall₂_same.mpr (fun c _ => .toLower c)
  · exact forall₂_caseAlike_refl h

theorem hostKey_sameButCase (s : List Char) : List.Forall₂ CaseAlike s (hostKey s) := by
  rw [hostKey_eq]
  conv_lhs => rw [← splitAtPercent_append s]
  exact List.rel_append (foldHost_sameButCase _) (uppercaseEscapes_sameButCase _)

theorem keySegments_sameButCase (ss : List (List Char)) :
    List.Forall₂ (List.Forall₂ CaseAlike) ss (keySegments ss) := by
  cases ss with
  | nil => exact .nil
  | cons host path =>
      refine .cons (hostKey_sameButCase host) ?_
      rw [List.forall₂_map_right_iff]
      exact List.forall₂_same.mpr (fun s _ => uppercaseEscapes_sameButCase s)

theorem forall₂_intercalate {sep : List Char} {ss ts : List (List Char)}
    (h : List.Forall₂ (List.Forall₂ CaseAlike) ss ts) :
    List.Forall₂ CaseAlike (sep.intercalate ss) (sep.intercalate ts) := by
  induction h with
  | nil => exact .nil
  | @cons s t ss ts hst hrest ih =>
      cases hrest with
      | nil => simpa [List.intercalate] using hst
      | @cons s' t' ss ts hst' hrest =>
          rw [List.intercalate, List.intercalate] at ih ⊢
          rw [List.intersperse_cons_cons, List.intersperse_cons_cons, List.flatten_cons,
            List.flatten_cons, List.flatten_cons, List.flatten_cons]
          exact List.rel_append hst (List.rel_append (forall₂_caseAlike_refl sep) ih)

/-- **A key differs from its identifier only in the case of letters.** -/
theorem holderKey_sameButCase (did : String) : SameButCase did (holderKey did) := by
  unfold SameButCase
  cases hsegments : DidWeb.segments did with
  | none =>
      rw [holderKey_of_not_didWeb hsegments]
      exact forall₂_caseAlike_refl _
  | some ss =>
      obtain ⟨rest, hrest, rfl⟩ := Option.map_eq_some_iff.mp hsegments
      rw [holderKey_of_segments hsegments, Text.stripPrefix_eq_some.mp hrest]
      refine List.rel_append (forall₂_caseAlike_refl _) ?_
      have hjoined : [':'].intercalate (rest.splitOn ':') = rest := List.intercalate_splitOn ':'
      conv_lhs => rw [← hjoined]
      exact forall₂_intercalate (keySegments_sameButCase _)

/-! ## Folding again -/

theorem uppercaseEscapes_idem (s : List Char) :
    uppercaseEscapes (uppercaseEscapes s) = uppercaseEscapes s := by
  induction hn : s.length using Nat.strong_induction_on generalizing s with
  | _ n ih =>
    by_cases hs : StartsEscape s
    · obtain ⟨a, b, t, rfl, ha, hb⟩ := startsEscape_iff.mp hs
      rw [uppercaseEscapes_escape ha hb,
        uppercaseEscapes_escape (isHexDigit_toUpper ha) (isHexDigit_toUpper hb),
        Char.toUpper_toUpper_eq_toUpper, Char.toUpper_toUpper_eq_toUpper,
        ih t.length (by simp only [List.length_cons] at hn; omega) t rfl]
    · cases s with
      | nil => rfl
      | cons c s =>
          have hagain := (startsEscape_uppercaseEscapes (c :: s)).not.mpr hs
          rw [uppercaseEscapes_char hs] at hagain ⊢
          rw [uppercaseEscapes_char hagain,
            ih s.length (by simp only [List.length_cons] at hn; omega) s rfl]

theorem foldHost_idem (h : List Char) : foldHost (foldHost h) = foldHost h := by
  by_cases hplain : h.all isHostChar = true
  · have hlower : foldHost h = h.map Char.toLower := if_pos hplain
    have hplain' : (h.map Char.toLower).all isHostChar = true := by
      rw [List.all_eq_true] at hplain ⊢
      intro c hc
      obtain ⟨d, hd, rfl⟩ := List.mem_map.mp hc
      exact isHostChar_toLower (hplain d hd)
    rw [hlower, foldHost, if_pos hplain', List.map_map]
    exact List.map_congr_left (fun c _ => Char.toLower_toLower_eq_toLower c)
  · have hsame : foldHost h = h := if_neg hplain
    rw [hsame, hsame]

/-- The key of a first segment is cut at its first `%` where the segment is. -/
theorem splitAtPercent_hostKey (s : List Char) :
    splitAtPercent (hostKey s) =
      (foldHost (splitAtPercent s).1, uppercaseEscapes (splitAtPercent s).2) := by
  have hcut := append_cut_unique (percent_notMem_host (hostKey s))
    (percent_notMem_foldHost (percent_notMem_host s)) (head?_tail (hostKey s))
    (head?_uppercaseEscapes_tail s) ((splitAtPercent_append _).trans (hostKey_eq s))
  exact Prod.ext hcut.1 hcut.2

theorem hostKey_idem (s : List Char) : hostKey (hostKey s) = hostKey s := by
  rw [hostKey_eq (hostKey s), splitAtPercent_hostKey, foldHost_idem, uppercaseEscapes_idem,
    ← hostKey_eq]

theorem keySegments_idem (ss : List (List Char)) :
    keySegments (keySegments ss) = keySegments ss := by
  cases ss with
  | nil => rfl
  | cons host path =>
      rw [keySegments, keySegments, hostKey_idem, List.map_map]
      exact congrArg _ (List.map_congr_left (fun s _ => uppercaseEscapes_idem s))

/-- **Folding a key changes nothing.** -/
theorem holderKey_idem (did : String) : holderKey (holderKey did) = holderKey did := by
  cases hsegments : DidWeb.segments did with
  | none => rw [holderKey_of_not_didWeb hsegments, holderKey_of_not_didWeb hsegments]
  | some ss =>
      apply String.toList_injective
      rw [holderKey_of_segments (segments_holderKey hsegments), keySegments_idem,
        holderKey_of_segments hsegments]

/-! ## Which identifiers are one holder -/

/-- Two identifiers whose segments are as many and differ only in the case of letters
before the first `%` of the first one, or of hex digits of well-formed escapes. -/
def SegmentSpelling (a b : String) : Prop :=
  ∃ s ss t ts, DidWeb.segments a = some (s :: ss) ∧ DidWeb.segments b = some (t :: ts) ∧
    ss.length = ts.length ∧
    List.Forall₂ CaseAlike (splitAtPercent s).1 (splitAtPercent t).1 ∧
    EscapeAlike (splitAtPercent s).2 (splitAtPercent t).2 ∧ List.Forall₂ EscapeAlike ss ts

theorem SpelledAlike.segmentSpelling {a b : String} (h : SpelledAlike a b) (hne : a ≠ b) :
    SegmentSpelling a b := by
  obtain ⟨ss, ts, ha, hb, halike⟩ := h.resolve_left hne
  cases halike with
  | nil =>
      obtain ⟨rest, -, hrest⟩ := Option.map_eq_some_iff.mp ha
      exact absurd hrest (List.splitOn_ne_nil _ _)
  | @cons s t ss ts hhost hpath =>
      refine ⟨s, ss, t, ts, ha, hb, hpath.length_eq, ?_, hhost.2, hpath⟩
      rcases hhost.1 with heq | ⟨-, -, hlower⟩
      · rw [heq]
        exact forall₂_caseAlike_refl _
      · rw [← List.forall₂_eq_eq_eq, List.forall₂_map_left_iff, List.forall₂_map_right_iff]
          at hlower
        exact hlower.imp (fun _ _ => CaseAlike.of_toLower)

/-- **A key folds only spelling.** -/
theorem holderKey_folds_spelling :
    (∀ did, holderKey (holderKey did) = holderKey did) ∧
      (∀ did, (holderKey did).utf8ByteSize = did.utf8ByteSize ∧ SameButCase did (holderKey did)) ∧
      ∀ a b, holderKey a = holderKey b → a = b ∨ SegmentSpelling a b := by
  refine ⟨holderKey_idem, fun did => ?_, fun a b h => ?_⟩
  · have hsame := holderKey_sameButCase did
    exact ⟨hsame.utf8ByteSize_eq.symm, hsame⟩
  · by_cases hne : a = b
    · exact Or.inl hne
    · exact Or.inr ((holderKey_eq_iff.mp h).segmentSpelling hne)

end IdentityHub
