import IdentityHub.Lib.DidWeb
import Mathlib

/-!
# The spelling a holder's DID is indexed by

`holderKey` folds the spellings of a `did:web` identifier that differ only in
the letter case of the host or in the hex digits of `%xx` escapes; other
methods are indexed as they are. The result of this file is which spellings it
folds, said without the function: `holderKey_eq_iff` reduces equality of keys
to `SpelledAlike`, a relation on identifiers built from `EscapeAlike` (escape
by escape) and `HostAlike` (the first segment).
-/

namespace IdentityHub

open DidWeb (didWebPrefix)
open Text (isHexDigit stripPrefix)

/-! ## The key -/

/-- Uppercase the two hex digits of every `%xx` escape. The two characters
after a `%` are an escape exactly when both are ASCII hex digits, which is what
the byte range `1..3` of the rest of the string tests. -/
def uppercaseEscapes : List Char → List Char
  | [] => []
  | [a] => [a]
  | [a, b] => [a, b]
  | p :: a :: b :: rest =>
      if p = '%' ∧ isHexDigit a ∧ isHexDigit b then
        '%' :: a.toUpper :: b.toUpper :: uppercaseEscapes rest
      else p :: uppercaseEscapes (a :: b :: rest)

/-- The ASCII letters, digits, `.` and `-`. -/
def isHostChar (c : Char) : Bool := c.isAlphanum || c == '.' || c == '-'

/-- The part of a segment before its first `%`, and the rest. -/
def splitAtPercent (segment : List Char) : List Char × List Char :=
  segment.span (· != '%')

/-- The first segment: the host is lower-cased when it is plain. -/
def hostKey (segment : List Char) : List Char :=
  if (splitAtPercent segment).1.all isHostChar then
    uppercaseEscapes
      ((splitAtPercent segment).1.map Char.toLower ++ (splitAtPercent segment).2)
  else uppercaseEscapes segment

def keySegments : List (List Char) → List (List Char)
  | [] => []
  | host :: path => hostKey host :: path.map uppercaseEscapes

def holderKey (did : String) : String :=
  match stripPrefix didWebPrefix did.toList with
  | none => did
  | some rest =>
      String.ofList (didWebPrefix ++ [':'].intercalate (keySegments (rest.splitOn ':')))

example : holderKey "did:web:Acme.EXAMPLE%3a443:Users:Bob" =
    "did:web:acme.example%3A443:Users:Bob" := by decide

/-! ## Spelled alike, escape by escape -/

/-- The list starts with a well-formed escape. -/
def StartsEscape : List Char → Prop
  | p :: a :: b :: _ => p = '%' ∧ isHexDigit a ∧ isHexDigit b
  | _ => False

/-- Two texts that differ only in the letter case of the hex digits of their
well-formed escapes. -/
inductive EscapeAlike : List Char → List Char → Prop
  | nil : EscapeAlike [] []
  | char (c : Char) {s t : List Char} :
      ¬ StartsEscape (c :: s) → ¬ StartsEscape (c :: t) → EscapeAlike s t →
        EscapeAlike (c :: s) (c :: t)
  | escape {a b a' b' : Char} {s t : List Char} :
      isHexDigit a → isHexDigit b → isHexDigit a' → isHexDigit b' →
        a.toUpper = a'.toUpper → b.toUpper = b'.toUpper → EscapeAlike s t →
          EscapeAlike ('%' :: a :: b :: s) ('%' :: a' :: b' :: t)

theorem uppercaseEscapes_escape {a b : Char} {s : List Char} (ha : isHexDigit a)
    (hb : isHexDigit b) :
    uppercaseEscapes ('%' :: a :: b :: s) =
      '%' :: a.toUpper :: b.toUpper :: uppercaseEscapes s := by
  rw [uppercaseEscapes, if_pos ⟨rfl, ha, hb⟩]

theorem uppercaseEscapes_char {c : Char} {s : List Char} (h : ¬ StartsEscape (c :: s)) :
    uppercaseEscapes (c :: s) = c :: uppercaseEscapes s := by
  match s with
  | [] => rfl
  | [_] => rfl
  | a :: b :: s =>
      have h' : ¬ (c = '%' ∧ isHexDigit a ∧ isHexDigit b) := h
      rw [uppercaseEscapes, if_neg h']

theorem startsEscape_iff {s : List Char} :
    StartsEscape s ↔ ∃ a b t, s = '%' :: a :: b :: t ∧ isHexDigit a ∧ isHexDigit b := by
  match s with
  | [] => simp [StartsEscape]
  | [_] => simp [StartsEscape]
  | [_, _] => simp [StartsEscape]
  | p :: a :: b :: t =>
      constructor
      · rintro ⟨rfl, ha, hb⟩
        exact ⟨a, b, t, rfl, ha, hb⟩
      · rintro ⟨a', b', t', h, ha, hb⟩
        cases h
        exact ⟨rfl, ha, hb⟩

theorem isHexDigit_toUpper {c : Char} (h : isHexDigit c) : isHexDigit c.toUpper := by
  have hex : ∀ n : Fin 128, isHexDigit (Char.ofNat n) → isHexDigit (Char.ofNat n).toUpper := by
    decide
  have hc : c.toNat < 128 := by
    simp only [isHexDigit, Char.isDigit, Bool.or_eq_true, Bool.and_eq_true,
      decide_eq_true_eq, Char.le_def, UInt32.le_iff_toNat_le] at h
    have h1 : c.toNat = c.val.toNat := rfl
    have h2 : 'f'.val.toNat = 102 := rfl
    have h3 : 'F'.val.toNat = 70 := rfl
    have h4 : '9'.val.toNat = 57 := rfl
    omega
  have := hex ⟨c.toNat, hc⟩
  rw [Char.ofNat_toNat] at this
  exact this h

theorem not_isHexDigit_percent : ¬ isHexDigit '%' := by decide

theorem head?_uppercaseEscapes (s : List Char) : (uppercaseEscapes s).head? = s.head? := by
  cases s with
  | nil => rfl
  | cons c s =>
      by_cases h : StartsEscape (c :: s)
      · obtain ⟨a, b, t, hs, ha, hb⟩ := startsEscape_iff.mp h
        rw [hs, uppercaseEscapes_escape ha hb]
        rfl
      · rw [uppercaseEscapes_char h]
        rfl

/-- A hex digit at the head is not the start of an escape, so it is copied. -/
theorem uppercaseEscapes_eq_hex_cons {s t : List Char} {a : Char} (ha : isHexDigit a)
    (h : uppercaseEscapes s = a :: t) : ∃ s', s = a :: s' ∧ uppercaseEscapes s' = t := by
  have hhead : s.head? = some a := by rw [← head?_uppercaseEscapes, h]; rfl
  obtain ⟨s', rfl⟩ := List.head?_eq_some_iff.mp hhead
  have hne : ¬ StartsEscape (a :: s') := by
    rw [startsEscape_iff]
    rintro ⟨_, _, _, hs, -, -⟩
    cases hs
    exact not_isHexDigit_percent ha
  rw [uppercaseEscapes_char hne, List.cons.injEq] at h
  exact ⟨s', rfl, h.2⟩

/-- Folding neither makes nor breaks an escape at the head. -/
theorem startsEscape_uppercaseEscapes (s : List Char) :
    StartsEscape (uppercaseEscapes s) ↔ StartsEscape s := by
  constructor
  · intro h
    obtain ⟨a, b, t, hs, ha, hb⟩ := startsEscape_iff.mp h
    have hhead : s.head? = some '%' := by rw [← head?_uppercaseEscapes, hs]; rfl
    obtain ⟨s', rfl⟩ := List.head?_eq_some_iff.mp hhead
    by_contra hne
    rw [uppercaseEscapes_char hne, List.cons.injEq] at hs
    obtain ⟨s₁, rfl, h₁⟩ := uppercaseEscapes_eq_hex_cons ha hs.2
    obtain ⟨s₂, rfl, -⟩ := uppercaseEscapes_eq_hex_cons hb h₁
    exact hne (startsEscape_iff.mpr ⟨a, b, s₂, rfl, ha, hb⟩)
  · intro h
    obtain ⟨a, b, t, rfl, ha, hb⟩ := startsEscape_iff.mp h
    rw [uppercaseEscapes_escape ha hb]
    exact startsEscape_iff.mpr
      ⟨_, _, _, rfl, isHexDigit_toUpper ha, isHexDigit_toUpper hb⟩

/-- **Which texts `uppercaseEscapes` identifies.** -/
theorem uppercaseEscapes_eq_iff {s t : List Char} :
    uppercaseEscapes s = uppercaseEscapes t ↔ EscapeAlike s t := by
  constructor
  · -- on the length of `s`: an escape takes three characters of both texts, any
    -- other character one
    induction hn : s.length using Nat.strong_induction_on generalizing s t with
    | _ n ih =>
      intro h
      have hstarts : StartsEscape s ↔ StartsEscape t := by
        rw [← startsEscape_uppercaseEscapes s, h, startsEscape_uppercaseEscapes]
      have hhead : s.head? = t.head? := by
        rw [← head?_uppercaseEscapes s, h, head?_uppercaseEscapes]
      by_cases hs : StartsEscape s
      · obtain ⟨a, b, s', rfl, ha, hb⟩ := startsEscape_iff.mp hs
        obtain ⟨a', b', t', rfl, ha', hb'⟩ := startsEscape_iff.mp (hstarts.mp hs)
        rw [uppercaseEscapes_escape ha hb, uppercaseEscapes_escape ha' hb'] at h
        simp only [List.cons.injEq, true_and] at h
        obtain ⟨haa, hbb, hrest⟩ := h
        refine .escape ha hb ha' hb' haa hbb (ih s'.length ?_ rfl hrest)
        simp only [List.length_cons] at hn
        omega
      · cases s with
        | nil =>
            obtain rfl := List.head?_eq_none_iff.mp hhead.symm
            exact .nil
        | cons c s' =>
            obtain ⟨t', rfl⟩ := List.head?_eq_some_iff.mp hhead.symm
            have ht : ¬ StartsEscape (c :: t') := fun ht => hs (hstarts.mpr ht)
            rw [uppercaseEscapes_char hs, uppercaseEscapes_char ht, List.cons.injEq] at h
            refine .char c hs ht (ih s'.length ?_ rfl h.2)
            simp only [List.length_cons] at hn
            omega
  · intro h
    induction h with
    | nil => rfl
    | char c hs ht _ ih => rw [uppercaseEscapes_char hs, uppercaseEscapes_char ht, ih]
    | escape ha hb ha' hb' haa hbb _ ih =>
        rw [uppercaseEscapes_escape ha hb, uppercaseEscapes_escape ha' hb', haa, hbb, ih]

/-! ## Spelled alike, segment by segment -/

/-- Two first segments that differ only in the letter case of a plain host and
of the hex digits of escapes. -/
def HostAlike (s t : List Char) : Prop :=
  ((splitAtPercent s).1 = (splitAtPercent t).1 ∨
    ((splitAtPercent s).1.all isHostChar ∧ (splitAtPercent t).1.all isHostChar ∧
      (splitAtPercent s).1.map Char.toLower = (splitAtPercent t).1.map Char.toLower)) ∧
    EscapeAlike (splitAtPercent s).2 (splitAtPercent t).2

/-- Two lists of segments, the first one naming the host. -/
inductive SegmentsAlike : List (List Char) → List (List Char) → Prop
  | nil : SegmentsAlike [] []
  | cons {s t : List Char} {ss ts : List (List Char)} :
      HostAlike s t → List.Forall₂ EscapeAlike ss ts → SegmentsAlike (s :: ss) (t :: ts)

/-- **Spelled alike**: the same identifier, or two `did:web` identifiers whose
segments differ only in the letter case of a plain host and of hex digits. -/
def SpelledAlike (a b : String) : Prop :=
  a = b ∨ ∃ ss ts, DidWeb.segments a = some ss ∧ DidWeb.segments b = some ts ∧
    SegmentsAlike ss ts

theorem splitAtPercent_append (s : List Char) :
    (splitAtPercent s).1 ++ (splitAtPercent s).2 = s := by
  rw [splitAtPercent, List.span_eq_takeWhile_dropWhile]
  exact List.takeWhile_append_dropWhile

theorem percent_notMem_host (s : List Char) : '%' ∉ (splitAtPercent s).1 := by
  rw [splitAtPercent, List.span_eq_takeWhile_dropWhile]
  intro h
  exact absurd (List.mem_takeWhile_imp h) (by decide)

/-- The rest of a segment is empty or starts at a `%`. -/
theorem head?_tail (s : List Char) :
    (splitAtPercent s).2 = [] ∨ (splitAtPercent s).2.head? = some '%' := by
  rw [splitAtPercent, List.span_eq_takeWhile_dropWhile]
  cases h : s.dropWhile (· != '%') with
  | nil => exact Or.inl rfl
  | cons c t =>
      right
      have := List.head?_dropWhile_not (· != '%') s
      rw [h] at this
      simpa using this

theorem uppercaseEscapes_append {h t : List Char} (hh : '%' ∉ h) :
    uppercaseEscapes (h ++ t) = h ++ uppercaseEscapes t := by
  induction h with
  | nil => rfl
  | cons c h ih =>
      rw [List.mem_cons, not_or] at hh
      have hne : ¬ StartsEscape (c :: (h ++ t)) := by
        rw [startsEscape_iff]
        rintro ⟨_, _, _, hs, -, -⟩
        rw [List.cons.injEq] at hs
        exact hh.1 hs.1.symm
      rw [List.cons_append, uppercaseEscapes_char hne, ih hh.2, List.cons_append]

/-- Lower-casing only ever produces a lower-case letter or the character
itself. -/
theorem eq_of_toLower_eq {c d : Char} (h : c.toLower = d) (hd : ¬ d.isAlpha) : c = d := by
  by_cases hc : c.isUpper
  · have hca : c.isAlpha := by simp [Char.isAlpha, hc]
    rw [← Char.isAlpha_toLower_eq_isAlpha, h] at hca
    exact absurd hca hd
  · rwa [Char.toLower_eq_of_not_isUpper hc] at h

theorem notMem_map_toLower {d : Char} (hd : ¬ d.isAlpha) {h : List Char} (hh : d ∉ h) :
    d ∉ h.map Char.toLower := by
  rw [List.mem_map]
  rintro ⟨c, hc, hcd⟩
  exact hh (eq_of_toLower_eq hcd hd ▸ hc)

theorem isHostChar_toLower {c : Char} (h : isHostChar c) : isHostChar c.toLower := by
  by_cases hc : c.isUpper
  · have hca : c.toLower.isAlpha := by simp [Char.isAlpha, hc]
    simp [isHostChar, Char.isAlphanum, hca]
  · rwa [Char.toLower_eq_of_not_isUpper hc]

/-- The host of a first segment as the key spells it. -/
def foldHost (h : List Char) : List Char :=
  if h.all isHostChar then h.map Char.toLower else h

theorem percent_notMem_foldHost {h : List Char} (hh : '%' ∉ h) : '%' ∉ foldHost h := by
  unfold foldHost
  split
  · exact notMem_map_toLower (by decide) hh
  · exact hh

theorem hostKey_eq (s : List Char) :
    hostKey s = foldHost (splitAtPercent s).1 ++ uppercaseEscapes (splitAtPercent s).2 := by
  have hp := percent_notMem_host s
  unfold hostKey foldHost
  by_cases hplain : (splitAtPercent s).1.all isHostChar = true
  · rw [if_pos hplain, if_pos hplain]
    exact uppercaseEscapes_append (notMem_map_toLower (by decide) hp)
  · rw [if_neg hplain, if_neg hplain, ← uppercaseEscapes_append hp, splitAtPercent_append]

theorem foldHost_eq_iff {h h' : List Char} :
    foldHost h = foldHost h' ↔
      h = h' ∨ (h.all isHostChar ∧ h'.all isHostChar ∧
        h.map Char.toLower = h'.map Char.toLower) := by
  have lower_plain : ∀ {g : List Char}, g.all isHostChar →
      (g.map Char.toLower).all isHostChar := by
    intro g hg
    rw [List.all_eq_true] at hg ⊢
    intro c hc
    obtain ⟨d, hd, rfl⟩ := List.mem_map.mp hc
    exact isHostChar_toLower (hg d hd)
  unfold foldHost
  by_cases hh : h.all isHostChar = true <;> by_cases hh' : h'.all isHostChar = true
  · rw [if_pos hh, if_pos hh']
    constructor
    · exact fun e => Or.inr ⟨hh, hh', e⟩
    · rintro (rfl | ⟨-, -, e⟩)
      · rfl
      · exact e
  · -- a lower-cased plain host is plain, so it is not the other host
    rw [if_pos hh, if_neg hh']
    constructor
    · exact fun e => absurd (e ▸ lower_plain hh) hh'
    · rintro (rfl | ⟨-, hp, -⟩)
      · exact absurd hh hh'
      · exact absurd hp hh'
  · rw [if_neg hh, if_pos hh']
    constructor
    · exact fun e => absurd (e ▸ lower_plain hh') hh
    · rintro (rfl | ⟨hp, -, -⟩)
      · exact absurd hh' hh
      · exact absurd hp hh
  · rw [if_neg hh, if_neg hh']
    constructor
    · exact Or.inl
    · rintro (rfl | ⟨hp, -, -⟩)
      · rfl
      · exact absurd hp hh

/-- A text without `%` followed by one that is empty or starts at a `%` is cut
in only one way. -/
theorem append_cut_unique {h h' u u' : List Char} (hh : '%' ∉ h) (hh' : '%' ∉ h')
    (hu : u = [] ∨ u.head? = some '%') (hu' : u' = [] ∨ u'.head? = some '%')
    (e : h ++ u = h' ++ u') : h = h' ∧ u = u' := by
  have cut : ∀ {g v : List Char}, '%' ∉ g → (v = [] ∨ v.head? = some '%') →
      (g ++ v).takeWhile (· != '%') = g := by
    intro g v hg hv
    have hall : ∀ c ∈ g, (c != '%') = true := by
      intro c hc
      rw [bne_iff_ne]
      rintro rfl
      exact hg hc
    rw [List.takeWhile_append_of_pos hall]
    rcases hv with rfl | hv
    · rw [List.takeWhile_nil, List.append_nil]
    · obtain ⟨v', rfl⟩ := List.head?_eq_some_iff.mp hv
      rw [List.takeWhile_cons_of_neg (by decide), List.append_nil]
  have hhh : h = h' := by rw [← cut hh hu, e, cut hh' hu']
  subst hhh
  exact ⟨rfl, List.append_cancel_left e⟩

theorem head?_uppercaseEscapes_tail (s : List Char) :
    uppercaseEscapes (splitAtPercent s).2 = [] ∨
      (uppercaseEscapes (splitAtPercent s).2).head? = some '%' := by
  rcases head?_tail s with h | h
  · rw [h]
    exact Or.inl rfl
  · rw [head?_uppercaseEscapes]
    exact Or.inr h

theorem hostKey_eq_iff {s t : List Char} : hostKey s = hostKey t ↔ HostAlike s t := by
  rw [hostKey_eq, hostKey_eq, HostAlike, ← foldHost_eq_iff, ← uppercaseEscapes_eq_iff]
  constructor
  · exact append_cut_unique (percent_notMem_foldHost (percent_notMem_host s))
      (percent_notMem_foldHost (percent_notMem_host t))
      (head?_uppercaseEscapes_tail s) (head?_uppercaseEscapes_tail t)
  · rintro ⟨h₁, h₂⟩
    rw [h₁, h₂]

theorem keySegments_eq_iff {ss ts : List (List Char)} :
    keySegments ss = keySegments ts ↔ SegmentsAlike ss ts := by
  have paths : ∀ {ps qs : List (List Char)},
      ps.map uppercaseEscapes = qs.map uppercaseEscapes ↔ List.Forall₂ EscapeAlike ps qs := by
    intro ps qs
    induction ps generalizing qs with
    | nil => cases qs <;> simp
    | cons p ps ih =>
        cases qs with
        | nil => simp
        | cons q qs => simp [uppercaseEscapes_eq_iff, ih]
  cases ss with
  | nil =>
      cases ts with
      | nil => exact ⟨fun _ => .nil, fun _ => rfl⟩
      | cons t ts => exact ⟨(fun h => nomatch h), (fun h => nomatch h)⟩
  | cons s ss =>
      cases ts with
      | nil => exact ⟨(fun h => nomatch h), (fun h => nomatch h)⟩
      | cons t ts =>
          rw [keySegments, keySegments, List.cons.injEq, hostKey_eq_iff, paths]
          constructor
          · rintro ⟨h₁, h₂⟩
            exact .cons h₁ h₂
          · intro h
            cases h with
            | cons h₁ h₂ => exact ⟨h₁, h₂⟩

/-! ## Which identifiers share a key -/

theorem colon_notMem_uppercaseEscapes {s : List Char} (h : ':' ∉ s) :
    ':' ∉ uppercaseEscapes s := by
  induction hn : s.length using Nat.strong_induction_on generalizing s with
  | _ n ih =>
    by_cases hs : StartsEscape s
    · obtain ⟨a, b, t, rfl, ha, hb⟩ := startsEscape_iff.mp hs
      rw [uppercaseEscapes_escape ha hb]
      simp only [List.mem_cons, not_or] at h ⊢
      have notHex : ¬ isHexDigit ':' := by decide
      refine ⟨by decide, ?_, ?_, ih t.length ?_ h.2.2.2 rfl⟩
      · exact fun e => notHex (e ▸ isHexDigit_toUpper ha)
      · exact fun e => notHex (e ▸ isHexDigit_toUpper hb)
      · simp only [List.length_cons] at hn
        omega
    · cases s with
      | nil => exact List.not_mem_nil
      | cons c s =>
          rw [uppercaseEscapes_char hs]
          simp only [List.mem_cons, not_or] at h ⊢
          refine ⟨h.1, ih s.length ?_ h.2 rfl⟩
          simp only [List.length_cons] at hn
          omega

theorem colon_notMem_hostKey {s : List Char} (h : ':' ∉ s) : ':' ∉ hostKey s := by
  have hs : ':' ∉ (splitAtPercent s).1 ++ (splitAtPercent s).2 := by
    rwa [splitAtPercent_append]
  rw [List.mem_append, not_or] at hs
  rw [hostKey_eq, List.mem_append, not_or]
  refine ⟨?_, colon_notMem_uppercaseEscapes hs.2⟩
  unfold foldHost
  split
  · exact notMem_map_toLower (by decide) hs.1
  · exact hs.1

theorem colon_notMem_keySegments {ss : List (List Char)} (h : ∀ s ∈ ss, ':' ∉ s) :
    ∀ s ∈ keySegments ss, ':' ∉ s := by
  cases ss with
  | nil => exact fun s hs => absurd hs List.not_mem_nil
  | cons s ss =>
      intro k hk
      rcases List.mem_cons.mp hk with rfl | hk
      · exact colon_notMem_hostKey (h s List.mem_cons_self)
      · obtain ⟨p, hp, rfl⟩ := List.mem_map.mp hk
        exact colon_notMem_uppercaseEscapes (h p (List.mem_cons_of_mem _ hp))

theorem keySegments_ne_nil {ss : List (List Char)} (h : ss ≠ []) : keySegments ss ≠ [] := by
  cases ss with
  | nil => exact absurd rfl h
  | cons s ss => exact List.cons_ne_nil _ _

theorem holderKey_of_segments {did : String} {ss : List (List Char)}
    (h : DidWeb.segments did = some ss) :
    (holderKey did).toList = didWebPrefix ++ [':'].intercalate (keySegments ss) := by
  obtain ⟨rest, hrest, rfl⟩ := Option.map_eq_some_iff.mp h
  unfold holderKey
  rw [hrest]
  exact String.toList_ofList

theorem holderKey_of_not_didWeb {did : String} (h : DidWeb.segments did = none) :
    holderKey did = did := by
  unfold holderKey
  rw [Option.map_eq_none_iff.mp h]

/-- The segments of a key are the key segments of the identifier. -/
theorem segments_holderKey {did : String} {ss : List (List Char)}
    (h : DidWeb.segments did = some ss) :
    DidWeb.segments (holderKey did) = some (keySegments ss) := by
  obtain ⟨rest, -, hss⟩ := Option.map_eq_some_iff.mp h
  have hcolon : ∀ s ∈ ss, ':' ∉ s := by
    intro s hs
    rw [← hss] at hs
    exact Text.notMem_of_mem_splitOn hs
  have hne : ss ≠ [] := by
    rw [← hss]
    exact List.splitOn_ne_nil _ _
  rw [DidWeb.segments, Text.stripPrefix_eq_some.mpr (holderKey_of_segments h), Option.map_some,
    List.splitOn_intercalate _ (colon_notMem_keySegments hcolon) (keySegments_ne_nil hne)]

/-- **Which identifiers share a key**: those spelled alike, and no others. -/
theorem holderKey_eq_iff {a b : String} : holderKey a = holderKey b ↔ SpelledAlike a b := by
  constructor
  · intro h
    cases ha : DidWeb.segments a with
    | none =>
        rw [holderKey_of_not_didWeb ha] at h
        cases hb : DidWeb.segments b with
        | none =>
            rw [holderKey_of_not_didWeb hb] at h
            exact Or.inl h
        | some ts =>
            rw [h, segments_holderKey hb] at ha
            cases ha
    | some ss =>
        have hkey := segments_holderKey ha
        cases hb : DidWeb.segments b with
        | none =>
            rw [h, holderKey_of_not_didWeb hb, hb] at hkey
            cases hkey
        | some ts =>
            rw [h, segments_holderKey hb, Option.some_inj] at hkey
            exact Or.inr ⟨ss, ts, ha, hb, keySegments_eq_iff.mp hkey.symm⟩
  · rintro (rfl | ⟨ss, ts, ha, hb, halike⟩)
    · rfl
    · apply String.toList_injective
      rw [holderKey_of_segments ha, holderKey_of_segments hb, keySegments_eq_iff.mpr halike]

end IdentityHub
