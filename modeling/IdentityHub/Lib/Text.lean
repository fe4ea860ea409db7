import Mathlib.Data.List.Basic
import Mathlib.Data.List.Infix
import Mathlib.Data.List.TakeWhile

/-!
# Text as lists of characters

The string operations a Rust program uses, over `List Char`: ASCII case and
character classes, prefix stripping, splitting on a separator or on white
space. They are structural, so a statement about fixed strings is decided by
evaluation.
-/

namespace Text

/-- `u8::is_ascii_hexdigit`. -/
def isHexDigit (c : Char) : Bool :=
  c.isDigit || ('a' ≤ c && c ≤ 'f') || ('A' ≤ c && c ≤ 'F')

/-- `char::is_whitespace`: the code points with the Unicode property
White_Space. -/
def isWhitespace (c : Char) : Bool :=
  (0x09 ≤ c.toNat && c.toNat ≤ 0x0D) || c.toNat == 0x20 || c.toNat == 0x85 ||
    c.toNat == 0xA0 || c.toNat == 0x1680 || (0x2000 ≤ c.toNat && c.toNat ≤ 0x200A) ||
    c.toNat == 0x2028 || c.toNat == 0x2029 || c.toNat == 0x202F || c.toNat == 0x205F ||
    c.toNat == 0x3000

/-- `str::trim().is_empty()`. -/
def isBlank (s : String) : Bool := s.toList.all isWhitespace

/-- `str::to_ascii_lowercase`. -/
def asciiLower (s : String) : String := String.ofList (s.toList.map Char.toLower)

/-- `str::to_ascii_uppercase`. -/
def asciiUpper (s : String) : String := String.ofList (s.toList.map Char.toUpper)

/-- `str::trim`. -/
def trim (s : String) : String :=
  String.ofList (((s.toList.dropWhile isWhitespace).reverse.dropWhile isWhitespace).reverse)

/-- `str::contains`. -/
def contains (s part : String) : Bool := decide (part.toList <:+: s.toList)

/-- `str::trim_end_matches` with a character. -/
def trimEndMatches (c : Char) (s : String) : String :=
  String.ofList ((s.toList.reverse.dropWhile (· == c)).reverse)

/-- `str::strip_prefix`. -/
def stripPrefix (pre s : List Char) : Option (List Char) :=
  if pre.isPrefixOf s then some (s.drop pre.length) else none

theorem stripPrefix_eq_some {pre s rest : List Char} :
    stripPrefix pre s = some rest ↔ s = pre ++ rest := by
  unfold stripPrefix
  by_cases h : pre.isPrefixOf s = true
  · rw [if_pos h]
    obtain ⟨t, rfl⟩ := List.isPrefixOf_iff_prefix.mp h
    simp
  · rw [if_neg h]
    constructor
    · intro hn
      cases hn
    · rintro rfl
      exact absurd (List.isPrefixOf_iff_prefix.mpr (List.prefix_append ..)) h

/-- `str::split_once`. -/
def splitOnce (separator : Char) (s : String) : Option (String × String) :=
  match s.toList.dropWhile (· != separator) with
  | [] => none
  | _ :: rest => some (String.ofList (s.toList.takeWhile (· != separator)), String.ofList rest)

/-- The split is at the first separator. -/
theorem splitOnce_eq_some {separator : Char} {s before after : String} :
    splitOnce separator s = some (before, after) ↔
      s.toList = before.toList ++ separator :: after.toList ∧ separator ∉ before.toList := by
  have hsplit := List.takeWhile_append_dropWhile (p := (· != separator)) (l := s.toList)
  have hbefore : separator ∉ s.toList.takeWhile (· != separator) := by
    intro hmem
    have hne := List.mem_takeWhile_imp hmem
    simp at hne
  unfold splitOnce
  constructor
  · intro h
    split at h
    · cases h
    · rename_i c rest hdrop
      have hc : c = separator := by
        have hhead := List.head?_dropWhile_not (· != separator) s.toList
        rw [hdrop] at hhead
        simpa using hhead
      cases h
      rw [hdrop, hc] at hsplit
      simpa using ⟨hsplit.symm, hbefore⟩
  · rintro ⟨hs, hnot⟩
    have hall : ∀ c ∈ before.toList, (c != separator) = true := by
      intro c hc
      rw [bne_iff_ne]
      rintro rfl
      exact hnot hc
    have hdrop : s.toList.dropWhile (· != separator) = separator :: after.toList := by
      rw [hs, List.dropWhile_append_of_pos hall]
      simp
    have htake : s.toList.takeWhile (· != separator) = before.toList := by
      rw [hs, List.takeWhile_append_of_pos hall]
      simp
    rw [hdrop, htake]
    simp

/-- `str::split_once` with a string. -/
def splitAtFirst (pattern : List Char) : List Char → Option (List Char × List Char)
  | [] => if pattern = [] then some ([], []) else none
  | c :: rest =>
      if pattern.isPrefixOf (c :: rest) then some ([], (c :: rest).drop pattern.length)
      else (splitAtFirst pattern rest).map (fun parts => (c :: parts.1, parts.2))

/-- The first occurrence is where there is none before. -/
theorem splitAtFirst_eq_some {pattern s before after : List Char} (hne : pattern ≠ []) :
    splitAtFirst pattern s = some (before, after) ↔
      s = before ++ (pattern ++ after) ∧ ∀ n < before.length, ¬ pattern <+: s.drop n := by
  induction s generalizing before with
  | nil =>
      rw [splitAtFirst, if_neg hne]
      constructor
      · intro h
        cases h
      · rintro ⟨hs, -⟩
        exact absurd (List.append_eq_nil_iff.mp (List.append_eq_nil_iff.mp hs.symm).2).1 hne
  | cons c s ih =>
      rw [splitAtFirst]
      by_cases hprefix : pattern.isPrefixOf (c :: s) = true
      · have hp := List.isPrefixOf_iff_prefix.mp hprefix
        rw [if_pos hprefix]
        obtain ⟨rest, hrest⟩ := hp
        rw [← hrest, List.drop_left]
        constructor
        · intro h
          cases h
          exact ⟨rfl, fun n hn => absurd hn (Nat.not_lt_zero n)⟩
        · rintro ⟨hs, hfirst⟩
          cases before with
          | nil =>
              rw [List.nil_append] at hs
              rw [List.append_cancel_left hs]
          | cons b before => exact absurd (List.prefix_append _ _) (hfirst 0 (Nat.succ_pos _))
      · have hp : ¬ pattern <+: c :: s := fun h => hprefix (List.isPrefixOf_iff_prefix.mpr h)
        rw [if_neg hprefix, Option.map_eq_some_iff]
        constructor
        · rintro ⟨⟨before', after'⟩, hsplit, heq⟩
          cases heq
          obtain ⟨hs, hfirst⟩ := ih.mp hsplit
          refine ⟨by rw [hs, List.cons_append], fun n hn => ?_⟩
          cases n with
          | zero => exact hp
          | succ n => exact hfirst n (Nat.lt_of_succ_lt_succ hn)
        · rintro ⟨hs, hfirst⟩
          cases before with
          | nil => exact absurd ⟨after, hs.symm⟩ hp
          | cons b before =>
              obtain ⟨rfl, hs'⟩ := List.cons.inj hs
              refine ⟨(before, after), ih.mpr ⟨hs', fun n hn => ?_⟩, rfl⟩
              exact hfirst (n + 1) (Nat.succ_lt_succ hn)

/-- `str::split_whitespace`: the maximal runs of characters that are not white
space. -/
def splitWhitespace (s : String) : List String :=
  ((s.toList.splitOnP isWhitespace).filter (fun word => !word.isEmpty)).map String.ofList

/-- The pieces of a split do not contain the separator. -/
theorem notMem_of_mem_splitOn {α : Type*} [BEq α] [LawfulBEq α] {x : α} :
    ∀ {xs l : List α}, l ∈ xs.splitOn x → x ∉ l
  | [], l, h => by
      rw [List.splitOn_nil, List.mem_singleton] at h
      subst h
      exact List.not_mem_nil
  | a :: xs, l, h => by
      have ih : ∀ l' ∈ xs.splitOn x, x ∉ l' := fun l' h' => notMem_of_mem_splitOn h'
      rw [List.splitOn_cons_eq_if_modifyHead] at h
      cases hs : xs.splitOn x with
      | nil => exact absurd hs (List.splitOn_ne_nil x xs)
      | cons s ss =>
          rw [hs] at h ih
          split at h
          · rcases List.mem_cons.mp h with rfl | h
            · exact List.not_mem_nil
            · exact ih l h
          · rename_i ha
            rw [List.modifyHead_cons] at h
            rcases List.mem_cons.mp h with rfl | h
            · rw [List.mem_cons, not_or]
              exact ⟨fun e => ha (by simp [e]), ih s List.mem_cons_self⟩
            · exact ih l (List.mem_cons_of_mem _ h)

/-- Where the letters and digits of ASCII lie. -/
theorem toNat_of_isAlphanum {c : Char} (h : c.isAlphanum = true) :
    (48 ≤ c.toNat ∧ c.toNat ≤ 57) ∨ (65 ≤ c.toNat ∧ c.toNat ≤ 90) ∨
      (97 ≤ c.toNat ∧ c.toNat ≤ 122) := by
  rcases Bool.or_eq_true_iff.mp h with halpha | hdigit
  · rcases Bool.or_eq_true_iff.mp halpha with hupper | hlower
    · have hrange := of_decide_eq_true hupper
      exact Or.inr (Or.inl ⟨hrange.1, hrange.2⟩)
    · obtain ⟨hlow, hhigh⟩ := Bool.and_eq_true_iff.mp hlower
      exact Or.inr (Or.inr ⟨of_decide_eq_true hlow, of_decide_eq_true hhigh⟩)
  · obtain ⟨hlow, hhigh⟩ := Bool.and_eq_true_iff.mp hdigit
    exact Or.inl ⟨of_decide_eq_true hlow, of_decide_eq_true hhigh⟩

/-- Words joined by spaces are split into these words. -/
theorem splitWhitespace_intercalate {words : List String}
    (h : ∀ w ∈ words, w.toList ≠ [] ∧ ∀ c ∈ w.toList, isWhitespace c = false) :
    splitWhitespace (String.intercalate " " words) = words := by
  unfold splitWhitespace
  induction words with
  | nil => rfl
  | cons w words ih =>
      obtain ⟨⟨hne, hw⟩, hrest⟩ := List.forall_mem_cons.mp h
      have hkeep : ∀ rest : List (List Char),
          (w.toList :: rest).filter (fun word => !word.isEmpty) =
            w.toList :: rest.filter (fun word => !word.isEmpty) := by
        intro rest
        exact List.filter_cons_of_pos (by simpa using hne)
      cases words with
      | nil =>
          rw [String.intercalate_singleton, List.splitOnP_eq_singleton hw, hkeep,
            List.filter_nil, List.map_singleton, String.ofList_toList]
      | cons w' words =>
          have hsplit : (w ++ " " ++ String.intercalate " " (w' :: words)).toList =
              w.toList ++ ' ' :: (String.intercalate " " (w' :: words)).toList := by
            simp [String.toList_append]
          rw [String.intercalate_cons_cons, hsplit,
            List.splitOnP_append_cons_of_forall_mem hw ' ' rfl, hkeep, List.map_cons, ih hrest,
            String.ofList_toList]

end Text
