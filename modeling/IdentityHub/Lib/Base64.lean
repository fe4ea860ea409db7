import IdentityHub.Lib.Base64Url
import Mathlib.Data.List.Nodup

/-!
# Strict base64

Base64 over any alphabet, its padding required or forbidden. Decoding is strict: the padding
must be the one the digits call for, and the bits a last digit has too many must be zero. So a
text decodes to some bytes exactly if it is their encoding (`Engine.decode_eq_some`), and of
engines whose alphabets agree the first that decodes a text speaks for all of them
(`findSome_decode`).
-/

namespace Base64

open Base64Url (byte₁ byte₂ byte₃ byte₁_eq byte₂_eq byte₃_eq)

/-! ## Alphabets -/

structure Alphabet where
  symbols : List Char
  size : symbols.length = 64
  distinct : symbols.Nodup
  unpadded : '=' ∉ symbols

/-- The character of a 6-bit value. -/
def Alphabet.symbol (A : Alphabet) (n : ℕ) : Char := A.symbols.getD n 'A'

/-- The 6-bit value of a character. -/
def Alphabet.value (A : Alphabet) (c : Char) : Option ℕ := A.symbols.idxOf? c

section

variable {A : Alphabet}

theorem Alphabet.symbol_eq {n : ℕ} (h : n < A.symbols.length) : A.symbol n = A.symbols[n] := by
  rw [Alphabet.symbol, List.getD_eq_getElem?_getD, List.getElem?_eq_getElem h, Option.getD_some]

theorem Alphabet.value_eq_some {c : Char} {n : ℕ} :
    A.value c = some n ↔ n < 64 ∧ A.symbol n = c := by
  rw [Alphabet.value, List.idxOf?_eq_some_iff]
  constructor
  · rintro ⟨h, hget, -⟩
    rw [← A.size]
    exact ⟨h, by rwa [A.symbol_eq h]⟩
  · rintro ⟨h, hsymbol⟩
    rw [← A.size] at h
    rw [A.symbol_eq h] at hsymbol
    refine ⟨h, hsymbol, fun j hj heq => ?_⟩
    have hsame := (List.Nodup.getElem_inj_iff A.distinct).mp (heq.trans hsymbol.symm)
    omega

theorem Alphabet.value_symbol {n : ℕ} (h : n < 64) : A.value (A.symbol n) = some n :=
  Alphabet.value_eq_some.mpr ⟨h, rfl⟩

theorem Alphabet.symbol_ne {n : ℕ} (h : n < 64) : A.symbol n ≠ '=' := by
  rw [← A.size] at h
  rw [A.symbol_eq h]
  exact fun heq => A.unpadded (heq ▸ List.getElem_mem h)

end

/-- A character that is in both alphabets has the same value. -/
def Agree (A B : Alphabet) : Prop :=
  ∀ n < 64, B.value (A.symbol n) = none ∨ B.value (A.symbol n) = some n

instance (A B : Alphabet) : Decidable (Agree A B) :=
  inferInstanceAs (Decidable (∀ n < 64, B.value (A.symbol n) = none ∨ B.value (A.symbol n) = some n))

theorem agree_self (A : Alphabet) : Agree A A := fun _ h => Or.inr (A.value_symbol h)

/-! ## Digits -/

section

variable (A B : Alphabet)

def encodeDigits : List UInt8 → List Char
  | a :: b :: c :: rest =>
      A.symbol (a.toNat / 4) :: A.symbol (a.toNat % 4 * 16 + b.toNat / 16) ::
        A.symbol (b.toNat % 16 * 4 + c.toNat / 64) :: A.symbol (c.toNat % 64) ::
          encodeDigits rest
  | [a, b] =>
      [A.symbol (a.toNat / 4), A.symbol (a.toNat % 4 * 16 + b.toNat / 16),
        A.symbol (b.toNat % 16 * 4)]
  | [a] => [A.symbol (a.toNat / 4), A.symbol (a.toNat % 4 * 16)]
  | [] => []

/-- The bits a last digit has too many must be zero. -/
def decodeDigits : List Char → Option (List UInt8)
  | c₁ :: c₂ :: c₃ :: c₄ :: rest => do
      let w ← A.value c₁
      let x ← A.value c₂
      let y ← A.value c₃
      let z ← A.value c₄
      let bytes ← decodeDigits rest
      return byte₁ w x :: byte₂ x y :: byte₃ y z :: bytes
  | [c₁, c₂, c₃] => do
      let w ← A.value c₁
      let x ← A.value c₂
      let y ← A.value c₃
      if y % 4 = 0 then some [byte₁ w x, byte₂ x y] else none
  | [c₁, c₂] => do
      let w ← A.value c₁
      let x ← A.value c₂
      if x % 16 = 0 then some [byte₁ w x] else none
  | [_] => none
  | [] => some []

end

section

variable {w x y z : ℕ}

theorem toNat_byte₁ (hw : w < 64) (hx : x < 64) : (byte₁ w x).toNat = w * 4 + x / 16 :=
  UInt8.toNat_ofNat_of_lt (by simp only [UInt8.size]; omega)

theorem toNat_byte₂ (hy : y < 64) : (byte₂ x y).toNat = x % 16 * 16 + y / 4 :=
  UInt8.toNat_ofNat_of_lt (by simp only [UInt8.size]; omega)

theorem toNat_byte₃ (hz : z < 64) : (byte₃ y z).toNat = y % 4 * 64 + z :=
  UInt8.toNat_ofNat_of_lt (by simp only [UInt8.size]; omega)

end

variable {A B : Alphabet}

/-- Bytes come back from their digits. -/
theorem decodeDigits_encodeDigits (bytes : List UInt8) :
    decodeDigits A (encodeDigits A bytes) = some bytes := by
  induction bytes using encodeDigits.induct with
  | case1 a b c rest ih =>
      have ha := a.toNat_lt
      have hb := b.toNat_lt
      have hc := c.toNat_lt
      rw [encodeDigits, decodeDigits, A.value_symbol (by omega), A.value_symbol (by omega),
        A.value_symbol (by omega), A.value_symbol (by omega), ih]
      show some (byte₁ _ _ :: byte₂ _ _ :: byte₃ _ _ :: rest) = _
      rw [byte₁_eq a (by omega), byte₂_eq b (by omega), byte₃_eq]
  | case2 a b =>
      have ha := a.toNat_lt
      have hb := b.toNat_lt
      have h₂ := byte₂_eq b (l := a.toNat % 4) (r := 0) (by omega)
      rw [Nat.add_zero] at h₂
      rw [encodeDigits, decodeDigits, A.value_symbol (by omega), A.value_symbol (by omega),
        A.value_symbol (by omega)]
      show (if b.toNat % 16 * 4 % 4 = 0 then some [byte₁ _ _, byte₂ _ _] else none) = _
      rw [if_pos (by omega), byte₁_eq a (by omega), h₂]
  | case3 a =>
      have ha := a.toNat_lt
      have h₁ := byte₁_eq a (r := 0) (by omega)
      rw [Nat.add_zero] at h₁
      rw [encodeDigits, decodeDigits, A.value_symbol (by omega), A.value_symbol (by omega)]
      show (if a.toNat % 4 * 16 % 16 = 0 then some [byte₁ _ _] else none) = _
      rw [if_pos (by omega), h₁]
  | case4 => rfl

/-- Digits come back from their bytes. -/
theorem encodeDigits_of_decodeDigits {text : List Char} {bytes : List UInt8}
    (h : decodeDigits A text = some bytes) : encodeDigits A bytes = text := by
  induction text using decodeDigits.induct generalizing bytes with
  | case1 c₁ c₂ c₃ c₄ rest ih =>
      simp only [decodeDigits, Option.bind_eq_bind, Option.bind_eq_some_iff, Option.pure_def,
        Option.some.injEq, Alphabet.value_eq_some] at h
      obtain ⟨w, ⟨hw, rfl⟩, x, ⟨hx, rfl⟩, y, ⟨hy, rfl⟩, z, ⟨hz, rfl⟩, bytes', hrest, rfl⟩ := h
      have h₁ := toNat_byte₁ hw hx
      have h₂ := toNat_byte₂ (x := x) hy
      have h₃ := toNat_byte₃ (y := y) hz
      rw [encodeDigits, ih hrest, h₁, h₂, h₃, show (w * 4 + x / 16) / 4 = w by omega,
        show (w * 4 + x / 16) % 4 * 16 + (x % 16 * 16 + y / 4) / 16 = x by omega,
        show (x % 16 * 16 + y / 4) % 16 * 4 + (y % 4 * 64 + z) / 64 = y by omega,
        show (y % 4 * 64 + z) % 64 = z by omega]
  | case2 c₁ c₂ c₃ =>
      simp only [decodeDigits, Option.bind_eq_bind, Option.bind_eq_some_iff,
        Option.ite_none_right_eq_some, Option.some.injEq, Alphabet.value_eq_some] at h
      obtain ⟨w, ⟨hw, rfl⟩, x, ⟨hx, rfl⟩, y, ⟨hy, rfl⟩, hzero, rfl⟩ := h
      rw [encodeDigits, toNat_byte₁ hw hx, toNat_byte₂ hy,
        show (w * 4 + x / 16) / 4 = w by omega,
        show (w * 4 + x / 16) % 4 * 16 + (x % 16 * 16 + y / 4) / 16 = x by omega,
        show (x % 16 * 16 + y / 4) % 16 * 4 = y by omega]
  | case3 c₁ c₂ =>
      simp only [decodeDigits, Option.bind_eq_bind, Option.bind_eq_some_iff,
        Option.ite_none_right_eq_some, Option.some.injEq, Alphabet.value_eq_some] at h
      obtain ⟨w, ⟨hw, rfl⟩, x, ⟨hx, rfl⟩, hzero, rfl⟩ := h
      rw [encodeDigits, toNat_byte₁ hw hx, show (w * 4 + x / 16) / 4 = w by omega,
        show (w * 4 + x / 16) % 4 * 16 = x by omega]
  | case4 c => cases h
  | case5 =>
      cases h
      rfl

/-- Two alphabets that agree read the same bytes from a text, if both read it. -/
theorem decodeDigits_agree (hagree : Agree A B) {bytes bytes' : List UInt8}
    (h : decodeDigits B (encodeDigits A bytes) = some bytes') : bytes' = bytes := by
  have hvalue : ∀ {n m : ℕ}, n < 64 → B.value (A.symbol n) = some m → m = n := by
    intro n m hn hm
    rcases hagree n hn with hnone | hsome
    · rw [hnone] at hm
      cases hm
    · exact Option.some.inj (hm.symm.trans hsome)
  induction bytes using encodeDigits.induct generalizing bytes' with
  | case1 a b c rest ih =>
      have ha := a.toNat_lt
      have hb := b.toNat_lt
      have hc := c.toNat_lt
      simp only [encodeDigits, decodeDigits, Option.bind_eq_bind, Option.bind_eq_some_iff,
        Option.pure_def, Option.some.injEq] at h
      obtain ⟨w, hw, x, hx, y, hy, z, hz, bytes'', hrest, rfl⟩ := h
      rw [hvalue (by omega) hw, hvalue (by omega) hx, hvalue (by omega) hy, hvalue (by omega) hz,
        ih hrest, byte₁_eq a (by omega), byte₂_eq b (by omega), byte₃_eq]
  | case2 a b =>
      have ha := a.toNat_lt
      have hb := b.toNat_lt
      have h₂ := byte₂_eq b (l := a.toNat % 4) (r := 0) (by omega)
      rw [Nat.add_zero] at h₂
      simp only [encodeDigits, decodeDigits, Option.bind_eq_bind, Option.bind_eq_some_iff,
        Option.ite_none_right_eq_some, Option.some.injEq] at h
      obtain ⟨w, hw, x, hx, y, hy, -, rfl⟩ := h
      rw [hvalue (by omega) hw, hvalue (by omega) hx, hvalue (by omega) hy, byte₁_eq a (by omega), h₂]
  | case3 a =>
      have ha := a.toNat_lt
      have h₁ := byte₁_eq a (r := 0) (by omega)
      rw [Nat.add_zero] at h₁
      simp only [encodeDigits, decodeDigits, Option.bind_eq_bind, Option.bind_eq_some_iff,
        Option.ite_none_right_eq_some, Option.some.injEq] at h
      obtain ⟨w, hw, x, hx, -, rfl⟩ := h
      rw [hvalue (by omega) hw, hvalue (by omega) hx, h₁]
  | case4 =>
      cases h
      rfl

/-! ## Engines -/

/-- An alphabet, and whether padding is required or forbidden. -/
structure Engine where
  alphabet : Alphabet
  padded : Bool

/-- The padding after so many digits: to a multiple of four where it is required. -/
def Engine.padding (E : Engine) (digits : ℕ) : List Char :=
  if E.padded then List.replicate ((4 - digits % 4) % 4) '=' else []

def Engine.encode (E : Engine) (bytes : List UInt8) : List Char :=
  encodeDigits E.alphabet bytes ++ E.padding (encodeDigits E.alphabet bytes).length

def Engine.decode (E : Engine) (text : List Char) : Option (List UInt8) :=
  let digits := text.takeWhile (· ≠ '=')
  if text = digits ++ E.padding digits.length then decodeDigits E.alphabet digits else none

theorem mem_encodeDigits {bytes : List UInt8} : ∀ c ∈ encodeDigits A bytes, c ≠ '=' := by
  induction bytes using encodeDigits.induct with
  | case1 a b c rest ih =>
      have ha := a.toNat_lt
      have hb := b.toNat_lt
      have hc := c.toNat_lt
      simp only [encodeDigits, List.forall_mem_cons]
      exact ⟨A.symbol_ne (by omega), A.symbol_ne (by omega), A.symbol_ne (by omega),
        A.symbol_ne (by omega), ih⟩
  | case2 a b =>
      have ha := a.toNat_lt
      have hb := b.toNat_lt
      simp only [encodeDigits, List.forall_mem_cons]
      exact ⟨A.symbol_ne (by omega), A.symbol_ne (by omega), A.symbol_ne (by omega), nofun⟩
  | case3 a =>
      have ha := a.toNat_lt
      simp only [encodeDigits, List.forall_mem_cons]
      exact ⟨A.symbol_ne (by omega), A.symbol_ne (by omega), nofun⟩
  | case4 => exact nofun

theorem Engine.digits_encode (E : Engine) (bytes : List UInt8) :
    (E.encode bytes).takeWhile (· ≠ '=') = encodeDigits E.alphabet bytes := by
  have hnone : (E.padding (encodeDigits E.alphabet bytes).length).takeWhile (· ≠ '=') = [] := by
    unfold Engine.padding
    split
    · rw [List.takeWhile_replicate]
      rfl
    · rfl
  rw [Engine.encode, List.takeWhile_append_of_pos (fun c hc => decide_eq_true (mem_encodeDigits c hc)),
    hnone, List.append_nil]

/-- **Strictness**: the texts that are decoded are the encodings. -/
theorem Engine.decode_eq_some {E : Engine} {text : List Char} {bytes : List UInt8} :
    E.decode text = some bytes ↔ text = E.encode bytes := by
  unfold Engine.decode
  constructor
  · intro h
    obtain ⟨htext, hdigits⟩ := Option.ite_none_right_eq_some.mp h
    rw [Engine.encode, encodeDigits_of_decodeDigits hdigits]
    exact htext
  · rintro rfl
    rw [E.digits_encode]
    exact (if_pos rfl).trans (decodeDigits_encodeDigits bytes)

/-- Engines whose alphabets agree decode a text to the same bytes, if both decode it. -/
theorem Engine.decode_agree {E E' : Engine} (hagree : Agree E.alphabet E'.alphabet)
    {text : List Char} {bytes bytes' : List UInt8} (h : E.decode text = some bytes)
    (h' : E'.decode text = some bytes') : bytes' = bytes := by
  obtain rfl := Engine.decode_eq_some.mp h
  have hdigits := congrArg (List.takeWhile (· ≠ '=')) (Engine.decode_eq_some.mp h')
  rw [E.digits_encode, E'.digits_encode] at hdigits
  refine decodeDigits_agree hagree ?_
  rw [hdigits, decodeDigits_encodeDigits]

/-- **The first engine that decodes a text speaks for all of them.** -/
theorem findSome_decode {engines : List Engine}
    (hagree : ∀ E ∈ engines, ∀ E' ∈ engines, Agree E.alphabet E'.alphabet)
    {text : List Char} {bytes : List UInt8} :
    engines.findSome? (fun E => E.decode text) = some bytes ↔
      ∃ E ∈ engines, text = E.encode bytes := by
  constructor
  · intro h
    obtain ⟨E, hE, hdecode⟩ := List.exists_of_findSome?_eq_some h
    exact ⟨E, hE, Engine.decode_eq_some.mp hdecode⟩
  · rintro ⟨E, hE, htext⟩
    have hdecode := Engine.decode_eq_some.mpr htext
    have hsome : (engines.findSome? (fun E => E.decode text)).isSome := by
      rw [List.findSome?_isSome_iff]
      exact ⟨E, hE, by rw [hdecode, Option.isSome_some]⟩
    obtain ⟨bytes', hfirst⟩ := Option.isSome_iff_exists.mp hsome
    obtain ⟨E', hE', hdecode'⟩ := List.exists_of_findSome?_eq_some hfirst
    rw [hfirst, Engine.decode_agree (hagree E hE E' hE') hdecode hdecode']

end Base64
