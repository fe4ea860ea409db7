import Mathlib.Data.List.Basic

/-!
# base64url without padding

Three bytes are four characters; a rest of one or two bytes is two or three.
Decoding an encoding gives the bytes back (`decode_encode`).
-/

namespace Base64Url

def alphabet : List Char :=
  "ABCDEFGHIJKLMNOPQRSTUVWXYZabcdefghijklmnopqrstuvwxyz0123456789-_".toList

/-- The character of a 6-bit value. -/
def symbol (n : ℕ) : Char := alphabet.getD n 'A'

/-- The 6-bit value of a character. -/
def value (c : Char) : Option ℕ := alphabet.idxOf? c

def encode : List UInt8 → List Char
  | a :: b :: c :: rest =>
      symbol (a.toNat / 4) :: symbol (a.toNat % 4 * 16 + b.toNat / 16) ::
        symbol (b.toNat % 16 * 4 + c.toNat / 64) :: symbol (c.toNat % 64) :: encode rest
  | [a, b] =>
      [symbol (a.toNat / 4), symbol (a.toNat % 4 * 16 + b.toNat / 16),
        symbol (b.toNat % 16 * 4)]
  | [a] => [symbol (a.toNat / 4), symbol (a.toNat % 4 * 16)]
  | [] => []

/-- The first, second and third byte of a group, from the 6-bit values around
it. -/
def byte₁ (w x : ℕ) : UInt8 := UInt8.ofNat (w * 4 + x / 16)
def byte₂ (x y : ℕ) : UInt8 := UInt8.ofNat (x % 16 * 16 + y / 4)
def byte₃ (y z : ℕ) : UInt8 := UInt8.ofNat (y % 4 * 64 + z)

def decode : List Char → Option (List UInt8)
  | c₁ :: c₂ :: c₃ :: c₄ :: rest => do
      let w ← value c₁
      let x ← value c₂
      let y ← value c₃
      let z ← value c₄
      let bytes ← decode rest
      return byte₁ w x :: byte₂ x y :: byte₃ y z :: bytes
  | [c₁, c₂, c₃] => do
      let w ← value c₁
      let x ← value c₂
      let y ← value c₃
      return [byte₁ w x, byte₂ x y]
  | [c₁, c₂] => do
      let w ← value c₁
      let x ← value c₂
      return [byte₁ w x]
  | [_] => none
  | [] => some []

theorem value_symbol {n : ℕ} (h : n < 64) : value (symbol n) = some n := by
  have all : ∀ k : Fin 64, value (symbol k) = some k.val := by decide +kernel
  exact all ⟨n, h⟩

theorem byte₁_eq (a : UInt8) {r : ℕ} (h : r < 16) :
    byte₁ (a.toNat / 4) (a.toNat % 4 * 16 + r) = a := by
  unfold byte₁
  rw [show a.toNat / 4 * 4 + (a.toNat % 4 * 16 + r) / 16 = a.toNat by omega]
  exact UInt8.ofNat_toNat

theorem byte₂_eq (b : UInt8) {l r : ℕ} (h : r < 4) :
    byte₂ (l * 16 + b.toNat / 16) (b.toNat % 16 * 4 + r) = b := by
  unfold byte₂
  have hb := b.toNat_lt
  rw [show (l * 16 + b.toNat / 16) % 16 * 16 + (b.toNat % 16 * 4 + r) / 4 = b.toNat by omega]
  exact UInt8.ofNat_toNat

theorem byte₃_eq (c : UInt8) {l : ℕ} : byte₃ (l * 4 + c.toNat / 64) (c.toNat % 64) = c := by
  unfold byte₃
  have hc := c.toNat_lt
  rw [show (l * 4 + c.toNat / 64) % 4 * 64 + c.toNat % 64 = c.toNat by omega]
  exact UInt8.ofNat_toNat

/-- **Round trip.** -/
theorem decode_encode (bytes : List UInt8) : decode (encode bytes) = some bytes := by
  induction bytes using encode.induct with
  | case1 a b c rest ih =>
      have ha := a.toNat_lt
      have hb := b.toNat_lt
      have hc := c.toNat_lt
      rw [encode, decode, value_symbol (by omega), value_symbol (by omega),
        value_symbol (by omega), value_symbol (by omega), ih]
      show some (byte₁ _ _ :: byte₂ _ _ :: byte₃ _ _ :: rest) = _
      rw [byte₁_eq a (by omega), byte₂_eq b (by omega), byte₃_eq]
  | case2 a b =>
      have ha := a.toNat_lt
      have hb := b.toNat_lt
      have h₂ := byte₂_eq b (l := a.toNat % 4) (r := 0) (by omega)
      rw [Nat.add_zero] at h₂
      rw [encode, decode, value_symbol (by omega), value_symbol (by omega),
        value_symbol (by omega)]
      show some [byte₁ _ _, byte₂ _ _] = _
      rw [byte₁_eq a (by omega), h₂]
  | case3 a =>
      have ha := a.toNat_lt
      have h₁ := byte₁_eq a (r := 0) (by omega)
      rw [Nat.add_zero] at h₁
      rw [encode, decode, value_symbol (by omega), value_symbol (by omega)]
      show some [byte₁ _ _] = _
      rw [h₁]
  | case4 => rfl

end Base64Url
