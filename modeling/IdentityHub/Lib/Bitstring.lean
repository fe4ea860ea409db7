import Mathlib.Data.List.Basic

/-!
# Bitstrings packed into bytes, most significant bit first

Bit `i` of a byte list is the bit under the mask `0x80 >> (i % 8)` of byte
`i / 8`. Reading past the end reads `0`; setting past the end changes nothing.
The one law a client needs is `bit_setBit`: setting a bit sets that bit and no
other.
-/

namespace Bitstring

/-- The mask of bit `i` inside its byte. -/
def mask (i : ℕ) : UInt8 := (0x80 : UInt8) >>> UInt8.ofNat (i % 8)

def bit (bytes : List UInt8) (i : ℕ) : Bool :=
  bytes.getD (i / 8) 0 &&& mask i != 0

def setBit (bytes : List UInt8) (i : ℕ) : List UInt8 :=
  bytes.set (i / 8) (bytes.getD (i / 8) 0 ||| mask i)

@[simp] theorem length_setBit (bytes : List UInt8) (i : ℕ) :
    (setBit bytes i).length = bytes.length := List.length_set

/-- Two masks of one byte overlap only when they are the same mask. -/
theorem mask_and_mask {i j : ℕ} :
    mask i &&& mask j = if i % 8 = j % 8 then mask j else 0 := by
  have masks : ∀ a b : Fin 8,
      ((0x80 : UInt8) >>> UInt8.ofNat a) &&& ((0x80 : UInt8) >>> UInt8.ofNat b) =
        if a = b then (0x80 : UInt8) >>> UInt8.ofNat b else 0 := by decide
  have h := masks ⟨i % 8, Nat.mod_lt _ (by decide)⟩ ⟨j % 8, Nat.mod_lt _ (by decide)⟩
  simpa only [mask, Fin.mk.injEq] using h

theorem mask_ne_zero (i : ℕ) : mask i ≠ 0 := by
  have masks : ∀ a : Fin 8, (0x80 : UInt8) >>> UInt8.ofNat a ≠ 0 := by decide
  exact masks ⟨i % 8, Nat.mod_lt _ (by decide)⟩

theorem or_and_distrib (x m n : UInt8) : (x ||| m) &&& n = x &&& n ||| m &&& n := by
  apply UInt8.eq_of_toBitVec_eq
  rw [UInt8.toBitVec_and, UInt8.toBitVec_or, UInt8.toBitVec_or, UInt8.toBitVec_and,
    UInt8.toBitVec_and]
  ext k hk
  simp only [BitVec.getElem_and, BitVec.getElem_or]
  exact Bool.and_or_distrib_right ..

/-- Reading a byte after setting one of its own bits. -/
theorem or_mask_and_mask (x : UInt8) (i j : ℕ) :
    ((x ||| mask i) &&& mask j != 0) =
      (decide (i % 8 = j % 8) || (x &&& mask j != 0)) := by
  rw [or_and_distrib, mask_and_mask]
  by_cases h : i % 8 = j % 8
  · simp [h, UInt8.or_eq_zero_iff, mask_ne_zero]
  · simp [h]

/-- **Setting a bit sets that bit and no other.** -/
theorem bit_setBit {bytes : List UInt8} {i : ℕ} (hi : i / 8 < bytes.length) (j : ℕ) :
    bit (setBit bytes i) j = (decide (j = i) || bit bytes j) := by
  unfold bit setBit
  simp only [List.getD_eq_getElem?_getD, List.getElem?_set]
  by_cases hbyte : i / 8 = j / 8
  · have hj : (j = i) ↔ i % 8 = j % 8 := by omega
    rw [if_pos hbyte, if_pos hi, Option.getD_some, ← hbyte, or_mask_and_mask]
    simp only [hj]
  · have hj : j ≠ i := fun h => hbyte (by rw [h])
    rw [if_neg hbyte]
    simp [hj]

theorem bit_replicate_zero (n i : ℕ) : bit (List.replicate n 0) i = false := by
  unfold bit
  have : (List.replicate n (0 : UInt8)).getD (i / 8) 0 = 0 := by
    rw [List.getD_eq_getElem?_getD, List.getElem?_replicate]
    split <;> rfl
  rw [this]
  simp

end Bitstring
