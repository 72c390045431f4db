import Mathlib.Algebra.Group.Nat.Defs

/-!
# Bit fields

C code takes a field out of a word with a shift and a mask; an encoding
diagram writes the word as its fields side by side. `shift_and_mask`
connects the two: masking with `2^n - 1` after a shift is `extractLsb'`,
and `BitVec`'s append lemmas say what `extractLsb'` finds in a word that is
written as fields.
-/

namespace ArmHyp

namespace BitField

variable {w : Nat}

/-- The bits of a mask `2^n - 1`. -/
theorem getLsbD_mask {n i : Nat} (hi : i < w) :
    (BitVec.ofNat w (2 ^ n - 1)).getLsbD i = decide (i < n) := by
  rw [BitVec.getLsbD_ofNat, Nat.testBit_two_pow_sub_one, decide_eq_true hi, Bool.true_and]

/-- A field taken with a shift and a mask. -/
theorem shift_and_mask (x : BitVec w) (k n : Nat) :
    x >>> k &&& BitVec.ofNat w (2 ^ n - 1) = (x.extractLsb' k n).setWidth w := by
  apply BitVec.eq_of_getLsbD_eq
  intro i hi
  rw [BitVec.getLsbD_and, getLsbD_mask hi, BitVec.getLsbD_ushiftRight, BitVec.getLsbD_setWidth,
    BitVec.getLsbD_extractLsb', decide_eq_true hi, Bool.true_and, Bool.and_comm]

/-- The low `n` bits, taken with a mask. -/
theorem low_bits_eq (x : BitVec w) (n : Nat) :
    (x.setWidth n).setWidth w = x &&& BitVec.ofNat w (2 ^ n - 1) := by
  apply BitVec.eq_of_getLsbD_eq
  intro i hi
  rw [BitVec.getLsbD_and, getLsbD_mask hi, BitVec.getLsbD_setWidth, BitVec.getLsbD_setWidth,
    decide_eq_true hi, Bool.true_and, Bool.and_comm]

/-- A field that lies within the bits a mask keeps. -/
theorem extract_and_mask (x : BitVec w) {k n m : Nat} (h : k + n ≤ m) :
    (x &&& BitVec.ofNat w (2 ^ m - 1)).extractLsb' k n = x.extractLsb' k n := by
  apply BitVec.eq_of_getLsbD_eq
  intro i hi
  rw [BitVec.getLsbD_extractLsb', BitVec.getLsbD_extractLsb', BitVec.getLsbD_and]
  by_cases hw : k + i < w
  · rw [getLsbD_mask hw, decide_eq_true (show k + i < m by omega), Bool.and_true]
  · rw [BitVec.getLsbD_of_ge x _ (by omega), Bool.false_and]

/-- Fields side by side are equal if each of them is. -/
theorem fields_inj {m n : Nat} {x x' : BitVec m} {y y' : BitVec n} :
    x ++ y = x' ++ y' ↔ x = x' ∧ y = y' := by
  refine ⟨fun h => ⟨?_, ?_⟩, fun ⟨hx, hy⟩ => by rw [hx, hy]⟩
  · rw [← BitVec.extractLsb'_append_eq_left (a := x) (b := y), h,
      BitVec.extractLsb'_append_eq_left]
  · rw [← BitVec.extractLsb'_append_eq_right (a := x) (b := y), h,
      BitVec.extractLsb'_append_eq_right]

end BitField

end ArmHyp
