import Mathlib.Algebra.Group.Nat.Defs
import Mathlib.Logic.Function.Basic
import Mathlib.Tactic.SplitIfs

/-!
# Byte-addressed memory with 64-bit little-endian words

Memory is a function from addresses to bytes. `read64`/`write64` access
eight bytes in little-endian order, and the two laws everything rests on
are `read64_write64` (a word reads back as written) and `read64_congr` (a
read depends only on its own eight bytes), from which every frame fact
follows.

On top of them sit arrays of words: `entry μ base i` is word `i` of the
array at `base`. `entry_setEntry` and `entry_setEntry_of_apart` say what a
store to one array does to it and to an array that does not overlap it.
-/

namespace ArmHyp

/-- Byte-addressed memory. -/
abbrev Mem := Nat → BitVec 8

namespace Mem

/-- The word whose bytes, least significant first, are at `a..a+7`. -/
def read64 (μ : Mem) (a : Nat) : BitVec 64 :=
  μ (a + 7) ++ μ (a + 6) ++ μ (a + 5) ++ μ (a + 4) ++ μ (a + 3) ++ μ (a + 2) ++ μ (a + 1) ++ μ a

def write64 (μ : Mem) (a : Nat) (v : BitVec 64) : Mem := fun b =>
  if a ≤ b ∧ b < a + 8 then v.extractLsb' (8 * (b - a)) 8 else μ b

theorem read64_congr {μ ν : Mem} {a : Nat} (h : ∀ k < 8, μ (a + k) = ν (a + k)) :
    μ.read64 a = ν.read64 a := by
  have h0 : μ a = ν a := h 0 (by omega)
  simp only [read64, h0, h 1 (by omega), h 2 (by omega), h 3 (by omega), h 4 (by omega),
    h 5 (by omega), h 6 (by omega), h 7 (by omega)]

theorem write64_byte (μ : Mem) (a : Nat) (v : BitVec 64) {k : Nat} (hk : k < 8) :
    μ.write64 a v (a + k) = v.extractLsb' (8 * k) 8 := by
  simp [write64, hk]

theorem write64_of_apart (μ : Mem) {a b : Nat} (v : BitVec 64) (h : b < a ∨ a + 8 ≤ b) :
    μ.write64 a v b = μ b := by
  rw [write64, if_neg (by omega)]

/-- A word reads back as written. -/
theorem read64_write64 (μ : Mem) (a : Nat) (v : BitVec 64) :
    (μ.write64 a v).read64 a = v := by
  have h0 := μ.write64_byte a v (k := 0) (by omega)
  simp only [Nat.add_zero] at h0
  simp only [read64, h0, write64_byte, Nat.reduceLT]
  ext i hi
  -- bit `i` of the word is bit `i % 8` of byte `i / 8`
  simp only [BitVec.getElem_append, BitVec.getElem_extractLsb']
  rw [← BitVec.getLsbD_eq_getElem hi]
  split_ifs <;> exact congrArg v.getLsbD (by omega)

theorem read64_write64_of_apart (μ : Mem) {a b : Nat} (v : BitVec 64)
    (h : b + 8 ≤ a ∨ a + 8 ≤ b) : (μ.write64 a v).read64 b = μ.read64 b :=
  read64_congr fun k hk => μ.write64_of_apart v (by omega)

theorem read64_update_of_apart (μ : Mem) {a b : Nat} (c : BitVec 8)
    (h : a < b ∨ b + 8 ≤ a) : read64 (Function.update μ a c) b = μ.read64 b :=
  read64_congr fun k hk => by
    have hne : b + k ≠ a := by omega
    exact Function.update_of_ne hne c μ

/-! ## Arrays of words -/

/-- Word `i` of the array at `base`. -/
def entry (μ : Mem) (base i : Nat) : BitVec 64 := μ.read64 (base + 8 * i)

def setEntry (μ : Mem) (base i : Nat) (v : BitVec 64) : Mem := μ.write64 (base + 8 * i) v

theorem entry_setEntry (μ : Mem) (base i j : Nat) (v : BitVec 64) :
    (μ.setEntry base i v).entry base j = if j = i then v else μ.entry base j := by
  by_cases hji : j = i
  · subst hji
    rw [if_pos rfl]
    exact μ.read64_write64 _ v
  · rw [if_neg hji]
    exact μ.read64_write64_of_apart v (by omega)

/-- Arrays of `n` and `n'` words that do not overlap do not see each other's stores. -/
theorem entry_setEntry_of_apart (μ : Mem) {base base' i j n n' : Nat} (v : BitVec 64)
    (hi : i < n) (hj : j < n') (h : base + 8 * n ≤ base' ∨ base' + 8 * n' ≤ base) :
    (μ.setEntry base i v).entry base' j = μ.entry base' j :=
  μ.read64_write64_of_apart v (by omega)

theorem entry_update_of_apart (μ : Mem) {base a j n : Nat} (c : BitVec 8)
    (hj : j < n) (h : a < base ∨ base + 8 * n ≤ a) :
    entry (Function.update μ a c) base j = μ.entry base j :=
  μ.read64_update_of_apart c (by omega)

end Mem

end ArmHyp
