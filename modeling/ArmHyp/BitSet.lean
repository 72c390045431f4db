import Mathlib.Data.Finset.Max
import Mathlib.Data.Finset.Sort

/-!
# A bit vector as a finite set

`bits x` is the set of positions at which `x` has a one. Setting a bit
inserts, masking a bit out erases, zero is the empty set, and counting
trailing zeros finds the least element (`isLeast_ctz`). With these, mask
arithmetic never has to be looked at again.
-/

namespace ArmHyp

variable {w : Nat}

/-- The positions of the ones of `x`. -/
def bits (x : BitVec w) : Finset Nat := (Finset.range w).filter fun n => x.getLsbD n = true

@[simp] theorem mem_bits {x : BitVec w} {n : Nat} : n ∈ bits x ↔ x.getLsbD n = true := by
  simp only [bits, Finset.mem_filter, Finset.mem_range, and_iff_right_iff_imp]
  exact BitVec.lt_of_getLsbD

theorem lt_of_mem_bits {x : BitVec w} {n : Nat} (h : n ∈ bits x) : n < w :=
  BitVec.lt_of_getLsbD (mem_bits.mp h)

@[simp] theorem bits_zero : bits (0 : BitVec w) = ∅ := by
  ext n
  simp

theorem bits_eq_empty_iff {x : BitVec w} : bits x = ∅ ↔ x = 0 := by
  constructor
  · intro h
    apply BitVec.eq_of_getLsbD_eq
    intro n hn
    have : n ∉ bits x := by simp [h]
    simpa using this
  · rintro rfl
    exact bits_zero

theorem getLsbD_one_shiftLeft {n : Nat} (hn : n < w) (k : Nat) :
    (1#w <<< n).getLsbD k = decide (k = n) := by
  rw [← BitVec.twoPow_eq, BitVec.getLsbD_twoPow]
  simp [hn, eq_comm]

theorem bits_or_one_shiftLeft (x : BitVec w) {n : Nat} (hn : n < w) :
    bits (x ||| 1#w <<< n) = insert n (bits x) := by
  ext k
  simp [getLsbD_one_shiftLeft hn, or_comm]

theorem bits_and_not_one_shiftLeft (x : BitVec w) {n : Nat} (hn : n < w) :
    bits (x &&& ~~~(1#w <<< n)) = (bits x).erase n := by
  ext k
  simp only [mem_bits, BitVec.getLsbD_and, BitVec.getLsbD_not, getLsbD_one_shiftLeft hn,
    Bool.and_eq_true, Bool.not_eq_true', decide_eq_false_iff_not, decide_eq_true_eq,
    Finset.mem_erase]
  constructor
  · rintro ⟨hk, -, hne⟩
    exact ⟨hne, hk⟩
  · rintro ⟨hne, hk⟩
    exact ⟨hk, BitVec.lt_of_getLsbD hk, hne⟩

/-- The number of trailing zeros of a nonzero vector is its least one. -/
theorem isLeast_ctz {x : BitVec w} (hx : x ≠ 0) :
    IsLeast (bits x : Set Nat) x.ctz.toNat := by
  constructor
  · exact mem_bits.mpr (BitVec.getLsbD_true_ctz_of_ne_zero hx)
  · intro n hn
    by_contra hlt
    have := BitVec.getLsbD_false_of_lt_ctz (x := x) (Nat.lt_of_not_le hlt)
    rw [mem_bits.mp (Finset.mem_coe.mp hn)] at this
    cases this

end ArmHyp
