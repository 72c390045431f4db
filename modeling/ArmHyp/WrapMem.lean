import ArmHyp.ByteMem

/-!
# Memory as a 64-bit CPU addresses it

`ByteMem` numbers bytes without end; here an address is a 64-bit value and
wraps. A doubleword is read and written through the window of bytes that
starts at its address, so that `ByteMem`'s laws carry over, and an array of
doublewords shorter than the address space does not overlap itself wherever
it starts: `entry_write64` needs no bound on the base address. `writeList`
stores an array from its first doubleword to its last.
-/

namespace ArmHyp

/-- Byte-addressed memory with 64-bit addresses. -/
abbrev WrapMem := BitVec 64 → BitVec 8

namespace WrapMem

/-- The bytes from `a` on. -/
def window (μ : WrapMem) (a : BitVec 64) : Mem := fun k => μ (a + BitVec.ofNat 64 k)

def read64 (μ : WrapMem) (a : BitVec 64) : BitVec 64 := (μ.window a).read64 0

def write64 (μ : WrapMem) (a v : BitVec 64) : WrapMem := fun b =>
  if (b - a).toNat < 8 then v.extractLsb' (8 * (b - a).toNat) 8 else μ b

theorem read64_write64 (μ : WrapMem) (a v : BitVec 64) : (μ.write64 a v).read64 a = v := by
  have hwin : (μ.write64 a v).read64 a = ((μ.window a).write64 0 v).read64 0 := by
    refine Mem.read64_congr fun k hk => ?_
    have hback : (a + BitVec.ofNat 64 (0 + k) - a).toNat = k := by
      simp only [BitVec.toNat_sub, BitVec.toNat_add, BitVec.toNat_ofNat]
      omega
    rw [Mem.write64_byte _ _ _ hk]
    simp only [window, write64, hback, if_pos hk]
  rw [hwin, Mem.read64_write64]

/-- Doubleword `i` of the array at `base`. -/
def entry (μ : WrapMem) (base : BitVec 64) (i : Nat) : BitVec 64 :=
  μ.read64 (base + BitVec.ofNat 64 (8 * i))

/-- A store to one doubleword of an array. -/
theorem entry_write64 (μ : WrapMem) (base v : BitVec 64) {i j : Nat} (hi : i < 2 ^ 60)
    (hj : j < 2 ^ 60) :
    (μ.write64 (base + BitVec.ofNat 64 (8 * i)) v).entry base j
      = if j = i then v else μ.entry base j := by
  by_cases hji : j = i
  · subst hji
    rw [if_pos rfl]
    exact μ.read64_write64 _ v
  · rw [if_neg hji]
    refine Mem.read64_congr fun k hk => ?_
    have hout : ¬(base + BitVec.ofNat 64 (8 * j) + BitVec.ofNat 64 (0 + k)
        - (base + BitVec.ofNat 64 (8 * i))).toNat < 8 := by
      simp only [BitVec.toNat_sub, BitVec.toNat_add, BitVec.toNat_ofNat]
      omega
    simp only [window, write64, if_neg hout]

/-! ## Storing an array -/

/-- Doublewords `i`, `i + 1` and so on of the array at `base`, one after the other. -/
def writeList (base : BitVec 64) : Nat → List (BitVec 64) → WrapMem → WrapMem
  | _, [], μ => μ
  | i, v :: vs, μ => writeList base (i + 1) vs (μ.write64 (base + BitVec.ofNat 64 (8 * i)) v)

section WriteList

variable (base : BitVec 64)

theorem entry_writeList {i j : Nat} (vs : List (BitVec 64)) (μ : WrapMem)
    (hlen : i + vs.length < 2 ^ 60) (hj : j < 2 ^ 60) :
    (writeList base i vs μ).entry base j
      = if i ≤ j then vs.getD (j - i) (μ.entry base j) else μ.entry base j := by
  induction vs generalizing i μ with
  | nil =>
      rw [List.getD_nil, ite_self]
      rfl
  | cons v vs ih =>
      rw [List.length_cons] at hlen
      rw [writeList, ih _ (by omega), entry_write64 μ base v (by omega) hj]
      obtain hlt | rfl | hgt := Nat.lt_trichotomy j i
      · rw [if_neg (by omega), if_neg (by omega), if_neg (by omega)]
      · rw [if_neg (by omega), if_pos rfl, if_pos (Nat.le_refl j), Nat.sub_self,
          List.getD_cons_zero]
      · have hsub : j - i = j - (i + 1) + 1 := by omega
        rw [if_pos (by omega), if_neg (by omega), if_pos (by omega), hsub, List.getD_cons_succ]

theorem writeList_of_apart {i : Nat} (vs : List (BitVec 64)) (μ : WrapMem) {a : BitVec 64}
    (h : 8 * (i + vs.length) ≤ (a - base).toNat) : writeList base i vs μ a = μ a := by
  induction vs generalizing i μ with
  | nil => rfl
  | cons v vs ih =>
      rw [List.length_cons] at h
      have hout : ¬(a - (base + BitVec.ofNat 64 (8 * i))).toNat < 8 := by
        have hlt := (a - base).isLt
        rw [← BitVec.sub_sub, BitVec.toNat_sub_of_le]
        · rw [BitVec.toNat_ofNat, Nat.mod_eq_of_lt (by omega)]
          omega
        · rw [BitVec.le_def, BitVec.toNat_ofNat, Nat.mod_eq_of_lt (by omega)]
          omega
      rw [writeList, ih _ (by omega), write64, if_neg hout]

end WriteList

end WrapMem

end ArmHyp
