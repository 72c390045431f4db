import ArmHyp.BitField
import Mathlib.Tactic.SplitIfs

/-!
# The host's load/store decoder (`host/hvf_main.c`)

When the host hypervisor reports a data abort without an instruction
syndrome, the host program fetches the faulting instruction and decodes it
with `decode_ldst`. The instructions it means to accept are an inductive
type here (`LdstInsn`), with the encoding the architecture gives them, and
the decoder, translated from its shifts and masks, is shown to accept
exactly their encodings and to return their operands.
-/

namespace ArmHyp

/-! ## The decoder -/

/-- `ldst_decoded_t`. -/
structure LdstDecoded where
  sizeLog2 : BitVec 32
  rt : BitVec 32
  wnr : Bool
  writeback : Bool
  rn : BitVec 32
  /-- An `int32_t`. -/
  wbOffset : BitVec 32
deriving DecidableEq

/-- `(int32_t)(v << 23) >> 23` of the low nine bits. -/
def sext9 (v : BitVec 32) : BitVec 32 := ((v &&& 0x1FF) <<< 23).sshiftRight 23

/-- `decode_ldst`: the contents of `*d` if it returns true. -/
def decodeLdst (insn : BitVec 32) : Option LdstDecoded :=
  if insn >>> 26 &&& 0xF ≠ 0xE then none
  else
    let op24 := insn >>> 24 &&& 0x3
    let op := insn >>> 22 &&& 0x3
    if op > 1 then none
    else
      let d : LdstDecoded :=
        { sizeLog2 := insn >>> 30 &&& 0x3
          rt := insn &&& 0x1F
          wnr := op = 0
          writeback := false
          rn := insn >>> 5 &&& 0x1F
          wbOffset := 0 }
      if op24 = 0x1 then some d                         -- unsigned offset
      else if op24 = 0x0 then
        if insn >>> 21 &&& 1 ≠ 0 then none              -- register offset
        else
          let idx := insn >>> 10 &&& 0x3
          let imm9 := sext9 (insn >>> 12 &&& 0x1FF)
          if idx = 0 then some d                        -- unscaled
          else if idx = 1 ∨ idx = 3 then                -- post- and pre-indexed
            some { d with writeback := true, wbOffset := imm9 }
          else none
      else none

/-! ## The instructions -/

/-- The addressing forms of `STR`/`LDR` (immediate). -/
inductive LdstForm where
  | unsignedOffset (imm12 : BitVec 12)
  | unscaled (imm9 : BitVec 9)
  | postIndexed (imm9 : BitVec 9)
  | preIndexed (imm9 : BitVec 9)
deriving DecidableEq

/-- `STR`, `LDR`, `STUR` and `LDUR` of a byte, halfword, word or doubleword
general register. -/
structure LdstInsn where
  /-- `0` = B, `1` = H, `2` = W, `3` = X. -/
  size : BitVec 2
  load : Bool
  form : LdstForm
  rn : BitVec 5
  rt : BitVec 5
deriving DecidableEq

/-- Bits 25:24 and 21:10 of the encoding. -/
def LdstForm.op24 : LdstForm → BitVec 2
  | unsignedOffset _ => 0b01
  | _ => 0b00

def LdstForm.low : LdstForm → BitVec 12
  | unsignedOffset imm12 => imm12
  | unscaled imm9 => 0b0#1 ++ imm9 ++ 0b00#2
  | postIndexed imm9 => 0b0#1 ++ imm9 ++ 0b01#2
  | preIndexed imm9 => 0b0#1 ++ imm9 ++ 0b11#2

/-- `opc`: 00 stores, 01 loads. -/
def LdstInsn.opc (i : LdstInsn) : BitVec 2 := if i.load then 0b01 else 0b00

/-- The encoding: `size 111 V=0 op24 opc low Rn Rt`. -/
def LdstInsn.encode (i : LdstInsn) : BitVec 32 :=
  i.size ++ 0b1110#4 ++ i.form.op24 ++ i.opc ++ i.form.low ++ i.rn ++ i.rt

/-- What the decoder should make of a form: whether `Rn` is written back, and
by how much. -/
def LdstForm.writeback : LdstForm → Option (BitVec 9)
  | unsignedOffset _ | unscaled _ => none
  | postIndexed imm9 | preIndexed imm9 => some imm9

def LdstInsn.decoded (i : LdstInsn) : LdstDecoded where
  sizeLog2 := i.size.setWidth 32
  rt := i.rt.setWidth 32
  wnr := !i.load
  writeback := i.form.writeback.isSome
  rn := i.rn.setWidth 32
  wbOffset := (i.form.writeback.getD 0).signExtend 32

/-! ## The decoder on fields -/

theorem sext9_setWidth (x : BitVec 9) : sext9 (x.setWidth 32) = x.signExtend 32 := by
  have hmask : x.setWidth 32 &&& 0x1FF = x.setWidth 32 := by
    apply BitVec.eq_of_getLsbD_eq
    intro i hi
    have hm : (0x1FF : BitVec 32).getLsbD i = decide (i < 9) := BitField.getLsbD_mask (n := 9) hi
    rw [BitVec.getLsbD_and, hm, BitVec.getLsbD_setWidth]
    by_cases h9 : i < 9
    · rw [decide_eq_true h9, Bool.and_true]
    · rw [BitVec.getLsbD_of_ge x i (by omega), Bool.and_false, Bool.false_and]
  apply BitVec.eq_of_getLsbD_eq
  intro i hi
  have hmsb : (x.setWidth 32 <<< 23).msb = x.msb := by
    rw [BitVec.msb_eq_getLsbD_last, BitVec.getLsbD_shiftLeft, BitVec.getLsbD_setWidth,
      BitVec.msb_eq_getLsbD_last]
    rfl
  rw [sext9, hmask, BitVec.getLsbD_sshiftRight, BitVec.getLsbD_signExtend, hmsb]
  by_cases h9 : i < 9
  · have h32 : 23 + i < 32 := by omega
    rw [if_pos h32, if_pos h9, BitVec.getLsbD_shiftLeft, BitVec.getLsbD_setWidth]
    simp [h32, Nat.not_le.mpr hi]
  · have h32 : ¬23 + i < 32 := by omega
    rw [if_neg h32, if_neg h9]
    simp [hi]

theorem gt_one_setWidth (x : BitVec 2) : x.setWidth 32 > 1 ↔ x = 2 ∨ x = 3 := by
  revert x
  decide

/-- `decode_ldst` as a function of the instruction's fields. -/
theorem decodeLdst_fields (w : BitVec 32) :
    decodeLdst w =
      let d : LdstDecoded :=
        { sizeLog2 := (w.extractLsb' 30 2).setWidth 32
          rt := (w.extractLsb' 0 5).setWidth 32
          wnr := w.extractLsb' 22 2 = 0
          writeback := false
          rn := (w.extractLsb' 5 5).setWidth 32
          wbOffset := 0 }
      if w.extractLsb' 26 4 ≠ 0b1110 then none
      else if w.extractLsb' 22 2 = 2 ∨ w.extractLsb' 22 2 = 3 then none
      else if w.extractLsb' 24 2 = 0b01 then some d
      else if w.extractLsb' 24 2 = 0b00 then
        if w.extractLsb' 21 1 ≠ 0 then none
        else if w.extractLsb' 10 2 = 0b00 then some d
        else if w.extractLsb' 10 2 = 0b01 ∨ w.extractLsb' 10 2 = 0b11 then
          some { d with writeback := true, wbOffset := (w.extractLsb' 12 9).signExtend 32 }
        else none
      else none := by
  have h26 : w >>> 26 &&& 0xF = (w.extractLsb' 26 4).setWidth 32 := BitField.shift_and_mask w 26 4
  have h24 : w >>> 24 &&& 0x3 = (w.extractLsb' 24 2).setWidth 32 := BitField.shift_and_mask w 24 2
  have h22 : w >>> 22 &&& 0x3 = (w.extractLsb' 22 2).setWidth 32 := BitField.shift_and_mask w 22 2
  have h30 : w >>> 30 &&& 0x3 = (w.extractLsb' 30 2).setWidth 32 := BitField.shift_and_mask w 30 2
  have h5 : w >>> 5 &&& 0x1F = (w.extractLsb' 5 5).setWidth 32 := BitField.shift_and_mask w 5 5
  have h0 : w &&& 0x1F = (w.extractLsb' 0 5).setWidth 32 := by
    rw [← BitField.shift_and_mask w 0 5, BitVec.ushiftRight_zero]
    rfl
  have h21 : w >>> 21 &&& 1 = (w.extractLsb' 21 1).setWidth 32 := BitField.shift_and_mask w 21 1
  have h10 : w >>> 10 &&& 0x3 = (w.extractLsb' 10 2).setWidth 32 := BitField.shift_and_mask w 10 2
  have h12 : w >>> 12 &&& 0x1FF = (w.extractLsb' 12 9).setWidth 32 :=
    BitField.shift_and_mask w 12 9
  -- comparing a zero-extended field is comparing the field
  have hE : ∀ x : BitVec 4, x.setWidth 32 = 0xE ↔ x = 0b1110 := by decide
  have hbit : ∀ x : BitVec 1, x.setWidth 32 = 0 ↔ x = 0 := by decide
  have hzero : ∀ x : BitVec 2, x.setWidth 32 = 0 ↔ x = 0b00 := by decide
  have hone : ∀ x : BitVec 2, x.setWidth 32 = 1 ↔ x = 0b01 := by decide
  have hthree : ∀ x : BitVec 2, x.setWidth 32 = 3 ↔ x = 0b11 := by decide
  simp only [decodeLdst, h26, h24, h22, h30, h5, h0, h21, h10, h12, sext9_setWidth,
    gt_one_setWidth, ne_eq, hE, hbit, hzero, hone, hthree]

/-! ## Encodings and their fields -/

/-- A word from its fields. -/
def ldstWord (size : BitVec 2) (v : BitVec 4) (op24 opc : BitVec 2) (low : BitVec 12)
    (rn rt : BitVec 5) : BitVec 32 :=
  size ++ v ++ op24 ++ opc ++ low ++ rn ++ rt

theorem encode_eq (i : LdstInsn) :
    i.encode = ldstWord i.size 0b1110 i.form.op24 i.opc i.form.low i.rn i.rt := rfl

/-- Every word has fields. -/
theorem eq_ldstWord (w : BitVec 32) :
    w = ldstWord (w.extractLsb' 30 2) (w.extractLsb' 26 4) (w.extractLsb' 24 2)
      (w.extractLsb' 22 2) (w.extractLsb' 10 12) (w.extractLsb' 5 5) (w.extractLsb' 0 5) := by
  rw [ldstWord]
  iterate 6 rw [BitVec.extractLsb'_append_extractLsb'_eq_extractLsb' (by rfl)]
  exact BitVec.extractLsb'_eq_self.symm

theorem eq_low_fields (low : BitVec 12) :
    low = low.extractLsb' 11 1 ++ low.extractLsb' 2 9 ++ low.extractLsb' 0 2 := by
  iterate 2 rw [BitVec.extractLsb'_append_extractLsb'_eq_extractLsb' (by rfl)]
  exact BitVec.extractLsb'_eq_self.symm

theorem extract_low_fields (b : BitVec 1) (imm9 : BitVec 9) (idx : BitVec 2) :
    (b ++ imm9 ++ idx).extractLsb' 11 1 = b ∧ (b ++ imm9 ++ idx).extractLsb' 2 9 = imm9
      ∧ (b ++ imm9 ++ idx).extractLsb' 0 2 = idx := by
  simp (disch := omega) only [BitVec.extractLsb'_append_eq_of_le,
    BitVec.extractLsb'_append_eq_of_add_le, BitVec.extractLsb'_eq_self, Nat.reduceSub, and_self]

/-- `decode_ldst` on a word that is written as its fields. -/
theorem decodeLdst_ldstWord (size : BitVec 2) (v : BitVec 4) (op24 opc : BitVec 2)
    (low : BitVec 12) (rn rt : BitVec 5) :
    decodeLdst (ldstWord size v op24 opc low rn rt) =
      let d : LdstDecoded :=
        { sizeLog2 := size.setWidth 32, rt := rt.setWidth 32, wnr := opc = 0
          writeback := false, rn := rn.setWidth 32, wbOffset := 0 }
      if v ≠ 0b1110 then none
      else if opc = 2 ∨ opc = 3 then none
      else if op24 = 0b01 then some d
      else if op24 = 0b00 then
        if low.extractLsb' 11 1 ≠ 0 then none
        else if low.extractLsb' 0 2 = 0b00 then some d
        else if low.extractLsb' 0 2 = 0b01 ∨ low.extractLsb' 0 2 = 0b11 then
          some { d with writeback := true, wbOffset := (low.extractLsb' 2 9).signExtend 32 }
        else none
      else none := by
  rw [decodeLdst_fields]
  simp (disch := omega) only [ldstWord, BitVec.extractLsb'_append_eq_of_le,
    BitVec.extractLsb'_append_eq_of_add_le, BitVec.extractLsb'_eq_self, Nat.reduceSub]

/-! ## Decoding undoes encoding -/

theorem LdstInsn.opc_lt (i : LdstInsn) : ¬(i.opc = 2 ∨ i.opc = 3) := by
  unfold opc
  cases i.load <;> decide

theorem LdstInsn.opc_eq_zero (i : LdstInsn) : decide (i.opc = 0) = !i.load := by
  unfold opc
  cases i.load <;> decide

theorem decodeLdst_encode (i : LdstInsn) : decodeLdst i.encode = some i.decoded := by
  rw [encode_eq, decodeLdst_ldstWord]
  simp only [ne_eq, not_true, if_false, i.opc_lt, i.opc_eq_zero, LdstInsn.decoded]
  cases hform : i.form with
  | unsignedOffset imm12 => rfl
  | unscaled imm9 =>
      obtain ⟨hbit, -, hidx⟩ := extract_low_fields 0b0#1 imm9 0b00#2
      simp only [LdstForm.op24, LdstForm.low, hbit, hidx]
      rfl
  | postIndexed imm9 =>
      obtain ⟨hbit, himm, hidx⟩ := extract_low_fields 0b0#1 imm9 0b01#2
      simp only [LdstForm.op24, LdstForm.low, hbit, himm, hidx]
      rfl
  | preIndexed imm9 =>
      obtain ⟨hbit, himm, hidx⟩ := extract_low_fields 0b0#1 imm9 0b11#2
      simp only [LdstForm.op24, LdstForm.low, hbit, himm, hidx]
      rfl

/-- The `opc` values the decoder accepts are those of a store and a load. -/
theorem exists_opc {opc : BitVec 2} (h : ¬(opc = 2 ∨ opc = 3)) :
    ∃ load : Bool, (if load then 0b01 else 0b00) = opc := by
  revert opc
  decide

/-- Whatever the decoder accepts is an encoding. -/
theorem exists_encode {w : BitVec 32} {d : LdstDecoded} (h : decodeLdst w = some d) :
    ∃ i : LdstInsn, i.encode = w := by
  rw [eq_ldstWord w] at h ⊢
  generalize w.extractLsb' 30 2 = size at h ⊢
  generalize w.extractLsb' 26 4 = v at h ⊢
  generalize w.extractLsb' 24 2 = op24 at h ⊢
  generalize w.extractLsb' 22 2 = opc at h ⊢
  generalize w.extractLsb' 10 12 = low at h ⊢
  generalize w.extractLsb' 5 5 = rn at h ⊢
  generalize w.extractLsb' 0 5 = rt at h ⊢
  rw [decodeLdst_ldstWord] at h
  simp only at h
  split_ifs at h with hv hopc h01 h00 hbit hidx hidx'
  all_goals obtain ⟨load, rfl⟩ := exists_opc hopc
  all_goals rw [Decidable.not_not.mp hv]
  · rw [h01]
    exact ⟨⟨size, load, .unsignedOffset low, rn, rt⟩, rfl⟩
  · rw [h00, eq_low_fields low, Decidable.not_not.mp hbit, hidx]
    exact ⟨⟨size, load, .unscaled (low.extractLsb' 2 9), rn, rt⟩, rfl⟩
  · rw [h00, eq_low_fields low, Decidable.not_not.mp hbit]
    rcases hidx' with hpost | hpre
    · rw [hpost]
      exact ⟨⟨size, load, .postIndexed (low.extractLsb' 2 9), rn, rt⟩, rfl⟩
    · rw [hpre]
      exact ⟨⟨size, load, .preIndexed (low.extractLsb' 2 9), rn, rt⟩, rfl⟩

theorem wbOffset_range (i : LdstInsn) :
    i.decoded.wbOffset.toInt = (i.form.writeback.getD 0).toInt
      ∧ -256 ≤ i.decoded.wbOffset.toInt ∧ i.decoded.wbOffset.toInt ≤ 255 := by
  have hext : i.decoded.wbOffset.toInt = (i.form.writeback.getD 0).toInt :=
    BitVec.toInt_signExtend_of_le (by decide)
  have hlo : -256 ≤ (i.form.writeback.getD 0).toInt := BitVec.le_toInt _
  have hhi : (i.form.writeback.getD 0).toInt < 256 := BitVec.toInt_lt
  rw [hext]
  exact ⟨rfl, hlo, by omega⟩

/-- **The decoder accepts exactly its instruction class.** A word is accepted
if and only if it encodes an `STR` or `LDR` (immediate) of a general
register, and then the operands of that instruction are returned. -/
theorem decodeLdst_exact :
    (∀ w : BitVec 32, (decodeLdst w).isSome = true ↔ ∃ i : LdstInsn, i.encode = w)
      ∧ (∀ i : LdstInsn, decodeLdst i.encode = some i.decoded)
      ∧ ∀ i : LdstInsn, i.decoded.wbOffset.toInt = (i.form.writeback.getD 0).toInt
        ∧ -256 ≤ i.decoded.wbOffset.toInt ∧ i.decoded.wbOffset.toInt ≤ 255 := by
  refine ⟨fun w => ⟨?_, ?_⟩, decodeLdst_encode, wbOffset_range⟩
  · intro h
    obtain ⟨d, hd⟩ := Option.isSome_iff_exists.mp h
    exact exists_encode hd
  · rintro ⟨i, rfl⟩
    rw [decodeLdst_encode]
    rfl

-- `ldr w1, [x2, #4]!`
example : decodeLdst 0xB8404C41 = some ⟨2, 1, false, true, 2, 4⟩ := by decide

end ArmHyp
