import ArmHyp.HvfHost

/-!
# Emulating a load or store

`execLdst` is what the architecture makes of a load or store that hits the
PL011, with the device 32 bits wide. The launcher's emulation decodes the
instruction and does the same but for one thing: base register 31 is never
written back (`Aborts.afterExit_eq`). So it is right for every instruction
except a pre- or post-indexed one that moves SP.
-/

namespace ArmHyp

namespace Hvf

/-! ## The reference -/

/-- Register 31 is the zero register as a transfer register. -/
def Host.xzr (h : Host) (r : BitVec 5) : BitVec 64 := if r = 31 then 0 else h.x r.toNat

def Host.setXzr (r : BitVec 5) (v : BitVec 64) (h : Host) : Host :=
  if r = 31 then h else { h with x := Function.update h.x r.toNat v }

/-- Register 31 is SP as a base register. -/
def Host.xsp (h : Host) (r : BitVec 5) : BitVec 64 := if r = 31 then h.sp else h.x r.toNat

def Host.setXsp (r : BitVec 5) (v : BitVec 64) (h : Host) : Host :=
  if r = 31 then { h with sp := v } else { h with x := Function.update h.x r.toNat v }

/-- Bits transferred; a doubleword access is taken as a word access. -/
def datumBits (size : BitVec 2) : Nat := if size = 0 then 8 else if size = 1 then 16 else 32

/-- The transfer between `Rt` and the PL011. -/
def transfer (i : LdstInsn) (off : BitVec 32) (h : Host) : Host :=
  if i.load then
    h.setXzr i.rt (((pl011Read off h.pl011).setWidth (datumBits i.size)).setWidth 64)
  else
    let datum := ((h.xzr i.rt).setWidth (datumBits i.size)).setWidth 32
    { h with pl011 := pl011Write off datum h.pl011 }

/-- **Reference.** A load or store of the PL011 register at `ipa`: the
transfer, the writeback of `Rn` plus the offset, and the next PC. -/
def execLdst (i : LdstInsn) (ipa : BitVec 64) (h : Host) : Host :=
  let h' := transfer i ((ipa - pl011Base).setWidth 32) h
  let h' :=
    match i.form.writeback with
    | some imm9 => h'.setXsp i.rn (h.xsp i.rn + imm9.signExtend 64)
    | none => h'
  { h' with pc := h.pc + 4 }

/-! ## Registers and masks -/

theorem setWidth_eq_31 (r : BitVec 5) : r.setWidth 32 = 31 ↔ r = 31 := by
  revert r
  decide

theorem toNat_setWidth_reg (r : BitVec 5) : (r.setWidth 32).toNat = r.toNat := by
  have hr : r.toNat < 32 := r.isLt
  rw [BitVec.toNat_setWidth]
  exact Nat.mod_eq_of_lt (by omega)

theorem readGpr_reg (r : BitVec 5) (h : Host) : readGpr (r.setWidth 32) h = h.xzr r := by
  rw [readGpr, Host.xzr, toNat_setWidth_reg]
  simp only [setWidth_eq_31]

theorem writeGpr_reg (r : BitVec 5) (v : BitVec 64) (h : Host) :
    writeGpr (r.setWidth 32) v h = h.setXzr r v := by
  rw [writeGpr, Host.setXzr, toNat_setWidth_reg]
  simp only [setWidth_eq_31]

/-- `mask_for_size` keeps the bits transferred. -/
theorem maskForSize_size (size : BitVec 2) :
    maskForSize (size.setWidth 32) = BitVec.ofNat 32 (2 ^ datumBits size - 1) := by
  revert size
  decide

theorem datumBits_le (size : BitVec 2) : datumBits size ≤ 32 := by
  revert size
  decide

theorem load_mask (size : BitVec 2) (v : BitVec 32) :
    (v &&& maskForSize (size.setWidth 32)).setWidth 64
      = (v.setWidth (datumBits size)).setWidth 64 := by
  have hle := datumBits_le size
  rw [maskForSize_size, ← BitField.low_bits_eq]
  exact BitVec.setWidth_setWidth (by omega)

theorem store_mask (size : BitVec 2) (v : BitVec 64) :
    (v &&& (maskForSize (size.setWidth 32)).setWidth 64).setWidth 32
      = (v.setWidth (datumBits size)).setWidth 32 := by
  have hmask : (maskForSize (size.setWidth 32)).setWidth 64
      = BitVec.ofNat 64 (2 ^ datumBits size - 1) := by
    revert size
    decide
  rw [hmask, ← BitField.low_bits_eq]
  exact BitVec.setWidth_setWidth_of_le _ (by decide)

/-! ## The emulation -/

theorem mmioAccess_decoded (i : LdstInsn) (off : BitVec 32) (h : Host) :
    mmioAccess i.decoded off h = transfer i off h := by
  simp only [mmioAccess, transfer, LdstInsn.decoded, readGpr_reg, writeGpr_reg, load_mask,
    store_mask]
  cases i.load <;> rfl

theorem writebackRn_decoded (i : LdstInsn) (h : Host) :
    writebackRn i.decoded h = match i.form.writeback with
      | some imm9 => if i.rn = 31 then h else h.setXsp i.rn (h.xsp i.rn + imm9.signExtend 64)
      | none => h := by
  cases hform : i.form.writeback with
  | none =>
      have hwb : i.decoded.writeback = false := by
        rw [LdstInsn.decoded, hform]
        rfl
      rw [writebackRn, if_neg fun hx => Bool.false_ne_true (hwb.symm.trans hx.1)]
  | some imm9 =>
      have hwb : i.decoded.writeback = true := by
        rw [LdstInsn.decoded, hform]
        rfl
      have hoff : i.decoded.wbOffset.signExtend 64 = imm9.signExtend 64 := by
        have hwide : (9 : Nat) ≤ 64 := by decide
        rw [LdstInsn.decoded, hform]
        apply BitVec.eq_of_toInt_eq
        rw [BitVec.toInt_signExtend_of_le (by decide), BitVec.toInt_signExtend_of_le hwide]
        exact BitVec.toInt_signExtend_of_le (by decide)
      have hrn : i.decoded.rn = i.rn.setWidth 32 := rfl
      by_cases h31 : i.rn = 31
      · have hdec : i.decoded.rn = 31 := by
          rw [hrn, setWidth_eq_31]
          exact h31
        rw [writebackRn, if_neg fun hx => hx.2 hdec]
        exact (if_pos h31).symm
      · have hdec : i.decoded.rn ≠ 31 := by
          rw [hrn, ne_eq, setWidth_eq_31]
          exact h31
        rw [writebackRn, if_pos ⟨hwb, hdec⟩, hoff, hrn, toNat_setWidth_reg]
        simp only [if_neg h31, Host.setXsp, Host.xsp]

theorem transfer_sp (i : LdstInsn) (off : BitVec 32) (h : Host) : (transfer i off h).sp = h.sp := by
  unfold transfer Host.setXzr
  split_ifs <;> rfl

theorem transfer_pc (i : LdstInsn) (off : BitVec 32) (h : Host) : (transfer i off h).pc = h.pc := by
  unfold transfer Host.setXzr
  split_ifs <;> rfl

/-- The transfer leaves every register but `Rt` alone. -/
theorem transfer_x (i : LdstInsn) (off : BitVec 32) (h : Host) {r : BitVec 5} (hr : r ≠ i.rt) :
    (transfer i off h).x r.toNat = h.x r.toNat := by
  have hne : r.toNat ≠ i.rt.toNat := fun heq => hr (BitVec.eq_of_toNat_eq heq)
  unfold transfer Host.setXzr
  split_ifs
  · rfl
  · exact Function.update_of_ne hne _ _
  · rfl

/-- What the launcher gets wrong: SP stays as it is. -/
theorem emulated_eq (i : LdstInsn) (ipa : BitVec 64) (h : Host)
    (hcu : i.form.writeback ≠ none → i.rt = i.rn → i.rn = 31) :
    { writebackRn i.decoded (mmioAccess i.decoded ((ipa - pl011Base).setWidth 32) h) with
        pc := (writebackRn i.decoded
          (mmioAccess i.decoded ((ipa - pl011Base).setWidth 32) h)).pc + 4 }
      = { execLdst i ipa h with sp := h.sp } := by
  rw [mmioAccess_decoded, writebackRn_decoded, execLdst]
  generalize (ipa - pl011Base).setWidth 32 = off
  have hsp := transfer_sp i off h
  have hpc := transfer_pc i off h
  cases hform : i.form.writeback with
  | none => simp only [hpc, ← hsp]
  | some imm9 =>
      by_cases h31 : i.rn = 31
      · simp only [if_pos h31, Host.setXsp, hpc, ← hsp]
      · have hne : i.rn ≠ i.rt := by
          intro heq
          exact h31 (hcu (by rw [hform]; exact Option.some_ne_none _) heq.symm)
        simp only [if_neg h31, Host.setXsp, Host.xsp, transfer_x i off h hne, hpc, ← hsp]

/-- A data abort of the load or store `i` at the guest's PC, without a
syndrome, on the PL011's page. -/
structure Aborts (i : LdstInsn) (esr ipa : BitVec 64) (h : Host) : Prop where
  ec : esr >>> 26 &&& 0x3f = 0x24 ∨ esr >>> 26 &&& 0x3f = 0x25
  isv : esr.getLsbD 24 = false
  pc_lo : guestRamBase.toNat ≤ h.pc.toNat
  pc_hi : h.pc.toNat + 4 ≤ guestRamBase.toNat + guestRamSize.toNat
  stored : fetch h.ram (h.pc - guestRamBase).toNat = i.encode
  page : inPl011Range ipa = true

/-- A field of the syndrome. -/
theorem iss_field (esr : BitVec 64) {k n : Nat} (h : k + n ≤ 25) :
    (esr &&& 0x1FFFFFF) >>> k &&& BitVec.ofNat 64 (2 ^ n - 1)
      = (esr.extractLsb' k n).setWidth 64 := by
  have hmask : (0x1FFFFFF : BitVec 64) = BitVec.ofNat 64 (2 ^ 25 - 1) := by decide
  rw [hmask, BitField.shift_and_mask, BitField.extract_and_mask esr h]

/-- A bit of the syndrome, as `isv` and `wnr` are tested. -/
theorem iss_bit (esr : BitVec 64) {k : Nat} (h : k < 25) :
    (esr &&& 0x1FFFFFF) >>> k &&& 1 ≠ 0 ↔ esr.getLsbD k = true := by
  have hfield : (esr &&& 0x1FFFFFF) >>> k &&& 1 = (esr.extractLsb' k 1).setWidth 64 :=
    iss_field esr (n := 1) h
  have hbit : (esr.extractLsb' k 1).getLsbD 0 = esr.getLsbD k := by
    rw [BitVec.getLsbD_extractLsb', Nat.add_zero]
    rfl
  rw [hfield, ← hbit]
  generalize esr.extractLsb' k 1 = v
  revert v
  decide

/-- No syndrome: the launcher has to look at the instruction. -/
theorem isv_clear {esr : BitVec 64} (hisv : esr.getLsbD 24 = false) :
    ¬ ((esr &&& 0x1FFFFFF) >>> 24 &&& 1 ≠ 0) := by
  rw [iss_bit esr (by decide), hisv]
  exact Bool.false_ne_true

/-- The PC is inside guest RAM, and the load or store `i` is stored there. -/
structure StoredAt (i : LdstInsn) (h : Host) : Prop where
  pc_lo : guestRamBase.toNat ≤ h.pc.toNat
  pc_hi : h.pc.toNat + 4 ≤ guestRamBase.toNat + guestRamSize.toNat
  stored : fetch h.ram (h.pc - guestRamBase).toNat = i.encode

/-- The launcher's own test of the PC. -/
def PcOutside (pc : BitVec 64) : Prop :=
  pc < guestRamBase ∨ pc + 4 > guestRamBase + guestRamSize

instance pcOutside_decidable (pc : BitVec 64) : Decidable (PcOutside pc) :=
  inferInstanceAs (Decidable (_ ∨ _))

theorem guestRam_toNat :
    guestRamBase.toNat = 0x40000000 ∧ guestRamSize.toNat = 0x20000000 := by decide

theorem pcOutside_iff (pc : BitVec 64) :
    PcOutside pc ↔ pc.toNat < 0x40000000 ∨ 0x60000000 < (pc.toNat + 4) % 2 ^ 64 := by
  have hpc4 : (pc + 4).toNat = (pc.toNat + 4) % 2 ^ 64 := BitVec.toNat_add pc 4
  have hhi : (guestRamBase + guestRamSize).toNat = 0x60000000 := by decide
  rw [PcOutside, gt_iff_lt, BitVec.lt_def, BitVec.lt_def, hpc4, guestRam_toNat.1, hhi]

section Abort

variable {i : LdstInsn} {esr ipa : BitVec 64} {h : Host}

theorem StoredAt.not_outside (hst : StoredAt i h) : ¬ PcOutside h.pc := by
  obtain ⟨hbase, hsize⟩ := guestRam_toNat
  have hlo := hst.pc_lo
  have hhi := hst.pc_hi
  rw [pcOutside_iff]
  omega

theorem StoredAt.decodeAbort (hst : StoredAt i h) (hisv : esr.getLsbD 24 = false) :
    decodeAbort esr ipa h = .ok i.decoded := by
  have hin : ¬ (h.pc < guestRamBase ∨ h.pc + 4 > guestRamBase + guestRamSize) := hst.not_outside
  rw [Hvf.decodeAbort, if_neg (isv_clear hisv), if_neg hin, hst.stored]
  simp only [decodeLdst_encode]

theorem Aborts.storedAt (ha : Aborts i esr ipa h) : StoredAt i h := ⟨ha.pc_lo, ha.pc_hi, ha.stored⟩

/-- What the launcher does is right but for SP. -/
theorem Aborts.afterExit_eq (ha : Aborts i esr ipa h)
    (hcu : i.form.writeback ≠ none → i.rt = i.rn → i.rn = 31) :
    afterExit (.exception esr ipa) h = some { execLdst i ipa h with sp := h.sp } := by
  have hpage : ¬ inPl011Range ipa = false := by
    rw [ha.page]
    decide
  simp only [afterExit, if_pos ha.ec, handleDataAbort, ha.storedAt.decodeAbort ha.isv, if_neg hpage]
  exact congrArg some (emulated_eq i ipa h hcu)

end Abort

/-- The instruction moves SP. -/
def MovesSp (i : LdstInsn) : Prop := i.rn = 31 ∧ ∃ imm9, i.form.writeback = some imm9 ∧ imm9 ≠ 0

theorem execLdst_sp_iff (i : LdstInsn) (ipa : BitVec 64) (h : Host) :
    (execLdst i ipa h).sp = h.sp ↔ ¬ MovesSp i := by
  have hsp := transfer_sp i ((ipa - pl011Base).setWidth 32) h
  unfold MovesSp
  cases hform : i.form.writeback with
  | none =>
      refine iff_of_true ?_ ?_
      · simp only [execLdst, hform, hsp]
      · rintro ⟨-, imm9, hsome, -⟩
        cases hsome
  | some imm9 =>
      by_cases h31 : i.rn = 31
      · have hexec : (execLdst i ipa h).sp = h.sp + imm9.signExtend 64 := by
          simp only [execLdst, hform, Host.setXsp, Host.xsp, if_pos h31]
        have hzero : imm9.signExtend 64 = 0#64 ↔ imm9 = 0 := by
          rw [← BitVec.toInt_inj, BitVec.toInt_signExtend_of_le (by decide), ← BitVec.toInt_inj]
          rfl
        rw [hexec, BitVec.add_right_eq_self, hzero]
        constructor
        · rintro hnil ⟨-, imm, hsome, hne⟩
          exact hne (Option.some.inj hsome ▸ hnil)
        · intro hmoves
          by_contra hne
          exact hmoves ⟨h31, imm9, rfl, hne⟩
      · refine iff_of_true ?_ fun hmoves => h31 hmoves.1
        simp only [execLdst, hform, Host.setXsp, if_neg h31, hsp]

/-- **Emulated loads and stores.** For every load or store the decoder
accepts, the launcher does what the architecture prescribes exactly if the
instruction does not move SP. -/
theorem hvf_executes_iff (i : LdstInsn) (esr ipa : BitVec 64) (h : Host) (ha : Aborts i esr ipa h)
    (hcu : i.form.writeback ≠ none → i.rt = i.rn → i.rn = 31) :
    afterExit (.exception esr ipa) h = some (execLdst i ipa h) ↔ ¬ MovesSp i := by
  rw [ha.afterExit_eq hcu, Option.some_inj, ← execLdst_sp_iff i ipa h]
  constructor
  · intro heq
    exact (congrArg Host.sp heq).symm
  · intro hsp
    rw [← hsp]

/-- A guest with one instruction at the start of its RAM. -/
def oneInsn (i : LdstInsn) : Host where
  x := fun _ => 0x41
  sp := 0x40100000
  pc := guestRamBase
  pl011 := default
  ram := fun k => i.encode.extractLsb' (8 * k) 8

/-- `ldr w1, [x2], #4`. -/
theorem hvf_executes_iff_post_indexed :
    afterExit (.exception 0x94000000 0x09000030) (oneInsn ⟨2, true, .postIndexed 4, 2, 1⟩)
      = some (execLdst ⟨2, true, .postIndexed 4, 2, 1⟩ 0x09000030
          (oneInsn ⟨2, true, .postIndexed 4, 2, 1⟩)) :=
  (hvf_executes_iff ⟨2, true, .postIndexed 4, 2, 1⟩ 0x94000000 0x09000030 _
    ⟨by decide, by decide, by decide, by decide, by decide, by decide⟩ (by decide)).mpr
    fun hmoves => absurd hmoves.1 (by decide)

/-- `str w0, [sp], #4`: the character is sent, SP is not advanced. -/
theorem hvf_skips_sp_writeback :
    Aborts ⟨2, false, .postIndexed 4, 31, 0⟩ 0x94000040 0x09000000
        (oneInsn ⟨2, false, .postIndexed 4, 31, 0⟩)
      ∧ (execLdst ⟨2, false, .postIndexed 4, 31, 0⟩ 0x09000000
          (oneInsn ⟨2, false, .postIndexed 4, 31, 0⟩)).sp = 0x40100004
      ∧ (afterExit (.exception 0x94000040 0x09000000)
          (oneInsn ⟨2, false, .postIndexed 4, 31, 0⟩)).map (fun h => (h.sp, h.pl011.out))
        = some (0x40100000, [0x41]) :=
  ⟨⟨by decide, by decide, by decide, by decide, by decide, by decide⟩, by decide, by decide⟩

end Hvf

end ArmHyp
