import ArmHyp.Checked
import ArmHyp.HvfExec

/-!
# Aborts the launcher does not handle

`handle_data_abort` gives up in three places, all before its first effect,
and reads host memory in one: the instruction at the guest's PC.
`runDataAbort` is the function with its boolean result, the vCPU and the
PL011 it leaves, and that read as an access to the RAM buffer. As long as
the read is inside the buffer it is `handleDataAbort` (`runDataAbort_eq`);
the test of the PC keeps it there unless `pc + 4` wraps.

The same access can be described by the syndrome or by the instruction. For
the forms that have a syndrome the two descriptions differ in the base
register only, which is not used.
-/

namespace ArmHyp

namespace Hvf

open Checked

/-! ## The function with its effects -/

/-- From the test of the page on. -/
def finishAbort (d : LdstDecoded) (ipa : BitVec 64) (h : Host) : Bool × Host :=
  if inPl011Range ipa = false then (false, h)
  else (true, writebackRn d (mmioAccess d ((ipa - pl011Base).setWidth 32) h))

/-- `memcpy(&insn, ram + (pc - GUEST_RAM_BASE), 4)`. -/
def fetchInsn (h : Host) : Checked Empty (BitVec 64) (BitVec 32) :=
  Checked.access (InRange (h.pc - guestRamBase) 4 guestRamSize.toNat) (h.pc - guestRamBase)
    (fetch h.ram (h.pc - guestRamBase).toNat)

/-- The access a valid syndrome describes. -/
def issDecoded (iss : BitVec 64) : LdstDecoded where
  sizeLog2 := (iss >>> 22 &&& 3).setWidth 32
  rt := (iss >>> 16 &&& 0x1F).setWidth 32
  wnr := iss >>> 6 &&& 1 ≠ 0
  writeback := false
  rn := 0
  wbOffset := 0

/-- `handle_data_abort`: its result, and the vCPU and PL011 it leaves. -/
def runDataAbort (esr ipa : BitVec 64) (h : Host) : Checked Empty (BitVec 64) (Bool × Host) :=
  let iss := esr &&& 0x1FFFFFF
  if iss >>> 24 &&& 1 ≠ 0 then .ok (finishAbort (issDecoded iss) ipa h)
  else if PcOutside h.pc then .ok (false, h)
  else do
    let insn ← fetchInsn h
    match decodeLdst insn with
    | some d => .ok (finishAbort d ipa h)
    | none => .ok (false, h)

/-- The result and the state that an outcome of `handleDataAbort` stands for. -/
def abortOutcome (h : Host) : Except AbortError Host → Bool × Host
  | .ok h' => (true, h')
  | .error _ => (false, h)

section Run

variable {esr : BitVec 64} (ipa : BitVec 64) {h : Host}

theorem handleDataAbort_decoded {ipa : BitVec 64} {d : LdstDecoded}
    (hd : decodeAbort esr ipa h = .ok d) :
    abortOutcome h (handleDataAbort esr ipa h) = finishAbort d ipa h := by
  rw [handleDataAbort, hd, finishAbort]
  simp only
  split_ifs
  · rfl
  · rfl

theorem runDataAbort_isv (h : Host) (hisv : esr.getLsbD 24 = true) :
    runDataAbort esr ipa h = .ok (finishAbort (issDecoded (esr &&& 0x1FFFFFF)) ipa h)
      ∧ decodeAbort esr ipa h = .ok (issDecoded (esr &&& 0x1FFFFFF)) := by
  have hset := (iss_bit esr (by decide : 24 < 25)).mpr hisv
  exact ⟨if_pos hset, if_pos hset⟩

theorem runDataAbort_outside (hisv : esr.getLsbD 24 = false) (hpc : PcOutside h.pc) :
    runDataAbort esr ipa h = .ok (false, h)
      ∧ handleDataAbort esr ipa h = .error (.pcOutsideRam h.pc) := by
  have hdec : decodeAbort esr ipa h = .error (.pcOutsideRam h.pc) :=
    (if_neg (isv_clear hisv)).trans (if_pos hpc)
  refine ⟨(if_neg (isv_clear hisv)).trans (if_pos hpc), ?_⟩
  rw [handleDataAbort, hdec]

theorem runDataAbort_fetch (hisv : esr.getLsbD 24 = false) (hpc : ¬ PcOutside h.pc) :
    runDataAbort esr ipa h = fetchInsn h >>= fun insn =>
        match decodeLdst insn with
        | some d => .ok (finishAbort d ipa h)
        | none => .ok (false, h) :=
  (if_neg (isv_clear hisv)).trans (if_neg hpc)

/-- While the fetch is inside the buffer, the function is `handleDataAbort`. -/
theorem runDataAbort_eq (hin : esr.getLsbD 24 = false → ¬ PcOutside h.pc →
      InRange (h.pc - guestRamBase) 4 guestRamSize.toNat) :
    runDataAbort esr ipa h = .ok (abortOutcome h (handleDataAbort esr ipa h)) := by
  cases hisv : esr.getLsbD 24 with
  | true =>
      obtain ⟨hrun, hdec⟩ := runDataAbort_isv ipa h hisv
      rw [hrun, handleDataAbort_decoded hdec]
  | false =>
      by_cases hpc : PcOutside h.pc
      · obtain ⟨hrun, habort⟩ := runDataAbort_outside ipa hisv hpc
        rw [hrun, habort]
        rfl
      · have hdec : decodeAbort esr ipa h
            = match decodeLdst (fetch h.ram (h.pc - guestRamBase).toNat) with
              | some d => .ok d
              | none => .error (.cannotDecode (fetch h.ram (h.pc - guestRamBase).toNat) h.pc ipa) :=
          (if_neg (isv_clear hisv)).trans (if_neg hpc)
        rw [runDataAbort_fetch ipa hisv hpc, fetchInsn, access_of (hin hisv hpc), ok_bind]
        cases hld : decodeLdst (fetch h.ram (h.pc - guestRamBase).toNat) with
        | some d =>
            rw [hld] at hdec
            simp only [handleDataAbort_decoded hdec]
        | none =>
            rw [hld] at hdec
            simp only [handleDataAbort, hdec, abortOutcome]

end Run

/-! ## The fetch -/

/-- The test lets through the last four PCs of the address space. -/
theorem not_pcOutside_of_wrap {pc : BitVec 64} (h : 2 ^ 64 ≤ pc.toNat + 4) : ¬ PcOutside pc := by
  have hpc : pc.toNat < 2 ^ 64 := pc.isLt
  rw [pcOutside_iff]
  omega

/-- Where the test lets a PC through, the fetch is inside the buffer exactly
if `pc + 4` does not wrap. -/
theorem fetch_inRange_iff {pc : BitVec 64} (hpc : ¬ PcOutside pc) :
    InRange (pc - guestRamBase) 4 guestRamSize.toNat ↔ pc.toNat + 4 < 2 ^ 64 := by
  have hlt : pc.toNat < 2 ^ 64 := pc.isLt
  obtain ⟨hlo, hsize⟩ := guestRam_toNat
  rw [pcOutside_iff] at hpc
  have hoff : (pc - guestRamBase).toNat = pc.toNat - guestRamBase.toNat := by
    refine BitVec.toNat_sub_of_le (BitVec.le_def.mpr ?_)
    omega
  rw [inRange_iff guestRamSize.isLt, hoff, hlo, hsize]
  omega

/-! ## Aborts that are not handled -/

/-- The abort has no effect, or is one on the PL011's page; and what is
fetched is inside guest RAM. -/
def AbortContained (esr ipa : BitVec 64) (h : Host) : Prop :=
  (∃ handled h', runDataAbort esr ipa h = .ok (handled, h')
      ∧ (handled = false ∧ h' = h ∨ handled = true ∧ inPl011Range ipa = true))
    ∧ (esr.getLsbD 24 = false → ¬ PcOutside h.pc →
        InRange (h.pc - guestRamBase) 4 guestRamSize.toNat)

theorem handleDataAbort_page {esr ipa : BitVec 64} {h h' : Host}
    (hok : handleDataAbort esr ipa h = .ok h') : inPl011Range ipa = true := by
  rw [handleDataAbort] at hok
  split at hok
  · cases hok
  · split_ifs at hok with hpage
    exact eq_true_of_ne_false hpage

/-- **Unhandled aborts.** A data abort is contained exactly if it comes with
a syndrome or the PC is not one of the last four addresses. -/
theorem data_abort_contained_iff (esr ipa : BitVec 64) (h : Host) :
    AbortContained esr ipa h ↔ esr.getLsbD 24 = true ∨ h.pc.toNat + 4 < 2 ^ 64 := by
  constructor
  · rintro ⟨-, hfetch⟩
    by_contra hcond
    rw [not_or, Bool.not_eq_true, Nat.not_lt] at hcond
    obtain ⟨hisv, hwrap⟩ := hcond
    have hpc := not_pcOutside_of_wrap hwrap
    have hlt := (fetch_inRange_iff hpc).mp (hfetch hisv hpc)
    omega
  · intro hcond
    have hfetch : esr.getLsbD 24 = false → ¬ PcOutside h.pc →
        InRange (h.pc - guestRamBase) 4 guestRamSize.toNat := by
      intro hisv hpc
      rw [hisv] at hcond
      exact (fetch_inRange_iff hpc).mpr (hcond.resolve_left Bool.false_ne_true)
    refine ⟨?_, hfetch⟩
    rw [runDataAbort_eq ipa hfetch]
    cases hok : handleDataAbort esr ipa h with
    | ok h' => exact ⟨true, h', rfl, Or.inr ⟨rfl, handleDataAbort_page hok⟩⟩
    | error e => exact ⟨false, h, rfl, Or.inl ⟨rfl, rfl⟩⟩

/-- The last aligned PC: `pc + 4` is 0, the test passes, and the instruction is
fetched far outside the buffer. -/
theorem data_abort_wrapped_pc :
    ¬ PcOutside 0xFFFFFFFFFFFFFFFC
      ∧ runDataAbort 0x94000000 0x09000000
          { oneInsn ⟨2, true, .unscaled 0, 0, 0⟩ with pc := 0xFFFFFFFFFFFFFFFC }
        = .escape 0xFFFFFFFFBFFFFFFC
      ∧ ¬ AbortContained 0x94000000 0x09000000
          { oneInsn ⟨2, true, .unscaled 0, 0, 0⟩ with pc := 0xFFFFFFFFFFFFFFFC } := by
  have hrun : runDataAbort 0x94000000 0x09000000
      { oneInsn ⟨2, true, .unscaled 0, 0, 0⟩ with pc := 0xFFFFFFFFFFFFFFFC }
        = .escape 0xFFFFFFFFBFFFFFFC := by rfl
  refine ⟨by decide, hrun, ?_⟩
  rintro ⟨⟨handled, h', hok, -⟩, -⟩
  rw [hrun] at hok
  cases hok

/-! ## The two descriptions of an access -/

/-- The syndrome the architecture gives the load or store `w`: `SAS` is its
`size`, `SRT` its `Rt`, and `WnR` is set for a store. -/
structure SyndromeOf (w : BitVec 32) (esr : BitVec 64) : Prop where
  isv : esr.getLsbD 24 = true
  sas : esr.extractLsb' 22 2 = w.extractLsb' 30 2
  srt : esr.extractLsb' 16 5 = w.extractLsb' 0 5
  wnr : esr.getLsbD 6 = !w.getLsbD 22

section Descriptions

variable {i : LdstInsn} {esr : BitVec 64}

theorem encode_fields (i : LdstInsn) : i.encode.extractLsb' 30 2 = i.size
    ∧ i.encode.extractLsb' 0 5 = i.rt ∧ i.encode.getLsbD 22 = i.load := by
  have hopc : i.encode.extractLsb' 22 2 = i.opc := by
    simp (disch := omega) only [LdstInsn.encode, BitVec.extractLsb'_append_eq_of_le,
      BitVec.extractLsb'_append_eq_of_add_le, BitVec.extractLsb'_eq_self, Nat.reduceSub]
  have hbit : i.encode.getLsbD 22 = i.opc.getLsbD 0 := by
    rw [← hopc, BitVec.getLsbD_extractLsb']
    rfl
  refine ⟨?_, ?_, ?_⟩
  · simp (disch := omega) only [LdstInsn.encode, BitVec.extractLsb'_append_eq_of_le,
      BitVec.extractLsb'_eq_self, Nat.reduceSub]
  · simp (disch := omega) only [LdstInsn.encode, BitVec.extractLsb'_append_eq_of_add_le,
      BitVec.extractLsb'_eq_self]
  · rw [hbit, LdstInsn.opc]
    cases i.load <;> rfl

/-- The syndrome says all of the access but its base register. -/
theorem SyndromeOf.decoded_eq (hs : SyndromeOf i.encode esr) (hform : i.form.writeback = none) :
    issDecoded (esr &&& 0x1FFFFFF) = { i.decoded with rn := 0 } := by
  obtain ⟨hesize, hert, heload⟩ := encode_fields i
  have hsas : (esr &&& 0x1FFFFFF) >>> 22 &&& 3 = i.size.setWidth 64 := by
    rw [← hesize, ← hs.sas]
    exact iss_field esr (n := 2) (by decide)
  have hsrt : (esr &&& 0x1FFFFFF) >>> 16 &&& 0x1F = i.rt.setWidth 64 := by
    rw [← hert, ← hs.srt]
    exact iss_field esr (n := 5) (by decide)
  have hwnr : decide ((esr &&& 0x1FFFFFF) >>> 6 &&& 1 ≠ 0) = !i.load := by
    rw [← heload, ← hs.wnr, Bool.eq_iff_iff, decide_eq_true_iff]
    exact iss_bit esr (by decide)
  have hsize : (i.size.setWidth 64).setWidth 32 = i.size.setWidth 32 :=
    BitVec.setWidth_setWidth (by decide)
  have hrt : (i.rt.setWidth 64).setWidth 32 = i.rt.setWidth 32 :=
    BitVec.setWidth_setWidth (by decide)
  simp only [issDecoded, LdstInsn.decoded, hsas, hsrt, hwnr, hsize, hrt, hform]
  rfl

/-- Without writeback the base register does not matter. -/
theorem finishAbort_rn {d : LdstDecoded} (hd : d.writeback = false) (r : BitVec 32)
    (ipa : BitVec 64) (h : Host) : finishAbort { d with rn := r } ipa h = finishAbort d ipa h := by
  have hwb : ∀ (d : LdstDecoded) (h : Host), d.writeback = false → writebackRn d h = h := by
    intro d h hd
    exact if_neg fun hx => Bool.false_ne_true (hd.symm.trans hx.1)
  have hmmio : ∀ off, mmioAccess { d with rn := r } off h = mmioAccess d off h := fun _ => rfl
  rw [finishAbort, finishAbort, hwb _ _ hd, hwb { d with rn := r } _ hd, hmmio]

theorem finishAbort_decoded (hform : i.form.writeback = none) {ipa : BitVec 64}
    (hpage : inPl011Range ipa = true) (h : Host) :
    finishAbort i.decoded ipa h = (true, transfer i ((ipa - pl011Base).setWidth 32) h) := by
  have hne : ¬ inPl011Range ipa = false := by
    rw [hpage]
    exact Bool.noConfusion
  rw [finishAbort, if_neg hne, mmioAccess_decoded, writebackRn_decoded, hform]

theorem runDataAbort_syndrome (hs : SyndromeOf i.encode esr) (hform : i.form.writeback = none)
    {ipa : BitVec 64} (hpage : inPl011Range ipa = true) (h : Host) :
    runDataAbort esr ipa h = .ok (true, transfer i ((ipa - pl011Base).setWidth 32) h) := by
  have hwb : i.decoded.writeback = false := by
    rw [LdstInsn.decoded, hform]
    rfl
  rw [(runDataAbort_isv ipa h hs.isv).1, hs.decoded_eq hform, finishAbort_rn hwb,
    finishAbort_decoded hform hpage]

theorem runDataAbort_stored {h : Host} (hst : StoredAt i h) (hisv : esr.getLsbD 24 = false)
    (hform : i.form.writeback = none) {ipa : BitVec 64} (hpage : inPl011Range ipa = true) :
    runDataAbort esr ipa h = .ok (true, transfer i ((ipa - pl011Base).setWidth 32) h) := by
  have hfetch : esr.getLsbD 24 = false → ¬ PcOutside h.pc →
      InRange (h.pc - guestRamBase) 4 guestRamSize.toNat := by
    intro _ hpc
    rw [fetch_inRange_iff hpc]
    have hhi := hst.pc_hi
    obtain ⟨hbase, hsize⟩ := guestRam_toNat
    omega
  rw [runDataAbort_eq ipa hfetch, handleDataAbort_decoded (hst.decodeAbort hisv),
    finishAbort_decoded hform hpage]

end Descriptions

/-- **The syndrome and the instruction describe the same access.** For every
word the decoder accepts without writeback and an access to the PL011's page,
the abort reported with its syndrome and the one reported without, with the
word at the PC, are both handled and leave the same vCPU and PL011. -/
theorem syndrome_agrees_with_decode {w : BitVec 32} {d : LdstDecoded}
    (hd : decodeLdst w = some d) (hwb : d.writeback = false) (esr esr' ipa : BitVec 64) (h : Host)
    (hs : SyndromeOf w esr) (hisv : esr'.getLsbD 24 = false)
    (hlo : guestRamBase.toNat ≤ h.pc.toNat)
    (hhi : h.pc.toNat + 4 ≤ guestRamBase.toNat + guestRamSize.toNat)
    (hw : fetch h.ram (h.pc - guestRamBase).toNat = w) (hpage : inPl011Range ipa = true) :
    ∃ h', runDataAbort esr ipa h = .ok (true, h') ∧ runDataAbort esr' ipa h = .ok (true, h') := by
  obtain ⟨i, rfl⟩ := exists_encode hd
  rw [decodeLdst_encode, Option.some.injEq] at hd
  subst hd
  have hform : i.form.writeback = none := by
    rw [← Option.isNone_iff_eq_none, ← Option.isSome_eq_false_iff]
    exact hwb
  exact ⟨_, runDataAbort_syndrome hs hform hpage h,
    runDataAbort_stored ⟨hlo, hhi, hw⟩ hisv hform hpage⟩

/-- `ldr w1, [x2, #48]`, which reads `UARTCR`. -/
theorem syndrome_agrees_with_decode_uartcr : ∃ h',
    runDataAbort 0x95810000 0x09000030 (oneInsn ⟨2, true, .unsignedOffset 12, 2, 1⟩)
        = .ok (true, h')
      ∧ runDataAbort 0x94000000 0x09000030 (oneInsn ⟨2, true, .unsignedOffset 12, 2, 1⟩)
        = .ok (true, h') :=
  syndrome_agrees_with_decode (decodeLdst_encode ⟨2, true, .unsignedOffset 12, 2, 1⟩) rfl
    0x95810000 0x94000000 0x09000030 _ ⟨by decide, by decide, by decide, by decide⟩ (by decide)
    (by decide) (by decide) (by decide) (by decide)

end Hvf

end ArmHyp
