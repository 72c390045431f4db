import ArmHyp.BitField
import ArmHyp.System
import Mathlib.Tactic.SplitIfs

/-!
# What an exit does to the trap frame

One lemma per handler says which frame it leaves: `handle_hvc` writes `x0`,
`handle_sysreg` the register a trapped MRS names, `vgic_mmio` the register
of a load, and all but `handle_hvc` then step `ELR_EL2` over the
instruction. The frame is flat, and `x[31]` is `elr_el2`, so the guards on
register 31 matter.
-/

namespace ArmHyp

open Machine

/-! ## Frames -/

namespace TrapFrame

theorem x_setX_of_ne (tf : TrapFrame) {i j : Nat} (hi : i < 31) (hj : j < 31) (h : i ≠ j)
    (v : BitVec 64) : (tf.setX j v).x i = tf.x i := by
  have hne : Fin.ofNat 34 i ≠ Fin.ofNat 34 j := by
    simp only [ne_eq, Fin.ext_iff, Fin.ofNat]
    omega
  simp only [x, setX, Function.update_of_ne hne]

theorem x_setX_self (tf : TrapFrame) (i : Nat) (v : BitVec 64) : (tf.setX i v).x i = v := by
  simp only [x, setX, Function.update_self]

theorem x_setElrEl2 (tf : TrapFrame) {i : Nat} (hi : i < 31) (v : BitVec 64) :
    (tf.setElrEl2 v).x i = tf.x i := by
  have hne : Fin.ofNat 34 i ≠ 31 := by
    simp only [ne_eq, Fin.ext_iff, Fin.ofNat]
    omega
  simp only [x, setElrEl2, Function.update_of_ne hne]

/-- Words past `x[30]` are not written through `x[]`. -/
theorem word_setX (tf : TrapFrame) {i : Nat} (hi : i < 31) {k : Fin 34} (hk : 31 ≤ k.val)
    (v : BitVec 64) : (tf.setX i v).word k = tf.word k := by
  have hne : k ≠ Fin.ofNat 34 i := by
    simp only [ne_eq, Fin.ext_iff, Fin.ofNat]
    omega
  simp only [setX, Function.update_of_ne hne]

theorem elrEl2_setElrEl2 (tf : TrapFrame) (v : BitVec 64) : (tf.setElrEl2 v).elrEl2 = v := by
  simp only [elrEl2, setElrEl2, Function.update_self]

theorem word_setElrEl2 (tf : TrapFrame) {k : Fin 34} (hk : k ≠ 31) (v : BitVec 64) :
    (tf.setElrEl2 v).word k = tf.word k := by
  simp only [setElrEl2, Function.update_of_ne hk]

theorem setElrEl2_self (tf : TrapFrame) : tf.setElrEl2 tf.elrEl2 = tf := by
  simp only [setElrEl2, elrEl2, Function.update_eq_self]

end TrapFrame

/-- `tf'` is `tf` up to the general register `r`, if any. -/
def TrapFrame.UpTo (r : Option Nat) (tf tf' : TrapFrame) : Prop :=
  match r with
  | some i => i < 31 ∧ ∃ v, tf' = tf.setX i v
  | none => tf' = tf

namespace TrapFrame.UpTo

variable {r : Option Nat} {tf tf' : TrapFrame}

theorem word_eq (h : UpTo r tf tf') {k : Fin 34} (hk : 31 ≤ k.val) : tf'.word k = tf.word k := by
  cases r with
  | none => rw [show tf' = tf from h]
  | some i =>
      obtain ⟨hi, v, rfl⟩ := h
      exact tf.word_setX hi hk v

theorem x_eq (h : UpTo r tf tf') {i : Nat} (hi : i < 31) (hr : r ≠ some i) :
    tf'.x i = tf.x i := by
  cases r with
  | none => rw [show tf' = tf from h]
  | some j =>
      obtain ⟨hj, v, rfl⟩ := h
      exact tf.x_setX_of_ne hi hj (fun hij => hr (congrArg some hij.symm)) v

theorem elrEl2_eq (h : UpTo r tf tf') : tf'.elrEl2 = tf.elrEl2 := h.word_eq (by decide)

theorem target_ne (h : UpTo r tf tf') : r ≠ some 31 := by
  rintro rfl
  exact absurd h.1 (by decide)

end TrapFrame.UpTo

/-! ## The registers an exit may write -/

/-- `(iss >> 5) & 0x1f` and `iss & 1` of a trapped MSR or MRS. -/
def sysregRt (esr : BitVec 64) : Nat := ((esr &&& 0x1ffffff).setWidth 32 >>> 5 &&& 0x1f#32).toNat

def sysregIsRead (esr : BitVec 64) : Prop := (esr &&& 0x1ffffff).setWidth 32 &&& 1#32 = 1

instance (esr : BitVec 64) : Decidable (sysregIsRead esr) := inferInstanceAs (Decidable (_ = _))

/-- `ipa` is in the GIC window. -/
def InGicWindow (ipa : BitVec 64) : Prop := gicdEmuBase ≤ ipa ∧ ipa < giccEmuLimit

instance (ipa : BitVec 64) : Decidable (InGicWindow ipa) := inferInstanceAs (Decidable (_ ∧ _))

/-- The register a data abort loads: only for a load with a valid syndrome,
and never register 31. -/
def loadTarget (iss : BitVec 64) : Option Nat :=
  if issIsv iss = true ∧ issWnr iss = false ∧ issSrt iss ≠ 31 then some (issSrt iss) else none

/-- The register a trapped system-register access writes. -/
def sysregTarget (esr : BitVec 64) : Option Nat :=
  if sysregIsRead esr ∧ sysregRt esr ≠ 31 then some (sysregRt esr) else none

theorem issSrt_lt (iss : BitVec 64) : issSrt iss < 32 := by
  rw [issSrt, BitVec.toNat_and]
  exact Nat.lt_of_le_of_lt Nat.and_le_right (by decide)

theorem sysregRt_lt (esr : BitVec 64) : sysregRt esr < 32 := by
  rw [sysregRt, BitVec.toNat_and]
  exact Nat.lt_of_le_of_lt Nat.and_le_right (by decide)

/-! ## The handlers -/

section Handlers

variable (m : Machine)

theorem gicdForward_tf (off sas : Nat) (wnr : Bool) (val : BitVec 32) :
    (gicdForward off sas wnr val m).2.tf = m.tf := by
  unfold gicdForward
  split <;> split <;> rfl

theorem giccEmulate_tf (id : Nat) (off : BitVec 32) (wnr : Bool) (val : BitVec 32) :
    (giccEmulate id off wnr val m).2.tf = m.tf := by
  cases wnr <;> rfl

theorem reassert_tf : (reassertPl011Rx (reassertHtimerPpi m)).tf = m.tf := rfl

/-- What a load from `ipa` in the GIC window returns. -/
def mmioLoad (ipa iss : BitVec 64) (m : Machine) : BitVec 32 :=
  if gicdEmuBase ≤ ipa ∧ ipa < gicdEmuLimit then
    (gicdForward (ipa - gicdEmuBase).toNat (issSas iss) false 0 m).1
  else (giccEmulate m.currentVcpu.id ((ipa - giccEmuBase).setWidth 32) false 0 m).1

/-- `vgic_mmio` writes the value to the register of a load. -/
theorem vgicMmio_tf (ipa iss : BitVec 64) :
    (vgicMmio ipa iss m).2.tf =
      match loadTarget iss with
      | some i => m.tf.setX i ((mmioLoad ipa iss m).setWidth 64)
      | none => m.tf := by
  unfold vgicMmio loadTarget
  cases hisv : issIsv iss with
  | false =>
      rw [if_pos rfl, if_neg (by simp)]
      rfl
  | true =>
      rw [if_neg (by simp)]
      cases hwnr : issWnr iss with
      | true =>
          simp only [Bool.true_eq_false, false_and, and_false, if_false, reassert_tf]
          split
          · exact gicdForward_tf m _ _ _ _
          · exact giccEmulate_tf m _ _ _ _
      | false =>
          simp only [Bool.false_eq_true, if_false, true_and, mmioLoad, reassert_tf]
          by_cases hsrt : issSrt iss = 31
          · rw [if_neg (not_not_intro hsrt), if_neg (not_not_intro hsrt)]
            split
            · exact gicdForward_tf m _ _ _ _
            · exact giccEmulate_tf m _ _ _ _
          · rw [if_pos hsrt, if_pos hsrt]
            split
            · simp only [setX, gicdForward_tf]
            · simp only [setX, giccEmulate_tf]

theorem vgicMmio_upTo (ipa iss : BitVec 64) :
    TrapFrame.UpTo (loadTarget iss) m.tf (vgicMmio ipa iss m).2.tf := by
  rw [vgicMmio_tf]
  unfold loadTarget
  split_ifs with h
  · have hlt := issSrt_lt iss
    exact ⟨by omega, _, rfl⟩
  · rfl

theorem wfiPoll_tf : (wfiPoll m).tf = m.tf := by
  unfold wfiPoll
  simp only
  split_ifs <;> rfl

/-- `handle_wfi` only steps over the instruction. -/
theorem handleWfi_tf : (handleWfi m).tf = m.tf.setElrEl2 (m.tf.elrEl2 + 4) := by
  have htf : (wfiPoll (wfiHeartbeat m)).tf = m.tf := wfiPoll_tf (wfiHeartbeat m)
  rw [handleWfi, skipInsn, htf]

theorem handleSysreg_tf (esr : BitVec 64) :
    ∃ tf, TrapFrame.UpTo (sysregTarget esr) m.tf tf
      ∧ (handleSysreg esr m).tf = tf.setElrEl2 (tf.elrEl2 + 4) := by
  unfold sysregTarget
  by_cases h : sysregIsRead esr ∧ sysregRt esr ≠ 31
  · have hlt := sysregRt_lt esr
    have h31 := h.2
    refine ⟨m.tf.setX (sysregRt esr) 0, ?_, ?_⟩
    · rw [if_pos h]
      exact ⟨by omega, 0, rfl⟩
    · exact congrArg (fun m : Machine => m.skipInsn.tf) (if_pos h)
  · refine ⟨m.tf, ?_, ?_⟩
    · rw [if_neg h]
      rfl
    · exact congrArg (fun m : Machine => m.skipInsn.tf) (if_neg h)

/-- The address the syndrome registers report. -/
def faultIpaOf (m : Machine) : BitVec 64 := faultIpa (m.mrs .farEl2) (m.mrs .hpfarEl2)

/-- The register a data abort writes. -/
def abortTarget (m : Machine) (esr : BitVec 64) : Option Nat :=
  if InGicWindow (faultIpaOf m) then loadTarget (esr &&& 0x1ffffff) else none

theorem handleStage2Abort_window (esr : BitVec 64) (h : InGicWindow (faultIpaOf m)) :
    handleStage2Abort esr m = (vgicMmio (faultIpaOf m) (esr &&& 0x1ffffff) m).2.skipInsn :=
  if_pos h

theorem handleStage2Abort_tf (esr : BitVec 64) :
    ∃ tf, TrapFrame.UpTo (abortTarget m esr) m.tf tf
      ∧ (handleStage2Abort esr m).tf = tf.setElrEl2 (tf.elrEl2 + 4) := by
  unfold abortTarget
  by_cases h : InGicWindow (faultIpaOf m)
  · rw [if_pos h, handleStage2Abort_window m esr h]
    exact ⟨_, vgicMmio_upTo m _ _, rfl⟩
  · rw [if_neg h]
    have hskip : handleStage2Abort esr m = m.skipInsn := if_neg h
    exact ⟨m.tf, rfl, by rw [hskip]; rfl⟩

end Handlers

/-! ## Hypercalls -/

/-- What a PSCI call ends in: a value in `x0`, or a CPU parked with a message. -/
inductive PsciAnswer where
  | value (v : BitVec 64)
  | stop (why : String)
deriving DecidableEq

/-- The effect of an answer on the machine. -/
def PsciAnswer.run (m : Machine) : PsciAnswer → Outcome Machine
  | value v => .ret (m.setX 0 v)
  | stop why => psciHalt why m

/-- The switch of `handle_psci`, as a function of the call. -/
def psciAnswer (fn : BitVec 32) (arg : BitVec 64) : PsciAnswer :=
  if fn = psciVersionFn then .value 0x00010000
  else if fn = psciMigrateInfoType then .value 2
  else if fn = psciAffinityInfo32 ∨ fn = psciAffinityInfo64 then
    .value (if arg = 0 then 0 else 1)
  else if fn = psciFeaturesFn then .value (psciFeature (arg.setWidth 32))
  else if fn = psciCpuOffFn then .stop "guest CPU_OFF"
  else if fn = psciSystemOffFn then .stop "guest SYSTEM_OFF"
  else if fn = psciSystemResetFn then .stop "guest SYSTEM_RESET"
  else .value psciRetNotSupported

theorem handlePsci_eq (fid : BitVec 64) (m : Machine) :
    handlePsci fid m = (psciAnswer (fid.setWidth 32) (m.tf.x 1)).run m := by
  simp only [handlePsci, psciAnswer, apply_ite (PsciAnswer.run m), ite_self]
  rfl

/-- A PSCI call that returns only sets `x0`. -/
theorem handlePsci_ret {fid : BitVec 64} {m m' : Machine} (h : handlePsci fid m = .ret m') :
    ∃ v, m' = m.setX 0 v := by
  rw [handlePsci_eq] at h
  cases hans : psciAnswer (fid.setWidth 32) (m.tf.x 1) with
  | value v =>
      rw [hans] at h
      cases h
      exact ⟨v, rfl⟩
  | stop why =>
      rw [hans] at h
      cases h

/-- What a hypercall that returns has done: `HVC_IRQ_DONE` acknowledges the
vGIC, `HVC_PUTS` prints, everything else only answers in `x0`. -/
theorem handleHvc_cases {m m' : Machine} (h : handleHvc m = .ret m') :
    (isPsciFid (m.tf.x 0) = false ∧ m.tf.x 0 = hvcIrqDone
        ∧ m' = (m.onVgic m.currentVcpu.id vgicAckAll).setX 0 0)
      ∨ (isPsciFid (m.tf.x 0) = true ∨ m.tf.x 0 ≠ hvcIrqDone)
        ∧ ((∃ v, m' = m.setX 0 v)
          ∨ ∃ s, m' = ((m.uartPuts "  [hypervisor relaying guest string] ").uartPutBytes s).setX
              0 0) := by
  simp only [handleHvc] at h
  split_ifs at h with hpsci hping hputs hdone
  · exact Or.inr ⟨Or.inl hpsci, Or.inl (handlePsci_ret h)⟩
  · cases h
    exact Or.inr ⟨Or.inr (by rw [hping]; decide), Or.inl ⟨0, rfl⟩⟩
  · split at h
    · rename_i s hs
      cases h
      exact Or.inr ⟨Or.inr (by rw [hputs]; decide), Or.inr ⟨s, rfl⟩⟩
    · cases h
  · cases h
    exact Or.inl ⟨Bool.eq_false_iff.mpr hpsci, hdone, rfl⟩
  · cases h
    exact Or.inr ⟨Or.inr hdone, Or.inl ⟨_, rfl⟩⟩

/-- Every hypercall that returns answers in `x0`. -/
theorem handleHvc_tf {m m' : Machine} (h : handleHvc m = .ret m') :
    ∃ v, m'.tf = m.tf.setX 0 v := by
  rcases handleHvc_cases h with ⟨-, -, rfl⟩ | ⟨-, ⟨v, rfl⟩ | ⟨s, rfl⟩⟩
  · exact ⟨0, rfl⟩
  · exact ⟨v, rfl⟩
  · exact ⟨0, rfl⟩

/-! ## One exit -/

/-- The general register an exit may write: `x0` for a hypercall, the
register of a trapped MRS, the register of a GIC-window load. -/
def exitTarget (m : Machine) : Option Nat :=
  let esr := m.mrs .esrEl2
  if esrEc esr = 0x16 then some 0
  else if esrEc esr = 0x18 then sysregTarget esr
  else if esrEc esr = 0x24 then abortTarget m esr
  else none

/-- Whether an exit steps over the instruction. -/
def exitElr (esr elr : BitVec 64) : BitVec 64 := if esrEc esr = 0x16 then elr else elr + 4

/-- The frame after a synchronous exit that returns. -/
theorem handleException_tf {b : Build} {m m' : Machine}
    (h : handleException b .l64Sync m = .ret m') :
    ∃ tf, TrapFrame.UpTo (exitTarget m) m.tf tf
      ∧ m'.tf = tf.setElrEl2 (exitElr (m.mrs .esrEl2) m.tf.elrEl2) := by
  -- the exit-ring record touches neither the frame nor the registers
  simp only [handleException, reduceCtorEq, or_self, if_false, if_true] at h
  simp only [exitTarget, exitElr]
  split_ifs at h with hhvc hwfi hsys habt
  · obtain ⟨v, hv⟩ := handleHvc_tf h
    have hup : TrapFrame.UpTo (some 0) m.tf (m.tf.setX 0 v) := ⟨by decide, v, rfl⟩
    rw [if_pos hhvc, if_pos hhvc]
    refine ⟨m.tf.setX 0 v, hup, ?_⟩
    rw [← hup.elrEl2_eq, TrapFrame.setElrEl2_self]
    exact hv
  · cases h
    rw [if_neg hhvc, if_neg hhvc, hwfi, if_neg (by decide), if_neg (by decide)]
    exact ⟨m.tf, rfl, handleWfi_tf _⟩
  · cases h
    obtain ⟨tf, hup, htf⟩ := handleSysreg_tf (exitRingPush .l64Sync (m.mrs .esrEl2) m.tf.elrEl2
      (m.mrs .farEl2) m.currentVcpu.id m) (m.mrs .esrEl2)
    rw [if_neg hhvc, if_neg hhvc, if_pos hsys]
    exact ⟨tf, hup, htf.trans (by rw [hup.elrEl2_eq]; rfl)⟩
  · cases h
    obtain ⟨tf, hup, htf⟩ := handleStage2Abort_tf (exitRingPush .l64Sync (m.mrs .esrEl2)
      m.tf.elrEl2 (m.mrs .farEl2) m.currentVcpu.id m) (m.mrs .esrEl2)
    rw [if_neg hhvc, if_neg hhvc, if_neg hsys, if_pos habt]
    exact ⟨tf, hup, htf.trans (by rw [hup.elrEl2_eq]; rfl)⟩
  · cases h

/-- **Frame of a synchronous exit.** A handled exit leaves `SPSR_EL2` and the
padding alone, leaves `ELR_EL2` alone for a hypercall and moves it by at most
one instruction otherwise, and writes at most the one general register
`exitTarget` names, which is never number 31. -/
theorem sync_exit_frame {b : Build} {m m' : Machine}
    (h : handleException b .l64Sync m = .ret m') :
    m'.tf.spsrEl2 = m.tf.spsrEl2
      ∧ m'.tf.word 33 = m.tf.word 33
      ∧ (esrEc (m.mrs .esrEl2) = 0x16 → m'.tf.elrEl2 = m.tf.elrEl2)
      ∧ (esrEc (m.mrs .esrEl2) ≠ 0x16 →
          m'.tf.elrEl2 = m.tf.elrEl2 ∨ m'.tf.elrEl2 = m.tf.elrEl2 + 4)
      ∧ (∀ i < 31, m'.tf.x i ≠ m.tf.x i → exitTarget m = some i)
      ∧ exitTarget m ≠ some 31 := by
  obtain ⟨tf, hup, htf⟩ := handleException_tf h
  rw [htf]
  refine ⟨?_, ?_, ?_, ?_, ?_, hup.target_ne⟩
  · exact (tf.word_setElrEl2 (by decide) _).trans (hup.word_eq (by decide))
  · exact (tf.word_setElrEl2 (by decide) _).trans (hup.word_eq (by decide))
  · intro hhvc
    rw [TrapFrame.elrEl2_setElrEl2, exitElr, if_pos hhvc]
  · intro hhvc
    rw [TrapFrame.elrEl2_setElrEl2, exitElr, if_neg hhvc]
    exact .inr rfl
  · intro i hi hne
    rw [TrapFrame.x_setElrEl2 tf hi] at hne
    by_contra htarget
    exact hne (hup.x_eq hi htarget)

/-- The machine when `handle_exception` is called for `t`, from the reset state. -/
def entered (t : Trap) : Machine := ((default : Machine).enter t).saveCtx

theorem sync_exit_frame_gicc_load :
    ∃ m', handleException default .l64Sync (entered (.access 0x08010004 false 0)) = .ret m'
      ∧ m'.tf.spsrEl2 = (entered (.access 0x08010004 false 0)).tf.spsrEl2
      ∧ exitTarget (entered (.access 0x08010004 false 0)) = some 1 := by
  refine ⟨_, rfl, (sync_exit_frame (b := default) rfl).1, by decide⟩

/-! ## GIC-window aborts and the result of `vgic_mmio` -/

/-- `vgic_mmio` reports an access as handled exactly when its syndrome is valid. -/
theorem vgicMmio_handled (m : Machine) (ipa iss : BitVec 64) :
    (vgicMmio ipa iss m).1 = issIsv iss := by
  unfold vgicMmio
  cases hisv : issIsv iss with
  | false => rfl
  | true => rfl

/-- How hardware reports a stage-2 fault at `ipa`: `HPFAR_EL2.FIPA` (bits
43:4) holds its page, bits 62:44 are reserved, and `FAR_EL2` has its page
offset. -/
structure ReportsIpa (far hpfar ipa : BitVec 64) : Prop where
  fipa : hpfar.extractLsb' 4 40 = ipa.extractLsb' 12 40
  res0 : hpfar.extractLsb' 44 19 = 0
  offset : far.extractLsb' 0 12 = ipa.extractLsb' 0 12

theorem getLsbD_faultIpa (far hpfar : BitVec 64) {i : Nat} (hi : i < 64) :
    (faultIpa far hpfar).getLsbD i = if i < 12 then far.getLsbD i else hpfar.getLsbD (i - 8) := by
  have hoff : (0xFFF : BitVec 64).getLsbD i = decide (i < 12) := BitField.getLsbD_mask (n := 12) hi
  have hlow : (0xF : BitVec 64).getLsbD (i - 8) = decide (i - 8 < 4) :=
    BitField.getLsbD_mask (n := 4) (by omega)
  rw [faultIpa, BitVec.getLsbD_or, BitVec.getLsbD_and, BitVec.getLsbD_shiftLeft,
    BitVec.getLsbD_and, BitVec.getLsbD_not, hoff, hlow]
  by_cases h12 : i < 12
  · have h4 : i - 8 < 4 := by omega
    simp [h12, h4]
  · have h4 : ¬ i - 8 < 4 := by omega
    have h8 : ¬ i < 8 := by omega
    have h64 : i - 8 < 64 := by omega
    simp [h12, h4, h8, h64, hi]

theorem faultIpa_eq {far hpfar ipa : BitVec 64} (hlt : ipa.toNat < 2 ^ 48)
    (h : ReportsIpa far hpfar ipa) : faultIpa far hpfar = ipa := by
  apply BitVec.eq_of_getLsbD_eq
  intro i hi
  rw [getLsbD_faultIpa far hpfar hi]
  by_cases h12 : i < 12
  · have hpage := congrArg (fun v : BitVec 12 => v.getLsbD i) h.offset
    simpa [h12] using hpage
  · rw [if_neg h12]
    by_cases h52 : i < 52
    · have hpage := congrArg (fun v : BitVec 40 => v.getLsbD (i - 12)) h.fipa
      have hlt40 : i - 12 < 40 := by omega
      have heq : 4 + (i - 12) = i - 8 := by omega
      have heq' : 12 + (i - 12) = i := by omega
      simpa [hlt40, heq, heq'] using hpage
    · have hzero := congrArg (fun v : BitVec 19 => v.getLsbD (i - 52)) h.res0
      have hlt19 : i - 52 < 19 := by omega
      have heq : 44 + (i - 52) = i - 8 := by omega
      have hpow : 2 ^ 48 ≤ 2 ^ i := Nat.pow_le_pow_right (by decide) (by omega)
      have hhigh : ipa.getLsbD i = false := Nat.testBit_lt_two_pow (Nat.lt_of_lt_of_le hlt hpow)
      rw [hhigh]
      simpa [hlt19, heq] using hzero
/-- **When an abort is skipped.** For a fault in the GIC window, the return
address moves on exactly if `vgic_mmio` handled the access, provided the
syndrome is valid; without one `vgic_mmio` refuses the access and its caller
skips it all the same. -/
theorem stage2Abort_skip_iff (m : Machine) (esr ipa : BitVec 64) (hlt : ipa.toNat < 2 ^ 48)
    (h : ReportsIpa (m.mrs .farEl2) (m.mrs .hpfarEl2) ipa) :
    faultIpaOf m = ipa
      ∧ ((InGicWindow ipa →
            ((handleStage2Abort esr m).tf.elrEl2 = m.tf.elrEl2 + 4
              ↔ (vgicMmio ipa (esr &&& 0x1ffffff) m).1 = true))
          ↔ (InGicWindow ipa → issIsv (esr &&& 0x1ffffff) = true)) := by
  have hipa : faultIpaOf m = ipa := faultIpa_eq hlt h
  refine ⟨hipa, forall_congr' fun _ => ?_⟩
  obtain ⟨tf, hup, htf⟩ := handleStage2Abort_tf m esr
  have hskip : (handleStage2Abort esr m).tf.elrEl2 = m.tf.elrEl2 + 4 := by
    rw [htf, TrapFrame.elrEl2_setElrEl2, hup.elrEl2_eq]
  rw [vgicMmio_handled, iff_true_left hskip]

/-- A store to `GICD_ISENABLER1`, and the same store with writeback, which
has no valid syndrome. -/
def Trap.gicdStore : Trap := .access 0x08000104 true 2
def Trap.gicdStoreWriteback : Trap := { Trap.gicdStore with esr := 0x92000040 }

theorem stage2Abort_skip_iff_store :
    (handleStage2Abort Trap.gicdStore.esr (entered .gicdStore)).tf.elrEl2
        = (entered .gicdStore).tf.elrEl2 + 4
      ↔ (vgicMmio 0x08000104 (Trap.gicdStore.esr &&& 0x1ffffff) (entered .gicdStore)).1
        = true := by
  obtain ⟨-, hiff⟩ := stage2Abort_skip_iff (entered .gicdStore) Trap.gicdStore.esr 0x08000104
    (by decide) ⟨by decide, by decide, by decide⟩
  exact hiff.mpr (fun _ => by decide) (by decide)

/-- The store is not performed, and the guest resumes after it. -/
theorem stage2Abort_skips_unhandled :
    InGicWindow (faultIpaOf (entered .gicdStoreWriteback))
      ∧ ¬ ((handleStage2Abort Trap.gicdStoreWriteback.esr (entered .gicdStoreWriteback)).tf.elrEl2
            = (entered .gicdStoreWriteback).tf.elrEl2 + 4
          ↔ (vgicMmio 0x08000104 (Trap.gicdStoreWriteback.esr &&& 0x1ffffff)
              (entered .gicdStoreWriteback)).1 = true) := by
  have hskip : (handleStage2Abort Trap.gicdStoreWriteback.esr
      (entered .gicdStoreWriteback)).tf.elrEl2 = (entered .gicdStoreWriteback).tf.elrEl2 + 4 := by
    decide
  refine ⟨by decide, fun hiff => ?_⟩
  rw [vgicMmio_handled] at hiff
  exact absurd (hiff.mp hskip) (by decide)

end ArmHyp
