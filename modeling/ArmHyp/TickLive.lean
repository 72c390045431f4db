import ArmHyp.Distributor
import ArmHyp.Footprint
import ArmHyp.VgicSet

/-!
# Can the scheduler tick still reach EL2?

A guest reaches the distributor through `vgic_mmio`, which forwards its
accesses, so the registers that route PPI 26 are shared with it. As with
`IrqOp`, what an exception does to the distributor is decided by its trap
(`Trap.gicdOp`, `step_gicd`), and the invariants are proved on that.

`vgic_mmio` re-asserts the enable bit of PPI 26 after every access, and
nothing else disables it. It does not re-assert `GICD_CTLR` and the priority
of PPI 26, so these stay right only in runs whose stores keep them so.
-/

namespace ArmHyp

open Machine

/-! ## Distributor effect of an exception -/

/-- A guest store of size `sas`. -/
def Gicd.store (d : Gicd) (sas off : Nat) (val : BitVec 32) : Gicd :=
  match sas with
  | 0 => d.write8 off (val.setWidth 8)
  | 1 => d.write16 off (val.setWidth 16)
  | _ => d.write32 off val

/-- The bytes such a store writes. -/
def storeBytes (sas : Nat) (val : BitVec 32) : List (BitVec 8) :=
  match sas with
  | 0 => [val.setWidth 8]
  | 1 => Gicd.bytes16 (val.setWidth 16)
  | _ => Gicd.bytes32 val

namespace Trap

/-- The offset and the bytes of a store that `vgic_mmio` forwards. -/
def forwardedStore (t : Trap) : Option (Nat × List (BitVec 8)) :=
  if t.IsMmio ∧ t.ipa < gicdEmuLimit ∧ issWnr t.iss = true then
    some ((t.ipa - gicdEmuBase).toNat, storeBytes (issSas t.iss) (t.storeVal (issSrt t.iss)))
  else none

/-- The distributor's register byte `k` after that store, when it was `old`. -/
def storedByte (t : Trap) (k : Nat) (old : BitVec 8) : BitVec 8 :=
  match t.forwardedStore with
  | some (off, vs) => Gicd.storedByte off vs k old
  | none => old

/-- What an exception does to the distributor. -/
def gicdOp (t : Trap) (d : Gicd) : Gicd :=
  if t.IsTick then d.pl011Stores
  else if t.IsMmio then
    let d := if t.ipa < gicdEmuLimit ∧ issWnr t.iss = true then
        d.store (issSas t.iss) (t.ipa - gicdEmuBase).toNat (t.storeVal (issSrt t.iss))
      else d
    (d.write32 gicdIsenabler (1#32 <<< irqHtimer)).pl011Stores
  else if t.kind = .l64Sync ∧ esrEc t.esr = 0x01 then d.wfiStores
  else d

end Trap

/-! ## Handlers -/

section Primitives

variable (m : Machine)

theorem gicd_uartPuts (s : String) : (m.uartPuts s).gicd = m.gicd := rfl

theorem gicd_uartPutHex (v : BitVec 64) : (m.uartPutHex v).gicd = m.gicd := rfl

theorem gicd_onVgic (id : Nat) (f : CpuIf → CpuIf) : (m.onVgic id f).gicd = m.gicd := rfl

theorem gicd_writeEoir (v : BitVec 32) : (m.writeEoir v).gicd = m.gicd := rfl

theorem gicd_ackIar : m.ackIar.gicd = m.gicd := rfl

theorem gicd_msr (r : SysReg) (v : BitVec 64) : (m.msr r v).gicd = m.gicd := rfl

theorem gicd_skipInsn : m.skipInsn.gicd = m.gicd := rfl

end Primitives

theorem gicdForward_gicd (m : Machine) (off sas : Nat) (wnr : Bool) (val : BitVec 32) :
    (gicdForward off sas wnr val m).2.gicd = if wnr then m.gicd.store sas off val else m.gicd := by
  rcases sas with _ | _ | sas <;> cases wnr <;> rfl

theorem giccEmulate_gicd (m : Machine) (id : Nat) (off : BitVec 32) (wnr : Bool)
    (val : BitVec 32) : (giccEmulate id off wnr val m).2.gicd = m.gicd := by
  cases wnr <;> rfl

theorem reassert_gicd (m : Machine) : (reassertPl011Rx (reassertHtimerPpi m)).gicd
    = (m.gicd.write32 gicdIsenabler (1#32 <<< irqHtimer)).pl011Stores := rfl

theorem vgicMmio_gicd (m : Machine) {ipa iss : BitVec 64} (hwin : InGicWindow ipa)
    (hisv : issIsv iss = true) :
    (vgicMmio ipa iss m).2.gicd =
      ((if ipa < gicdEmuLimit ∧ issWnr iss = true then
          m.gicd.store (issSas iss) (ipa - gicdEmuBase).toNat (storeVal m (issSrt iss))
        else m.gicd).write32 gicdIsenabler (1#32 <<< irqHtimer)).pl011Stores := by
  -- the write-back to `x[srt]` does not touch the distributor
  have hset : ∀ (c : Prop) [Decidable c] (m' : Machine) (v : BitVec 64),
      (if c then m'.setX (issSrt iss) v else m').gicd = m'.gicd := by
    intro c _ m' v
    split <;> rfl
  simp only [vgicMmio, hisv, Bool.true_eq_false, if_false, reassert_gicd, hset, hwin.1, true_and]
  by_cases hdist : ipa < gicdEmuLimit
  · simp only [hdist, if_true, gicdForward_gicd, true_and]
    cases issWnr iss with
    | true => simp only [if_true]
    | false => simp only [Bool.false_eq_true, if_false]
  · simp only [hdist, if_false, giccEmulate_gicd, false_and]

theorem handleHvc_gicd {m m' : Machine} (h : handleHvc m = .ret m') : m'.gicd = m.gicd := by
  rcases handleHvc_cases h with ⟨-, -, rfl⟩ | ⟨-, ⟨v, rfl⟩ | ⟨s, rfl⟩⟩ <;> rfl

theorem handleSysreg_gicd (esr : BitVec 64) (m : Machine) : (handleSysreg esr m).gicd = m.gicd := by
  simp only [handleSysreg]
  split <;> rfl

theorem schedTick_gicd (b : Build) (m : Machine) : (schedTick b m).gicd = m.gicd := by
  obtain ⟨_, _, _, _, h⟩ := schedTick_frame b m
  rw [h]

theorem handleHtimer_gicd (b : Build) (iar : BitVec 32) (m : Machine) :
    (handleHtimer b iar m).gicd = m.gicd.pl011Stores :=
  schedTick_gicd b (pl011RxReassert
    (({ m with htimerTicks := m.htimerTicks + 1 } : Machine).msr .cnthpCtlEl2 0))

theorem gicHandlePhysicalIrq_gicd (b : Build) (m : Machine) :
    (gicHandlePhysicalIrq b m).gicd
      = if intidOf m.gicc.iar = irqHtimer then m.gicd.pl011Stores else m.gicd := by
  by_cases htick : intidOf m.gicc.iar = irqHtimer
  · rw [gicHandlePhysicalIrq_tick m b htick, if_pos htick, handleHtimer_gicd]
    rfl
  · simp only [gicHandlePhysicalIrq, if_neg htick]
    split_ifs
    · rfl
    · simp only [handleVtimer, gicd_writeEoir, gicd_onVgic, gicd_msr, gicd_ackIar]
    · simp only [handlePl011, gicd_onVgic, gicd_uartPuts, gicd_uartPutHex, gicd_ackIar]
    · simp only [handleOther, gicd_uartPuts, gicd_uartPutHex, gicd_writeEoir, gicd_ackIar]

theorem vgicMmio_gicd_invalid (m : Machine) {ipa iss : BitVec 64} (hisv : issIsv iss ≠ true) :
    (vgicMmio ipa iss m).2.gicd = m.gicd := by
  have hfalse : issIsv iss = false := Bool.eq_false_iff.mpr hisv
  simp only [vgicMmio, hfalse, if_true, gicd_uartPuts, gicd_uartPutHex]

theorem handleStage2Abort_gicd (m : Machine) (esr : BitVec 64) :
    (handleStage2Abort esr m).gicd =
      if InGicWindow (faultIpaOf m) ∧ issIsv (esr &&& 0x1ffffff) = true then
        ((if faultIpaOf m < gicdEmuLimit ∧ issWnr (esr &&& 0x1ffffff) = true then
            m.gicd.store (issSas (esr &&& 0x1ffffff)) (faultIpaOf m - gicdEmuBase).toNat
              (storeVal m (issSrt (esr &&& 0x1ffffff)))
          else m.gicd).write32 gicdIsenabler (1#32 <<< irqHtimer)).pl011Stores
      else m.gicd := by
  by_cases hwin : InGicWindow (faultIpaOf m)
  · rw [handleStage2Abort_window m esr hwin, gicd_skipInsn]
    by_cases hisv : issIsv (esr &&& 0x1ffffff) = true
    · rw [vgicMmio_gicd m hwin hisv, if_pos (And.intro hwin hisv)]
    · rw [vgicMmio_gicd_invalid m hisv, if_neg fun h => hisv h.2]
  · have hskip : handleStage2Abort esr m = m.skipInsn := if_neg hwin
    rw [hskip, gicd_skipInsn, if_neg fun h => hwin h.1]

/-- What an exception does to the distributor is decided by its trap. -/
theorem step_gicd {b : Build} {m m' : Machine} {t : Trap} (hs : step b m t = some m') :
    m'.gicd = t.gicdOp (m.enter t).gicd := by
  unfold step at hs
  cases hx : handleException b t.kind (m.enter t).saveCtx with
  | halt a =>
      rw [hx] at hs
      cases hs
  | ret a =>
      rw [hx] at hs
      cases hs
      have hrestore : a.restoreCtx.gicd = a.gicd := rfl
      have hdisp : (atDispatch t m).gicd = (m.enter t).gicd := rfl
      rw [hrestore, ← hdisp]
      rw [handleException_eq] at hx
      unfold Trap.gicdOp
      split_ifs at hx with hirq hsync hhvc hwfi hsys habt
      · cases hx
        have hmmio : ¬ t.IsMmio := fun h => absurd (h.1 ▸ hirq) (by decide)
        have hsync : ¬(t.kind = .l64Sync ∧ esrEc t.esr = 0x01) :=
          fun h => absurd (h.1 ▸ hirq) (by decide)
        have htick : t.IsTick ↔ intidOf (atDispatch t m).gicc.iar = irqHtimer := and_iff_right hirq
        simp only [gicHandlePhysicalIrq_gicd, htick, hmmio, hsync, if_false]
      all_goals have htick : ¬ t.IsTick := fun h => hirq h.1
      · have hmmio : ¬ t.IsMmio := fun h => absurd (hhvc.symm.trans h.2.1) (by decide)
        have hwfi : ¬(t.kind = .l64Sync ∧ esrEc t.esr = 0x01) :=
          fun h => absurd (hhvc.symm.trans h.2) (by decide)
        rw [if_neg htick, if_neg hmmio, if_neg hwfi, handleHvc_gicd hx]
      · cases hx
        have hmmio : ¬ t.IsMmio := fun h => absurd (hwfi.symm.trans h.2.1) (by decide)
        rw [if_neg htick, if_neg hmmio, if_pos ⟨hsync, hwfi⟩, handleWfi_gicd]
      · cases hx
        have hmmio : ¬ t.IsMmio := fun h => absurd (hsys.symm.trans h.2.1) (by decide)
        rw [if_neg htick, if_neg hmmio, if_neg fun h => hwfi h.2, handleSysreg_gicd]
      · cases hx
        have hwfi' : ¬(t.kind = .l64Sync ∧ esrEc t.esr = 0x01) := fun h => hwfi h.2
        have hmmio : t.IsMmio ↔ InGicWindow (faultIpaOf (atDispatch t m))
            ∧ issIsv (t.esr &&& 0x1ffffff) = true :=
          ⟨fun h => h.2.2, fun h => ⟨hsync, habt, h⟩⟩
        rw [handleStage2Abort_gicd, atDispatch_storeVal t m (issSrt_lt _)]
        simp only [htick, hwfi', hmmio, if_false]
        rfl
      · cases hx
      · cases hx

/-! ## Register bytes after an exception -/

theorem cell_store (d : Gicd) (sas off : Nat) (val : BitVec 32) {k : Nat} (hk : Gicd.IsCell k) :
    (d.store sas off val).cell k = Gicd.storedByte off (storeBytes sas val) k (d.cell k) := by
  rcases sas with _ | _ | sas
  · exact d.cell_writeBytes off [val.setWidth 8] hk
  · exact d.cell_writeBytes off (Gicd.bytes16 (val.setWidth 16)) hk
  · by_cases hsgir : off = 0xF00
    · -- a word to `GICD_SGIR` pends an interrupt and stores nothing
      have hlt : k < off := by
        unfold Gicd.IsCell at hk
        omega
      have hcell : (d.writeSgir val).cell = d.cell := by
        unfold Gicd.writeSgir
        simp only
        split_ifs <;> rfl
      rw [Gicd.storedByte_of_apart _ (Or.inl hlt)]
      change (d.write32 off val).cell k = _
      rw [Gicd.write32, if_pos hsgir, hcell]
    · change (d.write32 off val).cell k = _
      rw [Gicd.write32_eq d hsgir, Gicd.cell_writeBytes d off _ hk]
      rfl

theorem Trap.storedByte_of_not_mmio (t : Trap) (h : ¬ t.IsMmio) (k : Nat) (old : BitVec 8) :
    t.storedByte k old = old := by
  have hnone : t.forwardedStore = none := if_neg fun hs => h hs.1
  rw [storedByte, hnone]

/-- A register byte that shares no word with SPI 33 only changes by a
forwarded store. -/
theorem cell_gicdOp (t : Trap) (d : Gicd) {k : Nat} (hk : Gicd.IsCell k)
    (hspi : k < 0x420 ∨ 0x424 ≤ k ∧ k < 0x820 ∨ 0x824 ≤ k) :
    (t.gicdOp d).cell k = t.storedByte k (d.cell k) := by
  have hpl011 : ∀ d : Gicd, d.pl011Stores.cell k = d.cell k := by
    intro d
    rw [d.cell_pl011Stores hk, if_neg (by omega), if_neg (by omega)]
  have hwfi : ∀ d : Gicd, d.wfiStores.cell k = d.cell k := by
    intro d
    rw [d.cell_wfiStores hk, Gicd.storedByte_of_apart _ (by change _ ∨ 0x424 ≤ k; omega),
      Gicd.storedByte_of_apart _ (by change _ ∨ 0x824 ≤ k; omega)]
  have henable : ∀ d : Gicd, (d.write32 gicdIsenabler (1#32 <<< irqHtimer)).cell k = d.cell k := by
    intro d
    refine d.cell_write32_of_apart (by decide) hk _ ?_
    unfold Gicd.IsCell at hk
    change k < 0x100 ∨ 0x104 ≤ k
    omega
  unfold Trap.gicdOp
  by_cases htick : t.IsTick
  · have hmmio : ¬ t.IsMmio := fun h => absurd (h.1 ▸ htick.1) (by decide)
    rw [if_pos htick, hpl011, t.storedByte_of_not_mmio hmmio]
  · rw [if_neg htick]
    by_cases hmmio : t.IsMmio
    · rw [if_pos hmmio]
      simp only [hpl011, henable, Trap.storedByte, Trap.forwardedStore, hmmio, true_and]
      split_ifs with hstore
      · exact cell_store d _ _ _ hk
      · rfl
    · rw [if_neg hmmio, t.storedByte_of_not_mmio hmmio]
      split_ifs
      · exact hwfi d
      · rfl

/-- Nothing disables PPI 26 for good. -/
theorem enable_gicdOp (t : Trap) {d : Gicd} (h : (d.enable 3).getLsbD 2 = true) :
    ((t.gicdOp d).enable 3).getLsbD 2 = true := by
  have hpl011 : ∀ d : Gicd, (d.enable 3).getLsbD 2 = true →
      (d.pl011Stores.enable 3).getLsbD 2 = true := by
    intro d hd
    rw [d.enable_pl011Stores, BitVec.getLsbD_or, hd]
    rfl
  unfold Trap.gicdOp
  by_cases htick : t.IsTick
  · rw [if_pos htick]
    exact hpl011 d h
  · rw [if_neg htick]
    by_cases hmmio : t.IsMmio
    · rw [if_pos hmmio]
      refine hpl011 _ ?_
      -- the re-asserted bit, whatever the guest stored
      rw [Gicd.enable_write32_set _ (by decide) (by decide), BitVec.getLsbD_or]
      exact Bool.or_true _
    · rw [if_neg hmmio]
      split_ifs
      · rw [d.enable_wfiStores, BitVec.getLsbD_or, h]
        rfl
      · exact h

/-! ## The physical priority mask -/

/-- `f` leaves the physical `GICC_PMR` alone. -/
def CpuIf.KeepsPmr (f : CpuIf → CpuIf) : Prop := ∀ c, (f c).gicc.pmr = c.gicc.pmr

theorem vgicInject_pmr (intid : BitVec 32) : CpuIf.KeepsPmr (vgicInject intid) := by
  intro c
  unfold vgicInject
  split <;> rfl

theorem vgicForwardSpi_pmr (intid iar : BitVec 32) :
    CpuIf.KeepsPmr (vgicForwardSpi intid iar) := fun _ => vgicInject_pmr intid _

theorem vgicAckAll_pmr : CpuIf.KeepsPmr vgicAckAll := by
  intro c
  simp only [vgicAckAll]
  split_ifs <;> rfl

theorem readReg_pmr (off : BitVec 32) : CpuIf.KeepsPmr fun c => (readReg off c).2 := by
  intro c
  by_cases hoff : off = 0x0C
  · subst hoff
    cases ht : MinSet.top c.v.pending with
    | none => simp only [readReg_iar_empty ht]
    | some n =>
        simp only [readReg_iar_some ht]
        rfl
  · simp only [readReg_of_ne hoff]

theorem writeReg_pmr (off val : BitVec 32) : CpuIf.KeepsPmr (writeReg off val) := by
  intro c
  simp only [writeReg, completePhysIar, Gicc.complete, apply_ite CpuIf.gicc, apply_ite Gicc.pmr,
    ite_self]

theorem acknowledge_pmr (g : Gicc) : g.acknowledge.pmr = g.pmr := by
  unfold Gicc.acknowledge
  split <;> rfl

theorem IrqOp.run_pmr (b : Build) (o : IrqOp) (w : IrqView) :
    (o.run b w).gicc.pmr = w.gicc.pmr := by
  have hack := acknowledge_pmr w.gicc
  cases o with
  | idle => rfl
  | phys =>
      simp only [IrqOp.run, IrqOp.runPhys]
      split_ifs
      · exact hack
      · exact hack
      · exact (vgicInject_pmr irqVtimer _).trans hack
      · exact (vgicForwardSpi_pmr irqPl011 w.gicc.iar w.ack.cpuIf).trans hack
      · exact hack
  | poll =>
      simp only [IrqOp.run, IrqOp.runPoll]
      split_ifs
      · exact (vgicForwardSpi_pmr irqPl011 w.gicc.iar w.ack.cpuIf).trans hack
      · exact hack
      · rfl
  | done => exact vgicAckAll_pmr _
  | load off => exact readReg_pmr off _
  | store off val => exact writeReg_pmr off val _

/-! ## The tick along runs -/

/-- `GICD_CTLR` forwards an interrupt of the given group bit: bit 0 enables
group 0, bit 1 group 1. -/
def groupEnabled (ctlr igroup : BitVec 8) (bit : Nat) : Bool :=
  ctlr.getLsbD (if igroup.getLsbD bit then 1 else 0)

/-- The CNTHP tick can reach EL2: the timer is enabled and not masked, PPI 26
is enabled, its group is forwarded, and its priority is above the mask. -/
structure TickLive (m : Machine) : Prop where
  timer : (m.regs .cnthpCtlEl2).getLsbD 0 = true ∧ (m.regs .cnthpCtlEl2).getLsbD 1 = false
  /-- Bit 26 of `GICD_ISENABLER0`. -/
  enabled : (m.gicd.readByte 0x103).getLsbD 2 = true
  forwarded : groupEnabled (m.gicd.readByte 0x000) (m.gicd.readByte 0x083) 2 = true
  priority : (m.gicd.readByte 0x41A).toNat < m.gicc.pmr.toNat

/-- A store that `vgic_mmio` forwards leaves `GICD_CTLR` forwarding the group
of INTID 26, and its priority below `0xFF`. -/
def KeepsTick (m : Machine) (t : Trap) : Prop :=
  ∀ off vs, t.forwardedStore = some (off, vs) →
    groupEnabled (Gicd.storedByte off vs 0x000 (m.gicd.readByte 0x000))
        (Gicd.storedByte off vs 0x083 (m.gicd.readByte 0x083)) 2 = true
      ∧ (Gicd.storedByte off vs 0x41A (m.gicd.readByte 0x41A)).toNat < 0xFF

/-- The part of `TickLive` that no guest can break. -/
structure TickArmed (b : Build) (m : Machine) : Prop where
  wf : m.Wf b
  timer : m.regs .cnthpCtlEl2 = 1
  enabled : (m.gicd.enable 3).getLsbD 2 = true
  pmr : m.gicc.pmr = 0xff

theorem enable_initEl2 (d : Gicd) : (d.initEl2.enable 3).getLsbD 2 = true := by
  have hctlr : ∀ d : Gicd, (d.write32 gicdCtlr 0x3).enable = d.enable := fun d => by
    rw [Gicd.write32_eq d (by decide), Gicd.enable_writeBytes_of_apart d _ _ (by decide)]
  rw [Gicd.initEl2]
  simp only [hctlr]
  rw [Gicd.enable_write32_set _ (by decide) (by decide), BitVec.getLsbD_or,
    Gicd.enable_write32_set _ (by decide) (by decide), BitVec.getLsbD_or]
  exact Bool.or_eq_true_iff.mpr (Or.inl (Bool.or_true _))

theorem cell_initEl2 (d : Gicd) : d.initEl2.cell 0x000 = 0x3 ∧ d.initEl2.cell 0x083 = 0xFF
    ∧ d.initEl2.cell 0x41A = 0 := by
  -- from the last store backwards, to the one that sets the byte
  refine ⟨?_, ?_, ?_⟩
  · rw [Gicd.initEl2, Gicd.cell_write32 _ (by decide) (by decide)]
    rfl
  · rw [Gicd.initEl2]
    iterate 3 rw [Gicd.cell_write32_of_apart _ (by decide) (by decide) _ (by decide)]
    iterate 4 rw [Gicd.write8, Gicd.cell_writeByte _ _ _ (by decide), if_neg (by decide)]
    iterate 2 rw [Gicd.cell_write32_of_apart _ (by decide) (by decide) _ (by decide)]
    rw [Gicd.cell_write32 _ (by decide) (by decide)]
    rfl
  · rw [Gicd.initEl2]
    iterate 3 rw [Gicd.cell_write32_of_apart _ (by decide) (by decide) _ (by decide)]
    iterate 2 rw [Gicd.write8, Gicd.cell_writeByte _ _ _ (by decide), if_neg (by decide)]
    rw [Gicd.write8, Gicd.cell_writeByte _ _ _ (by decide), if_pos (by decide)]

theorem booted_tickArmed {b : Build} {m : Machine} (h : Booted b m) : TickArmed b m := by
  obtain ⟨m₀, hd⟩ := h.devices
  refine ⟨booted_wf h, hd.timer, ?_, hd.pmr⟩
  rw [hd.gicd]
  exact enable_initEl2 m₀.gicd

theorem step_tickArmed {b : Build} {m m' : Machine} {t : Trap} (h : TickArmed b m)
    (hs : step b m t = some m') : TickArmed b m' := by
  refine ⟨step_wf h.wf hs, ?_, ?_, ?_⟩
  · rcases step_footprint hs with ⟨-, rfl⟩ | ⟨-, hkept⟩
    · rw [regs_of_kept (kept_restoreCtx _) rfl]
      rfl
    · rw [regs_of_kept hkept rfl]
      exact h.timer
  · rw [step_gicd hs]
    exact enable_gicdOp t h.enabled
  · have hgicc : m'.gicc = (t.irqOp.run b (m.enter t).irqView).gicc :=
      congrArg IrqView.gicc (step_irqView h.wf hs)
    rw [hgicc, IrqOp.run_pmr]
    exact h.pmr

/-- The bytes that route PPI 26, as a property of the distributor. -/
def RoutesTick (d : Gicd) : Prop :=
  groupEnabled (d.readByte 0x000) (d.readByte 0x083) 2 = true ∧ (d.readByte 0x41A).toNat < 0xFF

theorem booted_routesTick {b : Build} {m : Machine} (h : Booted b m) : RoutesTick m.gicd := by
  obtain ⟨m₀, hd⟩ := h.devices
  obtain ⟨hctlr, hgroup, hprio⟩ := cell_initEl2 m₀.gicd
  rw [RoutesTick, hd.gicd, Gicd.readByte_of_isCell _ (by decide),
    Gicd.readByte_of_isCell _ (by decide), Gicd.readByte_of_isCell _ (by decide), hctlr, hgroup,
    hprio]
  decide

/-- The routing bytes after an exception. -/
theorem step_readByte {b : Build} {m m' : Machine} {t : Trap} (hs : step b m t = some m')
    {k : Nat} (hk : Gicd.IsCell k) (hspi : k < 0x420) :
    m'.gicd.readByte k = t.storedByte k (m.gicd.readByte k) := by
  rw [Gicd.readByte_of_isCell _ hk, Gicd.readByte_of_isCell _ hk, step_gicd hs,
    cell_gicdOp t _ hk (Or.inl hspi)]
  rfl

theorem step_routesTick {b : Build} {m m' : Machine} {t : Trap} (h : RoutesTick m.gicd)
    (hok : KeepsTick m t) (hs : step b m t = some m') : RoutesTick m'.gicd := by
  rw [RoutesTick, step_readByte hs (by decide) (by decide),
    step_readByte hs (by decide) (by decide), step_readByte hs (by decide) (by decide)]
  unfold Trap.storedByte
  cases hstore : t.forwardedStore with
  | none => exact h
  | some s => exact hok s.1 s.2 hstore

theorem reachable_tickArmed {b : Build} {ok : Machine → Trap → Prop} {m : Machine}
    (h : Reachable b ok m) : TickArmed b m :=
  Reach.invariant (fun _ => booted_tickArmed) (fun _ _ _ _ hI _ hs => step_tickArmed hI hs) h

theorem reachable_routesTick {b : Build} {m : Machine} (h : Reachable b KeepsTick m) :
    RoutesTick m.gicd := by
  refine Reach.invariant (I := fun m => RoutesTick m.gicd) ?_ ?_ h
  · intro m hm
    exact booted_routesTick hm
  · intro m t m' _ hI hok hs
    exact step_routesTick hI hok hs

theorem TickArmed.timer_bits {b : Build} {m : Machine} (h : TickArmed b m) :
    (m.regs .cnthpCtlEl2).getLsbD 0 = true ∧ (m.regs .cnthpCtlEl2).getLsbD 1 = false := by
  rw [h.timer]
  decide

theorem TickArmed.enabled_bit {b : Build} {m : Machine} (h : TickArmed b m) :
    (m.gicd.readByte 0x103).getLsbD 2 = true := by
  rw [Gicd.readByte, if_neg (by decide), if_pos (by decide)]
  exact h.enabled

/-- **The scheduler tick.** Whatever the guests do, the CNTHP timer stays
enabled and PPI 26 stays enabled in the distributor. In every run in which
no forwarded store stops `GICD_CTLR` from forwarding its group or lowers its
priority to the mask, the tick can reach EL2 at every return to a guest. -/
theorem tick_live_of_stores (b : Build) (m : Machine) :
    (Reachable b (fun _ _ => True) m →
        ((m.regs .cnthpCtlEl2).getLsbD 0 = true ∧ (m.regs .cnthpCtlEl2).getLsbD 1 = false)
          ∧ (m.gicd.readByte 0x103).getLsbD 2 = true)
      ∧ (Reachable b KeepsTick m → TickLive m) := by
  constructor
  · intro h
    exact ⟨(reachable_tickArmed h).timer_bits, (reachable_tickArmed h).enabled_bit⟩
  · intro h
    obtain ⟨hfwd, hprio⟩ := reachable_routesTick h
    have harmed := reachable_tickArmed h
    refine ⟨harmed.timer_bits, harmed.enabled_bit, hfwd, ?_⟩
    rw [harmed.pmr]
    exact hprio

/-- A guest may move the tick's priority: after a store of `0x40` to each of
`GICD_IPRIORITYR[24..27]`, which is forwarded, the tick still reaches EL2. -/
theorem tick_live_of_stores_priority :
    ∃ m : Machine, Reachable default KeepsTick m ∧ m.gicd.readByte 0x41A = 0x40 ∧ TickLive m := by
  obtain ⟨m₀, hb, -⟩ := exists_booted default atReset_default
  have hr : Reachable default KeepsTick m₀ := .start hb
  have hstore : (Trap.access 0x08000418 true 0x40404040).forwardedStore
      = some (0x418, [0x40, 0x40, 0x40, 0x40]) := by
    decide
  have hprio : ∀ old, Gicd.storedByte 0x418 [0x40, 0x40, 0x40, 0x40] 0x41A old = 0x40 :=
    fun _ => rfl
  have hkeeps : KeepsTick m₀ (.access 0x08000418 true 0x40404040) := by
    intro off vs hoff
    obtain ⟨rfl, rfl⟩ := Prod.mk.inj (Option.some.inj (hoff.symm.trans hstore))
    refine ⟨(booted_routesTick hb).1, ?_⟩
    rw [hprio]
    decide
  have hhandled : (Trap.access 0x08000418 true 0x40404040).Handled :=
    Or.inr (Or.inr ⟨rfl, Or.inr (Or.inr (by decide))⟩)
  obtain ⟨m, hs, hm, -⟩ := hr.handled hkeeps hhandled
  refine ⟨m, hm, ?_, (tick_live_of_stores default m).2 hm⟩
  rw [step_readByte hs (by decide) (by decide), Trap.storedByte, hstore]
  exact hprio _

/-- A guest stops the tick with one store: zero to `GICD_CTLR`. -/
theorem tick_stopped_by_guest :
    ∃ m : Machine, Reachable default (fun _ _ => True) m ∧ ¬ TickLive m := by
  obtain ⟨m₀, hb, -⟩ := exists_booted default atReset_default
  have hr : Reachable default (fun _ _ => True) m₀ := .start hb
  have hhandled : (Trap.access 0x08000000 true 0).Handled :=
    Or.inr (Or.inr ⟨rfl, Or.inr (Or.inr (by decide))⟩)
  obtain ⟨m, hs, hm, -⟩ := hr.handled (t := .access 0x08000000 true 0) trivial hhandled
  refine ⟨m, hm, fun hlive => ?_⟩
  have hstore : (Trap.access 0x08000000 true 0).forwardedStore = some (0, [0, 0, 0, 0]) := by decide
  have hctlr : m.gicd.readByte 0x000 = 0 := by
    rw [step_readByte hs (by decide) (by decide), Trap.storedByte, hstore]
    rfl
  have hfwd := hlive.forwarded
  have hoff : ∀ igroup bit, groupEnabled 0 igroup bit = false := fun _ _ => BitVec.getLsbD_zero
  rw [hctlr, hoff] at hfwd
  exact Bool.false_ne_true hfwd

end ArmHyp
