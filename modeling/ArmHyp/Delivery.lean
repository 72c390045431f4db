import ArmHyp.EoiLedger

/-!
# Which physical interrupts reach a guest

The CPU interface is emulated, so an interrupt reaches a guest only if EL2
puts it into the running vCPU's pending bitmap. EL2 does that for the
virtual timer (27) and the PL011 (33). Any other INTID but its own tick it
takes for a stray: completed at once, counted and reported, with every vGIC
unchanged.
-/

namespace ArmHyp

open Machine MinSet Ledger

/-- The trap is a physical interrupt. -/
def Trap.IsIrq (t : Trap) : Prop := t.kind = .l64Irq ∨ t.kind = .el2hIrq

theorem Trap.IsIrq.irqOp {t : Trap} (h : t.IsIrq) : t.irqOp = .phys := if_pos h

theorem Trap.IsWfi.irqOp {t : Trap} (h : t.IsWfi) : t.irqOp = .poll := by
  rw [Trap.irqOp, h.1, h.2]
  rfl

theorem mem_pending_onCur {w : IrqView} {f : CpuIf → CpuIf} {n : Nat}
    (h : n ∈ (f w.cpuIf).v.pending) : n ∈ ((w.onCur f).vgic w.cur).pending := by
  simp only [IrqView.onCur, Function.update_self]
  exact h

/-- **What is delivered, and what is not.** A physical interrupt 27 or 33,
and a 33 that `handle_wfi` acknowledges, is pending for the vCPU that was
running when EL2 returns. Any other INTID but 26 read by the physical
interrupt handler is completed on the spot and changes no vGIC. -/
theorem physical_irq_delivered (b : Build) (ok : Machine → Trap → Prop) (m : Machine)
    (h : Reachable b ok m) (t : Trap) (m' : Machine) (hs : step b m t = some m') :
    (t.IsIrq → intidOf t.iar = 27 ∨ intidOf t.iar = 33 →
      (m'.vgics m.current).pendingMask.getLsbD (intidOf t.iar).toNat = true)
    ∧ (t.IsWfi → intidOf t.hppir = 33 → (m.vgics m.current).hasPhysIar = 0 →
        intidOf t.iar = 33 → (m'.vgics m.current).pendingMask.getLsbD 33 = true)
    ∧ (t.IsIrq → intidOf t.iar ≠ 26 → intidOf t.iar ≠ 27 → intidOf t.iar ≠ 33 →
        intidOf t.iar ≠ 1023 →
        m'.gicc.log = .give t.iar :: .take t.iar :: m.gicc.log ∧ m'.vgics = m.vgics) := by
  have hv := step_irqView (reachable_wf h) hs
  have hvg : m'.vgics = (t.irqOp.run b (m.enter t).irqView).vgic := congrArg IrqView.vgic hv
  have hgicc : m'.gicc = (t.irqOp.run b (m.enter t).irqView).gicc := congrArg IrqView.gicc hv
  refine ⟨?_, ?_, ?_⟩
  · intro hirq hi
    rw [hvg, hirq.irqOp, ← mem_bits]
    rcases hi with hi | hi
    · rw [hi]
      change 27 ∈ ((IrqOp.runPhys b (m.enter t).irqView).vgic m.current).pending
      rw [IrqOp.runPhys_vtimer hi]
      exact mem_pending_onCur (mem_pending_inject (n := irqVtimer) (by decide) _)
    · rw [hi]
      change 33 ∈ ((IrqOp.runPhys b (m.enter t).irqView).vgic m.current).pending
      rw [IrqOp.runPhys_pl011 hi]
      exact mem_pending_onCur (mem_pending_inject (n := irqPl011) (by decide) _)
  · intro hwfi hhppir hfree hi
    rw [hvg, hwfi.irqOp, ← mem_bits]
    change 33 ∈ ((IrqOp.runPoll (m.enter t).irqView).vgic m.current).pending
    rw [IrqOp.runPoll_forward hhppir (hasPendingPhysIar_eq_false.mpr hfree) hi]
    exact mem_pending_onCur (mem_pending_inject (n := irqPl011) (by decide) _)
  · intro hirq h26 h27 h33 h1023
    have hother : IrqOp.run b .phys (m.enter t).irqView = (m.enter t).irqView.ack.eoi t.iar :=
      IrqOp.runPhys_other h1023 h26 h27 h33
    rw [hvg, hgicc, hirq.irqOp, hother]
    refine ⟨?_, rfl⟩
    change Entry.give t.iar :: (m.enter t).irqView.ack.gicc.log = _
    rw [IrqView.log_ack h1023]
    rfl

/-- After boot, a PL011 interrupt is delivered to vCPU 0. -/
theorem physical_irq_delivered_pl011 :
    ∃ m₀ m : Machine, Reachable default (fun _ _ => True) m₀
      ∧ step default m₀ (.irq 33) = some m
      ∧ (m.vgics m₀.current).pendingMask.getLsbD 33 = true := by
  obtain ⟨m₀, hb, -⟩ := exists_booted default atReset_default
  obtain ⟨m, hs⟩ := step_handled default m₀ (t := .irq 33) (Or.inl rfl)
  have hr : Reachable default (fun _ _ => True) m₀ := .start hb
  have hdel := (physical_irq_delivered default _ m₀ hr (.irq 33) m hs).1 (Or.inl rfl)
    (Or.inr (by decide))
  exact ⟨m₀, m, hr, hs, hdel⟩

/-! ## An SGI a guest sends itself -/

section Sgi

variable {b : Build} {m : Machine} {t : Trap}

theorem reassert_pend (m : Machine) :
    (reassertPl011Rx (reassertHtimerPpi m)).gicd.pend = m.gicd.pend := rfl

/-- A 32-bit store in the distributor window reaches the physical distributor. -/
theorem vgicMmio_gicd_store {ipa iss : BitVec 64} (hlo : gicdEmuBase ≤ ipa)
    (hhi : ipa < gicdEmuLimit) (hisv : issIsv iss = true) (hwnr : issWnr iss = true)
    (hsas : issSas iss = 2) (m : Machine) :
    (vgicMmio ipa iss m).2.gicd.pend
      = (m.gicd.write32 (ipa - gicdEmuBase).toNat (storeVal m (issSrt iss))).pend := by
  simp only [vgicMmio, hisv, hwnr, hsas, hlo, hhi, and_self, if_true, gicdForward,
    Bool.true_eq_false, if_false, false_and]
  rw [reassert_pend]

theorem step_gicd_store (hk : t.kind = .l64Sync) (hec : esrEc t.esr = 0x24)
    (hlo : gicdEmuBase ≤ faultIpa t.far t.hpfar) (hhi : faultIpa t.far t.hpfar < gicdEmuLimit)
    (hisv : issIsv (t.esr &&& 0x1ffffff) = true) (hwnr : issWnr (t.esr &&& 0x1ffffff) = true)
    (hsas : issSas (t.esr &&& 0x1ffffff) = 2) :
    ∃ m', step b m t = some m'
      ∧ m'.gicd.pend = ((m.enter t).gicd.write32 (faultIpa t.far t.hpfar - gicdEmuBase).toNat
          (t.storeVal (issSrt (t.esr &&& 0x1ffffff)))).pend := by
  have hstep : step b m t = some (handleStage2Abort t.esr (atDispatch t m)).restoreCtx := by
    rw [step, handleException_eq, hk, hec]
    rfl
  refine ⟨_, hstep, ?_⟩
  have hwin : gicdEmuBase ≤ faultIpa t.far t.hpfar ∧ faultIpa t.far t.hpfar < giccEmuLimit :=
    ⟨hlo, BitVec.lt_trans hhi (by decide)⟩
  have habort : handleStage2Abort t.esr (atDispatch t m)
      = (vgicMmio (faultIpa t.far t.hpfar) (t.esr &&& 0x1ffffff) (atDispatch t m)).2.skipInsn :=
    if_pos hwin
  have hpend := vgicMmio_gicd_store hlo hhi hisv hwnr hsas (atDispatch t m)
  rw [atDispatch_storeVal t m (issSrt_lt _)] at hpend
  rw [habort]
  exact hpend

end Sgi

/-- The guest of vCPU 0 writes SGI 5 for itself to `GICD_SGIR`; the
distributor pends it, EL2 acknowledges it, and INTID 5 is not pending in
the guest's vGIC. -/
theorem sgi_not_delivered :
    ∃ m₀ m₁ m₂ : Machine, Booted default m₀
      ∧ step default m₀ (.access 0x08000F00 true 0x02000005) = some m₁
      ∧ (m₁.gicd.pend 0).getLsbD 5 = true
      ∧ Reachable default GicOk m₁
      ∧ GicOk m₁ { Trap.irq 5 with pend := m₁.gicd.pend }
      ∧ step default m₁ { Trap.irq 5 with pend := m₁.gicd.pend } = some m₂
      ∧ (m₂.vgics m₁.current).pendingMask.getLsbD 5 = false := by
  obtain ⟨m₀, hb, -⟩ := exists_booted default atReset_default
  have hi := booted_irqView hb
  -- the store to GICD_SGIR
  obtain ⟨m₁, hs₁, hpend⟩ := step_gicd_store (b := default) (m := m₀)
    (t := .access 0x08000F00 true 0x02000005) rfl (by decide) (by decide) (by decide) (by decide)
    (by decide) (by decide)
  have hok₀ : GicOk m₀ (.access 0x08000F00 true 0x02000005) := Or.inl (by decide)
  have hr₁ : Reachable default GicOk m₁ := .next (.start hb) hok₀ hs₁
  have hidle : (Trap.access 0x08000F00 true 0x02000005).irqOp = .idle := by decide
  have hv₁ : m₁.irqView = (m₀.enter (.access 0x08000F00 true 0x02000005)).irqView := by
    rw [step_irqView (booted_wf hb) hs₁, hidle]
    rfl
  have hbit : (m₁.gicd.pend 0).getLsbD 5 = true := by
    have hoff : (faultIpa (Trap.access 0x08000F00 true 0x02000005).far
        (Trap.access 0x08000F00 true 0x02000005).hpfar - gicdEmuBase).toNat = 0xF00 := by decide
    have hval : (Trap.access 0x08000F00 true 0x02000005).storeVal
        (issSrt ((Trap.access 0x08000F00 true 0x02000005).esr &&& 0x1ffffff)) = 0x02000005 := by
      decide
    rw [hpend, hoff, hval, Gicd.write32, if_pos rfl, Gicd.writeSgir, if_pos (by decide)]
    exact congrArg (BitVec.getLsbD · 5)
      (show Gicd.setBits (fun _ => 0) 0 (1#8 <<< 5) 0 = 0x20#8 by decide)
  -- the interrupt
  have hlog₁ : m₁.gicc.log = [] :=
    (congrArg (fun w => w.gicc.log) hv₁).trans hi.log_eq
  have hok₁ : GicOk m₁ { Trap.irq 5 with pend := m₁.gicd.pend } := gicOk_of_log_nil hlog₁ _
  obtain ⟨m₂, hs₂⟩ := step_handled default m₁
    (t := { Trap.irq 5 with pend := m₁.gicd.pend }) (Or.inl rfl)
  have hv₂ : m₂.vgics = m₁.vgics :=
    congrArg IrqView.vgic ((step_irqView (reachable_wf hr₁) hs₂).trans (IrqOp.runPhys_other
      (show intidOf (Trap.irq 5).iar ≠ intidSpurious by decide)
      (show intidOf (Trap.irq 5).iar ≠ irqHtimer by decide)
      (show intidOf (Trap.irq 5).iar ≠ irqVtimer by decide)
      (show intidOf (Trap.irq 5).iar ≠ irqPl011 by decide)))
  refine ⟨m₀, m₁, m₂, hb, hs₁, hbit, hr₁, hok₁, hs₂, ?_⟩
  have hvg : m₁.vgics m₁.current = vgicInit := by
    have h₀ : (m₀.vgics m₁.current) = vgicInit := hi.vgic_eq _ (reachable_wf hr₁).current_lt
    rw [← h₀]
    exact congrArg (IrqView.vgic · m₁.current) hv₁
  rw [hv₂, hvg]
  decide

end ArmHyp
