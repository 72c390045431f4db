import ArmHyp.IrqCore

/-!
# What a handler leaves alone

Every handler but the scheduler tick works on the frame, the devices, the
console, one `vgic_t` and at most two system registers. `Machine.kept` is
the rest of what the scheduler's and the timers' invariants are about:
`vcpus[]`, `current`, `guest_states[]`, and every register that no handler
writes; `Machine.ring` is the exit ring. One lemma per handler says that it
leaves both alone (`Machine.untouched`), `step_untouched` that an exception
does after its push, or is a tick.
-/

namespace ArmHyp

open Machine

/-- Registers a handler other than the tick may write: `HCR_EL2` through
`set_vi`, `CNTV_CTL_EL0` on a virtual timer interrupt, and the return state
through the frame. -/
def SysReg.handlerWritable : SysReg → Bool
  | .hcrEl2 | .cntvCtlEl0 | .elrEl2 | .spsrEl2 => true
  | _ => false

/-- `vcpus[]`, `current`, the registers no handler writes, and
`guest_states[]`. -/
def Machine.kept (m : Machine) :
    (Nat → Vcpu) × Nat × (SysReg → BitVec 64) × (Nat → GuestState) :=
  (m.vcpus, m.current, fun r => if r.handlerWritable then 0 else m.regs r, m.guestStates)

theorem vcpus_of_kept {m m' : Machine} (h : m'.kept = m.kept) : m'.vcpus = m.vcpus :=
  congrArg Prod.fst h

theorem current_of_kept {m m' : Machine} (h : m'.kept = m.kept) : m'.current = m.current :=
  congrArg (fun k => k.2.1) h

theorem regs_of_kept {m m' : Machine} (h : m'.kept = m.kept) {r : SysReg}
    (hr : r.handlerWritable = false) : m'.regs r = m.regs r := by
  have hreg := congrArg (fun k => k.2.2.1 r) h
  simpa only [kept, hr, Bool.false_eq_true, if_false] using hreg

theorem guestStates_of_kept {m m' : Machine} (h : m'.kept = m.kept) :
    m'.guestStates = m.guestStates := congrArg (fun k => k.2.2.2) h

/-- `exit_ring`, `exit_ring_head` and `exit_ring_count`. -/
def Machine.ring (m : Machine) : (Nat → ExitRecord) × BitVec 32 × BitVec 64 :=
  (m.exitRing, m.exitRingHead, m.exitRingCount)

/-- What no handler but the tick touches. -/
def Machine.untouched (m : Machine) :
    ((Nat → Vcpu) × Nat × (SysReg → BitVec 64) × (Nat → GuestState)) ×
      (Nat → ExitRecord) × BitVec 32 × BitVec 64 :=
  (m.kept, m.ring)

theorem kept_of_untouched {m m' : Machine} (h : m'.untouched = m.untouched) : m'.kept = m.kept :=
  congrArg Prod.fst h

theorem ring_of_untouched {m m' : Machine} (h : m'.untouched = m.untouched) : m'.ring = m.ring :=
  congrArg Prod.snd h

/-! ## Handlers -/

section Handlers

variable (m : Machine)

@[simp] theorem untouched_msr {r : SysReg} (v : BitVec 64) (hr : r.handlerWritable = true) :
    (m.msr r v).untouched = m.untouched := by
  have hregs : (fun r' => if r'.handlerWritable then 0 else Function.update m.regs r v r')
      = fun r' => if r'.handlerWritable then 0 else m.regs r' := by
    funext r'
    by_cases hr' : r'.handlerWritable = true
    · rw [if_pos hr', if_pos hr']
    · have hne : r' ≠ r := fun h => hr' (h ▸ hr)
      rw [if_neg hr', if_neg hr', Function.update_of_ne hne]
  exact congrArg (fun regs => ((m.vcpus, m.current, regs, m.guestStates), m.ring)) hregs

@[simp] theorem untouched_setCpuIf (id : Nat) (c : CpuIf) :
    (m.setCpuIf id c).untouched = m.untouched :=
  untouched_msr m (r := .hcrEl2) c.hcr rfl

@[simp] theorem untouched_onVgic (id : Nat) (f : CpuIf → CpuIf) :
    (m.onVgic id f).untouched = m.untouched :=
  untouched_setCpuIf m id _

@[simp] theorem untouched_uartPuts (s : String) : (m.uartPuts s).untouched = m.untouched := rfl

@[simp] theorem untouched_uartPutHex (v : BitVec 64) :
    (m.uartPutHex v).untouched = m.untouched := rfl

@[simp] theorem untouched_uartPutBytes (s : List (BitVec 8)) :
    (m.uartPutBytes s).untouched = m.untouched := rfl

@[simp] theorem untouched_ackIar : m.ackIar.untouched = m.untouched := rfl

@[simp] theorem untouched_writeEoir (v : BitVec 32) : (m.writeEoir v).untouched = m.untouched := rfl

@[simp] theorem untouched_gicdW (off : Nat) (v : BitVec 32) :
    (m.gicdW off v).untouched = m.untouched := rfl

@[simp] theorem untouched_gicdWb (off : Nat) (v : BitVec 8) :
    (m.gicdWb off v).untouched = m.untouched := rfl

@[simp] theorem untouched_setX (i : Nat) (v : BitVec 64) :
    (m.setX i v).untouched = m.untouched := rfl

@[simp] theorem untouched_skipInsn : m.skipInsn.untouched = m.untouched := rfl

@[simp] theorem untouched_imsc (v : BitVec 32) :
    ({ m with imsc := v } : Machine).untouched = m.untouched := rfl

@[simp] theorem untouched_restoreCtx : m.restoreCtx.untouched = m.untouched := by
  rw [← untouched_msr m (r := .spsrEl2) m.tf.spsrEl2 rfl,
    ← untouched_msr (m.msr .spsrEl2 m.tf.spsrEl2) (r := .elrEl2) m.tf.elrEl2 rfl]
  rfl

@[simp] theorem untouched_pl011RxReassert : (pl011RxReassert m).untouched = m.untouched := by
  simp only [pl011RxReassert, untouched_gicdWb, untouched_gicdW, untouched_imsc]

-- what stands around a tick in the handlers

theorem kept_writeEoir (v : BitVec 32) : (m.writeEoir v).kept = m.kept :=
  kept_of_untouched (untouched_writeEoir m v)

theorem kept_restoreCtx : m.restoreCtx.kept = m.kept := kept_of_untouched (untouched_restoreCtx m)

theorem kept_pl011RxReassert : (pl011RxReassert m).kept = m.kept :=
  kept_of_untouched (untouched_pl011RxReassert m)

theorem untouched_handleVtimer (iar : BitVec 32) :
    (handleVtimer iar m).untouched = m.untouched := by
  rw [handleVtimer, untouched_writeEoir, untouched_onVgic, untouched_msr _ _ rfl]
  rfl

theorem untouched_handlePl011 (iar : BitVec 32) : (handlePl011 iar m).untouched = m.untouched := by
  simp only [handlePl011, untouched_onVgic, untouched_uartPuts, untouched_uartPutHex]

theorem untouched_handleOther (iar : BitVec 32) : (handleOther iar m).untouched = m.untouched := by
  rw [handleOther, untouched_uartPuts, untouched_uartPutHex, untouched_uartPuts,
    untouched_writeEoir]
  rfl

theorem untouched_handleWfi : (handleWfi m).untouched = m.untouched := by
  have hbeat : (wfiHeartbeat m).untouched = m.untouched := by
    simp only [wfiHeartbeat, untouched_gicdW, untouched_imsc]
  rw [handleWfi, untouched_skipInsn, wfiPoll]
  simp only
  split_ifs
  · rw [untouched_onVgic, untouched_ackIar, hbeat]
  · rw [untouched_ackIar, hbeat]
  · exact hbeat

theorem untouched_handleSysreg (esr : BitVec 64) :
    (handleSysreg esr m).untouched = m.untouched := by
  simp only [handleSysreg, untouched_skipInsn]
  split
  · rw [untouched_setX]
  · rfl

theorem untouched_gicdForward (off sas : Nat) (wnr : Bool) (val : BitVec 32) :
    (gicdForward off sas wnr val m).2.untouched = m.untouched := by
  unfold gicdForward
  split <;> split <;> rfl

theorem untouched_giccEmulate (id : Nat) (off : BitVec 32) (wnr : Bool) (val : BitVec 32) :
    (giccEmulate id off wnr val m).2.untouched = m.untouched := by
  cases wnr with
  | true => exact untouched_onVgic m id (writeReg off val)
  | false => exact untouched_setCpuIf m id (readReg off (m.cpuIf id)).2

theorem untouched_vgicMmio (ipa iss : BitVec 64) :
    (vgicMmio ipa iss m).2.untouched = m.untouched := by
  -- the write-back to `x[srt]` is in the frame
  have hset : ∀ (c : Prop) [Decidable c] (m' : Machine) (v : BitVec 64),
      (if c then m'.setX (issSrt iss) v else m').untouched = m'.untouched := by
    intro c _ m' v
    split <;> rfl
  unfold vgicMmio
  split
  · rw [untouched_uartPuts, untouched_uartPutHex, untouched_uartPuts]
  · simp only [reassertPl011Rx, reassertHtimerPpi, untouched_pl011RxReassert, untouched_gicdW]
    rw [hset]
    split
    · exact untouched_gicdForward m _ _ _ _
    · exact untouched_giccEmulate m _ _ _ _

theorem untouched_handleStage2Abort (esr : BitVec 64) :
    (handleStage2Abort esr m).untouched = m.untouched := by
  simp only [handleStage2Abort]
  split
  · rw [untouched_skipInsn, untouched_vgicMmio]
  · rfl

theorem untouched_handleHvc {m m' : Machine} (h : handleHvc m = .ret m') :
    m'.untouched = m.untouched := by
  rcases handleHvc_cases h with ⟨-, -, rfl⟩ | ⟨-, ⟨v, rfl⟩ | ⟨s, rfl⟩⟩
  · rw [untouched_setX, untouched_onVgic]
  · exact untouched_setX m 0 v
  · rw [untouched_setX, untouched_uartPutBytes, untouched_uartPuts]

theorem gicHandlePhysicalIrq_tick (b : Build) (h : intidOf m.gicc.iar = irqHtimer) :
    gicHandlePhysicalIrq b m = handleHtimer b m.gicc.iar m.ackIar := by
  simp only [gicHandlePhysicalIrq, h]
  rfl

theorem untouched_gicHandlePhysicalIrq (b : Build) (h : intidOf m.gicc.iar ≠ irqHtimer) :
    (gicHandlePhysicalIrq b m).untouched = m.untouched := by
  simp only [gicHandlePhysicalIrq, if_neg h]
  split_ifs
  · exact untouched_ackIar m
  · exact (untouched_handleVtimer _ _).trans (untouched_ackIar m)
  · exact (untouched_handlePl011 _ _).trans (untouched_ackIar m)
  · exact (untouched_handleOther _ _).trans (untouched_ackIar m)

end Handlers

/-! ## Exceptions -/

namespace Trap

/-- The trap is a scheduler tick. -/
def IsTick (t : Trap) : Prop :=
  (t.kind = .l64Irq ∨ t.kind = .el2hIrq) ∧ intidOf t.iar = irqHtimer

instance isTick_decidable (t : Trap) : Decidable t.IsTick := inferInstanceAs (Decidable (_ ∧ _))

/-- `ISS` of a data abort, and the address it reports. -/
def iss (t : Trap) : BitVec 64 := t.esr &&& 0x1ffffff

def ipa (t : Trap) : BitVec 64 := faultIpa t.far t.hpfar

/-- The trap is a data abort that `vgic_mmio` emulates. -/
def IsMmio (t : Trap) : Prop :=
  t.kind = .l64Sync ∧ esrEc t.esr = 0x24 ∧ InGicWindow t.ipa ∧ issIsv t.iss = true

instance isMmio_decidable (t : Trap) : Decidable t.IsMmio := inferInstanceAs (Decidable (_ ∧ _))

end Trap

/-- An exception is a tick, or leaves the rest as its push did. -/
theorem step_untouched {b : Build} {m m' : Machine} {t : Trap} (hs : step b m t = some m') :
    (t.IsTick ∧ m' = (handleHtimer b t.iar (atDispatch t m).ackIar).restoreCtx)
      ∨ ¬ t.IsTick ∧ m'.untouched = (atDispatch t m).untouched := by
  unfold step at hs
  cases hx : handleException b t.kind (m.enter t).saveCtx with
  | halt a =>
      rw [hx] at hs
      cases hs
  | ret a =>
      rw [hx] at hs
      cases hs
      rw [untouched_restoreCtx]
      rw [handleException_eq] at hx
      split_ifs at hx with hirq hsync hhvc hwfi hsys habt
      · cases hx
        by_cases htick : intidOf t.iar = irqHtimer
        · exact Or.inl ⟨⟨hirq, htick⟩, congrArg restoreCtx (gicHandlePhysicalIrq_tick _ b htick)⟩
        · exact Or.inr ⟨fun h => htick h.2, untouched_gicHandlePhysicalIrq _ b htick⟩
      · exact Or.inr ⟨fun h => hirq h.1, untouched_handleHvc hx⟩
      · cases hx
        exact Or.inr ⟨fun h => hirq h.1, untouched_handleWfi _⟩
      · cases hx
        exact Or.inr ⟨fun h => hirq h.1, untouched_handleSysreg _ _⟩
      · cases hx
        exact Or.inr ⟨fun h => hirq h.1, untouched_handleStage2Abort _ _⟩
      · cases hx
      · cases hx

/-- **Footprint.** An exception is a tick, or keeps `kept`. -/
theorem step_footprint {b : Build} {m m' : Machine} {t : Trap} (hs : step b m t = some m') :
    (t.IsTick ∧ m' = (handleHtimer b t.iar (atDispatch t m).ackIar).restoreCtx)
      ∨ ¬ t.IsTick ∧ m'.kept = (atDispatch t m).kept :=
  (step_untouched hs).imp_right fun h => ⟨h.1, kept_of_untouched h.2⟩

theorem step_current {b : Build} {m m' : Machine} {t : Trap} (hs : step b m t = some m')
    (ht : ¬ t.IsTick) : m'.current = m.current := by
  rcases step_footprint hs with ⟨htick, -⟩ | ⟨-, hkept⟩
  · exact absurd htick ht
  · exact (current_of_kept hkept : m'.current = (atDispatch t m).current)

theorem step_tick_current {b : Build} {m m' : Machine} {t : Trap} (h : m.Wf b)
    (hs : step b m t = some m') (ht : t.IsTick) :
    m'.current = if 1 < b.nvcpu then (m.current + 1) % b.nvcpu else m.current := by
  have hop : t.irqOp = .phys := if_pos ht.1
  have hview := congrArg IrqView.cur (step_irqView h hs)
  rw [hop, IrqOp.run, IrqOp.runPhys_htimer ht.2] at hview
  exact hview

theorem ctxReg_of_kept {m m' : Machine} (h : m'.kept = m.kept) {r : SysReg}
    (hr : r.handlerWritable = false) (i : Nat) : m'.ctxReg i r = m.ctxReg i r := by
  rw [ctxReg, ctxReg, current_of_kept h, vcpus_of_kept h, regs_of_kept h hr]

theorem ctxReg_msr_of_ne (m : Machine) {r r' : SysReg} (v : BitVec 64) (hr : r' ≠ r) (i : Nat) :
    (m.msr r v).ctxReg i r' = m.ctxReg i r' := by
  simp only [ctxReg, msr, Function.update_of_ne hr]

theorem handleHtimer_ctxReg (b : Build) (iar : BitVec 32) (m : Machine) {r : SysReg}
    (hr : r.inVcpu = true) (hw : r.handlerWritable = false) (i : Nat) :
    (handleHtimer b iar m).ctxReg i r = m.ctxReg i r := by
  have h₁ : r ≠ .cnthpCtlEl2 := by rintro rfl; cases hr
  have h₂ : r ≠ .cnthpCvalEl2 := by rintro rfl; cases hr
  rw [handleHtimer, ctxReg_of_kept (kept_writeEoir _ _) hw, schedRearmTick, armHypTimerMs,
    ctxReg_msr_of_ne _ _ h₁, ctxReg_msr_of_ne _ _ h₂, schedTick_ctxReg b _ hr,
    ctxReg_of_kept (kept_pl011RxReassert _) hw, ctxReg_msr_of_ne _ _ h₁]
  rfl

/-- A register that is switched and that no handler writes keeps, for every
vCPU, the value it has at the entry. -/
theorem step_ctxReg {b : Build} {m m' : Machine} {t : Trap} (hs : step b m t = some m')
    {r : SysReg} (hr : r.inVcpu = true) (hw : r.handlerWritable = false) (i : Nat) :
    m'.ctxReg i r = (m.enter t).ctxReg i r := by
  have hdisp : (atDispatch t m).ctxReg i r = (m.enter t).ctxReg i r := rfl
  rcases step_footprint hs with ⟨-, rfl⟩ | ⟨-, hkept⟩
  · rw [ctxReg_of_kept (kept_restoreCtx _) hw, handleHtimer_ctxReg b _ _ hr hw]
    exact hdisp
  · rw [ctxReg_of_kept hkept hw, hdisp]

/-- No exception touches `guest_states[]`. -/
theorem step_guestStates {b : Build} {m m' : Machine} {t : Trap} (hs : step b m t = some m') :
    m'.guestStates = m.guestStates := by
  rcases step_footprint hs with ⟨-, rfl⟩ | ⟨-, hkept⟩
  · rw [guestStates_of_kept (kept_restoreCtx _), handleHtimer,
      guestStates_of_kept (kept_writeEoir _ _)]
    refine (schedTick_guestStates b _).trans ?_
    rw [guestStates_of_kept (kept_pl011RxReassert _)]
    rfl
  · exact (guestStates_of_kept hkept : m'.guestStates = (atDispatch t m).guestStates)

end ArmHyp
