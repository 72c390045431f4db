import ArmHyp.Boot
import ArmHyp.FrameEffects

/-!
# The interrupt core: an abstract machine for one exception

Most of what `handle_exception` does has nothing to do with interrupts. An
`IrqView` keeps what does: every vCPU's `vgic_t`, the `HCR_EL2` and
`CNTV_CTL_EL0` values that belong to it, which vCPU runs, and the physical
CPU interface. On this
view a trap is one of six operations (`IrqOp`), decided by the trap alone
(`Trap.irqOp`): idle, a physical interrupt, a WFI poll, `HVC_IRQ_DONE`, or
a load or store in the emulated CPU interface.

`step_irqView` is the refinement: the view after `step` is the operation
applied to the view before it. Invariants of the interrupt path are proved
on views and carried to every reachable machine by it.
-/

namespace ArmHyp

open Machine

/-! ## Views and operations -/

@[ext] structure IrqView where
  vgic : Nat → Vgic
  hcr : Nat → BitVec 64
  /-- `CNTV_CTL_EL0` of each vCPU. -/
  cntv : Nat → BitVec 64
  /-- `vcpus[i].id`. -/
  id : Nat → Nat
  cur : Nat
  gicc : Gicc

def Machine.irqView (m : Machine) : IrqView where
  vgic := m.vgics
  hcr := fun i => m.ctxReg i .hcrEl2
  cntv := fun i => m.ctxReg i .cntvCtlEl0
  id := fun i => (m.vcpus i).id
  cur := m.current
  gicc := m.gicc

namespace IrqView

/-- The running vCPU's interface. -/
def cpuIf (w : IrqView) : CpuIf := ⟨w.vgic w.cur, w.hcr w.cur, w.gicc⟩

/-- Run a function of `vgic.c` for the running vCPU. -/
def onCur (f : CpuIf → CpuIf) (w : IrqView) : IrqView where
  vgic := Function.update w.vgic w.cur (f w.cpuIf).v
  hcr := Function.update w.hcr w.cur (f w.cpuIf).hcr
  cntv := w.cntv
  id := w.id
  cur := w.cur
  gicc := (f w.cpuIf).gicc

def ack (w : IrqView) : IrqView := { w with gicc := w.gicc.acknowledge }

def eoi (v : BitVec 32) (w : IrqView) : IrqView := { w with gicc := w.gicc.complete v }

/-- Write the running vCPU's `CNTV_CTL_EL0`. -/
def setCntv (v : BitVec 64) (w : IrqView) : IrqView :=
  { w with cntv := Function.update w.cntv w.cur v }

/-- `current` after a tick. -/
def next (b : Build) (w : IrqView) : IrqView :=
  { w with cur := if 1 < b.nvcpu then (w.cur + 1) % b.nvcpu else w.cur }

end IrqView

/-- What a trap does to the interrupt state. -/
inductive IrqOp where
  | idle
  | phys
  | poll
  | done
  | load (off : BitVec 32)
  | store (off val : BitVec 32)
deriving DecidableEq

namespace IrqOp

/-- `gic_handle_physical_irq` on views. -/
def runPhys (b : Build) (w : IrqView) : IrqView :=
  let iar := w.gicc.iar
  if intidOf iar = intidSpurious then w.ack
  else if intidOf iar = irqHtimer then (w.ack.next b).eoi iar
  else if intidOf iar = irqVtimer then ((w.ack.setCntv 0).onCur (vgicInject irqVtimer)).eoi iar
  else if intidOf iar = irqPl011 then w.ack.onCur (vgicForwardSpi irqPl011 iar)
  else w.ack.eoi iar

/-- The poll of `handle_wfi` on views. -/
def runPoll (w : IrqView) : IrqView :=
  if intidOf w.gicc.hppir = irqPl011 ∧ vgicHasPendingPhysIar (w.vgic w.cur) = false then
    if intidOf w.gicc.iar = irqPl011 then
      w.ack.onCur (vgicForwardSpi irqPl011 w.gicc.iar)
    else w.ack
  else w

def run (b : Build) : IrqOp → IrqView → IrqView
  | idle, w => w
  | phys, w => runPhys b w
  | poll, w => runPoll w
  | done, w => w.onCur vgicAckAll
  | load off, w => w.onCur fun c => (readReg off c).2
  | store off val, w => w.onCur (writeReg off val)

section Branches

variable {b : Build} {w : IrqView}

theorem runPhys_htimer (h : intidOf w.gicc.iar = irqHtimer) :
    runPhys b w = (w.ack.next b).eoi w.gicc.iar := by
  simp only [runPhys, h]
  rfl

theorem runPhys_vtimer (h : intidOf w.gicc.iar = irqVtimer) :
    runPhys b w = ((w.ack.setCntv 0).onCur (vgicInject irqVtimer)).eoi w.gicc.iar := by
  simp only [runPhys, h]
  rfl

theorem runPhys_pl011 (h : intidOf w.gicc.iar = irqPl011) :
    runPhys b w = w.ack.onCur (vgicForwardSpi irqPl011 w.gicc.iar) := by
  simp only [runPhys, h]
  rfl

theorem runPhys_other (hs : intidOf w.gicc.iar ≠ intidSpurious)
    (hh : intidOf w.gicc.iar ≠ irqHtimer) (hv : intidOf w.gicc.iar ≠ irqVtimer)
    (hp : intidOf w.gicc.iar ≠ irqPl011) : runPhys b w = w.ack.eoi w.gicc.iar := by
  simp only [runPhys, if_neg hs, if_neg hh, if_neg hv, if_neg hp]

theorem runPoll_forward (hp : intidOf w.gicc.hppir = irqPl011)
    (hfree : vgicHasPendingPhysIar (w.vgic w.cur) = false) (hi : intidOf w.gicc.iar = irqPl011) :
    runPoll w = w.ack.onCur (vgicForwardSpi irqPl011 w.gicc.iar) := by
  rw [runPoll, if_pos ⟨hp, hfree⟩, if_pos hi]

theorem runPoll_drop (hp : intidOf w.gicc.hppir = irqPl011)
    (hfree : vgicHasPendingPhysIar (w.vgic w.cur) = false) (hi : intidOf w.gicc.iar ≠ irqPl011) :
    runPoll w = w.ack := by
  rw [runPoll, if_pos ⟨hp, hfree⟩, if_neg hi]

end Branches

end IrqOp

/-- What a hypercall does to the interrupt state. -/
def hvcOp (num : BitVec 64) : IrqOp :=
  if isPsciFid num = false ∧ num = hvcIrqDone then .done else .idle

/-- What a data abort at `ipa` does: an access to the CPU interface is a
load or a store there, everything else leaves the interrupt state alone. -/
def accessOp (ipa iss : BitVec 64) (val : BitVec 32) : IrqOp :=
  if giccEmuBase ≤ ipa ∧ ipa < giccEmuLimit ∧ issIsv iss = true then
    if issWnr iss then .store ((ipa - giccEmuBase).setWidth 32) val
    else .load ((ipa - giccEmuBase).setWidth 32)
  else .idle

namespace Trap

/-- The value a trapped store supplies. -/
def storeVal (t : Trap) (srt : Nat) : BitVec 32 :=
  if h : srt < 31 then (t.gpr ⟨srt, h⟩).setWidth 32 else 0

def abortOp (t : Trap) : IrqOp :=
  let iss := t.esr &&& 0x1ffffff
  accessOp (faultIpa t.far t.hpfar) iss (t.storeVal (issSrt iss))

/-- What the trap does to the interrupt state, if it is handled. -/
def irqOp (t : Trap) : IrqOp :=
  if t.kind = .l64Irq ∨ t.kind = .el2hIrq then .phys
  else if t.kind = .l64Sync then
    if esrEc t.esr = 0x16 then hvcOp (t.gpr 0)
    else if esrEc t.esr = 0x01 then .poll
    else if esrEc t.esr = 0x24 then t.abortOp
    else .idle
  else .idle

end Trap

/-! ## Functions the view does not see -/

section Quiet

variable (m : Machine)

@[simp] theorem irqView_uartPuts (s : String) : (m.uartPuts s).irqView = m.irqView := rfl

@[simp] theorem irqView_uartPutHex (v : BitVec 64) : (m.uartPutHex v).irqView = m.irqView := rfl

@[simp] theorem irqView_gicdW (off : Nat) (v : BitVec 32) :
    (m.gicdW off v).irqView = m.irqView := rfl

@[simp] theorem irqView_gicdWb (off : Nat) (v : BitVec 8) :
    (m.gicdWb off v).irqView = m.irqView := rfl

@[simp] theorem irqView_setX (i : Nat) (v : BitVec 64) : (m.setX i v).irqView = m.irqView := rfl

@[simp] theorem irqView_skipInsn : m.skipInsn.irqView = m.irqView := rfl

@[simp] theorem irqView_pl011RxReassert : (pl011RxReassert m).irqView = m.irqView := by
  rw [pl011RxReassert, irqView_gicdWb, irqView_gicdWb, irqView_gicdW]
  rfl

@[simp] theorem irqView_reassert :
    (reassertPl011Rx (reassertHtimerPpi m)).irqView = m.irqView := by
  rw [reassertPl011Rx, irqView_pl011RxReassert, reassertHtimerPpi, irqView_gicdW]

@[simp] theorem irqView_wfiHeartbeat : (wfiHeartbeat m).irqView = m.irqView := by
  rw [wfiHeartbeat, irqView_gicdW, irqView_gicdW, irqView_gicdW, irqView_gicdW]
  rfl

theorem irqView_msr {r : SysReg} (v : BitVec 64) (hr : r ≠ .hcrEl2) (hc : r ≠ .cntvCtlEl0) :
    (m.msr r v).irqView = m.irqView := by
  simp only [irqView, ctxReg, msr, Function.update_of_ne hr.symm, Function.update_of_ne hc.symm]

theorem irqView_msr_cntvCtl (v : BitVec 64) :
    (m.msr .cntvCtlEl0 v).irqView = m.irqView.setCntv v := by
  have hne : SysReg.hcrEl2 ≠ .cntvCtlEl0 := by decide
  simp only [irqView, ctxReg, msr, IrqView.setCntv, Function.update_of_ne hne,
    Function.update_self, IrqView.mk.injEq, true_and, and_true]
  funext i
  by_cases hi : i = m.current
  · subst hi
    simp
  · simp [hi]

@[simp] theorem irqView_restoreCtx : m.restoreCtx.irqView = m.irqView := by
  have h : m.restoreCtx.irqView
      = ((m.msr .spsrEl2 m.tf.spsrEl2).msr .elrEl2 m.tf.elrEl2).irqView := rfl
  rw [h, irqView_msr _ _ (by decide) (by decide), irqView_msr _ _ (by decide) (by decide)]

@[simp] theorem irqView_armHypTimerMs (ms : BitVec 64) :
    (armHypTimerMs ms m).irqView = m.irqView := by
  rw [armHypTimerMs, irqView_msr _ _ (by decide) (by decide),
    irqView_msr _ _ (by decide) (by decide)]

@[simp] theorem irqView_ackIar : m.ackIar.irqView = m.irqView.ack := rfl

@[simp] theorem irqView_writeEoir (v : BitVec 32) : (m.writeEoir v).irqView = m.irqView.eoi v := rfl

end Quiet

/-! ## vgic.c and sched.c on views -/

theorem irqView_setCpuIf (m : Machine) (c : CpuIf) :
    (m.setCpuIf m.current c).irqView = { m.irqView with
      vgic := Function.update m.vgics m.current c.v
      hcr := Function.update m.irqView.hcr m.current c.hcr
      gicc := c.gicc } := by
  have hne : SysReg.cntvCtlEl0 ≠ .hcrEl2 := by decide
  simp only [irqView, ctxReg, setCpuIf, Function.update_of_ne hne, Function.update_self,
    IrqView.mk.injEq, true_and, and_true]
  funext i
  by_cases hi : i = m.current
  · subst hi
    simp
  · simp [hi]

theorem cpuIf_eq (m : Machine) : m.irqView.cpuIf = m.cpuIf m.current := by
  simp [IrqView.cpuIf, irqView, Machine.cpuIf, ctxReg]

/-- A function of `vgic.c` called with the current id acts on the view's
current vCPU, and on its own `HCR_EL2`. -/
theorem irqView_onVgic {b : Build} {m : Machine} (h : m.Wf b) (f : CpuIf → CpuIf) :
    (m.onVgic m.currentVcpu.id f).irqView = m.irqView.onCur f := by
  rw [h.currentVcpu_id, onVgic, irqView_setCpuIf, ← cpuIf_eq]
  rfl

theorem irqView_schedTick (b : Build) (m : Machine) :
    (schedTick b m).irqView = m.irqView.next b := by
  ext1
  · exact schedTick_vgics b m
  · exact funext fun i => schedTick_ctxReg b m rfl i
  · exact funext fun i => schedTick_ctxReg b m rfl i
  · exact funext fun i => schedTick_id b m i
  · exact schedTick_current b m
  · exact schedTick_gicc b m

/-! ## The handlers on views -/

/-- `Wf` only reads `current` and `vcpus[]`. -/
theorem Machine.Wf.congr {b : Build} {m m' : Machine} (h : m.Wf b)
    (hcur : m'.current = m.current) (hvcpus : m'.vcpus = m.vcpus) : m'.Wf b where
  current_lt := hcur ▸ h.current_lt
  id_eq := hvcpus ▸ h.id_eq

theorem handleHtimer_irqView (b : Build) (iar : BitVec 32) (m : Machine) :
    (handleHtimer b iar m).irqView = (m.irqView.next b).eoi iar := by
  rw [handleHtimer, irqView_writeEoir, schedRearmTick, irqView_armHypTimerMs, irqView_schedTick,
    irqView_pl011RxReassert, irqView_msr _ _ (by decide) (by decide)]
  rfl

theorem handleVtimer_irqView {b : Build} {m : Machine} (h : m.Wf b) (iar : BitVec 32) :
    (handleVtimer iar m).irqView
      = ((m.irqView.setCntv 0).onCur (vgicInject irqVtimer)).eoi iar := by
  have hwf : (({ m with vtimerTicks := m.vtimerTicks + 1 } : Machine).msr .cntvCtlEl0 0).Wf b :=
    h.congr rfl rfl
  rw [handleVtimer, irqView_writeEoir, irqView_onVgic hwf, irqView_msr_cntvCtl]
  rfl

theorem handlePl011_irqView {b : Build} {m : Machine} (h : m.Wf b) (iar : BitVec 32) :
    (handlePl011 iar m).irqView = m.irqView.onCur (vgicForwardSpi irqPl011 iar) := by
  have hwf : (((m.uartPuts "[gic] pl011 rx -> vcpu").uartPutHex
      (BitVec.ofNat 64 m.currentVcpu.id)).uartPuts "\n").Wf b := h.congr rfl rfl
  exact irqView_onVgic hwf (vgicForwardSpi irqPl011 iar)

theorem handleOther_irqView (iar : BitVec 32) (m : Machine) :
    (handleOther iar m).irqView = m.irqView.eoi iar := by
  rw [handleOther, irqView_uartPuts, irqView_uartPutHex, irqView_uartPuts, irqView_writeEoir]
  rfl

theorem gicHandlePhysicalIrq_irqView {b : Build} {m : Machine} (h : m.Wf b) :
    (gicHandlePhysicalIrq b m).irqView = IrqOp.runPhys b m.irqView := by
  have hack : m.ackIar.Wf b := h.congr rfl rfl
  simp only [gicHandlePhysicalIrq, IrqOp.runPhys]
  simp only [show m.irqView.gicc.iar = m.gicc.iar from rfl]
  split_ifs
  · rw [irqView_ackIar]
  · rw [handleHtimer_irqView, irqView_ackIar]
  · rw [handleVtimer_irqView hack, irqView_ackIar]
  · rw [handlePl011_irqView hack, irqView_ackIar]
  · rw [handleOther_irqView, irqView_ackIar]

theorem wfiPoll_irqView {b : Build} {m : Machine} (h : m.Wf b) :
    (wfiPoll m).irqView = IrqOp.runPoll m.irqView := by
  simp only [wfiPoll, IrqOp.runPoll, h.currentVcpu_id]
  simp only [show m.irqView.gicc = m.gicc from rfl, show m.irqView.vgic = m.vgics from rfl,
    show m.irqView.cur = m.current from rfl, show irqPl011 = 33 from rfl]
  split_ifs
  · have hack : m.ackIar.Wf b := h.congr rfl rfl
    have hid : m.current = m.ackIar.currentVcpu.id := hack.currentVcpu_id.symm
    rw [hid, irqView_onVgic hack, irqView_ackIar]
  · rw [irqView_ackIar]
  · rfl

theorem gicdForward_irqView (off sas : Nat) (wnr : Bool) (val : BitVec 32) (m : Machine) :
    (gicdForward off sas wnr val m).2.irqView = m.irqView := by
  unfold gicdForward
  split <;> split <;> rfl

theorem giccEmulate_irqView {b : Build} {m : Machine} (h : m.Wf b) (off : BitVec 32) (wnr : Bool)
    (val : BitVec 32) :
    (giccEmulate m.currentVcpu.id off wnr val m).2.irqView
      = (if wnr then IrqOp.store off val else IrqOp.load off).run b m.irqView := by
  cases wnr with
  | true => exact irqView_onVgic h (writeReg off val)
  | false => exact irqView_onVgic h fun c => (readReg off c).2

theorem vgicMmio_irqView {b : Build} {m : Machine} (h : m.Wf b) {ipa : BitVec 64}
    (iss : BitVec 64) (hlo : gicdEmuBase ≤ ipa) (hhi : ipa < giccEmuLimit) :
    (vgicMmio ipa iss m).2.irqView
      = (accessOp ipa iss (storeVal m (issSrt iss))).run b m.irqView := by
  have hwin : gicdEmuBase ≤ ipa ∧ ipa < gicdEmuLimit ↔ ¬giccEmuBase ≤ ipa := by
    simp only [hlo, true_and, BitVec.not_le]
    rfl
  unfold vgicMmio accessOp
  cases hisv : issIsv iss with
  | false =>
      simp only [if_true, Bool.false_eq_true, and_false, if_false]
      rw [irqView_uartPuts, irqView_uartPutHex, irqView_uartPuts]
      rfl
  | true =>
      simp only [Bool.true_eq_false, if_false, irqView_reassert, hhi, and_true, hwin]
      -- the write-back to `x[srt]` is not part of the view
      have hset : ∀ (c : Prop) [Decidable c] (m' : Machine) (v : BitVec 64),
          (if c then m'.setX (issSrt iss) v else m').irqView = m'.irqView := by
        intro c _ m' v
        split <;> rfl
      rw [hset]
      by_cases hg : giccEmuBase ≤ ipa
      · simp only [hg, not_true, if_false, if_true]
        rw [giccEmulate_irqView h]
        cases issWnr iss <;> rfl
      · simp only [hg, not_false_eq_true, if_true, if_false]
        rw [gicdForward_irqView]
        rfl

theorem handleStage2Abort_irqView {b : Build} {m : Machine} (h : m.Wf b) (esr : BitVec 64) :
    (handleStage2Abort esr m).irqView
      = (accessOp (faultIpa (m.mrs .farEl2) (m.mrs .hpfarEl2)) (esr &&& 0x1ffffff)
          (storeVal m (issSrt (esr &&& 0x1ffffff)))).run b m.irqView := by
  simp only [handleStage2Abort]
  split
  · rename_i hw
    rw [irqView_skipInsn, vgicMmio_irqView h _ hw.1 hw.2]
  · rename_i hw
    have hout : ¬(giccEmuBase ≤ faultIpa (m.mrs .farEl2) (m.mrs .hpfarEl2)
        ∧ faultIpa (m.mrs .farEl2) (m.mrs .hpfarEl2) < giccEmuLimit
        ∧ issIsv (esr &&& 0x1ffffff) = true) :=
      fun hin => hw ⟨BitVec.le_trans (by decide) hin.1, hin.2.1⟩
    rw [irqView_skipInsn, accessOp, if_neg hout]
    rfl

theorem handleHvc_irqView {b : Build} {m m' : Machine} (h : m.Wf b) (hr : handleHvc m = .ret m') :
    m'.irqView = (hvcOp (m.tf.x 0)).run b m.irqView := by
  rcases handleHvc_cases hr with ⟨hpsci, hdone, rfl⟩ | ⟨hother, hret⟩
  · rw [hvcOp, if_pos ⟨hpsci, hdone⟩, irqView_setX, irqView_onVgic h]
    rfl
  · have hidle : ¬(isPsciFid (m.tf.x 0) = false ∧ m.tf.x 0 = hvcIrqDone) := by
      rintro ⟨hpsci, hdone⟩
      exact hother.elim (fun h => absurd (hpsci.symm.trans h) (by decide)) fun h => h hdone
    rw [hvcOp, if_neg hidle]
    rcases hret with ⟨v, rfl⟩ | ⟨s, rfl⟩
    · exact irqView_setX m 0 v
    · rw [irqView_setX]
      rfl

/-! ## One exception on views -/

section Entry

variable (t : Trap) (m : Machine)

/-- The machine `handle_exception` dispatches on: after `SAVE_CTX` and the
exit-ring push. -/
def atDispatch : Machine :=
  exitRingPush t.kind t.esr t.pc t.far (m.enter t).currentVcpu.id (m.enter t).saveCtx

@[simp] theorem irqView_atDispatch : (atDispatch t m).irqView = (m.enter t).irqView := rfl

theorem atDispatch_wf {b : Build} {m : Machine} (h : m.Wf b) : (atDispatch t m).Wf b :=
  h.congr rfl rfl

theorem atDispatch_x (i : Fin 31) : (atDispatch t m).tf.x i.val = t.gpr i := by
  have hi := i.isLt
  have hmod : (Fin.ofNat 34 i.val).val = i.val := Nat.mod_eq_of_lt (by omega)
  simp only [atDispatch, exitRingPush, saveCtx, enter, TrapFrame.x, hmod, hi, dif_pos]

theorem atDispatch_storeVal {srt : Nat} (h : srt < 32) :
    storeVal (atDispatch t m) srt = t.storeVal srt := by
  unfold storeVal Trap.storeVal
  by_cases h31 : srt = 31
  · simp [h31]
  · have hlt : srt < 31 := by omega
    rw [if_neg h31, dif_pos hlt]
    rw [← atDispatch_x t m ⟨srt, hlt⟩]

end Entry

/-- The dispatch, with the entry sequence folded away. -/
theorem handleException_eq (b : Build) (t : Trap) (m : Machine) :
    handleException b t.kind (m.enter t).saveCtx =
      if t.kind = .l64Irq ∨ t.kind = .el2hIrq then
        .ret (gicHandlePhysicalIrq b (atDispatch t m))
      else if t.kind = .l64Sync then
        if esrEc t.esr = 0x16 then handleHvc (atDispatch t m)
        else if esrEc t.esr = 0x01 then .ret (handleWfi (atDispatch t m))
        else if esrEc t.esr = 0x18 then .ret (handleSysreg t.esr (atDispatch t m))
        else if esrEc t.esr = 0x24 then .ret (handleStage2Abort t.esr (atDispatch t m))
        else dumpAndHalt t.kind t.esr (atDispatch t m)
      else dumpAndHalt t.kind t.esr (atDispatch t m) := rfl

theorem handleSysreg_irqView (esr : BitVec 64) (m : Machine) :
    (handleSysreg esr m).irqView = m.irqView := by
  simp only [handleSysreg, irqView_skipInsn]
  split <;> rfl

theorem handleWfi_irqView {b : Build} {m : Machine} (h : m.Wf b) :
    (handleWfi m).irqView = IrqOp.runPoll m.irqView := by
  have hb : (wfiHeartbeat m).Wf b := h.congr rfl rfl
  rw [handleWfi, irqView_skipInsn, wfiPoll_irqView hb, irqView_wfiHeartbeat]

theorem handleException_irqView {b : Build} {m m' : Machine} {t : Trap} (h : m.Wf b)
    (hr : handleException b t.kind (m.enter t).saveCtx = .ret m') :
    m'.irqView = t.irqOp.run b (m.enter t).irqView := by
  have hd := atDispatch_wf t h
  rw [handleException_eq] at hr
  rw [← irqView_atDispatch]
  unfold Trap.irqOp
  split_ifs at hr with hirq hsync hhvc hwfi hsys habt
  · cases hr
    rw [if_pos hirq, gicHandlePhysicalIrq_irqView hd]
    rfl
  · rw [if_neg hirq, if_pos hsync, if_pos hhvc]
    have hx : (atDispatch t m).tf.x 0 = t.gpr 0 := atDispatch_x t m 0
    rw [handleHvc_irqView hd hr, hx]
  · cases hr
    rw [if_neg hirq, if_pos hsync, if_neg hhvc, if_pos hwfi, handleWfi_irqView hd]
    rfl
  · cases hr
    rw [if_neg hirq, if_pos hsync, if_neg hhvc, if_neg hwfi,
      if_neg (by rw [hsys]; decide), handleSysreg_irqView]
    rfl
  · cases hr
    rw [if_neg hirq, if_pos hsync, if_neg hhvc, if_neg hwfi, if_pos habt,
      handleStage2Abort_irqView hd, atDispatch_storeVal t m (issSrt_lt _)]
    rfl
  -- an unhandled exception does not return
  · cases hr
  · cases hr

/-- **Refinement.** What one exception does to the interrupt state is the
operation its trap stands for. -/
theorem step_irqView {b : Build} {m m' : Machine} {t : Trap} (h : m.Wf b)
    (hs : step b m t = some m') : m'.irqView = t.irqOp.run b (m.enter t).irqView := by
  unfold step at hs
  cases hx : handleException b t.kind (m.enter t).saveCtx with
  | halt a =>
      rw [hx] at hs
      cases hs
  | ret a =>
      rw [hx] at hs
      cases hs
      rw [irqView_restoreCtx, handleException_irqView h hx]

/-- Interrupts, trapped WFI, data aborts and trapped system registers are
always handled. -/
def Trap.Handled (t : Trap) : Prop :=
  t.kind = .l64Irq ∨ t.kind = .el2hIrq
    ∨ t.kind = .l64Sync ∧ (esrEc t.esr = 0x01 ∨ esrEc t.esr = 0x18 ∨ esrEc t.esr = 0x24)

theorem step_handled (b : Build) (m : Machine) {t : Trap} (h : t.Handled) :
    ∃ m', step b m t = some m' := by
  suffices hret : ∃ m', handleException b t.kind (m.enter t).saveCtx = .ret m' by
    obtain ⟨m', hm'⟩ := hret
    exact ⟨m'.restoreCtx, by rw [step, hm']; rfl⟩
  rw [handleException_eq]
  rcases h with h | h | ⟨h, hec⟩
  · exact ⟨_, if_pos (Or.inl h)⟩
  · exact ⟨_, if_pos (Or.inr h)⟩
  · rw [h]
    rcases hec with hec | hec | hec <;> rw [hec] <;> exact ⟨_, rfl⟩

/-! ## Well-formedness along runs -/

/-- `Machine.Wf` as a property of views. -/
structure IrqView.Wf (b : Build) (w : IrqView) : Prop where
  cur_lt : w.cur < b.nvcpu
  id_eq : ∀ i < b.nvcpu, w.id i = i

theorem wf_iff_irqView {b : Build} {m : Machine} : m.Wf b ↔ m.irqView.Wf b :=
  ⟨fun h => ⟨h.current_lt, h.id_eq⟩, fun h => ⟨h.cur_lt, h.id_eq⟩⟩

theorem IrqOp.run_wf {b : Build} {w : IrqView} (h : w.Wf b) (o : IrqOp) : (o.run b w).Wf b := by
  cases o with
  | phys =>
      simp only [IrqOp.run, IrqOp.runPhys]
      split_ifs
      · exact ⟨h.cur_lt, h.id_eq⟩
      · refine ⟨?_, h.id_eq⟩
        change (if 1 < b.nvcpu then (w.cur + 1) % b.nvcpu else w.cur) < b.nvcpu
        split
        · exact Nat.mod_lt _ b.nvcpu_pos
        · exact h.cur_lt
      all_goals exact ⟨h.cur_lt, h.id_eq⟩
  | poll =>
      simp only [IrqOp.run, IrqOp.runPoll]
      split_ifs <;> exact ⟨h.cur_lt, h.id_eq⟩
  | _ => exact ⟨h.cur_lt, h.id_eq⟩

theorem step_wf {b : Build} {m m' : Machine} {t : Trap} (h : m.Wf b)
    (hs : step b m t = some m') : m'.Wf b := by
  rw [wf_iff_irqView, step_irqView h hs]
  exact IrqOp.run_wf ⟨h.current_lt, h.id_eq⟩ _

/-! ## Boot -/

/-- The view every booted machine has. -/
structure IrqView.Initial (b : Build) (w : IrqView) : Prop where
  wf : w.Wf b
  cur_eq : w.cur = 0
  vgic_eq : ∀ i < b.nvcpu, w.vgic i = vgicInit
  hcr_eq : ∀ i < b.nvcpu, w.hcr i = hcrFlags
  log_eq : w.gicc.log = []

theorem BootState.irqView {b : Build} {m₀ m : Machine} (h₀ : AtReset m₀)
    (h : BootState b m₀ m) : m.irqView.Initial b := by
  have hn := b.nvcpu_le
  have hcases : ∀ i < b.nvcpu, i = 0 ∨ (i = 1 ∧ 1 < b.nvcpu) := by
    intro i hi
    omega
  refine ⟨⟨?_, ?_⟩, h.current, ?_, ?_, h.log.trans h₀.log⟩
  · change m.current < b.nvcpu
    rw [h.current]
    exact b.nvcpu_pos
  · intro i hi
    change (m.vcpus i).id = i
    rw [h.vcpus]
    rcases hcases i hi with rfl | ⟨rfl, hone⟩
    · rw [bootVcpus_zero]
      rfl
    · rw [bootVcpus_one hone]
      rfl
  · intro i hi
    change m.vgics i = vgicInit
    rw [h.vgics]
    rcases hcases i hi with rfl | ⟨rfl, hone⟩
    · exact bootVgics_zero b _
    · exact bootVgics_one hone _
  · intro i hi
    change (if i = m.current then m.regs .hcrEl2 else (m.vcpus i).hcrEl2) = hcrFlags
    rw [h.current, h.vcpus, h.regs .hcrEl2 rfl]
    rcases hcases i hi with rfl | ⟨rfl, hone⟩
    · rw [if_pos rfl, bootVcpus_zero]
      rfl
    · rw [if_neg (by decide), bootVcpus_one hone]
      rfl

theorem booted_irqView {b : Build} {m : Machine} (h : Booted b m) : m.irqView.Initial b := by
  obtain ⟨m₀, h₀, hs⟩ := h.state
  exact hs.irqView h₀

theorem booted_wf {b : Build} {m : Machine} (h : Booted b m) : m.Wf b :=
  wf_iff_irqView.mpr (booted_irqView h).wf

/-- **Invariants of views.** A property of views that holds after boot and
that every operation keeps holds at every return to a guest. `ok` may
restrict the traps; the operation is applied to the view the trap presents. -/
theorem reachable_irqView {b : Build} {ok : Machine → Trap → Prop} {P : IrqView → Prop}
    (hinit : ∀ w, w.Initial b → P w)
    (hstep : ∀ m t, m.Wf b → ok m t → P m.irqView → P (t.irqOp.run b (m.enter t).irqView))
    {m : Machine} (h : Reachable b ok m) : m.Wf b ∧ P m.irqView := by
  refine Reach.invariant (I := fun m => m.Wf b ∧ P m.irqView) ?_ ?_ h
  · intro m hm
    exact ⟨booted_wf hm, hinit _ (booted_irqView hm)⟩
  · rintro m t m' - ⟨hwf, hp⟩ hok hs
    refine ⟨step_wf hwf hs, ?_⟩
    rw [step_irqView hwf hs]
    exact hstep m t hwf hok hp

theorem reachable_wf {b : Build} {ok : Machine → Trap → Prop} {m : Machine}
    (h : Reachable b ok m) : m.Wf b :=
  (reachable_irqView (P := fun _ => True) (fun _ _ => trivial) (fun _ _ _ _ _ => trivial) h).1

/-- A handled trap extends a run. -/
theorem Reachable.handled {b : Build} {ok : Machine → Trap → Prop} {m : Machine} {t : Trap}
    (h : Reachable b ok m) (hok : ok m t) (ht : t.Handled) :
    ∃ m', step b m t = some m' ∧ Reachable b ok m'
      ∧ m'.irqView = t.irqOp.run b (m.enter t).irqView := by
  obtain ⟨m', hs⟩ := step_handled b m ht
  exact ⟨m', hs, Reach.next h hok hs, step_irqView (reachable_wf h) hs⟩

end ArmHyp
