import ArmHyp.Footprint
import ArmHyp.Guest
import ArmHyp.IrqLocal

/-!
# Guest B's timer

EL2 stops the timer on every expiry, the guest re-arms it before it tells
EL2 that it is done, and `HVC_IRQ_DONE` wipes the bitmap. Of all this a
`TimerView` keeps where B is, whether its timer runs and whether INTID 27 is
pending, and five moves are left (`TimerStep`). `guestStep_timer` is the
refinement; the two invariants are then about views.

With no expiry between the re-arm and the hypercall the timer never dies
(`TimerOk`). One such expiry and it is dead when the handler returns, until
some other interrupt runs the handler again (`TimerDead`).
-/

namespace ArmHyp

open Machine

/-! ## The protocol -/

structure TimerView where
  pc : GuestPc
  /-- `CNTV_CTL_EL0.ENABLE`. -/
  enabled : Bool
  /-- INTID 27 in `pending_mask`. -/
  pending : Bool

inductive TimerEvent where
  | run | virq | expire | done | quiet
deriving DecidableEq

/-- The steps that set `ENABLE`. -/
def GuestPc.arms : GuestPc → Bool
  | .entryCtl | .irqCtl => true
  | _ => false

inductive TimerStep : TimerView → TimerEvent → TimerView → Prop
  | run {v : TimerView} {pc : GuestPc} : v.pc.next = some pc →
      TimerStep v .run { v with pc := pc, enabled := v.pc.arms || v.enabled }
  | virq {v : TimerView} : v.pc = .idle → TimerStep v .virq { v with pc := .irqTick }
  | expire {v : TimerView} : v.enabled = true →
      TimerStep v .expire { v with enabled := false, pending := true }
  | done {v : TimerView} : v.pc = .irqHvc →
      TimerStep v .done { v with pc := .irqRet, pending := false }
  | quiet {v : TimerView} : TimerStep v .quiet v

/-- What holds at each point if no expiry comes before the hypercall. -/
def TimerOk (v : TimerView) : Prop :=
  match v.pc with
  | .entryDaif | .idle | .irqRet => v.enabled = true ∨ v.pending = true
  | .irqHvc => v.enabled = true
  | _ => True

/-- What holds after an expiry that came before the hypercall. -/
def TimerDead (v : TimerView) : Prop :=
  match v.pc with
  | .irqHvc => v.enabled = false
  | .irqRet | .idle => v.enabled = false ∧ v.pending = false
  | _ => False

theorem TimerStep.ok {v v' : TimerView} {a : TimerEvent} (hs : TimerStep v a v')
    (h : TimerOk v) (hlate : v.pc = .irqHvc → a ≠ .expire) : TimerOk v' := by
  obtain ⟨pc, en, pend⟩ := v
  cases hs with
  | run hnext =>
      cases pc <;> cases hnext <;> simp_all [TimerOk, GuestPc.arms]
  | virq => trivial
  | expire =>
      -- `ENABLE` is traded for the pending bit, which only `irqHvc` does not accept
      cases pc <;> simp_all [TimerOk]
  | done hpc =>
      cases hpc
      exact Or.inl h
  | quiet => exact h

theorem TimerStep.dead {v v' : TimerView} {a : TimerEvent} (hs : TimerStep v a v')
    (h : TimerDead v) (ha : a ≠ .virq) : TimerDead v' := by
  obtain ⟨pc, en, pend⟩ := v
  cases hs with
  | run hnext => cases pc <;> cases hnext <;> simp_all [TimerDead, GuestPc.arms]
  | virq => exact absurd rfl ha
  | expire hen =>
      -- a stopped timer does not expire
      cases pc <;> simp_all [TimerDead]
  | done hpc =>
      cases hpc
      exact ⟨h, rfl⟩
  | quiet => exact h

/-! ## Refinement -/

namespace GuestSys

def timer (s : GuestSys) : TimerView where
  pc := s.pc
  enabled := (s.machine.ctxReg 1 .cntvCtlEl0).getLsbD 0
  pending := (s.machine.vgics 1).pendingMask.getLsbD irqVtimer.toNat

/-- Which move an event is. -/
def timerEvent (s : GuestSys) : GuestEvent → TimerEvent
  | .run _ => .run
  | .virq => .virq
  | .trap t =>
      if s.machine.current = 1 then
        if t.IsIrqDone then .done
        else if t.kind = .l64Irq ∧ intidOf t.iar = irqVtimer then .expire
        else .quiet
      else .quiet

theorem timerAlive_iff (s : GuestSys) :
    s.TimerAlive ↔ s.timer.enabled = true ∨ s.timer.pending = true := Iff.rfl

end GuestSys

/-- The timer part of an interrupt view. -/
def IrqView.timer (w : IrqView) (pc : GuestPc) : TimerView :=
  ⟨pc, (w.cntv 1).getLsbD 0, (w.vgic 1).pendingMask.getLsbD irqVtimer.toNat⟩

theorem timer_eq_irqView (s : GuestSys) : s.timer = s.machine.irqView.timer s.pc := rfl

theorem timer_of_regs (m : Machine) (pc : GuestPc) :
    m.irqView.timer pc = ⟨pc, (m.ctxReg 1 .cntvCtlEl0).getLsbD 0,
      (m.vgics 1).pendingMask.getLsbD irqVtimer.toNat⟩ := rfl

theorem Trap.IsIrqDone.not_irq {t : Trap} (h : t.IsIrqDone) :
    ¬(t.kind = .l64Irq ∨ t.kind = .el2hIrq) := by
  rw [h.1]
  decide

theorem not_isIrqDone {t : Trap} (h : t.kind = .l64Irq) : ¬t.IsIrqDone :=
  fun hd => hd.not_irq (Or.inl h)

theorem lateExpiry_iff {s : GuestSys} {e : GuestEvent} :
    LateExpiry s e ↔ s.pc = .irqHvc ∧ s.timerEvent e = .expire := by
  cases e with
  | run now => simp [LateExpiry, GuestSys.timerEvent]
  | virq => simp [LateExpiry, GuestSys.timerEvent]
  | trap t =>
      simp only [LateExpiry, GuestSys.timerEvent]
      constructor
      · rintro ⟨hcur, hpc, hirq, hint⟩
        have hdone : ¬t.IsIrqDone := not_isIrqDone hirq
        exact ⟨hpc, by rw [if_pos hcur, if_neg hdone, if_pos ⟨hirq, hint⟩]⟩
      · rintro ⟨hpc, he⟩
        split_ifs at he with hcur hdone hexp
        exact ⟨hcur, hpc, hexp⟩

section Console

variable (m : Machine)

@[simp] theorem irqView_guestPuts (s : String) : (m.guestPuts s).irqView = m.irqView := rfl

@[simp] theorem irqView_uartPutc (c : BitVec 8) : (m.uartPutc c).irqView = m.irqView := rfl

@[simp] theorem irqView_guestPutDec (v : BitVec 64) : (m.guestPutDec v).irqView = m.irqView := rfl

@[simp] theorem irqView_setGs (g : GuestState) : (m.setGs g).irqView = m.irqView := rfl

end Console

theorem guestEntry_irqView (b : Build) (id : BitVec 64) (m : Machine) :
    (m.guestEntry b id).irqView = m.irqView := by
  rw [guestEntry, irqView_uartPutc, irqView_guestPutDec, irqView_guestPuts, irqView_uartPutc,
    irqView_guestPuts, irqView_uartPutc, irqView_guestPuts,
    irqView_msr _ _ (by decide) (by decide), irqView_setGs]

theorem guestTick_irqView (m : Machine) : m.guestTick.irqView = m.irqView := by
  rw [guestTick, irqView_uartPutc, irqView_guestPutDec, irqView_guestPuts, irqView_uartPutc,
    irqView_guestPuts, irqView_setGs]

theorem guestExec_irqView (b : Build) (m : Machine) (pc : GuestPc) :
    (guestExec b m pc).irqView = if pc.arms then m.irqView.setCntv 1 else m.irqView := by
  cases pc with
  | entry => exact guestEntry_irqView b 1 m
  | irqTick => exact guestTick_irqView m
  | entryCval => exact irqView_msr m _ (by decide) (by decide)
  | irqCval => exact irqView_msr m _ (by decide) (by decide)
  | entryCtl => exact irqView_msr_cntvCtl m 1
  | irqCtl => exact irqView_msr_cntvCtl m 1
  | entryDaif => rfl
  | idle => rfl
  | irqHvc => rfl
  | irqRet => rfl

theorem guestExec_wf {b : Build} {m : Machine} (h : m.Wf b) (pc : GuestPc) :
    (guestExec b m pc).Wf b := by
  rw [wf_iff_irqView, guestExec_irqView]
  split
  · exact ⟨h.current_lt, h.id_eq⟩
  · exact ⟨h.current_lt, h.id_eq⟩

section Traps

variable {b : Build} {m m' : Machine} {t : Trap}

/-- While guest A runs, B's timer is out of reach. -/
theorem timer_of_away (h : m.Wf b) (hs : step b m t = some m') (hcur : m.current ≠ 1)
    (pc : GuestPc) : m'.irqView.timer pc = m.irqView.timer pc := by
  have hctl : m'.ctxReg 1 .cntvCtlEl0 = m.ctxReg 1 .cntvCtlEl0 := by
    rw [step_cntvCtl h hs, if_neg fun hv => hcur hv.2.symm, enter_ctxReg _ _ rfl rfl,
      if_neg hcur.symm]
  have hvgic : m'.vgics 1 = m.vgics 1 := by
    rw [step_vgic h hs, if_neg hcur.symm]
  rw [timer_of_regs, timer_of_regs, hctl, hvgic]

/-- While B runs, INTID 27 stops its timer and nothing else does. -/
theorem cntvCtl_of_same (h : m.Wf b) (hs : step b m t = some m') (hcur : m.current = 1)
    (hsame : t.guest .cntvCtlEl0 = m.mrs .cntvCtlEl0) :
    m'.ctxReg 1 .cntvCtlEl0 = if t.IsVtimer then 0 else m.ctxReg 1 .cntvCtlEl0 := by
  have hreg : m.ctxReg 1 .cntvCtlEl0 = t.guest .cntvCtlEl0 := by
    rw [hsame, ← hcur]
    exact ctxReg_current m .cntvCtlEl0
  rw [step_cntvCtl h hs, enter_ctxReg _ _ rfl rfl, if_pos hcur.symm, hreg]
  by_cases hv : t.IsVtimer
  · rw [if_pos hv, if_pos ⟨hv, hcur.symm⟩]
  · rw [if_neg hv, if_neg fun h => hv h.1]

theorem Trap.IsIrqDone.irqOp (h : t.IsIrqDone) : t.irqOp = .done := by
  rw [Trap.irqOp, if_neg h.not_irq, if_pos h.1, if_pos h.2.1, h.2.2]
  decide

theorem vgicAckAll_pendingMask (c : CpuIf) : (vgicAckAll c).v.pendingMask = 0 :=
  bits_eq_empty_iff.mp (vgicAckAll_pending c)

theorem vgicInject_vtimer (c : CpuIf) :
    (vgicInject irqVtimer c).v.pendingMask.getLsbD irqVtimer.toNat = true :=
  mem_bits.mp (mem_pending_inject (n := irqVtimer) (by decide) c)

/-- A forwarded SPI is another bit. -/
theorem vgicForwardSpi_vtimer (iar : BitVec 32) (c : CpuIf) :
    (vgicForwardSpi irqPl011 iar c).v.pendingMask.getLsbD irqVtimer.toNat
      = c.v.pendingMask.getLsbD irqVtimer.toNat := by
  have hne : irqVtimer.toNat ≠ irqPl011.toNat := by decide
  rw [Bool.eq_iff_iff, ← mem_bits, ← mem_bits]
  change irqVtimer.toNat ∈ (vgicForwardSpi irqPl011 iar c).v.pending ↔ _
  rw [vgicForwardSpi, vgicInject_pending]
  exact Finset.mem_insert.trans (or_iff_right hne)

theorem timer_of_done (h : m.Wf b) (hs : step b m t = some m') (hcur : m.current = 1)
    (hsame : t.guest .cntvCtlEl0 = m.mrs .cntvCtlEl0) (hdone : t.IsIrqDone) (pc : GuestPc) :
    m'.irqView.timer pc = { m.irqView.timer pc with pending := false } := by
  have hnot : ¬t.IsVtimer := fun hv => hdone.not_irq hv.1
  have hmask : (m'.vgics 1).pendingMask = 0 := by
    rw [step_vgic h hs, if_pos hcur.symm, hdone.irqOp]
    exact vgicAckAll_pendingMask _
  rw [timer_of_regs, timer_of_regs, cntvCtl_of_same h hs hcur hsame, if_neg hnot, hmask]
  rfl

/-- What an interrupt does to the view of B's timer while B runs: INTID 27
stops it and pends it, and the others leave it alone. -/
theorem timer_of_irq (h : m.Wf b) (hs : step b m t = some m') (hcur : m.current = 1)
    (hsame : t.guest .cntvCtlEl0 = m.mrs .cntvCtlEl0) (hirq : t.kind = .l64Irq) (pc : GuestPc) :
    m'.irqView.timer pc =
      if intidOf t.iar = irqVtimer then
        { m.irqView.timer pc with enabled := false, pending := true }
      else m.irqView.timer pc := by
  have hv : (m.enter t).irqView.cpuIf.v = m.vgics 1 := congrArg m.vgics hcur
  have hiar : (m.enter t).irqView.cpuIf.gicc.iar = t.iar := rfl
  rw [timer_of_regs, timer_of_regs, cntvCtl_of_same h hs hcur hsame, step_vgic h hs,
    if_pos hcur.symm, Trap.irqOp_eq_phys.mpr (Or.inl hirq), IrqOp.onCpuIf, hiar]
  by_cases hvt : intidOf t.iar = irqVtimer
  · rw [if_pos hvt, if_pos hvt, if_pos ⟨Or.inl hirq, hvt⟩, vgicInject_vtimer]
    rfl
  · rw [if_neg hvt, if_neg hvt, if_neg fun h => hvt h.2]
    split
    · rw [vgicForwardSpi_vtimer, hv]
    · rw [hv]

theorem cntv_enabled_of_fires (hcur : m.current = 1)
    (hsame : t.guest .cntvCtlEl0 = m.mrs .cntvCtlEl0) (hf : (m.enter t).cntvFires = true) :
    (m.ctxReg 1 .cntvCtlEl0).getLsbD 0 = true := by
  have hreg : (m.enter t).regs .cntvCtlEl0 = m.ctxReg 1 .cntvCtlEl0 := by
    rw [← hcur, ctxReg_current]
    exact hsame
  rw [cntvFires, Bool.and_eq_true, Bool.and_eq_true, hreg] at hf
  exact hf.1.1

end Traps

/-! ## Steps -/

theorem guestStep_wf {b : Build} {s s' : GuestSys} {e : GuestEvent} (h : s.machine.Wf b)
    (hs : guestStep b s e = some s') : s'.machine.Wf b := by
  cases e with
  | run now =>
      simp only [guestStep] at hs
      split_ifs at hs
      obtain ⟨pc, -, rfl⟩ := Option.map_eq_some_iff.mp hs
      have hwf : (s.machine.msr .cntpctEl0 now).Wf b := h.congr rfl rfl
      exact guestExec_wf hwf s.pc
  | virq =>
      simp only [guestStep] at hs
      split_ifs at hs
      cases hs
      exact h
  | trap t =>
      simp only [guestStep, Option.map_eq_some_iff] at hs
      obtain ⟨m', hs, rfl⟩ := hs
      exact step_wf h hs

/-- **Refinement.** A step of the system is a move of the protocol. -/
theorem guestStep_timer {b : Build} {s s' : GuestSys} {e : GuestEvent} (h : s.machine.Wf b)
    (hok : GuestOk s e) (hs : guestStep b s e = some s') :
    TimerStep s.timer (s.timerEvent e) s'.timer := by
  cases e with
  | run now =>
      simp only [guestStep] at hs
      split_ifs at hs with hcur
      obtain ⟨pc, hnext, rfl⟩ := Option.map_eq_some_iff.mp hs
      have hview : (s.machine.msr .cntpctEl0 now).irqView = s.machine.irqView :=
        irqView_msr _ _ (by decide) (by decide)
      have hexec : (guestExec b (s.machine.msr .cntpctEl0 now) s.pc).irqView.timer pc
          = { s.timer with pc := pc, enabled := s.pc.arms || s.timer.enabled } := by
        rw [guestExec_irqView, hview, timer_eq_irqView]
        cases s.pc.arms with
        | false => rfl
        | true =>
            simp only [if_true, IrqView.timer, IrqView.setCntv,
              show s.machine.irqView.cur = 1 from hcur, Function.update_self, Bool.true_or]
            rfl
      rw [timer_eq_irqView ⟨_, pc⟩, hexec]
      exact TimerStep.run hnext
  | virq =>
      simp only [guestStep] at hs
      split_ifs at hs with hv
      cases hs
      exact TimerStep.virq hv.2.1
  | trap t =>
      simp only [guestStep, Option.map_eq_some_iff] at hs
      obtain ⟨m', hs, rfl⟩ := hs
      simp only [timer_eq_irqView, GuestSys.timerEvent]
      by_cases hcur : s.machine.current = 1
      · obtain ⟨hsame, -, ⟨hpc, hdone⟩ | ⟨hirq, hfires⟩⟩ := hok hcur
        · rw [if_pos hcur, if_pos hdone, if_pos ⟨hcur, hdone⟩, timer_of_done h hs hcur hsame hdone]
          exact TimerStep.done hpc
        · have hdone : ¬t.IsIrqDone := not_isIrqDone hirq
          have hstay : ¬(s.machine.current = 1 ∧ t.IsIrqDone) := fun hd => hdone hd.2
          rw [if_pos hcur, if_neg hdone, if_neg hstay, timer_of_irq h hs hcur hsame hirq]
          by_cases hv : intidOf t.iar = irqVtimer
          · rw [if_pos hv, if_pos ⟨hirq, hv⟩]
            exact TimerStep.expire (cntv_enabled_of_fires hcur hsame (hfires hv))
          · rw [if_neg hv, if_neg fun hx => hv hx.2]
            exact TimerStep.quiet
      · have hstay : ¬(s.machine.current = 1 ∧ t.IsIrqDone) := fun hd => hcur hd.1
        rw [if_neg hcur, if_neg hstay, timer_of_away h hs hcur]
        exact TimerStep.quiet

/-! ## A run -/

/-- B is running at `pc` with `ctl` in its timer's control register. -/
structure GuestSys.RunsAt (b : Build) (s : GuestSys) (pc : GuestPc) (ctl : BitVec 64) : Prop where
  wf : s.machine.Wf b
  cur_eq : s.machine.irqView.cur = 1
  pc_eq : s.pc = pc
  ctl_eq : s.machine.irqView.cntv 1 = ctl

section Forward

variable {b : Build} {s : GuestSys} {pc pc' : GuestPc} {ctl : BitVec 64}

theorem GuestSys.RunsAt.mrs_ctl (h : s.RunsAt b pc ctl) : s.machine.mrs .cntvCtlEl0 = ctl := by
  have hcur : s.machine.current = 1 := h.cur_eq
  have hctl := h.ctl_eq
  rw [← hcur] at hctl
  exact (ctxReg_current s.machine .cntvCtlEl0).symm.trans hctl

theorem GuestSys.RunsAt.run (h : s.RunsAt b pc ctl) (hnext : pc.next = some pc') :
    ∃ s', guestStep b s (.run 0) = some s' ∧ s'.RunsAt b pc' (if pc.arms then 1 else ctl) := by
  have hcur : s.machine.current = 1 := h.cur_eq
  have hview : (s.machine.msr .cntpctEl0 0).irqView = s.machine.irqView :=
    irqView_msr _ _ (by decide) (by decide)
  have hexec := guestExec_irqView b (s.machine.msr .cntpctEl0 0) pc
  rw [hview] at hexec
  refine ⟨⟨guestExec b (s.machine.msr .cntpctEl0 0) pc, pc'⟩, ?_, ?_⟩
  · simp only [guestStep, if_pos hcur, h.pc_eq, hnext, Option.map_some]
  · have hwf : (s.machine.msr .cntpctEl0 0).Wf b := h.wf.congr rfl rfl
    refine ⟨guestExec_wf hwf pc, ?_, rfl, ?_⟩
    · rw [hexec]
      split
      · exact h.cur_eq
      · exact h.cur_eq
    · rw [hexec]
      split
      · simp only [IrqView.setCntv, h.cur_eq, Function.update_self]
      · exact h.ctl_eq

/-- The expiry of the loaded timer, at the moment its deadline is reached. -/
def Trap.expiry (m : Machine) : Trap :=
  { Trap.irq irqVtimer with
    guest := m.regs
    cntpct := m.mrs .cntvCvalEl0 + m.mrs .cntvoffEl2 }

theorem expiry_fires {m : Machine} (h : m.mrs .cntvCtlEl0 = 1) :
    (m.enter (.expiry m)).cntvFires = true := by
  have hctl : (m.enter (.expiry m)).regs .cntvCtlEl0 = 1 := h
  have hcval : (m.enter (.expiry m)).regs .cntvCvalEl0 = (m.enter (.expiry m)).cntvct :=
    (BitVec.add_sub_cancel (m.mrs .cntvCvalEl0) (m.mrs .cntvoffEl2)).symm
  rw [cntvFires, hctl, hcval]
  simp

theorem or_and_hcrVi (x : BitVec 64) : (x ||| hcrVi) &&& hcrVi = hcrVi := by
  ext i hi
  simp only [BitVec.getElem_and, BitVec.getElem_or]
  cases x[i] <;> simp

/-- Both interrupts EL2 passes on raise VI. -/
theorem onCpuIf_phys_vi {c : CpuIf}
    (h : intidOf c.gicc.iar = irqVtimer ∨ intidOf c.gicc.iar = irqPl011) :
    (IrqOp.phys.onCpuIf c).hcr &&& hcrVi ≠ 0 := by
  have hinject : ∀ {intid : BitVec 32} (c : CpuIf), ¬64 ≤ intid →
      (vgicInject intid c).hcr &&& hcrVi ≠ 0 := by
    intro intid c hlt
    rw [vgicInject, if_neg hlt, setVi, if_pos rfl, or_and_hcrVi]
    decide
  rw [IrqOp.onCpuIf]
  split_ifs with hv hp
  · exact hinject c (by decide)
  · exact hinject _ (by decide)
  · exact absurd h (not_or.mpr ⟨hv, hp⟩)

/-- An interrupt that EL2 passes on to B. -/
theorem GuestSys.RunsAt.irq (h : s.RunsAt b pc ctl) {t : Trap} (hkind : t.kind = .l64Irq)
    (hguest : t.guest = s.machine.regs)
    (hraise : intidOf t.iar = irqVtimer ∨ intidOf t.iar = irqPl011) :
    ∃ s', guestStep b s (.trap t) = some s' ∧ s'.RunsAt b pc (if t.IsVtimer then 0 else ctl)
      ∧ s'.machine.mrs .hcrEl2 &&& hcrVi ≠ 0 ∧ s'.machine.guestStates = s.machine.guestStates := by
  have hcur : s.machine.current = 1 := h.cur_eq
  have hsame : t.guest .cntvCtlEl0 = s.machine.mrs .cntvCtlEl0 := congrFun hguest _
  have htick : ¬t.IsTick := by
    rintro ⟨-, hiar⟩
    rw [hiar] at hraise
    exact absurd hraise (by decide)
  obtain ⟨m', hs⟩ := step_handled b s.machine (t := t) (Or.inl hkind)
  have hcur' : m'.current = 1 := (step_current hs htick).trans hcur
  refine ⟨⟨m', s.pc⟩, ?_, ⟨step_wf h.wf hs, hcur', h.pc_eq, ?_⟩, ?_, step_guestStates hs⟩
  · rw [guestStep, hs, Option.map_some, if_neg fun hd => not_isIrqDone hkind hd.2]
  · refine (cntvCtl_of_same h.wf hs hcur hsame).trans ?_
    rw [← h.ctl_eq]
    rfl
  · have hhcr : m'.ctxReg 1 .hcrEl2 = _ := congrArg Prod.snd (step_pair h.wf hs 1)
    rw [if_pos hcur.symm, Trap.irqOp_eq_phys.mpr (Or.inl hkind), ← hcur', ctxReg_current] at hhcr
    rw [mrs, hhcr]
    exact onCpuIf_phys_vi hraise

theorem GuestSys.RunsAt.expire (h : s.RunsAt b pc 1) :
    GuestOk s (.trap (.expiry s.machine))
      ∧ ∃ s', guestStep b s (.trap (.expiry s.machine)) = some s' ∧ s'.RunsAt b pc 0
        ∧ s'.machine.mrs .hcrEl2 &&& hcrVi ≠ 0
        ∧ s'.machine.guestStates = s.machine.guestStates := by
  have hiar : intidOf (Trap.expiry s.machine).iar = irqVtimer := by
    change intidOf irqVtimer = irqVtimer
    decide
  obtain ⟨s', hs, hat, hup⟩ := h.irq rfl rfl (Or.inl hiar)
  rw [if_pos ⟨Or.inl rfl, hiar⟩] at hat
  exact ⟨fun _ => ⟨rfl, rfl, Or.inr ⟨rfl, fun _ => expiry_fires h.mrs_ctl⟩⟩, s', hs, hat, hup⟩

/-- The hypercall of `guest_irq_handler`. -/
def Trap.irqDone (m : Machine) : Trap :=
  { (default : Trap) with
    kind := .l64Sync
    esr := 0x58000000
    gpr := Function.update (fun _ => 0) 0 hvcIrqDone
    guest := m.regs }

theorem isIrqDone_irqDone (m : Machine) : (Trap.irqDone m).IsIrqDone := by
  refine ⟨rfl, ?_, rfl⟩
  change esrEc 0x58000000 = 0x16
  decide

/-- `HVC_IRQ_DONE` returns. -/
theorem step_irqDone (b : Build) (m : Machine) {t : Trap} (h : t.IsIrqDone) :
    ∃ m', step b m t = some m' := by
  have hnum : (atDispatch t m).tf.x 0 = hvcIrqDone := (atDispatch_x t m 0).trans h.2.2
  have hret : handleHvc (atDispatch t m) = .ret
      (((atDispatch t m).onVgic (atDispatch t m).currentVcpu.id vgicAckAll).setX 0 0) := by
    rw [handleHvc, hnum]
    rfl
  rw [step, handleException_eq, if_neg h.not_irq, if_pos h.1, if_pos h.2.1, hret]
  exact ⟨_, rfl⟩

theorem GuestSys.RunsAt.done (h : s.RunsAt b .irqHvc ctl) :
    GuestOk s (.trap (.irqDone s.machine))
      ∧ ∃ s', guestStep b s (.trap (.irqDone s.machine)) = some s' ∧ s'.RunsAt b .irqRet ctl := by
  have hd := isIrqDone_irqDone s.machine
  have hcur : s.machine.current = 1 := h.cur_eq
  obtain ⟨m', hs⟩ := step_irqDone b s.machine hd
  refine ⟨fun _ => ⟨rfl, rfl, Or.inl ⟨h.pc_eq, hd⟩⟩, ⟨m', .irqRet⟩, ?_,
    ⟨step_wf h.wf hs, ?_, rfl, ?_⟩⟩
  · rw [guestStep, hs, Option.map_some, if_pos ⟨hcur, hd⟩]
  · exact (step_current hs fun ht => hd.not_irq ht.1).trans hcur
  · refine (cntvCtl_of_same h.wf hs hcur rfl).trans ?_
    rw [if_neg fun hv => hd.not_irq hv.1]
    exact h.ctl_eq

/-- A tick, with the running guest's registers as they are. -/
def Trap.tick (m : Machine) : Trap := { Trap.irq irqHtimer with guest := m.regs }

theorem intidOf_tick (m : Machine) : intidOf (Trap.tick m).iar = irqHtimer := by
  change intidOf irqHtimer = irqHtimer
  decide

theorem intidOf_tick_ne (m : Machine) : intidOf (Trap.tick m).iar ≠ irqVtimer := by
  rw [intidOf_tick]
  decide

theorem guestOk_tick (s : GuestSys) : GuestOk s (.trap (.tick s.machine)) :=
  fun _ => ⟨rfl, rfl, Or.inr ⟨rfl, fun hv => absurd hv (intidOf_tick_ne s.machine)⟩⟩

/-- A tick goes on with the other guest and leaves B's timer as it is. -/
theorem guestStep_tick (hn : b.nvcpu = 2) (hwf : s.machine.Wf b) :
    ∃ s', guestStep b s (.trap (.tick s.machine)) = some s' ∧ s'.machine.Wf b
      ∧ s'.pc = s.pc ∧ s'.machine.irqView.cur = (s.machine.irqView.cur + 1) % 2
      ∧ s'.machine.irqView.cntv = s.machine.irqView.cntv := by
  obtain ⟨m', hs⟩ := step_handled b s.machine (t := .tick s.machine) (Or.inl rfl)
  refine ⟨⟨m', s.pc⟩, ?_, step_wf hwf hs, rfl, ?_, ?_⟩
  · rw [guestStep, hs, Option.map_some, if_neg fun hd => not_isIrqDone rfl hd.2]
  · have hcur := step_tick_current hwf hs ⟨Or.inl rfl, intidOf_tick s.machine⟩
    rw [hn] at hcur
    exact hcur
  · funext i
    change m'.ctxReg i .cntvCtlEl0 = s.machine.ctxReg i .cntvCtlEl0
    rw [step_cntvCtl hwf hs, if_neg fun hv => intidOf_tick_ne s.machine hv.1.2,
      enter_ctxReg _ _ rfl rfl]
    split
    · rename_i hi
      rw [hi]
      exact (ctxReg_current s.machine .cntvCtlEl0).symm
    · rfl

/-- B is swapped out and in again. -/
theorem GuestSys.RunsAt.swap (hn : b.nvcpu = 2) (h : s.RunsAt b pc ctl)
    (hr : Reach (GuestInit b) (guestStep b) GuestOk s) :
    ∃ s', Reach (GuestInit b) (guestStep b) GuestOk s' ∧ s'.RunsAt b pc ctl := by
  obtain ⟨s₁, hs₁, hwf₁, hpc₁, hcur₁, hcntv₁⟩ := guestStep_tick hn h.wf
  obtain ⟨s₂, hs₂, hwf₂, hpc₂, hcur₂, hcntv₂⟩ := guestStep_tick hn hwf₁
  refine ⟨s₂, (hr.next (guestOk_tick s) hs₁).next (guestOk_tick s₁) hs₂, hwf₂, ?_, ?_, ?_⟩
  · rw [hcur₂, hcur₁, h.cur_eq]
  · rw [hpc₂, hpc₁, h.pc_eq]
  · rw [hcntv₂, hcntv₁, h.ctl_eq]

end Forward

/-- Runs in which every expiry comes in time. -/
def InTime (b : Build) (s : GuestSys) : Prop :=
  Reach (GuestInit b) (guestStep b) (fun s e => GuestOk s e ∧ ¬LateExpiry s e) s

/-- B is running at `pc` after a run of events that satisfy `ok`. -/
def Arrives (ok : GuestSys → GuestEvent → Prop) (pc : GuestPc) (ctl : BitVec 64) : Prop :=
  ∃ s, Reach (GuestInit default) (guestStep default) ok s ∧ s.RunsAt default pc ctl

section Arrive

variable {ok : GuestSys → GuestEvent → Prop} (hrun : ∀ s now, ok s (.run now))

include hrun

theorem Arrives.run {pc pc' : GuestPc} {ctl : BitVec 64} (h : Arrives ok pc ctl)
    (hnext : pc.next = some pc') : Arrives ok pc' (if pc.arms then 1 else ctl) := by
  obtain ⟨s, hr, hat⟩ := h
  obtain ⟨s', hs, hat'⟩ := hat.run hnext
  exact ⟨s', hr.next (hrun s 0) hs, hat'⟩

variable (htick : ∀ s, ok s (.trap (.tick s.machine)))

include htick

/-- The first tick enters B, which boots into its idle loop with the timer
running. -/
theorem arrives_idle : Arrives ok .idle 1 := by
  obtain ⟨m₀, hb, -⟩ := exists_booted default atReset_default
  have hcur : m₀.irqView.cur = 0 := (booted_irqView hb).cur_eq
  obtain ⟨s, hs, hwf, hpc, hcur', -⟩ :=
    guestStep_tick (s := ⟨m₀, .entry⟩) (rfl : (default : Build).nvcpu = 2) (booted_wf hb)
  have hentry : Arrives ok .entry (s.machine.irqView.cntv 1) :=
    ⟨s, Reach.next (.start ⟨hb, rfl⟩) (htick _) hs, hwf, by rw [hcur', hcur], hpc, rfl⟩
  have hcval := hentry.run hrun (rfl : GuestPc.entry.next = some .entryCval)
  have hctl := hcval.run hrun (rfl : GuestPc.entryCval.next = some .entryCtl)
  have hdaif := hctl.run hrun (rfl : GuestPc.entryCtl.next = some .entryDaif)
  exact hdaif.run hrun (rfl : GuestPc.entryDaif.next = some .idle)

end Arrive

/-- B boots into its idle loop with the timer running. -/
theorem exists_idle : ∃ s, InTime default s ∧ s.RunsAt default .idle 1 := by
  refine arrives_idle (fun _ _ => ⟨trivial, id⟩) fun s => ⟨guestOk_tick s, fun hl => ?_⟩
  exact absurd ((intidOf_tick s.machine).symm.trans hl.2.2.2) (by decide)

/-- The first expiry reaches the handler, which re-arms the timer. -/
theorem exists_rearmed : ∃ s, InTime default s ∧ s.RunsAt default .irqHvc 1 := by
  obtain ⟨s, hr, h⟩ := exists_idle
  obtain ⟨hok, s₁, hs₁, h₁, hvi, -⟩ := h.expire
  have hlate : ¬LateExpiry s (.trap (.expiry s.machine)) :=
    fun hl => nomatch h.pc_eq.symm.trans hl.2.1
  have hr₁ : InTime default s₁ := hr.next ⟨hok, hlate⟩ hs₁
  -- VI is up and interrupts are unmasked
  have hs₂ : guestStep default s₁ .virq = some { s₁ with pc := .irqTick } := by
    rw [guestStep, if_pos ⟨h₁.cur_eq, h₁.pc_eq, hvi⟩]
  have hr₂ : InTime default { s₁ with pc := .irqTick } :=
    Reach.next (e := .virq) hr₁ ⟨trivial, id⟩ hs₂
  have htick : Arrives (fun s e => GuestOk s e ∧ ¬LateExpiry s e) .irqTick 0 :=
    ⟨_, hr₂, h₁.wf, h₁.cur_eq, rfl, h₁.ctl_eq⟩
  have hrun : ∀ (s : GuestSys) (now : BitVec 64), GuestOk s (.run now) ∧ ¬LateExpiry s (.run now) :=
    fun _ _ => ⟨trivial, id⟩
  have hcval := htick.run hrun (rfl : GuestPc.irqTick.next = some .irqCval)
  have hctl := hcval.run hrun (rfl : GuestPc.irqCval.next = some .irqCtl)
  exact hctl.run hrun (rfl : GuestPc.irqCtl.next = some .irqHvc)

/-! ## Runs -/

/-- **The timer never dies if no expiry comes too late.** In every run in
which no virtual-timer interrupt is taken between the re-arm in
`guest_irq_handler` and its hypercall, B's timer runs or INTID 27 is pending
whenever B is past its first `timer_rearm` and outside the handler; and the
timer still runs at the hypercall, so that an interrupt `HVC_IRQ_DONE`
discards is older than the re-arm. -/
theorem guest_timer_never_dies (b : Build) (s : GuestSys) (h : InTime b s) :
    (s.pc.Outside → s.TimerAlive)
      ∧ (s.pc = .irqHvc → (s.machine.ctxReg 1 .cntvCtlEl0).getLsbD 0 = true) := by
  have hinv : s.machine.Wf b ∧ TimerOk s.timer := by
    refine Reach.invariant (I := fun s => s.machine.Wf b ∧ TimerOk s.timer) ?_ ?_ h
    · rintro ⟨m, pc⟩ ⟨hb, rfl⟩
      exact ⟨booted_wf hb, trivial⟩
    · rintro s e s' - ⟨hwf, htimer⟩ ⟨hok, hlate⟩ hs
      have hstep := guestStep_timer hwf hok hs
      exact ⟨guestStep_wf hwf hs,
        hstep.ok htimer fun hpc he => hlate (lateExpiry_iff.mpr ⟨hpc, he⟩)⟩
  obtain ⟨m, pc⟩ := s
  refine ⟨?_, ?_⟩
  · rintro (rfl | rfl)
    · exact hinv.2
    · exact hinv.2
  · rintro rfl
    exact hinv.2

/-- **One late expiry stops the guest.** After it, B's timer is off and
INTID 27 is not pending whenever B is back in its idle loop, for as long as
no other virtual interrupt reaches it. -/
theorem late_expiry_kills {b : Build} {s₀ s₁ s : GuestSys} {e : GuestEvent}
    (hwf : s₀.machine.Wf b) (hok : GuestOk s₀ e) (hlate : LateExpiry s₀ e)
    (hs : guestStep b s₀ e = some s₁)
    (h : Reach (· = s₁) (guestStep b) (fun s e => GuestOk s e ∧ e ≠ .virq) s)
    (hidle : s.pc = .idle) : ¬s.TimerAlive := by
  have hinv : s.machine.Wf b ∧ TimerDead s.timer := by
    refine Reach.invariant (I := fun s => s.machine.Wf b ∧ TimerDead s.timer) ?_ ?_ h
    · rintro s rfl
      obtain ⟨hpc, he⟩ := lateExpiry_iff.mp hlate
      have hstep := guestStep_timer hwf hok hs
      refine ⟨guestStep_wf hwf hs, ?_⟩
      rw [he] at hstep
      generalize s.timer = v' at hstep
      cases hstep with
      | expire => rw [TimerDead, show s₀.timer.pc = .irqHvc from hpc]
    · rintro s e s' - ⟨hwf, hdead⟩ ⟨hok, hv⟩ hs
      have hstep := guestStep_timer hwf hok hs
      refine ⟨guestStep_wf hwf hs, hstep.dead hdead ?_⟩
      cases e with
      | run now => nofun
      | virq => exact absurd rfl hv
      | trap t =>
          simp only [GuestSys.timerEvent]
          split_ifs <;> nofun
  obtain ⟨m, pc⟩ := s
  cases hidle
  obtain ⟨-, hen, hpend⟩ := hinv
  rw [GuestSys.timerAlive_iff, hen, hpend]
  nofun

/-- The timer expires once: it runs again at the hypercall, and it is alive
when B is back in its idle loop. -/
theorem guest_timer_never_dies_round :
    ∃ s₁ s₂, InTime default s₁ ∧ s₁.pc = .irqHvc
      ∧ (s₁.machine.ctxReg 1 .cntvCtlEl0).getLsbD 0 = true
      ∧ InTime default s₂ ∧ s₂.pc = .idle ∧ s₂.TimerAlive := by
  obtain ⟨s₁, hr₁, h₁⟩ := exists_rearmed
  obtain ⟨hok, s₂, hs₂, h₂⟩ := h₁.done
  obtain ⟨s₃, hs₃, h₃⟩ := h₂.run (rfl : GuestPc.irqRet.next = some .idle)
  have hdone : ¬LateExpiry s₁ (.trap (.irqDone s₁.machine)) := fun hl => nomatch hl.2.2.1
  have hr₃ : InTime default s₃ :=
    Reach.next (e := .run 0) (hr₁.next ⟨hok, hdone⟩ hs₂) ⟨trivial, id⟩ hs₃
  exact ⟨s₁, s₃, hr₁, h₁.pc_eq, (guest_timer_never_dies default s₁ hr₁).2 h₁.pc_eq, hr₃, h₃.pc_eq,
    (guest_timer_never_dies default s₃ hr₃).1 (Or.inr h₃.pc_eq)⟩

/-- With two vCPUs there is a run after which B idles with its timer off and
nothing pending: B is swapped out after the handler's re-arm, its deadline
passes, and the expiry is taken when it is back, before its hypercall. -/
theorem guest_timer_dies :
    ¬∀ (b : Build) (s : GuestSys), b.nvcpu = 2 → Reach (GuestInit b) (guestStep b) GuestOk s →
      s.pc.Outside → s.TimerAlive := by
  intro hall
  obtain ⟨s₀, hr₀, h₀⟩ := exists_rearmed
  obtain ⟨s₀, hr₀, h₀⟩ := h₀.swap rfl (hr₀.weaken fun _ _ hok => hok.1)
  obtain ⟨hok₁, s₁, hs₁, h₁, -⟩ := h₀.expire
  obtain ⟨hok₂, s₂, hs₂, h₂⟩ := h₁.done
  obtain ⟨s₃, hs₃, h₃⟩ := h₂.run (rfl : GuestPc.irqRet.next = some .idle)
  have hr₃ : Reach (GuestInit default) (guestStep default) GuestOk s₃ :=
    Reach.next (e := .run 0) ((hr₀.next hok₁ hs₁).next hok₂ hs₂) trivial hs₃
  have hlate : LateExpiry s₀ (.trap (.expiry s₀.machine)) :=
    ⟨h₀.cur_eq, h₀.pc_eq, rfl, show intidOf irqVtimer = irqVtimer by decide⟩
  have hafter : Reach (· = s₁) (guestStep default) (fun s e => GuestOk s e ∧ e ≠ .virq) s₃ :=
    Reach.next (e := .run 0) (.next (.start rfl) ⟨hok₂, nofun⟩ hs₂) ⟨trivial, nofun⟩ hs₃
  exact late_expiry_kills h₀.wf hok₁ hlate hs₁ hafter h₃.pc_eq
    (hall default s₃ rfl hr₃ (Or.inr h₃.pc_eq))

end ArmHyp
