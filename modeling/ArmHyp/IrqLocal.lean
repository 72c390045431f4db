import ArmHyp.IrqCore
import ArmHyp.VgicSet

/-!
# What an exception does to each vCPU

An operation changes the `vgic_t`, `HCR_EL2` and `CNTV_CTL_EL0` of the
running vCPU only, and the first two in a way that depends on them and the
trap only (`IrqOp.onCpuIf`). The case split over the operations is made
here, once for each of these: `step_pair`, `step_vgic` and `step_cntvCtl` are
how the results about a vCPU's interrupts and timer follow one exception,
and `step_raises` says what it can make pending.
-/

namespace ArmHyp

open Machine MinSet

/-! ## Operations on one CPU interface -/

/-- `f` computes the `vgic_t` and `HCR_EL2` without looking at the physical
CPU interface. -/
def CpuIf.IsLocal (f : CpuIf → CpuIf) : Prop :=
  ∀ (c : CpuIf) (g : Gicc), (f { c with gicc := g }).v = (f c).v
    ∧ (f { c with gicc := g }).hcr = (f c).hcr

theorem vgicInject_isLocal (intid : BitVec 32) : CpuIf.IsLocal (vgicInject intid) := by
  intro c g
  unfold vgicInject
  split <;> exact ⟨rfl, rfl⟩

theorem vgicForwardSpi_isLocal (intid iar : BitVec 32) :
    CpuIf.IsLocal (vgicForwardSpi intid iar) := fun c g =>
  vgicInject_isLocal intid { c with v := { c.v with physIar := iar, hasPhysIar := 1 } } g

theorem vgicAckAll_isLocal : CpuIf.IsLocal vgicAckAll := by
  intro c g
  simp only [vgicAckAll]
  split <;> exact ⟨rfl, rfl⟩

theorem readReg_isLocal (off : BitVec 32) : CpuIf.IsLocal fun c => (readReg off c).2 := by
  intro c g
  simp only [readReg, setVi, apply_ite Prod.snd, apply_ite CpuIf.v, apply_ite CpuIf.hcr, and_self]

theorem writeReg_isLocal (off val : BitVec 32) : CpuIf.IsLocal (writeReg off val) := by
  intro c g
  simp only [writeReg, completePhysIar, apply_ite CpuIf.v, apply_ite CpuIf.hcr, and_self]

/-- What an operation does to the running vCPU's interface. -/
def IrqOp.onCpuIf (o : IrqOp) (c : CpuIf) : CpuIf :=
  match o with
  | idle => c
  | phys =>
      if intidOf c.gicc.iar = irqVtimer then vgicInject irqVtimer c
      else if intidOf c.gicc.iar = irqPl011 then vgicForwardSpi irqPl011 c.gicc.iar c
      else c
  | poll =>
      if intidOf c.gicc.hppir = irqPl011 ∧ vgicHasPendingPhysIar c.v = false
          ∧ intidOf c.gicc.iar = irqPl011 then vgicForwardSpi irqPl011 c.gicc.iar c
      else c
  | done => vgicAckAll c
  | load off => (readReg off c).2
  | store off val => writeReg off val c

/-- The pair of `vgic_t` and `HCR_EL2` that belongs to vCPU `i`. -/
def IrqView.pair (w : IrqView) (i : Nat) : Vgic × BitVec 64 := (w.vgic i, w.hcr i)

def CpuIf.pair (c : CpuIf) : Vgic × BitVec 64 := (c.v, c.hcr)

theorem CpuIf.IsLocal.pair_eq {f : CpuIf → CpuIf} (h : CpuIf.IsLocal f) {c c' : CpuIf}
    (hpair : c'.pair = c.pair) : (f c').pair = (f c).pair := by
  obtain ⟨v, hcr, gicc⟩ := c
  obtain ⟨v', hcr', gicc'⟩ := c'
  obtain ⟨rfl, rfl⟩ := Prod.mk.inj hpair
  exact Prod.ext (h ⟨v', hcr', gicc⟩ gicc').1 (h ⟨v', hcr', gicc⟩ gicc').2

theorem IrqView.pair_cur (w : IrqView) (i : Nat) :
    w.pair i = if i = w.cur then w.cpuIf.pair else w.pair i := by
  split
  · rename_i h
    rw [h]
    rfl
  · rfl

theorem IrqView.onCur_pair (w : IrqView) (f : CpuIf → CpuIf) (i : Nat) :
    (w.onCur f).pair i = if i = w.cur then (f w.cpuIf).pair else w.pair i := by
  by_cases h : i = w.cur
  · subst h
    simp only [IrqView.pair, IrqView.onCur, Function.update_self, if_true]
    rfl
  · simp only [IrqView.pair, IrqView.onCur, Function.update_of_ne h, h, if_false]

/-- The other vCPU's pair is not touched, and the running one's depends on
nothing but itself and the trap. -/
theorem IrqOp.run_pair (b : Build) (o : IrqOp) (w : IrqView) (i : Nat) :
    (o.run b w).pair i = if i = w.cur then (o.onCpuIf w.cpuIf).pair else w.pair i := by
  -- acknowledging first changes the physical interface only
  have hack : ∀ (w' : IrqView) {f : CpuIf → CpuIf}, CpuIf.IsLocal f → w'.cur = w.cur →
      w'.pair = w.pair →
        (w'.onCur f).pair i = if i = w.cur then (f w.cpuIf).pair else w.pair i := by
    intro w' f hf hcur hpair
    have hcpu : w'.cpuIf.pair = w.cpuIf.pair := by
      have hc := congrFun hpair w.cur
      rw [IrqView.pair, ← hcur] at hc
      exact hc.trans (by rw [hcur]; rfl)
    rw [w'.onCur_pair, hf.pair_eq hcpu, hpair, hcur]
  cases o with
  | idle => exact w.pair_cur i
  | phys =>
      by_cases hvt : intidOf w.gicc.iar = irqVtimer
      · have hop : IrqOp.phys.onCpuIf w.cpuIf = vgicInject irqVtimer w.cpuIf := if_pos hvt
        rw [hop, IrqOp.run, runPhys_vtimer hvt]
        exact hack (w.ack.setCntv 0) (vgicInject_isLocal irqVtimer) rfl rfl
      · by_cases hpl : intidOf w.gicc.iar = irqPl011
        · have hop : IrqOp.phys.onCpuIf w.cpuIf = vgicForwardSpi irqPl011 w.gicc.iar w.cpuIf :=
            (if_neg hvt).trans (if_pos hpl)
          rw [hop, IrqOp.run, runPhys_pl011 hpl]
          exact hack w.ack (vgicForwardSpi_isLocal irqPl011 w.gicc.iar) rfl rfl
        · have hop : IrqOp.phys.onCpuIf w.cpuIf = w.cpuIf := (if_neg hvt).trans (if_neg hpl)
          have hrun : (IrqOp.runPhys b w).pair i = w.pair i := by
            simp only [IrqOp.runPhys, if_neg hvt, if_neg hpl]
            split_ifs <;> rfl
          rw [hop, IrqOp.run, hrun]
          exact w.pair_cur i
  | poll =>
      by_cases hfwd : intidOf w.gicc.hppir = irqPl011
          ∧ vgicHasPendingPhysIar (w.vgic w.cur) = false ∧ intidOf w.gicc.iar = irqPl011
      · have hop : IrqOp.poll.onCpuIf w.cpuIf = vgicForwardSpi irqPl011 w.gicc.iar w.cpuIf :=
          if_pos hfwd
        rw [hop, IrqOp.run, runPoll_forward hfwd.1 hfwd.2.1 hfwd.2.2]
        exact hack w.ack (vgicForwardSpi_isLocal irqPl011 w.gicc.iar) rfl rfl
      · have hop : IrqOp.poll.onCpuIf w.cpuIf = w.cpuIf := if_neg hfwd
        have hrun : (IrqOp.runPoll w).pair i = w.pair i := by
          unfold IrqOp.runPoll
          split_ifs with hpoll hiar
          · exact absurd ⟨hpoll.1, hpoll.2, hiar⟩ hfwd
          · rfl
          · rfl
        rw [hop, IrqOp.run, hrun]
        exact w.pair_cur i
  | done => exact w.onCur_pair _ i
  | load off => exact w.onCur_pair (fun c => (readReg off c).2) i
  | store off val => exact w.onCur_pair _ i

/-- Equal pairs and equal physical reads give equal pairs. -/
theorem IrqOp.onCpuIf_pair (o : IrqOp) {c c' : CpuIf} (hpair : c'.pair = c.pair)
    (hiar : c'.gicc.iar = c.gicc.iar) (hhppir : c'.gicc.hppir = c.gicc.hppir) :
    (o.onCpuIf c').pair = (o.onCpuIf c).pair := by
  have hv : c'.v = c.v := congrArg Prod.fst hpair
  cases o with
  | idle => exact hpair
  | phys =>
      simp only [IrqOp.onCpuIf, hiar]
      split_ifs
      · exact (vgicInject_isLocal irqVtimer).pair_eq hpair
      · exact (vgicForwardSpi_isLocal irqPl011 c.gicc.iar).pair_eq hpair
      · exact hpair
  | poll =>
      simp only [IrqOp.onCpuIf, hiar, hhppir, hv]
      split_ifs
      · exact (vgicForwardSpi_isLocal irqPl011 c.gicc.iar).pair_eq hpair
      · exact hpair
  | done => exact vgicAckAll_isLocal.pair_eq hpair
  | load off => exact (readReg_isLocal off).pair_eq hpair
  | store off val => exact (writeReg_isLocal off val).pair_eq hpair

/-- Only an interrupt runs `gic_handle_physical_irq`. -/
theorem Trap.irqOp_eq_phys {t : Trap} :
    t.irqOp = .phys ↔ t.kind = .l64Irq ∨ t.kind = .el2hIrq := by
  refine ⟨fun hop => ?_, fun hirq => if_pos hirq⟩
  by_contra hirq
  rw [Trap.irqOp, if_neg hirq] at hop
  split_ifs at hop
  · rw [hvcOp] at hop
    split at hop <;> cases hop
  · rw [Trap.abortOp, accessOp] at hop
    split_ifs at hop

/-! ## Exceptions -/

/-- What vCPU `i` has of the interrupt state: its `vgic_t`, and the `HCR_EL2`
that it runs with. -/
def Machine.pair (m : Machine) (i : Nat) : Vgic × BitVec 64 := (m.vgics i, m.ctxReg i .hcrEl2)

theorem step_pair {b : Build} {m m' : Machine} {t : Trap} (h : m.Wf b)
    (hs : step b m t = some m') (i : Nat) :
    m'.pair i = if i = m.current then (t.irqOp.onCpuIf (m.enter t).irqView.cpuIf).pair
      else m.pair i := by
  have hview : m'.pair i = (t.irqOp.run b (m.enter t).irqView).pair i :=
    congrArg (fun w : IrqView => w.pair i) (step_irqView h hs)
  rw [hview, IrqOp.run_pair]
  rfl

theorem pair_enter (t : Trap) (m : Machine) :
    (m.enter t).irqView.cpuIf.pair = m.pair m.current := by
  rw [Machine.pair, ctxReg_current]
  exact congrArg (Prod.mk _) (ctxReg_current (m.enter t) .hcrEl2)

theorem step_vgic {b : Build} {m m' : Machine} {t : Trap} (h : m.Wf b)
    (hs : step b m t = some m') (i : Nat) :
    m'.vgics i = if i = m.current then (t.irqOp.onCpuIf (m.enter t).irqView.cpuIf).v
      else m.vgics i := by
  have hpair : m'.vgics i = (m'.pair i).1 := rfl
  rw [hpair, step_pair h hs]
  split <;> rfl

/-! ## The timer's control register -/

/-- The trap is a virtual-timer interrupt. -/
def Trap.IsVtimer (t : Trap) : Prop :=
  (t.kind = .l64Irq ∨ t.kind = .el2hIrq) ∧ intidOf t.iar = irqVtimer

instance isVtimer_decidable (t : Trap) : Decidable t.IsVtimer :=
  inferInstanceAs (Decidable (_ ∧ _))

/-- A guest-writable register of `vcpu_t` at the entry. -/
theorem enter_ctxReg (t : Trap) (m : Machine) {r : SysReg} (hr : r.inVcpu = true)
    (hg : r.guestWritable = true) (i : Nat) :
    (m.enter t).ctxReg i r = if i = m.current then t.guest r else m.ctxReg i r := by
  by_cases hi : i = m.current
  · subst hi
    rw [if_pos rfl]
    refine (ctxReg_current (m.enter t) r).trans ?_
    cases r <;> first | rfl | exact absurd hr (by decide) | exact absurd hg (by decide)
  · rw [if_neg hi, ctxReg_of_ne hi]
    exact ctxReg_of_ne (m := m.enter t) hi r

/-- The handler of INTID 27 is the only one that writes `CNTV_CTL_EL0`. -/
theorem IrqOp.run_cntv (b : Build) (o : IrqOp) (w : IrqView) :
    (o.run b w).cntv = if o = .phys ∧ intidOf w.gicc.iar = irqVtimer
      then Function.update w.cntv w.cur 0 else w.cntv := by
  cases o with
  | phys =>
      by_cases hv : intidOf w.gicc.iar = irqVtimer
      · rw [if_pos ⟨rfl, hv⟩, IrqOp.run, IrqOp.runPhys_vtimer hv]
        rfl
      · rw [if_neg fun h => hv h.2]
        simp only [IrqOp.run, IrqOp.runPhys, if_neg hv]
        split_ifs <;> rfl
  | poll =>
      rw [if_neg fun h => absurd h.1 (by decide)]
      simp only [IrqOp.run, IrqOp.runPoll]
      split_ifs <;> rfl
  | idle => rfl
  | done => rfl
  | load off => rfl
  | store off val => rfl

theorem step_cntvCtl {b : Build} {m m' : Machine} {t : Trap} (h : m.Wf b)
    (hs : step b m t = some m') (i : Nat) :
    m'.ctxReg i .cntvCtlEl0
      = if t.IsVtimer ∧ i = m.current then 0 else (m.enter t).ctxReg i .cntvCtlEl0 := by
  have hview : m'.ctxReg i .cntvCtlEl0 = (t.irqOp.run b (m.enter t).irqView).cntv i :=
    congrArg (fun w : IrqView => w.cntv i) (step_irqView h hs)
  rw [hview, IrqOp.run_cntv]
  have hcur : (m.enter t).irqView.cur = m.current := rfl
  by_cases hv : t.IsVtimer
  · rw [if_pos ⟨Trap.irqOp_eq_phys.mpr hv.1, hv.2⟩, hcur]
    by_cases hi : i = m.current
    · rw [if_pos ⟨hv, hi⟩, hi, Function.update_self]
    · rw [if_neg fun h => hi h.2, Function.update_of_ne hi]
      rfl
  · rw [if_neg fun h => hv ⟨Trap.irqOp_eq_phys.mp h.1, h.2⟩, if_neg fun h => hv h.1]
    rfl

/-! ## What becomes pending -/

/-- The INTID an operation adds to the running vCPU's bitmap, given the
physical CPU interface. -/
def IrqOp.raises (o : IrqOp) (g : Gicc) : Option Nat :=
  match o with
  | phys =>
      if intidOf g.iar = irqVtimer then some 27
      else if intidOf g.iar = irqPl011 then some 33
      else none
  | poll => if intidOf g.hppir = irqPl011 ∧ intidOf g.iar = irqPl011 then some 33 else none
  | _ => none

theorem mem_pending_of_inject {n : Nat} {intid : BitVec 32} {c : CpuIf}
    (h : n ∈ (vgicInject intid c).v.pending) : n ∈ c.v.pending ∨ n = intid.toNat := by
  rw [vgicInject_pending] at h
  refine (Op.mem_of_mem_apply h).imp_right fun hadd => ?_
  simp only [VgicOp.setOp] at hadd
  split at hadd
  · exact (Op.add.inj hadd).symm
  · cases hadd

theorem IrqOp.mem_pending_of_onCpuIf {n : Nat} (o : IrqOp) {c : CpuIf}
    (h : n ∈ (o.onCpuIf c).v.pending) : n ∈ c.v.pending ∨ o.raises c.gicc = some n := by
  cases o with
  | idle => exact Or.inl h
  | phys =>
      simp only [IrqOp.onCpuIf] at h
      split_ifs at h with hv hp
      · refine (mem_pending_of_inject h).imp_right ?_
        rintro rfl
        exact if_pos hv
      · refine (mem_pending_of_inject h).imp_right ?_
        rintro rfl
        exact (if_neg hv).trans (if_pos hp)
      · exact Or.inl h
  | poll =>
      simp only [IrqOp.onCpuIf] at h
      split_ifs at h with hp
      · refine (mem_pending_of_inject h).imp_right ?_
        rintro rfl
        exact if_pos ⟨hp.1, hp.2.2⟩
      · exact Or.inl h
  | done =>
      simp only [IrqOp.onCpuIf, vgicAckAll_pending] at h
      exact absurd h (Finset.notMem_empty n)
  | load off =>
      simp only [IrqOp.onCpuIf, readReg_pending] at h
      refine (Op.mem_of_mem_apply h).imp_right fun hadd => ?_
      simp only [VgicOp.setOp] at hadd
      split at hadd <;> cases hadd
  | store off val =>
      simp only [IrqOp.onCpuIf, writeReg_pending] at h
      exact Or.inl h

/-- **What becomes pending.** An exception adds at most the INTID its
operation raises, and to the running vCPU only. -/
theorem step_raises {b : Build} {m m' : Machine} {t : Trap} (h : m.Wf b)
    (hs : step b m t = some m') {i n : Nat} (hold : n ∉ (m.vgics i).pending)
    (hnew : n ∈ (m'.vgics i).pending) :
    i = m.current ∧ t.irqOp.raises (m.enter t).gicc = some n := by
  have hpair := congrArg Prod.fst (step_pair h hs i)
  by_cases hi : i = m.current
  · subst hi
    rw [if_pos rfl] at hpair
    change m'.vgics m.current = _ at hpair
    rw [hpair] at hnew
    exact ⟨rfl, (t.irqOp.mem_pending_of_onCpuIf hnew).resolve_left hold⟩
  · rw [if_neg hi] at hpair
    change m'.vgics i = m.vgics i at hpair
    rw [hpair] at hnew
    exact absurd hnew hold

theorem Trap.raises_vtimer {t : Trap} {m : Machine}
    (h : t.irqOp.raises (m.enter t).gicc = some 27) : t.IsVtimer := by
  have hne : (33 : Nat) ≠ 27 := by decide
  cases hop : t.irqOp with
  | phys =>
      refine ⟨Trap.irqOp_eq_phys.mp hop, ?_⟩
      rw [hop, IrqOp.raises] at h
      split_ifs at h with hv
      · exact hv
      · exact absurd (Option.some.inj h) hne
  | poll =>
      rw [hop, IrqOp.raises] at h
      split_ifs at h
      exact absurd (Option.some.inj h) hne
  | idle =>
      rw [hop] at h
      cases h
  | done =>
      rw [hop] at h
      cases h
  | load off =>
      rw [hop] at h
      cases h
  | store off val =>
      rw [hop] at h
      cases h

theorem step_vtimer_pending {b : Build} {m m' : Machine} {t : Trap} (h : m.Wf b)
    (hs : step b m t = some m') (hv : t.IsVtimer) : 27 ∈ (m'.vgics m.current).pending := by
  have hpair := congrArg Prod.fst (step_pair h hs m.current)
  rw [if_pos rfl, Trap.irqOp_eq_phys.mpr hv.1] at hpair
  change m'.vgics m.current = _ at hpair
  have hop : IrqOp.phys.onCpuIf (m.enter t).irqView.cpuIf
      = vgicInject irqVtimer (m.enter t).irqView.cpuIf := if_pos hv.2
  rw [hpair, hop]
  exact mem_pending_inject (n := irqVtimer) (by decide) _

end ArmHyp
