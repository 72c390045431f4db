import ArmHyp.IrqLocal

/-!
# Pending interrupts and HCR_EL2.VI

`set_vi` works on the hardware register whatever vCPU its caller meant, so
the link between `vgics[i].pending_mask` and the `HCR_EL2` value that
belongs to vCPU `i` is an invariant of the whole system, not of `vgic.c`.
On views it is a property of each vCPU's pair (`ViAgrees`): the functions
of `vgic.c` keep it for the vCPU they run on, and a tick moves the pairs
without changing them.
-/

namespace ArmHyp

/-! ## A rule for per-vCPU invariants -/

/-- `P` holds of every vCPU's vGIC and `HCR_EL2`. -/
def IrqView.All (b : Build) (P : Vgic → BitVec 64 → Prop) (w : IrqView) : Prop :=
  ∀ i < b.nvcpu, P (w.vgic i) (w.hcr i)

/-- `f` keeps `P`. -/
def CpuIf.Keeps (P : Vgic → BitVec 64 → Prop) (f : CpuIf → CpuIf) : Prop :=
  ∀ c : CpuIf, P c.v c.hcr → P (f c).v (f c).hcr

section PerVcpu

variable {b : Build} {P : Vgic → BitVec 64 → Prop} {w : IrqView}

/-- If the functions of `vgic.c` keep `P`, so does every operation. -/
theorem IrqOp.run_all (hinject : CpuIf.Keeps P (vgicInject irqVtimer))
    (hforward : ∀ iar, CpuIf.Keeps P (vgicForwardSpi irqPl011 iar))
    (hackAll : CpuIf.Keeps P vgicAckAll)
    (hread : ∀ off, CpuIf.Keeps P fun c => (readReg off c).2)
    (hwrite : ∀ off val, CpuIf.Keeps P (writeReg off val))
    (h : w.All b P) (hcur : w.cur < b.nvcpu) (o : IrqOp) : (o.run b w).All b P := by
  have hkeeps : CpuIf.Keeps P o.onCpuIf := by
    intro c hc
    cases o with
    | idle => exact hc
    | phys =>
        simp only [IrqOp.onCpuIf]
        split_ifs
        · exact hinject c hc
        · exact hforward _ c hc
        · exact hc
    | poll =>
        simp only [IrqOp.onCpuIf]
        split_ifs
        · exact hforward _ c hc
        · exact hc
    | done => exact hackAll c hc
    | load off => exact hread off c hc
    | store off val => exact hwrite off val c hc
  intro i hi
  have hpair := o.run_pair b w i
  by_cases hic : i = w.cur
  · rw [if_pos hic] at hpair
    obtain ⟨hv, hhcr⟩ := Prod.mk.inj hpair
    rw [hv, hhcr]
    exact hkeeps w.cpuIf (h w.cur hcur)
  · rw [if_neg hic] at hpair
    obtain ⟨hv, hhcr⟩ := Prod.mk.inj hpair
    rw [hv, hhcr]
    exact h i hi

end PerVcpu

/-! ## The link -/

/-- The `HCR_EL2` value that fits a vGIC: `HCR_FLAGS`, with VI exactly if
something is pending. -/
def hcrFor (v : Vgic) : BitVec 64 := if v.pendingMask = 0 then hcrFlags else hcrFlags ||| hcrVi

def ViAgrees (v : Vgic) (hcr : BitVec 64) : Prop := hcr = hcrFor v

theorem hcrFor_cases (v : Vgic) : hcrFor v = hcrFlags ∨ hcrFor v = hcrFlags ||| hcrVi := by
  unfold hcrFor
  split
  · exact Or.inl rfl
  · exact Or.inr rfl

/-- `set_vi` forces VI and keeps the other flags. -/
theorem setVi_hcr {v : Vgic} {c : CpuIf} (h : c.hcr = hcrFor v) (on : Bool) :
    (setVi on c).hcr = if on then hcrFlags ||| hcrVi else hcrFlags := by
  simp only [setVi, h]
  rcases hcrFor_cases v with hv | hv <;> rw [hv] <;> cases on <;> decide

theorem setVi_agrees (v : Vgic) {c : CpuIf} (h : ViAgrees v c.hcr) {on : Bool}
    (hon : on = true ↔ c.v.pendingMask ≠ 0) : ViAgrees (setVi on c).v (setVi on c).hcr := by
  rw [ViAgrees, setVi_hcr h]
  change _ = hcrFor c.v
  unfold hcrFor
  cases on with
  | true => rw [if_pos rfl, if_neg (hon.mp rfl)]
  | false =>
      have hzero : c.v.pendingMask = 0 := Decidable.not_not.mp (mt hon.mpr Bool.false_ne_true)
      rw [if_neg Bool.false_ne_true, if_pos hzero]

theorem vgicInject_viAgrees (intid : BitVec 32) : CpuIf.Keeps ViAgrees (vgicInject intid) := by
  intro c h
  by_cases hle : 64 ≤ intid
  · rw [vgicInject, if_pos hle]
    exact h
  · rw [vgicInject, if_neg hle]
    refine setVi_agrees c.v ?_ ?_
    · exact h
    · have hlt : intid.toNat < 64 := Nat.not_le.mp fun hn => hle (BitVec.le_def.mpr hn)
      simp only [true_iff]
      rw [BitVec.shiftLeft_eq', ne_eq, ← bits_eq_empty_iff, bits_or_one_shiftLeft _ hlt]
      exact Finset.insert_ne_empty _ _

theorem vgicForwardSpi_viAgrees (intid iar : BitVec 32) :
    CpuIf.Keeps ViAgrees (vgicForwardSpi intid iar) :=
  fun c h => vgicInject_viAgrees intid
    { c with v := { c.v with physIar := iar, hasPhysIar := 1 } } h

theorem vgicAckAll_viAgrees : CpuIf.Keeps ViAgrees vgicAckAll := by
  intro c h
  simp only [vgicAckAll]
  refine setVi_agrees c.v ?_ ?_
  · split <;> exact h
  · split <;> simp [completePhysIar]

theorem readReg_viAgrees (off : BitVec 32) : CpuIf.Keeps ViAgrees fun c => (readReg off c).2 := by
  intro c h
  by_cases hoff : off = 0x0C
  · subst hoff
    cases ht : MinSet.top c.v.pending with
    | none =>
        simp only [readReg_iar_empty ht]
        exact h
    | some n =>
        simp only [readReg_iar_some ht]
        refine setVi_agrees c.v ?_ ?_
        · exact h
        · simp
  · simp only [readReg_of_ne hoff]
    exact h

theorem writeReg_viAgrees (off val : BitVec 32) : CpuIf.Keeps ViAgrees (writeReg off val) := by
  intro c h
  rw [ViAgrees, hcrFor, writeReg_pendingMask, writeReg_hcr]
  exact h

theorem initial_viAgrees {b : Build} {w : IrqView} (h : w.Initial b) : w.All b ViAgrees := by
  intro i hi
  rw [ViAgrees, h.vgic_eq i hi, h.hcr_eq i hi]
  rfl

theorem run_viAgrees {b : Build} {w : IrqView} (h : w.All b ViAgrees) (hcur : w.cur < b.nvcpu)
    (o : IrqOp) : (o.run b w).All b ViAgrees :=
  IrqOp.run_all (vgicInject_viAgrees _) (vgicForwardSpi_viAgrees _) vgicAckAll_viAgrees
    readReg_viAgrees writeReg_viAgrees h hcur o

/-- **HCR_EL2 and the pending bitmap agree.** At every return to a guest,
after any exceptions whatever, the `HCR_EL2` value that belongs to a vCPU is
`HCR_FLAGS`, with VI set exactly if its bitmap is not empty. -/
theorem hcr_agrees_with_pending (b : Build) (ok : Machine → Trap → Prop) (m : Machine)
    (h : Reachable b ok m) (i : Nat) (hi : i < b.nvcpu) :
    m.ctxReg i .hcrEl2
      = if (m.vgics i).pendingMask = 0 then hcrFlags else hcrFlags ||| 1#64 <<< 7 := by
  have hall : m.irqView.All b ViAgrees := by
    refine (reachable_irqView (P := IrqView.All b ViAgrees) (fun w => initial_viAgrees) ?_ h).2
    intro m t hwf _ hP
    exact run_viAgrees (w := (m.enter t).irqView) hP hwf.current_lt _
  exact hall i hi

/-- After boot and one virtual-timer interrupt, vCPU 0 is signalled. -/
theorem hcr_agrees_after_vtimer :
    ∃ m : Machine, Reachable default (fun _ _ => True) m
      ∧ (m.vgics 0).pendingMask = 1#64 <<< 27
      ∧ m.ctxReg 0 .hcrEl2 = hcrFlags ||| 1#64 <<< 7 := by
  obtain ⟨m₀, hb, -⟩ := exists_booted default atReset_default
  have hi := booted_irqView hb
  have hr : Reachable default (fun _ _ => True) m₀ := .start hb
  obtain ⟨m, -, hm, hv⟩ := hr.handled (t := .irq 27) trivial (Or.inl rfl)
  have hmask : (m.vgics 0).pendingMask = 1#64 <<< 27 := by
    have hiar : intidOf (Trap.irq 27).iar = irqVtimer := by decide
    have hvg : m.vgics = Function.update m₀.vgics m₀.current
        (vgicInject irqVtimer ((m₀.enter (.irq 27)).irqView.ack.cpuIf)).v :=
      congrArg IrqView.vgic (hv.trans (IrqOp.runPhys_vtimer hiar))
    have hcur : m₀.current = 0 := hi.cur_eq
    have hv0 : m₀.vgics 0 = vgicInit := hi.vgic_eq 0 (by decide)
    rw [hvg, hcur, Function.update_self]
    change (m₀.vgics m₀.current).pendingMask ||| 1#64 <<< irqVtimer = _
    rw [hcur, hv0]
    rfl
  refine ⟨m, hm, hmask, ?_⟩
  rw [hcr_agrees_with_pending default _ m hm 0 (by decide), hmask, if_neg (by decide)]

end ArmHyp
