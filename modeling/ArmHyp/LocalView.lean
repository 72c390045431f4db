import ArmHyp.Footprint
import ArmHyp.IrqLocal
import ArmHyp.Projection

/-!
# A vCPU's interrupt view is its own

`set_vi` has no vCPU argument and half of `vgic.c` finds its `vgic_t`
through `current_vcpu()`, so it takes an argument that what a vCPU sees at
its CPU interface (the values it loads from `GICC` registers, `HCR_EL2.VI`)
does not depend on what the other one does between its slices. The argument
is the unwinding of `Projection`: an exception changes the running vCPU's
pair of `vgic_t` and `HCR_EL2` only, in a way that depends on that pair and
the trap only (`step_pair`), and whether it returns is decided by the trap.
-/

namespace ArmHyp

open Machine

/-! ## Which exceptions return -/

/-- Whether a hypercall returns is decided by `x0`, `x1` and memory. -/
theorem handleHvc_returns {m n m' : Machine} (h : handleHvc m = .ret m')
    (h0 : n.tf.x 0 = m.tf.x 0) (h1 : n.tf.x 1 = m.tf.x 1) (hmem : n.mem = m.mem) :
    ∃ n', handleHvc n = .ret n' := by
  simp only [handleHvc, h0, h1, hmem] at h ⊢
  split_ifs at h ⊢
  · rw [handlePsci_eq] at h ⊢
    rw [h1]
    cases hans : psciAnswer ((m.tf.x 0).setWidth 32) (m.tf.x 1) with
    | value v => exact ⟨_, rfl⟩
    | stop why =>
        rw [hans] at h
        cases h
  · exact ⟨_, rfl⟩
  · split at h
    · exact ⟨_, rfl⟩
    · cases h
  · exact ⟨_, rfl⟩
  · exact ⟨_, rfl⟩

/-- Whether an exception comes back is decided by its trap. -/
theorem step_returns {b : Build} {m m' : Machine} {t : Trap} (hs : step b m t = some m')
    (n : Machine) : ∃ n', step b n t = some n' := by
  suffices hret : ∃ a, handleException b t.kind (n.enter t).saveCtx = .ret a by
    obtain ⟨a, ha⟩ := hret
    exact ⟨a.restoreCtx, by rw [step, ha]; rfl⟩
  unfold step at hs
  cases hx : handleException b t.kind (m.enter t).saveCtx with
  | halt a =>
      rw [hx] at hs
      cases hs
  | ret a =>
      rw [handleException_eq] at hx ⊢
      split_ifs at hx ⊢
      · exact ⟨_, rfl⟩
      · exact handleHvc_returns hx rfl rfl rfl
      · exact ⟨_, rfl⟩
      · exact ⟨_, rfl⟩
      · exact ⟨_, rfl⟩
      · cases hx
      · cases hx

/-! ## What a vCPU reads -/

/-- The register and the offset of a load from the CPU interface. -/
def Trap.giccLoad (t : Trap) : Option (Fin 31 × BitVec 32) :=
  if h : (t.IsMmio ∧ giccEmuBase ≤ t.ipa ∧ issWnr t.iss = false) ∧ issSrt t.iss < 31 then
    some (⟨issSrt t.iss, h.2⟩, (t.ipa - giccEmuBase).setWidth 32)
  else none

/-- The value of a register of the CPU interface depends on the `vgic_t` only. -/
theorem readReg_val (c c' : CpuIf) (h : c'.v = c.v) (off : BitVec 32) :
    (readReg off c').1 = (readReg off c).1 := by
  simp only [readReg, h, apply_ite Prod.fst]

/-- `vgic_mmio`'s answer to a load from the CPU interface. -/
theorem mmioLoad_gicc {b : Build} {m : Machine} (h : m.Wf b) {ipa : BitVec 64}
    (hipa : giccEmuBase ≤ ipa) (iss : BitVec 64) :
    mmioLoad ipa iss m = (readReg ((ipa - giccEmuBase).setWidth 32) (m.cpuIf m.current)).1 := by
  have hdist : ¬(gicdEmuBase ≤ ipa ∧ ipa < gicdEmuLimit) := fun h => BitVec.not_le.mpr h.2 hipa
  rw [mmioLoad, if_neg hdist, h.currentVcpu_id]
  rfl

theorem step_abort {b : Build} {m m' : Machine} {t : Trap} (hkind : t.kind = .l64Sync)
    (hec : esrEc t.esr = 0x24) (hs : step b m t = some m') :
    m' = (handleStage2Abort t.esr (atDispatch t m)).restoreCtx := by
  rw [step, handleException_eq, hkind, hec] at hs
  exact (Option.some.inj hs).symm

/-- A load puts the value of the register of the running vCPU's interface
into its target. -/
theorem step_giccLoad {b : Build} {m m' : Machine} {t : Trap} (h : m.Wf b)
    (hs : step b m t = some m') {r : Fin 31} {off : BitVec 32} (ht : t.giccLoad = some (r, off)) :
    m'.gpr r = ((readReg off (m.cpuIf m.current)).1).setWidth 64 := by
  unfold Trap.giccLoad at ht
  split at ht
  · rename_i hload
    obtain ⟨⟨⟨hkind, hec, hwin, hisv⟩, hgicc, hwnr⟩, hsrt⟩ := hload
    obtain ⟨rfl, rfl⟩ := Prod.mk.inj (Option.some.inj ht)
    rw [step_abort hkind hec hs]
    have hrestore : ∀ a : Machine, a.restoreCtx.gpr ⟨issSrt t.iss, hsrt⟩ = a.tf.x (issSrt t.iss) :=
      fun _ => rfl
    have hskip : ∀ a : Machine, a.skipInsn.tf = a.tf.setElrEl2 (a.tf.elrEl2 + 4) := fun _ => rfl
    have htarget : loadTarget (t.esr &&& 0x1ffffff) = some (issSrt t.iss) :=
      if_pos ⟨hisv, hwnr, Nat.ne_of_lt hsrt⟩
    have hipa : faultIpaOf (atDispatch t m) = t.ipa := rfl
    rw [hrestore, handleStage2Abort_window (atDispatch t m) t.esr hwin, hskip,
      TrapFrame.x_setElrEl2 _ hsrt, vgicMmio_tf, htarget, TrapFrame.x_setX_self, hipa,
      mmioLoad_gicc (atDispatch_wf t h) hgicc]
    exact congrArg (BitVec.setWidth 64) (readReg_val (m.cpuIf m.current)
      ((atDispatch t m).cpuIf (atDispatch t m).current) rfl _)
  · cases ht

/-- What a vCPU sees when one of its exceptions returns: the value it loaded
from the CPU interface, if the exception was such a load, and VI. -/
structure ViewObs where
  read : Option (BitVec 64)
  vi : Bool

def viewObs (t : Trap) (m' : Machine) : List ViewObs :=
  [⟨t.giccLoad.map fun r => m'.gpr r.1, (m'.regs .hcrEl2).getLsbD 7⟩]

/-- The trap is an event of vCPU `i`: taken while it runs, and no tick. -/
def ownedBy (i : Nat) (m : Machine) (t : Trap) : Bool := decide (m.current = i ∧ ¬ t.IsTick)

/-- vCPU `i` is running; as long as no tick comes, nothing else does. -/
def RunsOnly (b : Build) (i : Nat) (m : Machine) : Prop := m.Wf b ∧ m.current = i

theorem viewObs_congr {b : Build} {m m' n n' : Machine} {t : Trap} (hm : m.Wf b) (hn : n.Wf b)
    (hv : n.vgics n.current = m.vgics m.current)
    (hhcr : n'.regs .hcrEl2 = m'.regs .hcrEl2) (hs : step b m t = some m')
    (hs' : step b n t = some n') : viewObs t n' = viewObs t m' := by
  have hread : t.giccLoad.map (fun r => n'.gpr r.1) = t.giccLoad.map fun r => m'.gpr r.1 := by
    cases hload : t.giccLoad with
    | none => rfl
    | some r =>
        obtain ⟨r, off⟩ := r
        simp only [Option.map_some]
        rw [step_giccLoad hm hs hload, step_giccLoad hn hs' hload,
          readReg_val (m.cpuIf m.current) (n.cpuIf n.current) hv]
  simp only [viewObs, hread, hhcr]

/-- A tick leaves the interface of the vCPU it interrupts alone. -/
theorem tick_onCpuIf {t : Trap} (h : t.IsTick) (m : Machine) :
    t.irqOp.onCpuIf (m.enter t).irqView.cpuIf = (m.enter t).irqView.cpuIf := by
  have hop : t.irqOp = .phys := if_pos h.1
  have hiar : (m.enter t).irqView.cpuIf.gicc.iar = t.iar := rfl
  rw [hop, IrqOp.onCpuIf, hiar, h.2]
  rfl

/-- What one vCPU sees at its CPU interface unwinds. -/
theorem vcpu_unwinding (b : Build) (i : Nat) :
    Unwinding (step b) (ownedBy i) viewObs (Machine.Wf b) (RunsOnly b i)
      (fun m => m.pair i) where
  inv := step_wf
  frame := by
    intro m m' t hwf hown hs
    have hother : ¬(m.current = i ∧ ¬ t.IsTick) := of_decide_eq_false hown
    by_cases hcur : i = m.current
    · have htick : t.IsTick := Decidable.not_not.mp fun h => hother ⟨hcur.symm, h⟩
      rw [step_pair hwf hs, if_pos hcur, tick_onCpuIf htick, pair_enter, hcur]
    · rw [step_pair hwf hs, if_neg hcur]
  follow := by
    intro m m' n t hm hn hpair hown hs
    obtain ⟨hcur, htick⟩ := of_decide_eq_true hown
    obtain ⟨n', hs'⟩ := step_returns hs n
    have hcur' : m'.current = i := (step_current hs htick).trans hcur
    have hncur' : n'.current = i := (step_current hs' htick).trans hn.2
    have hpair' : n'.pair i = m'.pair i := by
      rw [step_pair hm hs, step_pair hn.1 hs', if_pos hcur.symm, if_pos hn.2.symm]
      refine IrqOp.onCpuIf_pair _ ?_ rfl rfl
      rw [pair_enter, pair_enter, hcur, hn.2, hpair]
    refine ⟨decide_eq_true ⟨hn.2, htick⟩, n', hs', ⟨step_wf hn.1 hs', hncur'⟩, hpair', ?_⟩
    refine viewObs_congr hm hn.1 ?_ ?_ hs hs'
    · rw [hn.2, hcur]
      exact congrArg Prod.fst hpair
    · have hhcr := congrArg Prod.snd hpair'
      simp only [Machine.pair] at hhcr
      rw [← hncur', ctxReg_current, hncur', ← hcur', ctxReg_current] at hhcr
      exact hhcr

/-! ## Runs -/

/-- **A vCPU's interrupt view is its own.** Take any run of the system and
one vCPU. Its own events, in the same order, can be run from any machine on
which it is the running vCPU with the same `vgic_t` and `HCR_EL2`, without
the other vCPU's events and without ticks; then every value it loads from
its `GICC` registers, VI at every one of its returns, and its final `vgic_t`
and `HCR_EL2` are the same. -/
theorem vcpu_local_view (b : Build) (i : Nat) (m m' n : Machine) (ts : List Trap)
    (hm : Reachable b (fun _ _ => True) m) (hrun : runEvents (step b) m ts = some m')
    (hn : RunsOnly b i n) (hpair : n.pair i = m.pair i) :
    ∃ n', runEvents (step b) n (ownEvents (step b) (ownedBy i) m ts) = some n'
      ∧ n'.vgics i = m'.vgics i
      ∧ n'.regs .hcrEl2 = m'.ctxReg i .hcrEl2
      ∧ ownObs (step b) (ownedBy i) viewObs n (ownEvents (step b) (ownedBy i) m ts)
        = ownObs (step b) (ownedBy i) viewObs m ts := by
  obtain ⟨n', hrun', halone, hpair', hobs⟩ :=
    (vcpu_unwinding b i).projection (reachable_wf hm) hn hpair hrun
  refine ⟨n', hrun', congrArg Prod.fst hpair', ?_, hobs⟩
  rw [← ctxReg_current, halone.2]
  exact congrArg Prod.snd hpair'

/-- vCPU 1 after its first tick, with an interrupt of its own between two of
the other's slices. -/
theorem vcpu_local_view_one_slice :
    ∃ m m' n n' : Machine, Booted default m
      ∧ runEvents (step default) m [.irq 26, .irq 27, .irq 26] = some m'
      ∧ step default m (.irq 26) = some n
      ∧ runEvents (step default) n
          (ownEvents (step default) (ownedBy 1) m [.irq 26, .irq 27, .irq 26]) = some n'
      ∧ n'.vgics 1 = m'.vgics 1 := by
  obtain ⟨m, hb, -⟩ := exists_booted default atReset_default
  have hirq : ∀ v, (Trap.irq v).Handled := fun _ => Or.inl rfl
  obtain ⟨n, hs⟩ := step_handled default m (hirq 26)
  obtain ⟨m₂, hs₂⟩ := step_handled default n (hirq 27)
  obtain ⟨m', hs₃⟩ := step_handled default m₂ (hirq 26)
  have hrun : runEvents (step default) m [.irq 26, .irq 27, .irq 26] = some m' :=
    runEvents_cons_eq_some.mpr ⟨n, hs, runEvents_cons_eq_some.mpr ⟨m₂, hs₂,
      runEvents_cons_eq_some.mpr ⟨m', hs₃, rfl⟩⟩⟩
  have hm : Reachable default (fun _ _ => True) m := .start hb
  have hcur : m.current = 0 := (booted_irqView hb).cur_eq
  have hncur : n.current = 1 := by
    rw [step_tick_current (booted_wf hb) hs (by decide), hcur]
    rfl
  have hown : ownedBy 1 m (.irq 26) = false := decide_eq_false fun h => by omega
  have hpair : n.pair 1 = m.pair 1 := (vcpu_unwinding default 1).frame (booted_wf hb) hown hs
  obtain ⟨n', hrun', hvgic, -⟩ := vcpu_local_view default 1 m m' n _ hm hrun
    ⟨step_wf (booted_wf hb) hs, hncur⟩ hpair
  exact ⟨m, m', n, n', hb, hrun, hs, hrun', hvgic⟩

end ArmHyp
