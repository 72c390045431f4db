import ArmHyp.System

/-!
# What a vCPU switch does

Spec lemmas for `save_vcpu`, `load_vcpu` and `sched_tick`, proved once from
the two copy lists: `saveVcpu_reg` and `loadRegs_eq` say that the lists
agree with the names of the `vcpu_t` fields and with each other, and
everything after them is about the correspondence `Vcpu.reg`, not about
the lists.

`schedTick_ctxReg` is the form in which the rest of the development uses
the switch: the value of a register that belongs to a vCPU
(`Machine.ctxReg`) is the same before and after, whichever vCPU runs.
-/

namespace ArmHyp

open Machine

/-! ## The copy lists -/

/-- Change the system registers only. -/
def Machine.withRegs (f : (SysReg → BitVec 64) → SysReg → BitVec 64) (m : Machine) : Machine :=
  { m with regs := f m.regs }

theorem msr_eq (r : SysReg) (v : BitVec 64) (m : Machine) :
    m.msr r v = m.withRegs (Function.update · r v) := rfl

theorem withRegs_withRegs (f g : (SysReg → BitVec 64) → SysReg → BitVec 64) (m : Machine) :
    (m.withRegs g).withRegs f = m.withRegs fun regs => f (g regs) := rfl

theorem saveVcpu_reg (v : Vcpu) (m : Machine) {r : SysReg} (hr : r.inVcpu = true) :
    (saveVcpu v m).reg r = m.regs r := by
  cases r <;> first | rfl | cases hr

/-- The `MSR` sequence loads exactly the registers `vcpu_t` lists, each from
the field of its name. -/
theorem loadRegs_eq (v : Vcpu) (m : Machine) :
    loadRegs v m = m.withRegs fun regs r => if r.inVcpu then v.reg r else regs r := by
  simp only [loadRegs, msr_eq, withRegs_withRegs]
  congr 1
  funext regs r
  cases r <;> rfl

theorem armHypTimerMs_eq (ms : BitVec 64) (m : Machine) :
    ∃ c, armHypTimerMs ms m = m.withRegs fun regs =>
      Function.update (Function.update regs .cnthpCvalEl2 c) .cnthpCtlEl2 1 := ⟨_, rfl⟩

/-! ## sched_tick -/

/-- The vCPU a tick hands the CPU to. -/
def nextVcpu (b : Build) (m : Machine) : Nat :=
  if 1 < b.nvcpu then (m.current + 1) % b.nvcpu else m.current

theorem nextVcpu_ne {b : Build} (m : Machine) (hn : 1 < b.nvcpu) : nextVcpu b m ≠ m.current := by
  have h2 : b.nvcpu = 2 := by
    rcases b.nvcpu_eq with h | h <;> omega
  rw [nextVcpu, if_pos hn, h2]
  omega

/-- `vcpus[]` while the tick loads from it. -/
def savedVcpus (m : Machine) : Nat → Vcpu :=
  Function.update m.vcpus m.current (saveVcpu (m.vcpus m.current) m)

/-- A tick with more than one vCPU, as one update. -/
theorem schedTick_eq (b : Build) (m : Machine) (hn : 1 < b.nvcpu) :
    schedTick b m = armHypTimerMs sliceMs (loadVcpu (savedVcpus m (nextVcpu b m))
      { m with vcpus := savedVcpus m, current := nextVcpu b m }) := by
  simp only [schedTick, if_pos hn, savedVcpus, nextVcpu]

theorem schedTick_of_single (b : Build) (m : Machine) (hn : ¬1 < b.nvcpu) :
    schedTick b m = m := if_neg hn

section Frame

variable (b : Build) (m : Machine)

/-- What a tick leaves alone: everything but the frame, the registers, the
TLB, `vcpus[]` and `current`. -/
theorem schedTick_frame : ∃ tf regs tlb vcpus, schedTick b m =
    { m with tf := tf, regs := regs, tlb := tlb, vcpus := vcpus, current := nextVcpu b m } := by
  by_cases hn : 1 < b.nvcpu
  · rw [schedTick_eq b m hn, loadVcpu, loadRegs_eq]
    exact ⟨_, _, _, _, rfl⟩
  · rw [schedTick_of_single b m hn, nextVcpu, if_neg hn]
    exact ⟨_, _, _, _, rfl⟩

@[simp] theorem schedTick_vgics : (schedTick b m).vgics = m.vgics := by
  obtain ⟨_, _, _, _, h⟩ := schedTick_frame b m
  rw [h]

@[simp] theorem schedTick_gicc : (schedTick b m).gicc = m.gicc := by
  obtain ⟨_, _, _, _, h⟩ := schedTick_frame b m
  rw [h]

@[simp] theorem schedTick_vreg : (schedTick b m).vreg = m.vreg := by
  obtain ⟨_, _, _, _, h⟩ := schedTick_frame b m
  rw [h]

@[simp] theorem schedTick_guestStates : (schedTick b m).guestStates = m.guestStates := by
  obtain ⟨_, _, _, _, h⟩ := schedTick_frame b m
  rw [h]

@[simp] theorem schedTick_current : (schedTick b m).current = nextVcpu b m := by
  obtain ⟨_, _, _, _, h⟩ := schedTick_frame b m
  rw [h]

theorem schedTick_vcpus (hn : 1 < b.nvcpu) : (schedTick b m).vcpus = savedVcpus m := by
  rw [schedTick_eq b m hn, loadVcpu, loadRegs_eq]
  rfl

theorem schedTick_tf (hn : 1 < b.nvcpu) :
    (schedTick b m).tf = loadFrame (savedVcpus m (nextVcpu b m)) m.tf := by
  rw [schedTick_eq b m hn, loadVcpu, loadRegs_eq]
  rfl

end Frame

/-- After a tick a register of `vcpu_t` holds the incoming record's value. -/
theorem schedTick_regs_inVcpu (b : Build) (m : Machine) (hn : 1 < b.nvcpu) {r : SysReg}
    (hr : r.inVcpu = true) :
    (schedTick b m).regs r = (savedVcpus m (nextVcpu b m)).reg r := by
  rw [schedTick_eq b m hn]
  obtain ⟨c, hc⟩ := armHypTimerMs_eq sliceMs (loadVcpu (savedVcpus m (nextVcpu b m))
    { m with vcpus := savedVcpus m, current := nextVcpu b m })
  have h₁ : r ≠ .cnthpCvalEl2 := by rintro rfl; cases hr
  have h₂ : r ≠ .cnthpCtlEl2 := by rintro rfl; cases hr
  rw [hc, loadVcpu, loadRegs_eq]
  simp only [withRegs, tlbiVmalls12e1, Function.update_of_ne h₁, Function.update_of_ne h₂, hr,
    if_true]

/-- A tick touches no other register but the EL2 timer's. -/
theorem schedTick_regs_other (b : Build) (m : Machine) {r : SysReg} (hr : r.inVcpu = false)
    (h₁ : r ≠ .cnthpCvalEl2) (h₂ : r ≠ .cnthpCtlEl2) :
    (schedTick b m).regs r = m.regs r := by
  by_cases hn : 1 < b.nvcpu
  · rw [schedTick_eq b m hn]
    obtain ⟨c, hc⟩ := armHypTimerMs_eq sliceMs (loadVcpu (savedVcpus m (nextVcpu b m))
      { m with vcpus := savedVcpus m, current := nextVcpu b m })
    rw [hc, loadVcpu, loadRegs_eq]
    simp only [withRegs, tlbiVmalls12e1, Function.update_of_ne h₁, Function.update_of_ne h₂, hr,
      Bool.false_eq_true, if_false]
  · rw [schedTick_of_single b m hn]

theorem savedVcpus_of_ne {m : Machine} {i : Nat} (h : i ≠ m.current) :
    savedVcpus m i = m.vcpus i := Function.update_of_ne h _ _

theorem savedVcpus_current (m : Machine) :
    savedVcpus m m.current = saveVcpu (m.vcpus m.current) m := Function.update_self _ _ _

theorem schedTick_id (b : Build) (m : Machine) (i : Nat) :
    ((schedTick b m).vcpus i).id = (m.vcpus i).id := by
  by_cases hn : 1 < b.nvcpu
  · rw [schedTick_vcpus b m hn]
    by_cases hic : i = m.current
    · subst hic
      rw [savedVcpus_current]
      rfl
    · rw [savedVcpus_of_ne hic]
  · rw [schedTick_of_single b m hn]

/-- **A tick moves no register from one vCPU to another.** Whatever belonged
to vCPU `i` before the tick, in hardware or in its record, belongs to it
after. -/
theorem schedTick_ctxReg (b : Build) (m : Machine) {r : SysReg} (hr : r.inVcpu = true) (i : Nat) :
    (schedTick b m).ctxReg i r = m.ctxReg i r := by
  by_cases hn : 1 < b.nvcpu
  · have hne := nextVcpu_ne m hn
    simp only [ctxReg, schedTick_current]
    by_cases hin : i = nextVcpu b m
    · -- the incoming vCPU: its record is loaded, and was not the one saved
      subst hin
      rw [if_pos rfl, if_neg hne, schedTick_regs_inVcpu b m hn hr, savedVcpus_of_ne hne]
    · rw [if_neg hin, schedTick_vcpus b m hn]
      by_cases hic : i = m.current
      · subst hic
        rw [if_pos rfl, savedVcpus_current, saveVcpu_reg _ _ hr]
      · rw [if_neg hic, savedVcpus_of_ne hic]
  · rw [schedTick_of_single b m hn]

end ArmHyp
