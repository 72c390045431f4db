import ArmHyp.Boot

/-!
# The first entry into vCPU 0

`sched_start` is a second copy of the context load: eight `MSR`s by hand,
where `load_vcpu` followed by `RESTORE_CTX` loads all of `vcpu_t`. What the
eight leave out keeps the value it had when the machine was started, so the
guest's first state agrees with a context load exactly when these registers
came up as zero, the value in the zeroed record.
-/

namespace ArmHyp

open Machine

/-! ## What is loaded -/

/-- The registers a context load sets: those of `vcpu_t`, and the two that
`RESTORE_CTX` takes from the frame. -/
def SysReg.loaded : SysReg → Bool
  | .elrEl2 | .spsrEl2 => true
  | r => r.inVcpu

/-- The registers `sched_start` writes from the record. -/
def SysReg.startWrites : SysReg → Bool
  | .hcrEl2 | .spEl1 | .vttbrEl2 | .cntvCvalEl0 | .cntvCtlEl0 | .tpidrEl1 | .elrEl2
  | .spsrEl2 => true
  | _ => false

/-- A record's value for a register, return state included. -/
def Vcpu.loadedReg (v : Vcpu) : SysReg → BitVec 64
  | .elrEl2 => v.elrEl2
  | .spsrEl2 => v.spsrEl2
  | r => v.reg r

theorem loadVcpu_restoreCtx_regs (v : Vcpu) (m : Machine) {r : SysReg} (hr : r.loaded = true) :
    (loadVcpu v m).restoreCtx.regs r = v.loadedReg r := by
  rw [loadVcpu, loadRegs_eq]
  cases r <;> first | rfl | cases hr

theorem startRegs_eq (v : Vcpu) (regs : SysReg → BitVec 64) (r : SysReg) :
    startRegs v regs r = if r.startWrites then v.loadedReg r else regs r := by
  cases r <;> rfl

theorem schedStart_regs_loaded (m : Machine) {r : SysReg} (hr : r.loaded = true) :
    (schedStart m).regs r
      = if r.startWrites then (m.vcpus m.current).loadedReg r else m.regs r := by
  obtain ⟨gpr, regs, uart, heq, -, hregs⟩ := schedStart_spec m
  have hcval : r ≠ .cnthpCvalEl2 := by rintro rfl; cases hr
  have hctl : r ≠ .cnthpCtlEl2 := by rintro rfl; cases hr
  rw [heq, ← startRegs_eq]
  exact hregs r hcval hctl

/-- `sched_start` hands over `x0` to `x3`. -/
theorem schedStart_gpr (m : Machine) {i : Fin 31} (hi : i.val < 4) :
    (schedStart m).gpr i = (m.vcpus m.current).x i := by
  have hcases : i = 0 ∨ i = 1 ∨ i = 2 ∨ i = 3 := by
    simp only [Fin.ext_iff]
    change i.val = 0 ∨ i.val = 1 ∨ i.val = 2 ∨ i.val = 3
    omega
  rcases hcases with rfl | rfl | rfl | rfl <;> rfl

/-! ## vCPU 0 -/

/-- What the zeroed record holds for a register `init_vcpu` does not set. -/
theorem bootVcpu0_unwritten (b : Build) {r : SysReg} (hr : r.loaded = true)
    (hs : r.startWrites = false) : (bootVcpu0 b Vcpu.zero).loadedReg r = 0 := by
  cases r <;> first | rfl | exact absurd hr (by decide) | exact absurd hs (by decide)

/-- `x0` is the only general register with a value. -/
theorem bootVcpu0_x_of_ne (b : Build) (v : Vcpu) {i : Fin 31} (hi : i ≠ 0) :
    (bootVcpu0 b v).x i = 0 := by
  simp only [bootVcpu0, linuxVcpu, initVcpuRecord, Function.update_apply, if_neg hi, ite_self]

/-- The machine `sched_init` leaves to `sched_start`. -/
theorem schedInit_atReset (b : Build) {m : Machine} (h₀ : AtReset m) :
    ∃ m₁, schedInit b m = .ret m₁ ∧ m₁.current = 0 ∧ m₁.vcpus 0 = bootVcpu0 b Vcpu.zero
      ∧ ∀ r, r.loaded = true → m₁.regs r = m.regs r := by
  obtain ⟨mem, tlb, uart, hinit⟩ := schedInit_spec b m
  refine ⟨_, hinit, rfl, ?_, ?_⟩
  · change bootVcpus b m.vcpus 0 = _
    rw [bootVcpus_zero, h₀.vcpus]
  · intro r hr
    have hoff : r ≠ .cntvoffEl2 := by rintro rfl; cases hr
    have htcr : r ≠ .vtcrEl2 := by rintro rfl; cases hr
    change Function.update (Function.update m.regs .cntvoffEl2 0) .vtcrEl2 s2Vtcr r = _
    rw [Function.update_of_ne htcr, Function.update_of_ne hoff]

/-- The arm64 boot protocol, at the `eret`. -/
structure LinuxEntry (m : Machine) : Prop where
  pc : m.regs .elrEl2 = 0x48200000
  dtb : m.gpr 0 = 0x4C000000
  reserved : ∀ i : Fin 31, 1 ≤ i.val → i.val ≤ 3 → m.gpr i = 0
  /-- `PSTATE.M` is EL1h. -/
  el1h : (m.regs .spsrEl2).extractLsb' 0 5 = 0x5
  /-- `PSTATE.DAIF` masks everything. -/
  daif : (m.regs .spsrEl2).extractLsb' 6 4 = 0xF
  /-- `SCTLR_EL1.M`. -/
  mmuOff : (m.regs .sctlrEl1).getLsbD 0 = false

/-- What a context load sets is the same in both. -/
def SameLoaded (m m' : Machine) : Prop := ∀ r, r.loaded = true → m.regs r = m'.regs r

/-- `sched_start` and `load_vcpu` differ in the registers `sched_start` does
not write. -/
theorem sameLoaded_iff (m : Machine) :
    SameLoaded (schedStart m) (loadVcpu (m.vcpus m.current) m).restoreCtx
      ↔ ∀ r, r.loaded = true → r.startWrites = false →
          m.regs r = (m.vcpus m.current).loadedReg r := by
  constructor
  · intro hsame r hr hs
    have h := hsame r hr
    rwa [schedStart_regs_loaded m hr, loadVcpu_restoreCtx_regs _ m hr, hs, if_neg (by decide)] at h
  · intro hregs r hr
    rw [schedStart_regs_loaded m hr, loadVcpu_restoreCtx_regs _ m hr]
    split_ifs with hs
    · rfl
    · exact hregs r hr (Bool.eq_false_iff.mpr hs)

/-- The boot protocol is met if the MMU came up off; nothing else in it depends
on the state at reset. -/
theorem schedStart_linuxEntry {b : Build} {m : Machine} (hcur : m.current = 0)
    (hv : m.vcpus 0 = bootVcpu0 b Vcpu.zero) (hmmu : (m.regs .sctlrEl1).getLsbD 0 = false) :
    LinuxEntry (schedStart m) := by
  have hpc : (schedStart m).regs .elrEl2 = 0x48200000 := by
    rw [schedStart_regs_loaded m rfl, hcur, hv]
    rfl
  have hpstate : (schedStart m).regs .spsrEl2 = 0x3C5 := by
    rw [schedStart_regs_loaded m rfl, hcur, hv]
    rfl
  have hsctlr : (schedStart m).regs .sctlrEl1 = m.regs .sctlrEl1 := schedStart_regs_loaded m rfl
  refine ⟨hpc, ?_, ?_, ?_, ?_, ?_⟩
  · rw [schedStart_gpr m (by decide), hcur, hv]
    rfl
  · intro i hlo hhi
    have hne : i ≠ 0 := by
      rintro rfl
      exact absurd hlo (by decide)
    rw [schedStart_gpr m (by omega), hcur, hv, bootVcpu0_x_of_ne b _ hne]
  · rw [hpstate]
    decide
  · rw [hpstate]
    decide
  · rw [hsctlr, hmmu]

/-- **The first entry is a context load when the machine came up with zeros.**
Whatever the registers held when the hypervisor was started, with BSS zeroed:
`sched_init` returns, and `sched_start` enters Linux as its boot protocol has
it and with what `load_vcpu` would have loaded exactly if the EL1 registers
that only `load_vcpu` writes were zero. -/
theorem first_entry_is_load_iff (b : Build) {m : Machine} (h₀ : AtReset m) :
    ∃ m₁, schedInit b m = .ret m₁
      ∧ ((LinuxEntry (schedStart m₁)
            ∧ SameLoaded (schedStart m₁) (loadVcpu (m₁.vcpus 0) m₁).restoreCtx)
          ↔ ∀ r, r.loaded = true → r.startWrites = false → m.regs r = 0) := by
  obtain ⟨m₁, hinit, hcur, hv, hregs⟩ := schedInit_atReset b h₀
  have hsame := sameLoaded_iff m₁
  rw [hcur, hv] at hsame
  refine ⟨m₁, hinit, ?_⟩
  rw [hv]
  constructor
  · rintro ⟨-, hload⟩ r hr hs
    rw [← hregs r hr, hsame.mp hload r hr hs, bootVcpu0_unwritten b hr hs]
  · intro hzero
    have hsctlr : m₁.regs .sctlrEl1 = 0 := by rw [hregs _ rfl, hzero _ rfl rfl]
    refine ⟨schedStart_linuxEntry hcur hv ?_, hsame.mpr fun r hr hs => ?_⟩
    · rw [hsctlr]
      rfl
    · rw [hregs r hr, hzero r hr hs, bootVcpu0_unwritten b hr hs]

theorem first_entry_is_load_zeros : AtReset default
    ∧ ∃ m₁, schedInit default default = .ret m₁ ∧ LinuxEntry (schedStart m₁)
      ∧ SameLoaded (schedStart m₁) (loadVcpu (m₁.vcpus 0) m₁).restoreCtx := by
  obtain ⟨m₁, hinit, hiff⟩ := first_entry_is_load_iff default atReset_default
  refine ⟨atReset_default, m₁, hinit, hiff.mpr fun r hr _ => ?_⟩
  have hfreq : r ≠ .cntfrqEl0 := by rintro rfl; cases hr
  change Function.update (fun _ : SysReg => (0 : BitVec 64)) .cntfrqEl0 62500000 r = 0
  rw [Function.update_of_ne hfreq]

/-- A machine whose firmware left the EL1 MMU on. -/
def mmuOnMachine : Machine :=
  { (default : Machine) with
    regs := Function.update (default : Machine).regs .sctlrEl1 0x30D00801 }

theorem first_entry_mmu_on : AtReset mmuOnMachine
    ∧ ∃ m₁, schedInit default mmuOnMachine = .ret m₁
      ∧ (schedStart m₁).regs .sctlrEl1 = 0x30D00801
      ∧ (loadVcpu (m₁.vcpus 0) m₁).restoreCtx.regs .sctlrEl1 = 0
      ∧ ¬LinuxEntry (schedStart m₁)
      ∧ ¬SameLoaded (schedStart m₁) (loadVcpu (m₁.vcpus 0) m₁).restoreCtx := by
  have h₀ : AtReset mmuOnMachine := ⟨rfl, rfl, rfl, rfl, rfl, rfl⟩
  obtain ⟨m₁, hinit, -, hv, hregs⟩ := schedInit_atReset default h₀
  have hstart : (schedStart m₁).regs .sctlrEl1 = 0x30D00801 :=
    (schedStart_regs_loaded m₁ rfl).trans (hregs _ rfl)
  have hload : (loadVcpu (m₁.vcpus 0) m₁).restoreCtx.regs .sctlrEl1 = 0 := by
    rw [loadVcpu_restoreCtx_regs _ m₁ rfl, hv]
    rfl
  refine ⟨h₀, m₁, hinit, hstart, hload, fun hlinux => ?_, fun hsame => ?_⟩
  · have hmmu := hlinux.mmuOff
    rw [hstart] at hmmu
    revert hmmu
    decide
  · have hsctlr := hsame .sctlrEl1 rfl
    rw [hstart, hload] at hsctlr
    revert hsctlr
    decide

end ArmHyp
