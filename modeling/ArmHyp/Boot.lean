import ArmHyp.Switch

/-!
# What boot leaves behind

`kmain` always reaches the first `eret`: both calls of `stage2_alloc_vm` are
in range. `kmain_spec` gives the scheduler's and the vGIC's state there in
closed form, and `sched_start`'s register writes; the rest of the machine
(memory, console, devices) is left unnamed.
-/

namespace ArmHyp

open Machine

/-! ## Console and distributor writes -/

/-- Change the console only. -/
def Machine.withUart (f : List (BitVec 8) → List (BitVec 8)) (m : Machine) : Machine :=
  { m with uart := f m.uart }

theorem uartPuts_eq (s : String) (m : Machine) :
    m.uartPuts s = m.withUart (· ++ putsBytes (s.toUTF8.toList.map (·.toBitVec))) := rfl

theorem uartPutc_eq (c : BitVec 8) (m : Machine) : m.uartPutc c = m.withUart (· ++ [c]) := rfl

theorem uartPutHex_eq (v : BitVec 64) (m : Machine) :
    m.uartPutHex v = m.withUart fun u => (u ++ putsBytes ("0x".toUTF8.toList.map (·.toBitVec)))
      ++ (List.range 16).map fun k => hexDigit (v.toNat / 16 ^ (15 - k) % 16) := rfl

theorem withUart_withUart (f g : List (BitVec 8) → List (BitVec 8)) (m : Machine) :
    (m.withUart g).withUart f = m.withUart fun u => f (g u) := rfl

/-- Change the distributor only. -/
def Machine.withGicd (f : Gicd → Gicd) (m : Machine) : Machine := { m with gicd := f m.gicd }

theorem gicdW_eq (off : Nat) (v : BitVec 32) (m : Machine) :
    m.gicdW off v = m.withGicd (·.write32 off v) := rfl

theorem gicdWb_eq (off : Nat) (v : BitVec 8) (m : Machine) :
    m.gicdWb off v = m.withGicd (·.write8 off v) := rfl

theorem withGicd_withGicd (f g : Gicd → Gicd) (m : Machine) :
    (m.withGicd g).withGicd f = m.withGicd fun d => f (g d) := rfl

/-! ## sched_init -/

/-- vCPU 0 after `sched_init`: the Linux guest, over the record `v`. -/
def bootVcpu0 (b : Build) (v : Vcpu) : Vcpu :=
  linuxVcpu (initVcpuRecord b 0 1 b.guestStackTopA (s2Vttbr b.layout 0 1) v)

/-- vCPU 1 after `sched_init`: the bare-metal guest. -/
def bootVcpu1 (b : Build) (v : Vcpu) : Vcpu :=
  initVcpuRecord b 1 2 b.guestStackTopB (s2Vttbr b.layout 1 2) v

/-- `vcpus[]` after `sched_init`. -/
def bootVcpus (b : Build) (vcpus : Nat → Vcpu) : Nat → Vcpu :=
  let vcpus' := Function.update vcpus 0 (bootVcpu0 b (vcpus 0))
  if 1 < b.nvcpu then Function.update vcpus' 1 (bootVcpu1 b (vcpus 1)) else vcpus'

/-- `vgics[]` after `sched_init`. -/
def bootVgics (b : Build) (vgics : Nat → Vgic) : Nat → Vgic :=
  let vgics' := Function.update vgics 0 vgicInit
  if 1 < b.nvcpu then Function.update vgics' 1 vgicInit else vgics'

/-- `guest_states[]` after `sched_init`. -/
def bootGuestStates (b : Build) (gs : Nat → GuestState) : Nat → GuestState :=
  let gs' := Function.update gs 0 ⟨0#32, 0, 0⟩
  if 1 < b.nvcpu then Function.update gs' 1 ⟨1#32, 0, 0⟩ else gs'

/-- `init_vcpu` for an id in range returns, and sets one record, one
`vgic_t` and one guest state. -/
theorem initVcpu_spec (b : Build) {i : Nat} (hi : i < maxVms) (vmid : BitVec 32)
    (stackTop : BitVec 64) (m : Machine) :
    ∃ mem tlb uart, initVcpu b i vmid stackTop m = .ret { m with
      mem := mem, tlb := tlb, uart := uart
      guestStates := Function.update m.guestStates i ⟨BitVec.ofNat 32 i, 0, 0⟩
      vcpus := Function.update m.vcpus i
        (initVcpuRecord b i vmid stackTop (s2Vttbr b.layout i vmid) (m.vcpus i))
      vgics := Function.update m.vgics i vgicInit } := by
  have hs : ∀ μ, stage2AllocVm b.layout i vmid μ
      = some (s2Vttbr b.layout i vmid, buildTables b.layout i μ) :=
    fun μ => if_neg (Nat.not_le.mpr hi)
  simp only [initVcpu, stage2AllocVmM, hs, uartPuts_eq, uartPutHex_eq, withUart_withUart]
  exact ⟨_, _, _, rfl⟩

theorem stage2GlobalInit_eq (m : Machine) : ∃ uart, stage2GlobalInit m = { m with
    uart := uart
    regs := Function.update (Function.update m.regs .cntvoffEl2 0) .vtcrEl2 s2Vtcr } := by
  simp only [stage2GlobalInit, uartPuts_eq, uartPutHex_eq, withUart_withUart]
  exact ⟨_, rfl⟩

theorem schedInit_spec (b : Build) (m : Machine) :
    ∃ mem tlb uart, schedInit b m = .ret { m with
      mem := mem, tlb := tlb, uart := uart
      guestStates := bootGuestStates b m.guestStates
      regs := Function.update (Function.update m.regs .cntvoffEl2 0) .vtcrEl2 s2Vtcr
      vcpus := bootVcpus b m.vcpus
      vgics := bootVgics b m.vgics
      current := 0 } := by
  obtain ⟨uart, hg⟩ := stage2GlobalInit_eq m
  obtain ⟨mem₀, tlb₀, uart₀, h₀⟩ :=
    initVcpu_spec b (i := 0) (by decide) 1 b.guestStackTopA (stage2GlobalInit m)
  rw [schedInit, h₀, hg]
  simp only [Outcome.andThen, Function.update_self, Function.update_idem, uartPuts_eq,
    uartPutHex_eq, withUart_withUart]
  by_cases hn : 1 < b.nvcpu
  · have hne : (1 : Nat) ≠ 0 := by decide
    obtain ⟨mem₁, tlb₁, uart₁, h₁⟩ := initVcpu_spec b (i := 1) (by decide) 2 b.guestStackTopB
      { m with
        mem := mem₀, tlb := tlb₀, uart := uart₀
        guestStates := Function.update m.guestStates 0 ⟨0#32, 0, 0⟩
        regs := Function.update (Function.update m.regs .cntvoffEl2 0) .vtcrEl2 s2Vtcr
        vcpus := Function.update m.vcpus 0 (bootVcpu0 b (m.vcpus 0))
        vgics := Function.update m.vgics 0 vgicInit }
    simp only [Function.update_of_ne hne, bootVcpu0] at h₁
    simp only [if_pos hn, h₁, bootVcpus, bootVgics, bootGuestStates]
    exact ⟨_, _, _, rfl⟩
  · simp only [if_neg hn, bootVcpus, bootVgics, bootGuestStates]
    exact ⟨_, _, _, rfl⟩

/-! ## sched_start -/

/-- The registers `sched_start` loads before it arms the timer. -/
def startRegs (v : Vcpu) (regs : SysReg → BitVec 64) : SysReg → BitVec 64
  | .hcrEl2 => v.hcrEl2
  | .spEl1 => v.spEl1
  | .vttbrEl2 => v.vttbrEl2
  | .cntvCvalEl0 => v.cntvCval
  | .cntvCtlEl0 => v.cntvCtl
  | .tpidrEl1 => v.tpidrEl1
  | .elrEl2 => v.elrEl2
  | .spsrEl2 => v.spsrEl2
  | r => regs r

/-- The `MSR` sequence of `sched_start`, and the timer it arms. -/
theorem schedStart_regs (v : Vcpu) (m : Machine) :
    (m |>.msr .hcrEl2 v.hcrEl2
      |>.msr .spEl1 v.spEl1
      |>.msr .vttbrEl2 v.vttbrEl2
      |>.msr .cntvCvalEl0 v.cntvCval
      |>.msr .cntvCtlEl0 v.cntvCtl
      |>.msr .tpidrEl1 v.tpidrEl1
      |>.msr .elrEl2 v.elrEl2
      |>.msr .spsrEl2 v.spsrEl2) = m.withRegs (startRegs v) := by
  simp only [msr_eq, withRegs_withRegs]
  congr 1
  funext regs r
  cases r <;> rfl

theorem schedStart_spec (m : Machine) :
    ∃ gpr regs uart, schedStart m = { m with gpr := gpr, regs := regs, uart := uart }
      ∧ regs .cnthpCtlEl2 = 1
      ∧ ∀ r, r ≠ .cnthpCvalEl2 → r ≠ .cnthpCtlEl2 →
          regs r = startRegs (m.vcpus m.current) m.regs r := by
  simp only [schedStart, schedStart_regs, uartPuts_eq]
  obtain ⟨c, hc⟩ := armHypTimerMs_eq sliceMs (m.withRegs (startRegs (m.vcpus m.current)))
  rw [hc]
  refine ⟨_, _, _, rfl, rfl, ?_⟩
  intro r h₁ h₂
  simp only [withUart, withRegs, Function.update_of_ne h₁, Function.update_of_ne h₂]

/-! ## kmain -/

/-- The machine at the first `eret`. -/
structure BootState (b : Build) (m₀ m : Machine) : Prop where
  vcpus : m.vcpus = bootVcpus b m₀.vcpus
  vgics : m.vgics = bootVgics b m₀.vgics
  current : m.current = 0
  log : m.gicc.log = m₀.gicc.log
  regs : ∀ r, r.inVcpu = true → m.regs r = startRegs (bootVcpus b m₀.vcpus 0) m₀.regs r

/-- The distributor stores of `gic_init_el2`. -/
def Gicd.initEl2 (d : Gicd) : Gicd :=
  let d := d.write32 gicdCtlr 0
  let d := d.write32 (gicdIgroupr + 0) 0xffffffff
  let d := d.write32 (gicdIgroupr + 4) 0xffffffff
  let d := d.write32 0x280 0x0000FFFF
  let d := d.write8 (gicdIpriorityr + irqVtimer.toNat) 0x00
  let d := d.write8 (gicdIpriorityr + irqHtimer.toNat) 0x00
  let d := d.write8 (gicdIpriorityr + irqPl011.toNat) 0xA0
  let d := d.write8 (gicdItargetsr + irqPl011.toNat) 0x01
  let d := d.write32 (gicdIsenabler + 0) (1#32 <<< irqVtimer ||| 1#32 <<< irqHtimer)
  let d := d.write32 (gicdIsenabler + 4) (1#32 <<< (irqPl011 - 32))
  d.write32 gicdCtlr 0x3

/-- What `kmain` leaves in the devices. -/
structure BootDevices (m₀ m : Machine) : Prop where
  gicd : m.gicd = m₀.gicd.initEl2
  pmr : m.gicc.pmr = 0xff
  timer : m.regs .cnthpCtlEl2 = 1

theorem gicInitEl2_spec (m : Machine) :
    ∃ gicc uart, gicInitEl2 m
        = { m with gicd := m.gicd.initEl2, gicc := gicc, imsc := 0x50, uart := uart }
      ∧ gicc.log = m.gicc.log ∧ gicc.pmr = 0xff := by
  simp only [gicInitEl2, gicdW_eq, gicdWb_eq, withGicd_withGicd, uartPuts_eq]
  exact ⟨_, _, rfl, rfl, rfl⟩

theorem bootVcpus_zero (b : Build) (vcpus : Nat → Vcpu) :
    bootVcpus b vcpus 0 = bootVcpu0 b (vcpus 0) := by
  unfold bootVcpus
  split
  · rw [Function.update_of_ne (by decide), Function.update_self]
  · rw [Function.update_self]

theorem bootVcpus_one {b : Build} (hn : 1 < b.nvcpu) (vcpus : Nat → Vcpu) :
    bootVcpus b vcpus 1 = bootVcpu1 b (vcpus 1) := by
  simp only [bootVcpus, if_pos hn, Function.update_self]

theorem bootVgics_zero (b : Build) (vgics : Nat → Vgic) : bootVgics b vgics 0 = vgicInit := by
  unfold bootVgics
  split
  · rw [Function.update_of_ne (by decide), Function.update_self]
  · rw [Function.update_self]

theorem bootVgics_one {b : Build} (hn : 1 < b.nvcpu) (vgics : Nat → Vgic) :
    bootVgics b vgics 1 = vgicInit := by
  simp only [bootVgics, if_pos hn, Function.update_self]

theorem kmain_boots (b : Build) (m₀ : Machine) :
    ∃ m, kmain b m₀ = .ret m ∧ BootState b m₀ m ∧ BootDevices m₀ m
      ∧ m.guestStates = bootGuestStates b m₀.guestStates
      ∧ m.exitRingHead = m₀.exitRingHead ∧ m.exitRingCount = m₀.exitRingCount := by
  simp only [kmain, uartPuts_eq, uartPutc_eq, withUart_withUart]
  generalize hk : Machine.withUart _ _ = k
  obtain ⟨gicc, uart, hg, hlog, hpmr⟩ := gicInitEl2_spec k
  rw [hg]
  obtain ⟨mem, tlb, uart', hi⟩ := schedInit_spec b
    { k with gicd := k.gicd.initEl2, gicc := gicc, imsc := 0x50, uart := uart }
  rw [hi]
  simp only [Outcome.andThen]
  generalize hj : Machine.mk _ _ _ _ _ _ _ _ _ _ _ _ _ _ _ _ _ _ _ _ = j
  obtain ⟨gpr, regs, uart'', hs, htimer, hregs⟩ := schedStart_spec j
  subst hj hk
  refine ⟨_, rfl, ?_⟩
  rw [hs]
  refine ⟨⟨rfl, rfl, rfl, hlog, ?_⟩, ⟨rfl, hpmr, htimer⟩, rfl, rfl, rfl⟩
  intro r hr
  have h₁ : r ≠ .cnthpCvalEl2 := by rintro rfl; cases hr
  have h₂ : r ≠ .cnthpCtlEl2 := by rintro rfl; cases hr
  refine (hregs r h₁ h₂).trans ?_
  cases r <;> first | rfl | cases hr

theorem kmain_spec (b : Build) (m₀ : Machine) :
    ∃ m, kmain b m₀ = .ret m ∧ BootState b m₀ m := by
  obtain ⟨m, hk, hs, -⟩ := kmain_boots b m₀
  exact ⟨m, hk, hs⟩

theorem Booted.devices {b : Build} {m : Machine} (h : Booted b m) : ∃ m₀, BootDevices m₀ m := by
  obtain ⟨m₀, -, hk⟩ := h
  obtain ⟨m', hk', -, hd, -⟩ := kmain_boots b m₀
  rw [hk] at hk'
  cases hk'
  exact ⟨m₀, hd⟩

/-- Guest B starts with its counter at zero. -/
theorem Booted.ticks {b : Build} {m : Machine} (h : Booted b m) (hn : 1 < b.nvcpu) :
    (m.guestStates 1).ticks = 0 := by
  obtain ⟨m₀, -, hk⟩ := h
  obtain ⟨m', hk', -, -, hgs, -⟩ := kmain_boots b m₀
  rw [hk] at hk'
  cases hk'
  rw [hgs, bootGuestStates, if_pos hn, Function.update_self]

/-- The exit ring starts empty. -/
theorem Booted.ring {b : Build} {m : Machine} (h : Booted b m) :
    m.exitRingHead = 0 ∧ m.exitRingCount = 0 := by
  obtain ⟨m₀, h₀, hk⟩ := h
  obtain ⟨m', hk', -, -, -, hhead, hcount⟩ := kmain_boots b m₀
  rw [hk] at hk'
  cases hk'
  exact ⟨hhead.trans h₀.exitRingHead, hcount.trans h₀.exitRingCount⟩

theorem Booted.state {b : Build} {m : Machine} (h : Booted b m) :
    ∃ m₀, AtReset m₀ ∧ BootState b m₀ m := by
  obtain ⟨m₀, h₀, hk⟩ := h
  obtain ⟨m', hk', hs⟩ := kmain_spec b m₀
  rw [hk] at hk'
  cases hk'
  exact ⟨m₀, h₀, hs⟩

/-- Boot completes from every reset state. -/
theorem exists_booted (b : Build) {m₀ : Machine} (h₀ : AtReset m₀) :
    ∃ m, Booted b m ∧ BootState b m₀ m := by
  obtain ⟨m, hk, hs⟩ := kmain_spec b m₀
  exact ⟨m, ⟨m₀, h₀, hk⟩, hs⟩

end ArmHyp
