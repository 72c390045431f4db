import ArmHyp.Machine
import ArmHyp.Stage2

/-!
# The scheduler (`sched.c`)

`save_vcpu` and `load_vcpu` are kept as the two hand-written copy lists
they are, in source order, `load_vcpu` with its two writes of `SCTLR_EL1`.
Barriers have no effect on this machine and are left out.
-/

namespace ArmHyp

/-- Build-time knobs and link-time addresses. -/
structure Build where
  /-- `NVCPU`: the Makefile documents 1 and 2. -/
  nvcpu : Nat
  nvcpu_eq : nvcpu = 1 ∨ nvcpu = 2
  layout : S2Layout
  /-- `&guest_states[0]`. -/
  guestStates : BitVec 64
  guestStackTopA : BitVec 64
  guestStackTopB : BitVec 64
  guestEntryCommon : BitVec 64
  /-- `guest_vector_table_el1`. -/
  guestVectorTableEl1 : BitVec 64

theorem Build.nvcpu_pos (b : Build) : 0 < b.nvcpu := by
  rcases b.nvcpu_eq with h | h <;> omega

theorem Build.nvcpu_le (b : Build) : b.nvcpu ≤ 2 := by
  rcases b.nvcpu_eq with h | h <;> omega

/-- `SLICE_MS`. -/
def sliceMs : BitVec 64 := 50

/-- `LINUX_ENTRY_IPA` and `LINUX_DTB_IPA`. -/
def linuxEntryIpa : BitVec 64 := 0x48200000
def linuxDtbIpa : BitVec 64 := 0x4C000000

def hcrVm : BitVec 64 := 1#64 <<< 0
def hcrImo : BitVec 64 := 1#64 <<< 4
def hcrTwi : BitVec 64 := 1#64 <<< 13
def hcrRw : BitVec 64 := 1#64 <<< 31

/-- `HCR_FLAGS`. -/
def hcrFlags : BitVec 64 := hcrRw ||| hcrTwi ||| hcrImo ||| hcrVm

/-- `SPSR_EL1H_DAIF`. -/
def spsrEl1hDaif : BitVec 64 := 0x3C5

/-! ## CNTHP -/

def armHypTimerMs (ms : BitVec 64) (m : Machine) : Machine :=
  let freq := m.mrs .cntfrqEl0
  let now := m.mrs .cntpctEl0
  let cval := now + freq * ms / 1000
  (m.msr .cnthpCvalEl2 cval).msr .cnthpCtlEl2 1

def schedRearmTick (m : Machine) : Machine := armHypTimerMs sliceMs m

/-! ## Save and restore -/

/-- `save_vcpu(v, tf)`: the new contents of `*v`. -/
def saveVcpu (v : Vcpu) (m : Machine) : Vcpu :=
  { v with
    x := fun i => m.tf.x i.val
    elrEl2 := m.tf.elrEl2
    spsrEl2 := m.tf.spsrEl2
    vttbrEl2 := m.mrs .vttbrEl2
    hcrEl2 := m.mrs .hcrEl2
    cntvCval := m.mrs .cntvCvalEl0
    cntvCtl := m.mrs .cntvCtlEl0
    sctlrEl1 := m.mrs .sctlrEl1
    ttbr0El1 := m.mrs .ttbr0El1
    ttbr1El1 := m.mrs .ttbr1El1
    tcrEl1 := m.mrs .tcrEl1
    mairEl1 := m.mrs .mairEl1
    amairEl1 := m.mrs .amairEl1
    vbarEl1 := m.mrs .vbarEl1
    contextidrEl1 := m.mrs .contextidrEl1
    cpacrEl1 := m.mrs .cpacrEl1
    elrEl1 := m.mrs .elrEl1
    spsrEl1 := m.mrs .spsrEl1
    spEl1 := m.mrs .spEl1
    spEl0 := m.mrs .spEl0
    tpidrEl0 := m.mrs .tpidrEl0
    tpidrroEl0 := m.mrs .tpidrroEl0
    tpidrEl1 := m.mrs .tpidrEl1
    esrEl1 := m.mrs .esrEl1
    farEl1 := m.mrs .farEl1
    parEl1 := m.mrs .parEl1 }

/-- The frame part of `load_vcpu`. -/
def loadFrame (v : Vcpu) (tf : TrapFrame) : TrapFrame :=
  ⟨fun k =>
    if h : k.val < 31 then v.x ⟨k.val, h⟩
    else if k = 31 then v.elrEl2
    else if k = 32 then v.spsrEl2
    else tf.word k⟩

/-- The `MSR` sequence of `load_vcpu`. -/
def loadRegs (v : Vcpu) (m : Machine) : Machine :=
  m |>.msr .vttbrEl2 v.vttbrEl2
    |>.msr .hcrEl2 v.hcrEl2
    |>.msr .cntvCvalEl0 v.cntvCval
    |>.msr .cntvCtlEl0 v.cntvCtl
    -- the EL1 MMU is off while its tables are swapped
    |>.msr .sctlrEl1 0
    |>.msr .ttbr0El1 v.ttbr0El1
    |>.msr .ttbr1El1 v.ttbr1El1
    |>.msr .tcrEl1 v.tcrEl1
    |>.msr .mairEl1 v.mairEl1
    |>.msr .amairEl1 v.amairEl1
    |>.msr .vbarEl1 v.vbarEl1
    |>.msr .contextidrEl1 v.contextidrEl1
    |>.msr .cpacrEl1 v.cpacrEl1
    |>.msr .elrEl1 v.elrEl1
    |>.msr .spsrEl1 v.spsrEl1
    |>.msr .spEl1 v.spEl1
    |>.msr .spEl0 v.spEl0
    |>.msr .tpidrEl0 v.tpidrEl0
    |>.msr .tpidrroEl0 v.tpidrroEl0
    |>.msr .tpidrEl1 v.tpidrEl1
    |>.msr .esrEl1 v.esrEl1
    |>.msr .farEl1 v.farEl1
    |>.msr .parEl1 v.parEl1
    |>.msr .sctlrEl1 v.sctlrEl1

/-- `load_vcpu(v, tf)`. -/
def loadVcpu (v : Vcpu) (m : Machine) : Machine :=
  (loadRegs v { m with tf := loadFrame v m.tf }).tlbiVmalls12e1

/-! ## Init, start, tick -/

/-- `stage2_global_init`. -/
def stage2GlobalInit (m : Machine) : Machine :=
  let m := m.msr .cntvoffEl2 0
  let m := m.msr .vtcrEl2 s2Vtcr
  ((m.uartPuts "[stage2] VTCR_EL2  = ").uartPutHex s2Vtcr).uartPuts "\n"

/-- `stage2_alloc_vm` with its TLB flush and its console line; the value
returned is the first component. -/
def stage2AllocVmM (b : Build) (id : Nat) (vmid : BitVec 32) (m : Machine) :
    BitVec 64 × Outcome Machine :=
  match stage2AllocVm b.layout id vmid m.mem with
  | none => (0, .halt (m.uartPuts "[stage2] VM id out of range\n"))
  | some (vttbr, μ) =>
      let m := Machine.tlbiVmalls12e1 { m with mem := μ }
      let m := (m.uartPuts "[stage2] VM ").uartPutHex (BitVec.ofNat 64 id)
      let m := (m.uartPuts " VMID ").uartPutHex (vmid.setWidth 64)
      let m := (m.uartPuts " VTTBR= ").uartPutHex vttbr
      let m := (m.uartPuts " priv@").uartPutHex (b.layout.addr .privPage id)
      (vttbr, .ret (m.uartPuts "\n"))

/-- `&guest_states[i]`; `sizeof(guest_state_t)` is 24. -/
def guestStateAddr (b : Build) (i : Nat) : BitVec 64 := b.guestStates + BitVec.ofNat 64 (24 * i)

/-- The fields `init_vcpu` sets, over whatever the record held. -/
def initVcpuRecord (b : Build) (i : Nat) (vmid : BitVec 32) (stackTop vttbr : BitVec 64)
    (v : Vcpu) : Vcpu :=
  { v with
    id := i
    vmid := vmid
    vttbrEl2 := vttbr
    spEl1 := stackTop
    elrEl2 := b.guestEntryCommon
    spsrEl2 := spsrEl1hDaif
    hcrEl2 := hcrFlags
    cntvCval := 0
    cntvCtl := 0
    tpidrEl1 := guestStateAddr b i
    x := Function.update (fun _ => 0) 0 (BitVec.ofNat 64 i) }

def initVcpu (b : Build) (i : Nat) (vmid : BitVec 32) (stackTop : BitVec 64) (m : Machine) :
    Outcome Machine :=
  let m := { m with guestStates := Function.update m.guestStates i ⟨BitVec.ofNat 32 i, 0, 0⟩ }
  let (vttbr, o) := stage2AllocVmM b i vmid m
  o.andThen fun m => .ret
    { m with
      vcpus := Function.update m.vcpus i (initVcpuRecord b i vmid stackTop vttbr (m.vcpus i))
      vgics := Function.update m.vgics i vgicInit }

/-- The Linux boot protocol's values for vCPU 0. -/
def linuxVcpu (v : Vcpu) : Vcpu :=
  { v with
    elrEl2 := linuxEntryIpa
    x := Function.update (Function.update (Function.update (Function.update v.x
      0 linuxDtbIpa) 1 0) 2 0) 3 0 }

def schedInit (b : Build) (m : Machine) : Outcome Machine :=
  (initVcpu b 0 1 b.guestStackTopA (stage2GlobalInit m)).andThen fun m =>
    let m := { m with vcpus := Function.update m.vcpus 0 (linuxVcpu (m.vcpus 0)) }
    let o := if 1 < b.nvcpu then initVcpu b 1 2 b.guestStackTopB m else .ret m
    o.andThen fun m =>
      let m := { m with current := 0 }
      let m := (m.uartPuts "[sched] initialised ").uartPutHex (BitVec.ofNat 64 b.nvcpu)
      let m := (m.uartPuts " vCPU(s), slice=").uartPutHex sliceMs
      let m := (m.uartPuts " ms; vCPU0 -> Linux@").uartPutHex linuxEntryIpa
      let m := (m.uartPuts " DTB@").uartPutHex linuxDtbIpa
      .ret (m.uartPuts "\n")

/-- `sched_start`, up to the `eret` that enters the guest. -/
def schedStart (m : Machine) : Machine :=
  let v := m.vcpus m.current
  let m := m |>.msr .hcrEl2 v.hcrEl2
    |>.msr .spEl1 v.spEl1
    |>.msr .vttbrEl2 v.vttbrEl2
    |>.msr .cntvCvalEl0 v.cntvCval
    |>.msr .cntvCtlEl0 v.cntvCtl
    |>.msr .tpidrEl1 v.tpidrEl1
    |>.msr .elrEl2 v.elrEl2
    |>.msr .spsrEl2 v.spsrEl2
  let m := armHypTimerMs sliceMs m
  let m := m.uartPuts "[sched] ERET into vCPU 0\n"
  { m with gpr := Function.update (Function.update (Function.update (Function.update m.gpr
      0 (v.x 0)) 1 (v.x 1)) 2 (v.x 2)) 3 (v.x 3) }

def schedTick (b : Build) (m : Machine) : Machine :=
  if 1 < b.nvcpu then
    let m := { m with vcpus := Function.update m.vcpus m.current (saveVcpu (m.vcpus m.current) m) }
    let m := { m with current := (m.current + 1) % b.nvcpu }
    let m := loadVcpu (m.vcpus m.current) m
    armHypTimerMs sliceMs m
  else m

end ArmHyp
