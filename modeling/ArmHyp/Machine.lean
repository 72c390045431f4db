import ArmHyp.ByteMem
import ArmHyp.Regs
import ArmHyp.Vgic

/-!
# The machine

One physical CPU running the hypervisor: its registers, the devices it
drives, memory, the trap frame of the exception being handled, and the
file-scope variables of `sched.c`, `vgic.c`, `gic.c` and `exceptions.c`.
The C functions become functions on `Machine`; a function that may never
return (it parks the CPU in a `wfe` loop) returns an `Outcome`.

The hypervisor's variables are fields of their own rather than ranges of
`mem`; `mem` holds what the guests and the stage-2 walker read. So a guest's
store to EL2's image does not reach them here, as it would on the board, where
the image is mapped into both VMs: where that matters, the guests are asked
to leave the image alone (`KeepsImage`).
-/

namespace ArmHyp

/-- How a C function ends: it returns, or the CPU never leaves it. -/
inductive Outcome (α : Type _) where
  | ret (a : α)
  | halt (a : α)

namespace Outcome

variable {α : Type _}

/-- Go on with `f` if the first function returned. -/
def andThen (o : Outcome α) (f : α → Outcome α) : Outcome α :=
  match o with
  | ret a => f a
  | halt a => halt a

/-- The result, if the function returns. -/
def ret? : Outcome α → Option α
  | ret a => some a
  | halt _ => none

end Outcome

/-- `exit_record_t`. -/
structure ExitRecord where
  esr : BitVec 64
  elr : BitVec 64
  far : BitVec 64
  kind : VecKind
  vcpu : Nat

/-- `EXIT_RING_SIZE`. -/
def exitRingSize : BitVec 32 := 32

/-- A cached translation, tagged with the VMID it was made under. -/
structure TlbEntry where
  vmid : BitVec 8
  stage1 : Bool
  page : BitVec 64
deriving DecidableEq

structure Machine where
  -- the CPU
  gpr : Fin 31 → BitVec 64
  regs : SysReg → BitVec 64
  vreg : Fin 32 → BitVec 128
  tlb : List TlbEntry
  -- devices and memory
  gicd : Gicd
  gicc : Gicc
  imsc : BitVec 32
  uart : List (BitVec 8)
  mem : Mem
  -- the frame `SAVE_CTX` pushed
  tf : TrapFrame
  -- sched.c
  vcpus : Nat → Vcpu
  current : Nat
  guestStates : Nat → GuestState
  -- vgic.c
  vgics : Nat → Vgic
  -- exceptions.c
  exitRing : Nat → ExitRecord
  exitRingHead : BitVec 32
  exitRingCount : BitVec 64
  -- gic.c
  htimerTicks : BitVec 64
  vtimerTicks : BitVec 64
  otherTicks : BitVec 64

namespace Machine

/-! ## Registers -/

/-- `MSR(reg, val)`. -/
def msr (r : SysReg) (v : BitVec 64) (m : Machine) : Machine :=
  { m with regs := Function.update m.regs r v }

/-- `MRS(reg)`. -/
def mrs (m : Machine) (r : SysReg) : BitVec 64 := m.regs r

/-- The VMID field of `VTTBR_EL2`. -/
def vmidOf (vttbr : BitVec 64) : BitVec 8 := vttbr.extractLsb' 48 8

/-- `tlbi vmalls12e1[is]`: drop everything tagged with the current VMID. -/
def tlbiVmalls12e1 (m : Machine) : Machine :=
  { m with tlb := m.tlb.filter fun e => decide (e.vmid ≠ vmidOf (m.regs .vttbrEl2)) }

/-- The virtual counter, `CNTPCT_EL0 - CNTVOFF_EL2`. -/
def cntvct (m : Machine) : BitVec 64 := m.regs .cntpctEl0 - m.regs .cntvoffEl2

/-- The loaded virtual timer asserts its interrupt: enabled, not masked,
and its deadline has passed. -/
def cntvFires (m : Machine) : Bool :=
  (m.regs .cntvCtlEl0).getLsbD 0 && !(m.regs .cntvCtlEl0).getLsbD 1
    && decide (m.regs .cntvCvalEl0 ≤ m.cntvct)

/-! ## Console -/

/-- The bytes `uart_puts` sends for a string: `\n` is preceded by `\r`. -/
def putsBytes (s : List (BitVec 8)) : List (BitVec 8) :=
  s.flatMap fun c => if c = 0x0A then [0x0D, c] else [c]

/-- `uart_puts` on bytes. -/
def uartPutBytes (s : List (BitVec 8)) (m : Machine) : Machine :=
  { m with uart := m.uart ++ putsBytes s }

/-- `uart_puts` on a string literal. -/
def uartPuts (s : String) (m : Machine) : Machine :=
  m.uartPutBytes (s.toUTF8.toList.map (·.toBitVec))

def uartPutc (c : BitVec 8) (m : Machine) : Machine := { m with uart := m.uart ++ [c] }

/-- A hexadecimal digit. -/
def hexDigit (n : Nat) : BitVec 8 :=
  if n < 10 then BitVec.ofNat 8 (0x30 + n) else BitVec.ofNat 8 (0x61 + (n - 10))

/-- `uart_put_hex`: `0x` and sixteen digits. -/
def uartPutHex (v : BitVec 64) (m : Machine) : Machine :=
  let digits := (List.range 16).map fun k => hexDigit (v.toNat / 16 ^ (15 - k) % 16)
  let m := m.uartPuts "0x"
  { m with uart := m.uart ++ digits }

/-! ## Physical interrupt controller -/

/-- The acknowledge side of `mmio_r(GICC_BASE_PA, GICC_IAR)`; the value read is `m.gicc.iar`. -/
def ackIar (m : Machine) : Machine := { m with gicc := m.gicc.acknowledge }

/-- `mmio_w(GICC_BASE_PA, GICC_EOIR, v)`. -/
def writeEoir (v : BitVec 32) (m : Machine) : Machine := { m with gicc := m.gicc.complete v }

/-- A 32-bit store to the distributor. -/
def gicdW (off : Nat) (v : BitVec 32) (m : Machine) : Machine :=
  { m with gicd := m.gicd.write32 off v }

/-- A byte store to the distributor. -/
def gicdWb (off : Nat) (v : BitVec 8) (m : Machine) : Machine :=
  { m with gicd := m.gicd.write8 off v }

/-! ## Current vCPU and its CPU interface -/

/-- `current_vcpu()`. -/
def currentVcpu (m : Machine) : Vcpu := m.vcpus m.current

/-- What a function of `vgic.c` called for vCPU `id` works on. -/
def cpuIf (m : Machine) (id : Nat) : CpuIf := ⟨m.vgics id, m.regs .hcrEl2, m.gicc⟩

def setCpuIf (id : Nat) (c : CpuIf) (m : Machine) : Machine :=
  { m with
    vgics := Function.update m.vgics id c.v
    regs := Function.update m.regs .hcrEl2 c.hcr
    gicc := c.gicc }

/-- Call a function of `vgic.c` for vCPU `id`. -/
def onVgic (id : Nat) (f : CpuIf → CpuIf) (m : Machine) : Machine :=
  m.setCpuIf id (f (m.cpuIf id))

/-! ## Trap frame -/

def setX (i : Nat) (v : BitVec 64) (m : Machine) : Machine := { m with tf := m.tf.setX i v }

/-- `tf->elr_el2 += 4`. -/
def skipInsn (m : Machine) : Machine := { m with tf := m.tf.setElrEl2 (m.tf.elrEl2 + 4) }

/-- `SAVE_CTX`: the frame holds the general registers, `ELR_EL2` and
`SPSR_EL2`; its padding word is whatever the stack held. -/
def saveCtx (m : Machine) : Machine :=
  { m with tf := ⟨fun k =>
      if h : k.val < 31 then m.gpr ⟨k.val, h⟩
      else if k = 31 then m.regs .elrEl2
      else if k = 32 then m.regs .spsrEl2
      else m.tf.word k⟩ }

/-- `RESTORE_CTX`. -/
def restoreCtx (m : Machine) : Machine :=
  let m := m.msr .spsrEl2 m.tf.spsrEl2
  let m := m.msr .elrEl2 m.tf.elrEl2
  { m with gpr := fun i => m.tf.x i.val }

end Machine

end ArmHyp
