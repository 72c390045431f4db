import Mathlib.Algebra.Ring.Nat
import Mathlib.Logic.Function.Basic

/-!
# Registers, trap frames and the vCPU record

The data the hypervisor moves around: the system registers it reads and
writes with `mrs`/`msr`, the frame `SAVE_CTX` leaves on the EL2 stack
(`include/exceptions.h`), and `vcpu_t` (`include/vcpu.h`).

System registers are storage cells: `mrs` returns what was last written.
The one flag this leaves out is `CNTV_CTL_EL0.ISTATUS`, which hardware
computes from the other bits and the counter; `cntvFires` in `Machine`
computes it where it is needed.
-/

namespace ArmHyp

/-- The system registers of the model. The middle group is what `vcpu_t`
lists; the last one is EL1/EL0 state a guest can write that it does not. What
that state is depends on the CPU, so the list ends in `other`: the event
counters and selectors of the PMU, the breakpoint and watchpoint registers
(nothing sets a trap for either in `MDCR_EL2`) and any more there are,
numbered in any way. -/
inductive SysReg where
  -- EL2 configuration, syndrome and return state
  | vtcrEl2 | cntvoffEl2 | cnthpCtlEl2 | cnthpCvalEl2
  | esrEl2 | farEl2 | hpfarEl2 | elrEl2 | spsrEl2 | currentEl
  -- the system counter
  | cntfrqEl0 | cntpctEl0
  -- saved and restored on a vCPU switch
  | vttbrEl2 | hcrEl2 | cntvCvalEl0 | cntvCtlEl0
  | sctlrEl1 | ttbr0El1 | ttbr1El1 | tcrEl1 | mairEl1 | amairEl1 | vbarEl1
  | contextidrEl1 | cpacrEl1 | elrEl1 | spsrEl1 | spEl1 | spEl0
  | tpidrEl0 | tpidrroEl0 | tpidrEl1 | esrEl1 | farEl1 | parEl1
  -- writable by a guest, not in `vcpu_t`
  | fpcr | fpsr | cntkctlEl1 | actlrEl1 | afsr0El1 | afsr1El1 | csselrEl1
  | mdscrEl1 | cntpCtlEl0 | cntpCvalEl0 | pmcrEl0 | pmccntrEl0 | pmuserenrEl0
  | other (n : Nat)
deriving DecidableEq, Repr

/-- Registers with a field in `vcpu_t`. -/
def SysReg.inVcpu : SysReg → Bool
  | .vttbrEl2 | .hcrEl2 | .cntvCvalEl0 | .cntvCtlEl0
  | .sctlrEl1 | .ttbr0El1 | .ttbr1El1 | .tcrEl1 | .mairEl1 | .amairEl1 | .vbarEl1
  | .contextidrEl1 | .cpacrEl1 | .elrEl1 | .spsrEl1 | .spEl1 | .spEl0
  | .tpidrEl0 | .tpidrroEl0 | .tpidrEl1 | .esrEl1 | .farEl1 | .parEl1 => true
  | _ => false

/-- Registers a guest can write at EL1 or EL0. -/
def SysReg.guestWritable : SysReg → Bool
  | .vtcrEl2 | .cntvoffEl2 | .cnthpCtlEl2 | .cnthpCvalEl2
  | .esrEl2 | .farEl2 | .hpfarEl2 | .elrEl2 | .spsrEl2 | .currentEl
  | .cntfrqEl0 | .cntpctEl0 | .vttbrEl2 | .hcrEl2 => false
  | _ => true

-- register and frame indices are written as literals
instance gprs_neZero : NeZero 31 := ⟨by decide⟩

instance frameWords_neZero : NeZero 34 := ⟨by decide⟩

/-- `trap_frame_t` as the 34 doublewords it is in memory: `x[0..30]`, then
`elr_el2`, `spsr_el2` and `_pad`. Kept flat because the handlers index
`x[]` with a register number, and `x[31]` is `elr_el2`. -/
structure TrapFrame where
  word : Fin 34 → BitVec 64

namespace TrapFrame

/-- `tf->x[i]`. -/
def x (tf : TrapFrame) (i : Nat) : BitVec 64 := tf.word (Fin.ofNat 34 i)

def elrEl2 (tf : TrapFrame) : BitVec 64 := tf.word 31

def spsrEl2 (tf : TrapFrame) : BitVec 64 := tf.word 32

/-- `tf->x[i] = v`. -/
def setX (tf : TrapFrame) (i : Nat) (v : BitVec 64) : TrapFrame :=
  ⟨Function.update tf.word (Fin.ofNat 34 i) v⟩

def setElrEl2 (tf : TrapFrame) (v : BitVec 64) : TrapFrame :=
  ⟨Function.update tf.word 31 v⟩

@[ext] theorem ext {tf tf' : TrapFrame} (h : ∀ i, tf.word i = tf'.word i) : tf = tf' := by
  cases tf
  cases tf'
  congr 1
  exact funext h

end TrapFrame

/-- `vcpu_t`. -/
structure Vcpu where
  x : Fin 31 → BitVec 64
  elrEl2 : BitVec 64
  spsrEl2 : BitVec 64
  -- EL2-owned per-vCPU state
  vttbrEl2 : BitVec 64
  hcrEl2 : BitVec 64
  cntvCval : BitVec 64
  cntvCtl : BitVec 64
  -- EL1 stage-1 translation and exception context
  sctlrEl1 : BitVec 64
  ttbr0El1 : BitVec 64
  ttbr1El1 : BitVec 64
  tcrEl1 : BitVec 64
  mairEl1 : BitVec 64
  amairEl1 : BitVec 64
  vbarEl1 : BitVec 64
  contextidrEl1 : BitVec 64
  cpacrEl1 : BitVec 64
  elrEl1 : BitVec 64
  spsrEl1 : BitVec 64
  spEl1 : BitVec 64
  spEl0 : BitVec 64
  tpidrEl0 : BitVec 64
  tpidrroEl0 : BitVec 64
  tpidrEl1 : BitVec 64
  esrEl1 : BitVec 64
  farEl1 : BitVec 64
  parEl1 : BitVec 64
  id : Nat
  vmid : BitVec 32

/-- A `vcpu_t` in zeroed BSS. -/
def Vcpu.zero : Vcpu where
  x := fun _ => 0
  elrEl2 := 0
  spsrEl2 := 0
  vttbrEl2 := 0
  hcrEl2 := 0
  cntvCval := 0
  cntvCtl := 0
  sctlrEl1 := 0
  ttbr0El1 := 0
  ttbr1El1 := 0
  tcrEl1 := 0
  mairEl1 := 0
  amairEl1 := 0
  vbarEl1 := 0
  contextidrEl1 := 0
  cpacrEl1 := 0
  elrEl1 := 0
  spsrEl1 := 0
  spEl1 := 0
  spEl0 := 0
  tpidrEl0 := 0
  tpidrroEl0 := 0
  tpidrEl1 := 0
  esrEl1 := 0
  farEl1 := 0
  parEl1 := 0
  id := 0
  vmid := 0

/-- The `vcpu_t` field named after a register; zero for a register that has
none. This is the correspondence the two copy lists of `sched.c` are meant
to implement, by name. -/
def Vcpu.reg (v : Vcpu) : SysReg → BitVec 64
  | .vttbrEl2 => v.vttbrEl2
  | .hcrEl2 => v.hcrEl2
  | .cntvCvalEl0 => v.cntvCval
  | .cntvCtlEl0 => v.cntvCtl
  | .sctlrEl1 => v.sctlrEl1
  | .ttbr0El1 => v.ttbr0El1
  | .ttbr1El1 => v.ttbr1El1
  | .tcrEl1 => v.tcrEl1
  | .mairEl1 => v.mairEl1
  | .amairEl1 => v.amairEl1
  | .vbarEl1 => v.vbarEl1
  | .contextidrEl1 => v.contextidrEl1
  | .cpacrEl1 => v.cpacrEl1
  | .elrEl1 => v.elrEl1
  | .spsrEl1 => v.spsrEl1
  | .spEl1 => v.spEl1
  | .spEl0 => v.spEl0
  | .tpidrEl0 => v.tpidrEl0
  | .tpidrroEl0 => v.tpidrroEl0
  | .tpidrEl1 => v.tpidrEl1
  | .esrEl1 => v.esrEl1
  | .farEl1 => v.farEl1
  | .parEl1 => v.parEl1
  | _ => 0

/-- `guest_state_t`, the per-guest record `TPIDR_EL1` points at. -/
structure GuestState where
  id : BitVec 32
  ticks : BitVec 64
  tickPeriod : BitVec 64

/-- The sixteen vectors of `vectors.S`, in table order (`enum vec_kind`). -/
inductive VecKind where
  | el2tSync | el2tIrq | el2tFiq | el2tSerror
  | el2hSync | el2hIrq | el2hFiq | el2hSerror
  | l64Sync | l64Irq | l64Fiq | l64Serror
  | l32Sync | l32Irq | l32Fiq | l32Serror
deriving DecidableEq, Repr

end ArmHyp
