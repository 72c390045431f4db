import ArmHyp.Runs
import ArmHyp.Exceptions

/-!
# The system: guests, hardware and EL2

EL2 only runs when something traps. A `Trap` is everything the rest of the
world contributes to one exception: what the guest left in every register
it can write, in memory and at its PC, and what the hardware presents (the
syndrome registers, the counter, the distributor's pending and active
bits, and the values the next reads of `GICC_HPPIR` and `GICC_IAR` return).
`step` takes the exception: hardware entry, `SAVE_CTX`, `handle_exception`,
`RESTORE_CTX`. A step is `none` when `handle_exception` does not return.

`Booted` are the machines `kmain` leaves at its `eret`, from any hardware
state and zeroed BSS; `Reachable b ok` are the machines reached from them
by traps that satisfy `ok`. Each of these is a machine at a return to a
guest.
-/

namespace ArmHyp

/-- One exception as the guest and the hardware present it. -/
structure Trap where
  kind : VecKind
  -- left by the guest
  gpr : Fin 31 → BitVec 64
  pc : BitVec 64
  pstate : BitVec 64
  guest : SysReg → BitVec 64
  vreg : Fin 32 → BitVec 128
  mem : Mem
  -- presented by the hardware
  esr : BitVec 64
  far : BitVec 64
  hpfar : BitVec 64
  cntpct : BitVec 64
  hppir : BitVec 32
  iar : BitVec 32
  pend : Nat → BitVec 8
  act : Nat → BitVec 8
  tlb : List TlbEntry

namespace Machine

/-- System registers on exception entry: the guest's values where it can
write, the syndrome, the counter; every other EL2 register is unchanged. -/
def enterRegs (t : Trap) (regs : SysReg → BitVec 64) : SysReg → BitVec 64
  | .elrEl2 => t.pc
  | .spsrEl2 => t.pstate
  | .esrEl2 => t.esr
  | .farEl2 => t.far
  | .hpfarEl2 => t.hpfar
  | .cntpctEl0 => t.cntpct
  | r => if r.guestWritable then t.guest r else regs r

/-- The machine when the vector is entered. -/
def enter (t : Trap) (m : Machine) : Machine :=
  { m with
    gpr := t.gpr
    regs := enterRegs t m.regs
    vreg := t.vreg
    tlb := t.tlb
    mem := t.mem
    gicd := { m.gicd with pend := t.pend, act := t.act }
    gicc := { m.gicc with hppir := t.hppir, iar := t.iar } }

end Machine

/-- One exception, from the guest and back to a guest. EL2's own accesses are
taken not to fault; where a guest chooses the address, `El2Safe` is when they
do not. -/
def step (b : Build) (m : Machine) (t : Trap) : Option Machine :=
  (handleException b t.kind (m.enter t).saveCtx).ret?.map Machine.restoreCtx

/-- Reset: BSS is zero and no physical interrupt has been acknowledged. -/
structure AtReset (m : Machine) : Prop where
  vcpus : m.vcpus = fun _ => Vcpu.zero
  vgics : m.vgics = fun _ => Vgic.zero
  current : m.current = 0
  exitRingHead : m.exitRingHead = 0
  exitRingCount : m.exitRingCount = 0
  log : m.gicc.log = []

/-- The machine at the first `eret`. -/
def Booted (b : Build) (m : Machine) : Prop :=
  ∃ m₀, AtReset m₀ ∧ kmain b m₀ = .ret m

/-- Machines at a return to a guest, after any number of handled exceptions
that satisfy `ok`. -/
def Reachable (b : Build) (ok : Machine → Trap → Prop) (m : Machine) : Prop :=
  Reach (Booted b) (step b) ok m

/-- What is assumed of the physical GIC: `GICC_IAR` does not return an INTID
that is still active. -/
def GicOk (m : Machine) (t : Trap) : Prop :=
  intidOf t.iar = intidSpurious ∨ m.gicc.active (intidOf t.iar) = false

instance (m : Machine) (t : Trap) : Decidable (GicOk m t) :=
  inferInstanceAs (Decidable (_ ∨ _))

theorem gicOk_of_log_nil {m : Machine} (h : m.gicc.log = []) (t : Trap) : GicOk m t := by
  right
  rw [Gicc.active, h]
  rfl

/-! ## A concrete system -/

instance : Inhabited Build where
  default :=
    { nvcpu := 2
      nvcpu_eq := Or.inr rfl
      layout := default
      guestStates := 0x400a0000
      guestStackTopA := 0x400a4000
      guestStackTopB := 0x400a8000
      guestEntryCommon := 0x40081000
      guestVectorTableEl1 := 0x40082000 }

/-- Everything zero, with the counter at 62.5 MHz. -/
instance : Inhabited Machine where
  default :=
    { gpr := fun _ => 0
      regs := Function.update (fun _ => 0) .cntfrqEl0 62500000
      vreg := fun _ => 0
      tlb := []
      gicd := ⟨fun _ => 0, fun _ => 0, fun _ => 0, fun _ => 0⟩
      gicc := ⟨0, 0, intidSpurious, intidSpurious, []⟩
      imsc := 0
      uart := []
      mem := fun _ => 0
      tf := ⟨fun _ => 0⟩
      vcpus := fun _ => Vcpu.zero
      current := 0
      guestStates := fun _ => ⟨0, 0, 0⟩
      vgics := fun _ => Vgic.zero
      exitRing := fun _ => ⟨0, 0, 0, .el2tSync, 0⟩
      exitRingHead := 0
      exitRingCount := 0
      htimerTicks := 0
      vtimerTicks := 0
      otherTicks := 0 }

theorem atReset_default : AtReset default := ⟨rfl, rfl, rfl, rfl, rfl, rfl⟩

/-- A physical interrupt taken from a guest with nothing pending. -/
instance : Inhabited Trap where
  default :=
    { kind := .l64Irq
      gpr := fun _ => 0
      pc := 0
      pstate := 0
      guest := fun _ => 0
      vreg := fun _ => 0
      mem := fun _ => 0
      esr := 0
      far := 0
      hpfar := 0
      cntpct := 0
      hppir := intidSpurious
      iar := intidSpurious
      pend := fun _ => 0
      act := fun _ => 0
      tlb := [] }

/-- A physical interrupt whose acknowledge returns `iar`. -/
def Trap.irq (iar : BitVec 32) : Trap := { (default : Trap) with iar := iar }

/-- A trapped WFI, with what `GICC_HPPIR` and `GICC_IAR` return. -/
def Trap.wfi (hppir iar : BitVec 32) : Trap :=
  { (default : Trap) with kind := .l64Sync, esr := 0x04000000, hppir := hppir, iar := iar }

/-- A 32-bit load from or store to `ipa` through `x1` that faults in stage 2. -/
def Trap.access (ipa : BitVec 64) (store : Bool) (val : BitVec 64) : Trap :=
  { (default : Trap) with
    kind := .l64Sync
    esr := if store then 0x93810040 else 0x93810000
    far := ipa
    hpfar := (ipa >>> 8) &&& ~~~0xF
    gpr := Function.update (fun _ => 0) 1 val }

/-! ## Well-formed machines -/

/-- What `sched_init` establishes and nothing changes: `current` is in range
and every record carries its own index, so that `current_vcpu()->id` is
`current`. -/
structure Machine.Wf (b : Build) (m : Machine) : Prop where
  current_lt : m.current < b.nvcpu
  id_eq : ∀ i < b.nvcpu, (m.vcpus i).id = i

theorem Machine.Wf.currentVcpu_id {b : Build} {m : Machine} (h : m.Wf b) :
    m.currentVcpu.id = m.current :=
  h.id_eq m.current h.current_lt

/-- The value of register `r` that belongs to vCPU `i`: the hardware
register if `i` is running, its saved copy otherwise. -/
def Machine.ctxReg (m : Machine) (i : Nat) (r : SysReg) : BitVec 64 :=
  if i = m.current then m.regs r else (m.vcpus i).reg r

theorem Machine.ctxReg_current (m : Machine) (r : SysReg) : m.ctxReg m.current r = m.regs r :=
  if_pos rfl

theorem Machine.ctxReg_of_ne {m : Machine} {i : Nat} (h : i ≠ m.current) (r : SysReg) :
    m.ctxReg i r = (m.vcpus i).reg r := if_neg h

end ArmHyp
