import ArmHyp.Sched

/-!
# The physical IRQ path (`gic.c`) and GIC-window aborts (`vgic_mmio`)

`gic_init_el2`, the physical interrupt handler with its five outcomes
(spurious, scheduler tick, virtual timer, PL011, unexpected), and
`vgic_mmio`, which emulates the CPU interface and forwards distributor
accesses.
-/

namespace ArmHyp

/-- `IRQ_HTIMER`, `IRQ_VTIMER` and `IRQ_PL011`. -/
def irqHtimer : BitVec 32 := 26
def irqVtimer : BitVec 32 := 27
def irqPl011 : BitVec 32 := 33

/-- Offsets into the distributor. -/
def gicdCtlr : Nat := 0x000
def gicdIgroupr : Nat := 0x080
def gicdIsenabler : Nat := 0x100
def gicdIpriorityr : Nat := 0x400
def gicdItargetsr : Nat := 0x800

open Machine

def gicInitEl2 (m : Machine) : Machine :=
  let m := m.gicdW gicdCtlr 0
  let m := m.gicdW (gicdIgroupr + 0) 0xffffffff
  let m := m.gicdW (gicdIgroupr + 4) 0xffffffff
  let m := m.gicdW 0x280 0x0000FFFF
  let m := m.gicdWb (gicdIpriorityr + irqVtimer.toNat) 0x00
  let m := m.gicdWb (gicdIpriorityr + irqHtimer.toNat) 0x00
  let m := m.gicdWb (gicdIpriorityr + irqPl011.toNat) 0xA0
  let m := m.gicdWb (gicdItargetsr + irqPl011.toNat) 0x01
  let m := m.gicdW (gicdIsenabler + 0) (1#32 <<< irqVtimer ||| 1#32 <<< irqHtimer)
  let m := m.gicdW (gicdIsenabler + 4) (1#32 <<< (irqPl011 - 32))
  let m := m.gicdW gicdCtlr 0x3
  let m := { m with gicc := { m.gicc with pmr := 0xff, ctlr := 0x3 ||| 1#32 <<< 2 } }
  let m := { m with imsc := 0x50 }
  m.uartPuts "[gic] GICv2 up; PPIs 26 (htimer) + 27 (vtimer), SPI 33 (pl011)\n"

/-- `pl011_rx_reassert` of `gic.c`, and `reassert_pl011_rx` of `vgic.c`,
which it duplicates. -/
def pl011RxReassert (m : Machine) : Machine :=
  let m := { m with imsc := 0x50 }
  let m := m.gicdW 0x104 (1#32 <<< (irqPl011 - 32))
  let m := m.gicdWb (0x800 + irqPl011.toNat) 0x01
  m.gicdWb (0x400 + irqPl011.toNat) 0xA0

def reassertPl011Rx (m : Machine) : Machine := pl011RxReassert m

def reassertHtimerPpi (m : Machine) : Machine := m.gicdW gicdIsenabler (1#32 <<< irqHtimer)

/-- The `IRQ_HTIMER` branch of the handler: the scheduler tick. -/
def handleHtimer (b : Build) (iar : BitVec 32) (m : Machine) : Machine :=
  let m := { m with htimerTicks := m.htimerTicks + 1 }
  let m := m.msr .cnthpCtlEl2 0
  let m := pl011RxReassert m
  let m := schedTick b m
  let m := schedRearmTick m
  m.writeEoir iar

/-- The `IRQ_VTIMER` branch: stop the timer until the guest re-arms it, and
pend INTID 27. -/
def handleVtimer (iar : BitVec 32) (m : Machine) : Machine :=
  let m := { m with vtimerTicks := m.vtimerTicks + 1 }
  let m := m.msr .cntvCtlEl0 0
  let m := m.onVgic m.currentVcpu.id (vgicInject irqVtimer)
  m.writeEoir iar

/-- The `IRQ_PL011` branch: no EOI here, the guest's own EOIR completes the
physical cycle. -/
def handlePl011 (iar : BitVec 32) (m : Machine) : Machine :=
  let m := m.uartPuts "[gic] pl011 rx -> vcpu"
  let m := m.uartPutHex (BitVec.ofNat 64 m.currentVcpu.id)
  let m := m.uartPuts "\n"
  m.onVgic m.currentVcpu.id (vgicForwardSpi irqPl011 iar)

/-- The rest: complete, count and report. -/
def handleOther (iar : BitVec 32) (m : Machine) : Machine :=
  let m := { m with otherTicks := m.otherTicks + 1 }
  let m := m.writeEoir iar
  let m := (m.uartPuts "[gic] unexpected phys IRQ ").uartPutHex ((intidOf iar).setWidth 64)
  m.uartPuts "\n"

def gicHandlePhysicalIrq (b : Build) (m : Machine) : Machine :=
  let iar := m.gicc.iar
  let m := m.ackIar
  let intid := intidOf iar
  if intid = intidSpurious then m
  else if intid = irqHtimer then handleHtimer b iar m
  else if intid = irqVtimer then handleVtimer iar m
  else if intid = irqPl011 then handlePl011 iar m
  else handleOther iar m

/-! ## vgic_mmio -/

/-- `GICD_EMU_BASE`, `GICD_EMU_LIMIT` = `GICC_EMU_BASE`, `GICC_EMU_LIMIT`. -/
def gicdEmuBase : BitVec 64 := 0x08000000
def gicdEmuLimit : BitVec 64 := 0x08010000
def giccEmuBase : BitVec 64 := 0x08010000
def giccEmuLimit : BitVec 64 := 0x08020000

/-- The fields of a data-abort ISS that `vgic_mmio` decodes. -/
def issIsv (iss : BitVec 64) : Bool := (iss >>> 24).getLsbD 0
def issSas (iss : BitVec 64) : Nat := (iss >>> 22 &&& 3).toNat
def issSrt (iss : BitVec 64) : Nat := (iss >>> 16 &&& 0x1F).toNat
def issWnr (iss : BitVec 64) : Bool := (iss >>> 6).getLsbD 0

/-- The value a store supplies: the low half of `x[srt]`, zero for XZR. -/
def storeVal (m : Machine) (srt : Nat) : BitVec 32 :=
  if srt = 31 then 0 else (m.tf.x srt).setWidth 32

/-- The distributor half: forward the access at the guest's size. A load
returns the value read. -/
def gicdForward (off : Nat) (sas : Nat) (wnr : Bool) (val : BitVec 32) (m : Machine) :
    BitVec 32 × Machine :=
  match sas with
  | 0 =>
      if wnr then (val, { m with gicd := m.gicd.write8 off (val.setWidth 8) })
      else ((m.gicd.read8 off).setWidth 32, m)
  | 1 =>
      if wnr then (val, { m with gicd := m.gicd.write16 off (val.setWidth 16) })
      else ((m.gicd.read16 off).setWidth 32, m)
  | _ =>
      if wnr then (val, { m with gicd := m.gicd.write32 off val })
      else (m.gicd.read32 off, m)

/-- The CPU-interface half: pure emulation. -/
def giccEmulate (id : Nat) (off : BitVec 32) (wnr : Bool) (val : BitVec 32) (m : Machine) :
    BitVec 32 × Machine :=
  if wnr then (val, m.onVgic id (writeReg off val))
  else
    let (val, c) := readReg off (m.cpuIf id)
    (val, m.setCpuIf id c)

/-- `vgic_mmio`: its result and the machine after it. -/
def vgicMmio (ipa iss : BitVec 64) (m : Machine) : Bool × Machine :=
  if issIsv iss = false then
    (false, ((m.uartPuts "  [vgic] abort w/o ISV at IPA=").uartPutHex ipa).uartPuts "\n")
  else
    let srt := issSrt iss
    let wnr := issWnr iss
    let id := m.currentVcpu.id
    let val := if wnr then storeVal m srt else 0
    let (val, m) :=
      if gicdEmuBase ≤ ipa ∧ ipa < gicdEmuLimit then
        gicdForward (ipa - gicdEmuBase).toNat (issSas iss) wnr val m
      else giccEmulate id ((ipa - giccEmuBase).setWidth 32) wnr val m
    let m := if wnr = false ∧ srt ≠ 31 then m.setX srt (val.setWidth 64) else m
    (true, reassertPl011Rx (reassertHtimerPpi m))

end ArmHyp
