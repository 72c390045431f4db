import ArmHyp.PhysGic

/-!
# The software CPU interface (`vgic.c`)

`vgic_t` and the functions of `vgic.c` that act on it. Each of them touches
one `vgics[]` entry, the hardware register `HCR_EL2` (through `set_vi`) and
the physical CPU interface (through a deferred `GICC_EOIR` write), and
nothing else; `CpuIf` is that footprint. `Machine.onVgic` runs one of them
on the machine.

`set_vi` has no vCPU argument: it flips VI in whatever value `HCR_EL2`
holds when it runs, so the `hcr` component is always the running vCPU's.
-/

namespace ArmHyp

/-- `NO_INTID`. -/
def noIntid : BitVec 32 := 0x3FF

/-- `vgic_t`. -/
structure Vgic where
  /-- One bit per INTID 0..63. -/
  pendingMask : BitVec 64
  ctlr : BitVec 32
  pmr : BitVec 32
  bpr : BitVec 32
  active : BitVec 32
  /-- Deferred IAR of a forwarded SPI. -/
  physIar : BitVec 32
  hasPhysIar : BitVec 32
deriving DecidableEq

/-- A `vgic_t` in zeroed BSS. -/
def Vgic.zero : Vgic := ⟨0, 0, 0, 0, 0, 0, 0⟩

/-- `vgic_init`. -/
def vgicInit : Vgic where
  pendingMask := 0
  ctlr := 0
  pmr := 0
  bpr := 0
  active := noIntid
  physIar := 0
  hasPhysIar := 0

/-- What the functions of `vgic.c` read and write. -/
structure CpuIf where
  v : Vgic
  hcr : BitVec 64
  gicc : Gicc

/-- `HCR_EL2.VI`. -/
def hcrVi : BitVec 64 := 1#64 <<< 7

def setVi (on : Bool) (c : CpuIf) : CpuIf :=
  { c with hcr := if on then c.hcr ||| hcrVi else c.hcr &&& ~~~hcrVi }

/-- Lowest set bit as INTID, or `NO_INTID` if empty (`__builtin_ctzl`). -/
def lowestPending (mask : BitVec 64) : BitVec 32 :=
  if mask = 0 then noIntid else mask.ctz.setWidth 32

def vgicInject (intid : BitVec 32) (c : CpuIf) : CpuIf :=
  if 64 ≤ intid then c
  else setVi true { c with v := { c.v with pendingMask := c.v.pendingMask ||| 1#64 <<< intid } }

def vgicForwardSpi (intid physIar : BitVec 32) (c : CpuIf) : CpuIf :=
  vgicInject intid { c with v := { c.v with physIar := physIar, hasPhysIar := 1 } }

def vgicHasPendingPhysIar (v : Vgic) : Bool := v.hasPhysIar != 0

/-- Complete the deferred physical cycle: the body shared by `vgic_ack_all`
and the `GICC_EOIR` case of `write_reg`. -/
def completePhysIar (c : CpuIf) : CpuIf :=
  { c with v := { c.v with hasPhysIar := 0 }, gicc := c.gicc.complete c.v.physIar }

def vgicAckAll (c : CpuIf) : CpuIf :=
  let c := { c with v := { c.v with pendingMask := 0, active := noIntid } }
  let c := if c.v.hasPhysIar ≠ 0 then completePhysIar c else c
  setVi false c

/-- `read_reg`: the value read and the state after it. -/
def readReg (off : BitVec 32) (c : CpuIf) : BitVec 32 × CpuIf :=
  if off = 0x00 then (c.v.ctlr, c)
  else if off = 0x04 then (c.v.pmr, c)
  else if off = 0x08 then (c.v.bpr, c)
  else if off = 0x0C then                    -- IAR: pops pending into active
    let intid := lowestPending c.v.pendingMask
    if intid = noIntid then (1023, c)
    else
      let v := { c.v with
        pendingMask := c.v.pendingMask &&& ~~~(1#64 <<< intid), active := intid }
      (intid, setVi (v.pendingMask != 0) { c with v := v })
  else if off = 0x14 then (0, c)             -- RPR: no priority tracking
  else if off = 0x18 then                    -- HPPIR
    let intid := lowestPending c.v.pendingMask
    (if intid = noIntid then 1023 else intid, c)
  else if off = 0xFC then (0x0200143B, c)    -- IIDR
  else (0, c)

def writeReg (off val : BitVec 32) (c : CpuIf) : CpuIf :=
  if off = 0x00 then { c with v := { c.v with ctlr := val &&& 0x1F } }
  else if off = 0x04 then { c with v := { c.v with pmr := val &&& 0xFF } }
  else if off = 0x08 then { c with v := { c.v with bpr := val &&& 0x07 } }
  else if off = 0x10 then                    -- EOIR: deactivate
    let intid := val &&& 0x3FF
    let c := if intid = c.v.active then { c with v := { c.v with active := noIntid } } else c
    if c.v.hasPhysIar ≠ 0 ∧ c.v.physIar &&& 0x3FF = intid then completePhysIar c else c
  else c

end ArmHyp
