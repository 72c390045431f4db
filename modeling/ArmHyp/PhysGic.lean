import Mathlib.Logic.Function.Basic
import ArmHyp.Ledger

/-!
# The physical interrupt controller

The two devices `gic.c`, `vgic.c` and `exceptions.c` talk to directly.

`Gicd` is the GICv2 distributor as byte-addressable registers. The
set/clear banks (enable, pending, active) are one bit per INTID, reached
through a write-one-to-set and a write-one-to-clear window; every other
register stores what is written, except the identification registers and
`GICD_SGIR`, which pends a software-generated interrupt.

`Gicc` is the physical CPU interface as EL2 sees it: what the next reads of
`GICC_HPPIR` and `GICC_IAR` will return (chosen by the environment; the
two are independent, since a higher-priority interrupt may become pending
between the reads) and the ledger of values acknowledged through `GICC_IAR`
and completed through `GICC_EOIR`.
-/

namespace ArmHyp

/-! ## Distributor -/

structure Gicd where
  /-- Byte `k` of a bank covers INTIDs `8k..8k+7`. -/
  enable : Nat → BitVec 8
  pend : Nat → BitVec 8
  act : Nat → BitVec 8
  /-- Every other register, by byte offset. -/
  cell : Nat → BitVec 8

namespace Gicd

def readByte (d : Gicd) (off : Nat) : BitVec 8 :=
  if off < 0x100 then d.cell off
  else if off < 0x180 then d.enable (off - 0x100)     -- ISENABLER
  else if off < 0x200 then d.enable (off - 0x180)     -- ICENABLER
  else if off < 0x280 then d.pend (off - 0x200)       -- ISPENDR
  else if off < 0x300 then d.pend (off - 0x280)       -- ICPENDR
  else if off < 0x380 then d.act (off - 0x300)        -- ISACTIVER
  else if off < 0x400 then d.act (off - 0x380)        -- ICACTIVER
  else if off < 0xF00 then d.cell off
  else if off < 0xF04 then 0                          -- SGIR is write-only
  else d.cell off

def setBits (bank : Nat → BitVec 8) (k : Nat) (v : BitVec 8) : Nat → BitVec 8 :=
  Function.update bank k (bank k ||| v)

def clearBits (bank : Nat → BitVec 8) (k : Nat) (v : BitVec 8) : Nat → BitVec 8 :=
  Function.update bank k (bank k &&& ~~~v)

def writeByte (d : Gicd) (off : Nat) (v : BitVec 8) : Gicd :=
  if off < 0x004 then { d with cell := Function.update d.cell off v }         -- CTLR
  else if off < 0x00C then d                                                  -- TYPER, IIDR
  else if off < 0x100 then { d with cell := Function.update d.cell off v }    -- IGROUPR
  else if off < 0x180 then { d with enable := setBits d.enable (off - 0x100) v }
  else if off < 0x200 then { d with enable := clearBits d.enable (off - 0x180) v }
  else if off < 0x280 then { d with pend := setBits d.pend (off - 0x200) v }
  else if off < 0x300 then { d with pend := clearBits d.pend (off - 0x280) v }
  else if off < 0x380 then { d with act := setBits d.act (off - 0x300) v }
  else if off < 0x400 then { d with act := clearBits d.act (off - 0x380) v }
  else if off < 0xF00 then { d with cell := Function.update d.cell off v }    -- priority, target
  else if off < 0xF10 then d                                                  -- SGIR: `writeSgir`
  else if off < 0xF20 then                                                    -- CPENDSGIR
    if v = 0 then d
    else { d with pend := clearBits d.pend ((off - 0xF10) / 8) (1#8 <<< ((off - 0xF10) % 8)) }
  else if off < 0xF30 then                                                    -- SPENDSGIR
    if v = 0 then d
    else { d with pend := setBits d.pend ((off - 0xF20) / 8) (1#8 <<< ((off - 0xF20) % 8)) }
  else d                                                                      -- reserved

/-- `GICD_SGIR`: pend SGI `v[3:0]` on this CPU if the target list filter
selects CPU 0 (list with bit 16 set, or "this CPU only"). -/
def writeSgir (d : Gicd) (v : BitVec 32) : Gicd :=
  let filter := v.extractLsb' 24 2
  if (filter = 0 ∧ v.getLsbD 16 = true) ∨ filter = 2 then
    let n := (v.extractLsb' 0 4).toNat
    { d with pend := setBits d.pend (n / 8) (1#8 <<< (n % 8)) }
  else d

def read8 (d : Gicd) (off : Nat) : BitVec 8 := d.readByte off

def read16 (d : Gicd) (off : Nat) : BitVec 16 := d.readByte (off + 1) ++ d.readByte off

def read32 (d : Gicd) (off : Nat) : BitVec 32 :=
  d.readByte (off + 3) ++ d.readByte (off + 2) ++ d.readByte (off + 1) ++ d.readByte off

def write8 (d : Gicd) (off : Nat) (v : BitVec 8) : Gicd := d.writeByte off v

def write16 (d : Gicd) (off : Nat) (v : BitVec 16) : Gicd :=
  (d.writeByte off (v.extractLsb' 0 8)).writeByte (off + 1) (v.extractLsb' 8 8)

def write32 (d : Gicd) (off : Nat) (v : BitVec 32) : Gicd :=
  if off = 0xF00 then d.writeSgir v
  else
    (((d.writeByte off (v.extractLsb' 0 8)).writeByte (off + 1) (v.extractLsb' 8 8)).writeByte
      (off + 2) (v.extractLsb' 16 8)).writeByte (off + 3) (v.extractLsb' 24 8)

end Gicd

/-! ## CPU interface -/

/-- The INTID field of an IAR, HPPIR or EOIR value. -/
def intidOf (v : BitVec 32) : BitVec 32 := v &&& 0x3FF#32

/-- `INTID_SPURIOUS`. -/
def intidSpurious : BitVec 32 := 1023

structure Gicc where
  ctlr : BitVec 32
  pmr : BitVec 32
  /-- What a read of `GICC_HPPIR` returns. -/
  hppir : BitVec 32
  /-- What a read of `GICC_IAR` returns. -/
  iar : BitVec 32
  /-- Values acknowledged (`take`) and completed (`give`). -/
  log : Ledger (BitVec 32)

namespace Gicc

/-- A read of `GICC_IAR`: acknowledges the interrupt it returns, unless spurious. -/
def acknowledge (g : Gicc) : Gicc :=
  if intidOf g.iar = intidSpurious then g else { g with log := .take g.iar :: g.log }

/-- A write of `v` to `GICC_EOIR`. -/
def complete (g : Gicc) (v : BitVec 32) : Gicc := { g with log := .give v :: g.log }

/-- INTID `n` is active: acknowledged and not completed since. -/
def active (g : Gicc) (n : BitVec 32) : Bool := g.log.busy intidOf n

end Gicc

end ArmHyp
