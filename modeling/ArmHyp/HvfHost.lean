import Mathlib.Logic.Function.Basic
import ArmHyp.LdstDecode

/-!
# The host launcher's run loop (`host/hvf_main.c`)

The launcher runs the hypervisor as a guest of the host's own hypervisor
framework and emulates a PL011 for it: a data abort on the PL011's page is
handled by `handle_data_abort`, which takes the access from the syndrome or,
where there is none, from the instruction at the guest's PC. `Host` is what
these functions read and write: the vCPU's registers, the PL011, and the
guest's RAM. The framework's register calls are taken to succeed.
-/

namespace ArmHyp

namespace Hvf

/-- `GUEST_RAM_BASE`, `GUEST_RAM_SIZE`, `PL011_BASE` and `PL011_SIZE`. -/
def guestRamBase : BitVec 64 := 0x40000000
def guestRamSize : BitVec 64 := 512 * 1024 * 1024
def pl011Base : BitVec 64 := 0x09000000
def pl011Size : BitVec 64 := 0x1000

/-! ## PL011 -/

/-- The `pl011` struct (but `icr`, which nothing uses), and what has been sent
to `stdout`. -/
structure Pl011 where
  cr : BitVec 32
  lcrH : BitVec 32
  ibrd : BitVec 32
  fbrd : BitVec 32
  imsc : BitVec 32
  ris : BitVec 32
  out : List (BitVec 8)
deriving DecidableEq

/-- The initial value of `pl011`. -/
instance : Inhabited Pl011 where
  default := { cr := 0x0300, lcrH := 0, ibrd := 0, fbrd := 0, imsc := 0, ris := 0, out := [] }

def pl011Uartdr : BitVec 32 := 0x000
def pl011Uartfr : BitVec 32 := 0x018
def pl011Uartibrd : BitVec 32 := 0x024
def pl011Uartfbrd : BitVec 32 := 0x028
def pl011UartlcrH : BitVec 32 := 0x02C
def pl011Uartcr : BitVec 32 := 0x030
def pl011Uartimsc : BitVec 32 := 0x038
def pl011Uartris : BitVec 32 := 0x03C
def pl011Uartmis : BitVec 32 := 0x040
def pl011Uarticr : BitVec 32 := 0x044

def pl011Read (off : BitVec 32) (p : Pl011) : BitVec 32 :=
  if off = pl011Uartfr then 0
  else if off = pl011Uartcr then p.cr
  else if off = pl011UartlcrH then p.lcrH
  else if off = pl011Uartibrd then p.ibrd
  else if off = pl011Uartfbrd then p.fbrd
  else if off = pl011Uartimsc then p.imsc
  else if off = pl011Uartris then p.ris
  else if off = pl011Uartmis then p.ris &&& p.imsc
  else 0

def pl011Write (off val : BitVec 32) (p : Pl011) : Pl011 :=
  if off = pl011Uartdr then { p with out := p.out ++ [(val &&& 0xFF).setWidth 8] }
  else if off = pl011Uartcr then { p with cr := val }
  else if off = pl011UartlcrH then { p with lcrH := val }
  else if off = pl011Uartibrd then { p with ibrd := val }
  else if off = pl011Uartfbrd then { p with fbrd := val }
  else if off = pl011Uartimsc then { p with imsc := val }
  else if off = pl011Uarticr then { p with ris := p.ris &&& ~~~val }
  else p

/-! ## Registers -/

structure Host where
  /-- `HV_REG_X0 + n`, for `n < 31`. -/
  x : Nat → BitVec 64
  sp : BitVec 64
  /-- `HV_REG_PC`. -/
  pc : BitVec 64
  pl011 : Pl011
  /-- The guest's RAM, by offset. -/
  ram : Nat → BitVec 8

def readGpr (srt : BitVec 32) (h : Host) : BitVec 64 := if srt = 31 then 0 else h.x srt.toNat

def writeGpr (srt : BitVec 32) (v : BitVec 64) (h : Host) : Host :=
  if srt = 31 then h else { h with x := Function.update h.x srt.toNat v }

def maskForSize (sizeLog2 : BitVec 32) : BitVec 32 :=
  if sizeLog2 = 0 then 0x000000FF
  else if sizeLog2 = 1 then 0x0000FFFF
  else if sizeLog2 = 2 then 0xFFFFFFFF
  else 0xFFFFFFFF

/-! ## Data aborts -/

def inPl011Range (ipa : BitVec 64) : Bool := pl011Base ≤ ipa && ipa < pl011Base + pl011Size

/-- `memcpy(&insn, ram + off, 4)` on a little-endian host. -/
def fetch (ram : Nat → BitVec 8) (off : Nat) : BitVec 32 :=
  ram (off + 3) ++ ram (off + 2) ++ ram (off + 1) ++ ram off

/-- Why `handle_data_abort` returns false; the first two carry what it prints. -/
inductive AbortError where
  | pcOutsideRam (pc : BitVec 64)
  | cannotDecode (insn : BitVec 32) (pc ipa : BitVec 64)
  | notPl011
deriving DecidableEq

/-- The access, from the syndrome or from the instruction at the PC. -/
def decodeAbort (esr ipa : BitVec 64) (h : Host) : Except AbortError LdstDecoded :=
  let iss := esr &&& 0x1FFFFFF
  if iss >>> 24 &&& 1 ≠ 0 then
    .ok
      { sizeLog2 := (iss >>> 22 &&& 3).setWidth 32
        rt := (iss >>> 16 &&& 0x1F).setWidth 32
        wnr := iss >>> 6 &&& 1 ≠ 0
        writeback := false
        rn := 0
        wbOffset := 0 }
  else if h.pc < guestRamBase ∨ h.pc + 4 > guestRamBase + guestRamSize then
    .error (.pcOutsideRam h.pc)
  else
    let insn := fetch h.ram (h.pc - guestRamBase).toNat
    match decodeLdst insn with
    | some d => .ok d
    | none => .error (.cannotDecode insn h.pc ipa)

/-- "Perform the MMIO access". -/
def mmioAccess (d : LdstDecoded) (off : BitVec 32) (h : Host) : Host :=
  if d.wnr then
    let v := readGpr d.rt h
    let val := (v &&& (maskForSize d.sizeLog2).setWidth 64).setWidth 32
    { h with pl011 := pl011Write off val h.pl011 }
  else
    let v := pl011Read off h.pl011
    writeGpr d.rt ((v &&& maskForSize d.sizeLog2).setWidth 64) h

/-- "Pre/post-indexed: update Rn". -/
def writebackRn (d : LdstDecoded) (h : Host) : Host :=
  if d.writeback = true ∧ d.rn ≠ 31 then
    let rnVal := h.x d.rn.toNat
    { h with x := Function.update h.x d.rn.toNat (rnVal + d.wbOffset.signExtend 64) }
  else h

def handleDataAbort (esr ipa : BitVec 64) (h : Host) : Except AbortError Host :=
  match decodeAbort esr ipa h with
  | .error e => .error e
  | .ok d =>
      if inPl011Range ipa = false then .error .notPl011
      else .ok (writebackRn d (mmioAccess d ((ipa - pl011Base).setWidth 32) h))

/-! ## The run loop -/

/-- `exit_info` after `hv_vcpu_run`. -/
inductive Exit where
  | exception (syndrome physicalAddress : BitVec 64)
  | vtimerActivated
  | canceled
  | unknown (reason : BitVec 32)

/-- One turn of the loop in `main`, or `none` where it prints a diagnostic and
returns 1. -/
def afterExit (e : Exit) (h : Host) : Option Host :=
  match e with
  | .exception esr ipa =>
      let ec := esr >>> 26 &&& 0x3f
      if ec = 0x24 ∨ ec = 0x25 then
        match handleDataAbort esr ipa h with
        | .ok h => some { h with pc := h.pc + 4 }
        | .error _ => none
      else none
  | .vtimerActivated => some h
  | .canceled => some h
  | .unknown _ => none

end Hvf

end ArmHyp
