import ArmHyp.AsmRun
import ArmHyp.AsmSource
import ArmHyp.Regs
import ArmHyp.VirtIf
import ArmHyp.WrapMem

/-!
# The EL1 guest of the GICv3 build (`guest_v3.S`)

The file as it is written, laid out by the assembler and run instruction by
instruction on the registers, the memory and the virtual CPU interface it
uses. Numeric labels have names here; `BAD_SLOT` is expanded.

Of memory the code touches its own strings, its stack and the PL011's data
register: a store anywhere else, or a load from outside the file, is not
modelled and leaves the machine stuck.
-/

namespace ArmHyp

namespace GuestV3

open AsmSource AsmRun

/-! ## Instructions -/

/-- The system registers it writes, and those it reads. -/
inductive WReg where
  | vbarEl1
  /-- `S3_0_C12_C12_5`, `S3_0_C4_C6_0`, `S3_0_C12_C12_7`, `S3_0_C12_C12_1`. -/
  | iccSreEl1 | iccPmrEl1 | iccIgrpen1El1 | iccEoir1El1
deriving DecidableEq

inductive RReg where
  /-- `S3_0_C12_C12_0`. -/
  | iccIar1El1
  | esrEl1
deriving DecidableEq

/-- Instructions that fall through; `ℓ` is the type of labels. -/
inductive Op (ℓ : Type _) where
  | adr (d : Fin 31) (l : ℓ)
  /-- `mov sp, xn`. -/
  | movSp (n : Fin 31)
  | movReg (d n : Fin 31)
  | movImm (d : Fin 31) (imm : BitVec 64)
  | msr (r : WReg) (n : Fin 31)
  | mrs (d : Fin 31) (r : RReg)
  | isb
  | wfe
  | daifset (imm : BitVec 4)
  /-- `str wt, [xn]`. -/
  | strw (t n : Fin 31)
  /-- `ldrb wt, [xn], #imm`. -/
  | ldrb (t n : Fin 31) (imm : Nat)
  | subSp (imm : Nat)
  | addSp (imm : Nat)
  | stp (t t' : Fin 31) (off : Nat)
  | ldp (t t' : Fin 31) (off : Nat)
  | andImm (d n : Fin 31) (imm : BitVec 64)
  | lsr (d n : Fin 31) (sh : Nat)
  | addImm (d n : Fin 31) (imm : BitVec 64)
  | cmpReg (n m : Fin 31)
  | cmpImm (n : Fin 31) (imm : BitVec 64)
deriving DecidableEq

/-- Instructions that branch or unmask interrupts. -/
inductive Ctl (ℓ : Type _) where
  | b (l : ℓ)
  | bl (l : ℓ)
  | bEq (l : ℓ)
  | bHi (l : ℓ)
  /-- `cbz wt, l`. -/
  | cbz (t : Fin 31) (l : ℓ)
  | ret
  | eret
  | daifclr (imm : BitVec 4)
deriving DecidableEq

section Resolve

variable {ℓ : Type _} (sym : ℓ → Nat)

def Op.resolve : Op ℓ → Op Nat
  | .adr d l => .adr d (sym l)
  | .movSp n => .movSp n
  | .movReg d n => .movReg d n
  | .movImm d imm => .movImm d imm
  | .msr r n => .msr r n
  | .mrs d r => .mrs d r
  | .isb => .isb
  | .wfe => .wfe
  | .daifset imm => .daifset imm
  | .strw t n => .strw t n
  | .ldrb t n imm => .ldrb t n imm
  | .subSp imm => .subSp imm
  | .addSp imm => .addSp imm
  | .stp t t' off => .stp t t' off
  | .ldp t t' off => .ldp t t' off
  | .andImm d n imm => .andImm d n imm
  | .lsr d n sh => .lsr d n sh
  | .addImm d n imm => .addImm d n imm
  | .cmpReg n m => .cmpReg n m
  | .cmpImm n imm => .cmpImm n imm

def Ctl.resolve : Ctl ℓ → Ctl Nat
  | .b l => .b (sym l)
  | .bl l => .bl (sym l)
  | .bEq l => .bEq (sym l)
  | .bHi l => .bHi (sym l)
  | .cbz t l => .cbz t (sym l)
  | .ret => .ret
  | .eret => .eret
  | .daifclr imm => .daifclr imm

def resolveInsn : Insn (Op ℓ) (Ctl ℓ) → Insn (Op Nat) (Ctl Nat)
  | .op i => .op (i.resolve sym)
  | .ctl i => .ctl (i.resolve sym)

end Resolve

/-! ## The source -/

inductive Label where
  | guestV3Start
  /-- `1:` of `guest_v3_start`. -/
  | waitLoop
  | guestV3Putc
  | guestV3Puts
  /-- `1:` and `2:` of `guest_v3_puts`. -/
  | putsLoop | putsEnd
  | guestV3Banner | lGuestBanner
  | guestV3IrqEntry
  /-- `2:` and `1:` of `guest_v3_irq_entry`. -/
  | doneLoop | spuriousPath
  | guestV3HexNibble
  /-- `1:` and `2:` of `guest_v3_hex_nibble`. -/
  | nibbleLetter | nibblePut
  | lGuestGotIrq | lGuestDone
  | guestV3Vectors
  | guestV3Bad
  /-- `1:` of `guest_v3_bad`. -/
  | badLoop
  | lGuestBadMsg | lGuestBadEsr
  | guestV3StackBottom | guestV3StackTop
deriving DecidableEq

abbrev Line := Item Label (Insn (Op Label) (Ctl Label))

def op (i : Op Label) : Line := .insn (.op i)
def ctl (i : Ctl Label) : Line := .insn (.ctl i)

def start : List Line :=
  [.label .guestV3Start,
   op (.adr 0 .guestV3StackTop),
   op (.movSp 0),
   op (.adr 0 .guestV3Vectors),
   op (.msr .vbarEl1 0),
   op .isb,
   op (.movImm 0 1),
   op (.msr .iccSreEl1 0),
   op .isb,
   op (.movImm 0 0xFF),
   op (.msr .iccPmrEl1 0),
   op (.movImm 0 1),
   op (.msr .iccIgrpen1El1 0),
   op .isb,
   ctl (.bl .guestV3Banner),
   ctl (.daifclr 0x2),
   .label .waitLoop,
   op .wfe,
   ctl (.b .waitLoop)]

/-- `0x09000000`, the PL011's data register. -/
def pl011Dr : BitVec 64 := 0x09000000

def putc : List Line :=
  [.label .guestV3Putc,
   op (.movImm 1 pl011Dr),
   op (.strw 0 1),
   ctl .ret]

def puts : List Line :=
  [.label .guestV3Puts,
   op (.movReg 2 0),
   op (.movReg 3 30),
   op (.movImm 1 pl011Dr),
   .label .putsLoop,
   op (.ldrb 0 2 1),
   ctl (.cbz 0 .putsEnd),
   op (.strw 0 1),
   ctl (.b .putsLoop),
   .label .putsEnd,
   op (.movReg 30 3),
   ctl .ret]

def bannerText : String := "[guest-el1] up, waiting for injected IRQ\n"

def banner : List Line :=
  [.label .guestV3Banner,
   op (.movReg 29 30),
   op (.adr 0 .lGuestBanner),
   ctl (.bl .guestV3Puts),
   op (.movReg 30 29),
   ctl .ret,
   .label .lGuestBanner,
   .bytes (asciz bannerText),
   .balign 4]

def irqEntry : List Line :=
  [.label .guestV3IrqEntry,
   op (.subSp 64),
   op (.stp 0 1 0),
   op (.stp 2 3 16),
   op (.stp 29 30 32),
   op (.mrs 19 .iccIar1El1),
   op (.andImm 20 19 0xFFFFFF),
   op (.movImm 21 1023),
   op (.cmpReg 20 21),
   ctl (.bEq .spuriousPath),
   op (.adr 0 .lGuestGotIrq),
   ctl (.bl .guestV3Puts),
   op (.andImm 20 19 0xFF),
   op (.lsr 0 20 4),
   ctl (.bl .guestV3HexNibble),
   op (.andImm 0 20 0xF),
   ctl (.bl .guestV3HexNibble),
   op (.movImm 0 0x0A),
   ctl (.bl .guestV3Putc),
   op (.msr .iccEoir1El1 19),
   op .isb,
   op (.adr 0 .lGuestDone),
   ctl (.bl .guestV3Puts),
   op (.daifset 0xF),
   .label .doneLoop,
   op .wfe,
   ctl (.b .doneLoop),
   .label .spuriousPath,
   op (.msr .iccEoir1El1 19),
   op .isb,
   op (.ldp 29 30 32),
   op (.ldp 2 3 16),
   op (.ldp 0 1 0),
   op (.addSp 64),
   ctl .eret]

def gotIrqText : String := "[guest-el1] IAR=0x"
def doneText : String := "[guest-el1] IRQ handled, Stage 4 complete\n"

def hexNibble : List Line :=
  [.label .guestV3HexNibble,
   op (.movReg 2 30),
   op (.cmpImm 0 9),
   ctl (.bHi .nibbleLetter),
   op (.addImm 0 0 0x30),
   ctl (.b .nibblePut),
   .label .nibbleLetter,
   op (.addImm 0 0 (0x61 - 10)),
   .label .nibblePut,
   op (.movImm 1 pl011Dr),
   op (.strw 0 1),
   op (.movReg 30 2),
   ctl .ret,
   .label .lGuestGotIrq,
   .bytes (asciz gotIrqText),
   .balign 4,
   .label .lGuestDone,
   .bytes (asciz doneText),
   .balign 4]

/-- `.balign 128` and `BAD_SLOT n`. -/
def badSlot (n : Nat) : List Line :=
  [.balign 128, op (.movImm 21 (BitVec.ofNat 64 n)), ctl (.b .guestV3Bad)]

def vectors : List Line :=
  [.balign 2048, .label .guestV3Vectors]
    ++ badSlot 0 ++ badSlot 1 ++ badSlot 2 ++ badSlot 3
    ++ badSlot 4 ++ [.balign 128, ctl (.b .guestV3IrqEntry)] ++ badSlot 6 ++ badSlot 7
    ++ badSlot 8 ++ badSlot 9 ++ badSlot 10 ++ badSlot 11
    ++ badSlot 12 ++ badSlot 13 ++ badSlot 14 ++ badSlot 15

def badMsgText : String := "[guest-el1] bad-slot 0x"
def badEsrText : String := " ESR_EL1=0x"

/-- `lsr x0, x22, #sh`, `and x0, x0, #0xF`, `bl guest_v3_hex_nibble`. -/
def esrNibble (sh : Nat) : List Line :=
  [op (.lsr 0 22 sh), op (.andImm 0 0 0xF), ctl (.bl .guestV3HexNibble)]

def bad : List Line :=
  [.label .guestV3Bad,
   op (.adr 0 .lGuestBadMsg),
   ctl (.bl .guestV3Puts),
   op (.movReg 0 21),
   op (.lsr 0 0 4),
   op (.andImm 0 0 0xF),
   ctl (.bl .guestV3HexNibble),
   op (.movReg 0 21),
   op (.andImm 0 0 0xF),
   ctl (.bl .guestV3HexNibble),
   op (.adr 0 .lGuestBadEsr),
   ctl (.bl .guestV3Puts),
   op (.mrs 22 .esrEl1)]
    ++ esrNibble 28 ++ esrNibble 24 ++ esrNibble 20 ++ esrNibble 16
    ++ esrNibble 12 ++ esrNibble 8 ++ esrNibble 4
    ++ [op (.andImm 0 22 0xF),
        ctl (.bl .guestV3HexNibble),
        op (.movImm 0 0x0A),
        ctl (.bl .guestV3Putc),
        .label .badLoop,
        op .wfe,
        ctl (.b .badLoop),
        .label .lGuestBadMsg,
        .bytes (asciz badMsgText),
        .balign 4,
        .label .lGuestBadEsr,
        .bytes (asciz badEsrText),
        .balign 4]

def stack : List Line :=
  [.balign 16, .label .guestV3StackBottom, .skip 4096, .label .guestV3StackTop]

/-- `guest_v3.S`. -/
def source : List Line :=
  start ++ putc ++ puts ++ banner ++ irqEntry ++ hexNibble ++ vectors ++ bad ++ stack

/-- The offset of a label from `guest_v3_start`. -/
def sym (l : Label) : Nat := offset source l

/-- The instructions by offset, with labels resolved. -/
def image : List (Nat × Insn (Op Nat) (Ctl Nat)) := code (resolveInsn sym) 0 source

/-! ## The CPU -/

/-- What the guest can be seen to do. -/
inductive Obs where
  /-- A byte to the PL011's data register. -/
  | tx (c : BitVec 8)
  /-- `ICC_IAR1_EL1` read, `ICC_EOIR1_EL1` written. -/
  | iar (v : BitVec 64)
  | eoir (v : BitVec 64)
deriving DecidableEq

/-- The guest at EL1h: `PSTATE` is its flags and masks. -/
structure Cpu where
  x : Fin 31 → BitVec 64
  /-- `SP_EL1`. -/
  sp : BitVec 64
  nzcv : BitVec 4
  daif : BitVec 4
  elrEl1 : BitVec 64
  spsrEl1 : BitVec 64
  esrEl1 : BitVec 64
  vbarEl1 : BitVec 64
  mem : WrapMem
  vif : VirtIf
  seen : List Obs

/-- The flags of `cmp a, b`. -/
def cmpFlags (a b : BitVec 64) : BitVec 4 :=
  BitVec.ofBool (a - b).msb ++ BitVec.ofBool (decide (a = b)) ++ BitVec.ofBool (decide (b ≤ a))
    ++ BitVec.ofBool ((a.msb != b.msb) && (a - b).msb != a.msb)

/-- `PSTATE` as `SPSR_ELx` holds it; `M` is EL1h. -/
def packSpsr (nzcv daif : BitVec 4) : BitVec 64 :=
  (0 : BitVec 32) ++ nzcv ++ (0 : BitVec 18) ++ daif ++ (5 : BitVec 6)

def spsrNzcv (spsr : BitVec 64) : BitVec 4 := spsr.extractLsb' 28 4
def spsrDaif (spsr : BitVec 64) : BitVec 4 := spsr.extractLsb' 6 4

/-- `M[4:0]` says EL1h. -/
def isEl1h (spsr : BitVec 64) : Bool := spsr.extractLsb' 0 5 == 5

namespace Cpu

def setX (c : Cpu) (t : Fin 31) (v : BitVec 64) : Cpu := { c with x := Function.update c.x t v }

def see (c : Cpu) (o : Obs) : Cpu := { c with seen := c.seen ++ [o] }

/-- `[sp, #off]`. -/
def addr (c : Cpu) (off : Nat) : BitVec 64 := c.sp + BitVec.ofNat 64 off

def msr (c : Cpu) (v : BitVec 64) : WReg → Cpu
  | .vbarEl1 => { c with vbarEl1 := v }
  -- the system-register interface is always on here
  | .iccSreEl1 => c
  | .iccPmrEl1 => { c with vif := c.vif.setPmr v }
  | .iccIgrpen1El1 => { c with vif := c.vif.setIgrpen1 v }
  | .iccEoir1El1 => { c with vif := c.vif.complete v }.see (.eoir v)

def mrs (c : Cpu) (d : Fin 31) : RReg → Cpu
  | .iccIar1El1 =>
      let (v, vif) := c.vif.acknowledge
      ({ c with vif := vif }.see (.iar v)).setX d v
  | .esrEl1 => c.setX d c.esrEl1

end Cpu

/-! ## Instructions at work -/

/-- Where the linker puts the file: in RAM, and at a multiple of the
alignment of its vectors. -/
structure Link where
  base : BitVec 64
  aligned : base.toNat % 2048 = 0
  ram : 0x40080000 ≤ base.toNat ∧ base.toNat + size source ≤ 0x60000000

section Exec

variable (L : Link)

/-- `n` bytes at `a` lie in the file, from `lo` on. -/
def inFile (lo n : Nat) (a : BitVec 64) : Bool :=
  decide (lo ≤ (a - L.base).toNat) && decide ((a - L.base).toNat + n ≤ size source)

def execOp : Op Nat → Cpu → Option Cpu
  | .adr d l, c => some (c.setX d (L.base + BitVec.ofNat 64 l))
  | .movSp n, c => some { c with sp := c.x n }
  | .movReg d n, c => some (c.setX d (c.x n))
  | .movImm d imm, c => some (c.setX d imm)
  | .msr r n, c => some (c.msr (c.x n) r)
  | .mrs d r, c => some (c.mrs d r)
  | .isb, c => some c
  | .wfe, c => some c
  | .daifset imm, c => some { c with daif := c.daif ||| imm }
  | .strw t n, c => if c.x n = pl011Dr then some (c.see (.tx ((c.x t).setWidth 8))) else none
  | .ldrb t n imm, c =>
      if inFile L 0 1 (c.x n) then
        some ((c.setX n (c.x n + BitVec.ofNat 64 imm)).setX t ((c.mem (c.x n)).setWidth 64))
      else none
  | .subSp imm, c => some { c with sp := c.sp - BitVec.ofNat 64 imm }
  | .addSp imm, c => some { c with sp := c.sp + BitVec.ofNat 64 imm }
  | .stp t t' off, c =>
      if inFile L (sym .guestV3StackBottom) 16 (c.addr off) then
        some { c with
          mem := (c.mem.write64 (c.addr off) (c.x t)).write64 (c.addr (off + 8)) (c.x t') }
      else none
  | .ldp t t' off, c =>
      if inFile L 0 16 (c.addr off) then
        some ((c.setX t (c.mem.read64 (c.addr off))).setX t' (c.mem.read64 (c.addr (off + 8))))
      else none
  | .andImm d n imm, c => some (c.setX d (c.x n &&& imm))
  | .lsr d n sh, c => some (c.setX d (c.x n >>> sh))
  | .addImm d n imm, c => some (c.setX d (c.x n + imm))
  | .cmpReg n m, c => some { c with nzcv := cmpFlags (c.x n) (c.x m) }
  | .cmpImm n imm, c => some { c with nzcv := cmpFlags (c.x n) imm }

def execCtl : Ctl Nat → BitVec 64 → Cpu → Option (BitVec 64 × Cpu)
  | .b l, _, c => some (atOff L.base l c)
  | .bl l, pc, c => some (atOff L.base l (c.setX 30 (pc + 4)))
  | .bEq l, pc, c => some (if c.nzcv.getLsbD 2 then atOff L.base l c else (pc + 4, c))
  | .bHi l, pc, c =>
      some (if c.nzcv.getLsbD 1 && !c.nzcv.getLsbD 2 then atOff L.base l c else (pc + 4, c))
  | .cbz t l, pc, c =>
      some (if (c.x t).setWidth 32 = (0 : BitVec 32) then atOff L.base l c else (pc + 4, c))
  | .ret, _, c => some (c.x 30, c)
  | .eret, _, c =>
      if isEl1h c.spsrEl1 then
        some (c.elrEl1, { c with nzcv := spsrNzcv c.spsrEl1, daif := spsrDaif c.spsrEl1 })
      else none
  | .daifclr imm, pc, c => some (pc + 4, { c with daif := c.daif &&& ~~~imm })

def isa : Isa (Op Nat) (Ctl Nat) Cpu := ⟨execOp L, execCtl L⟩

/-- The program counter and the rest. -/
abbrev State := BitVec 64 × Cpu

/-- One instruction. -/
def step : State → Option State := AsmRun.step (isa L) image L.base

end Exec

/-! ## Exceptions -/

/-- Exception vector `k` is entered from EL1h; the hardware ignores the low
bits of `VBAR_EL1`. -/
def enter (k : Nat) (s : State) : State :=
  (s.2.vbarEl1 >>> 11 <<< 11 + BitVec.ofNat 64 (0x80 * k),
    { s.2 with elrEl1 := s.1, spsrEl1 := packSpsr s.2.nzcv s.2.daif, daif := 0xF })

/-- IRQs are masked: `PSTATE.I`. -/
def Quiet (c : Cpu) : Prop := c.daif.getLsbD 1 = true

instance (c : Cpu) : Decidable (Quiet c) := inferInstanceAs (Decidable (_ = _))

/-- A virtual IRQ, if there is one and it is not masked. -/
def virq (s : State) : State :=
  if Quiet s.2 then s else if s.2.vif.signals then enter 5 s else s

/-! ## The file in memory -/

/-- The strings are where the assembler put them. -/
def Loaded (L : Link) (μ : WrapMem) : Prop :=
  ∀ d ∈ data 0 source, ∀ k (hk : k < d.2.length),
    μ (L.base + BitVec.ofNat 64 (d.1 + k)) = d.2.get ⟨k, hk⟩

end GuestV3

end ArmHyp
