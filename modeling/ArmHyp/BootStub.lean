import ArmHyp.AsmRun
import ArmHyp.AsmSource
import ArmHyp.Regs
import ArmHyp.WrapMem

/-!
# The boot stub and the linker script (`boot.S`, `linker.ld`)

Where the sections, `.bss` and the stacks end up is computed from the sizes
of the sections as the script says, for any sizes. The stub is run from
`_start` with those addresses as its literals. Of the CPU's number it looks at
`Aff0` only: with 0 there a CPU gets to `kmain` with a stack, the vectors and a
zero `.bss`, with anything else it stays in `park` (`boot_by_affinity`). Two
CPUs that differ in `Aff1` alone would both boot.

The loop that clears `.bss` stores doublewords, and so up to seven bytes past
`__bss_end`; the script's alignments keep them below `__stack_bottom`.
-/

namespace ArmHyp

namespace BootStub

open Asm AsmSource AsmRun

/-! ## The linker script -/

/-- What the linker collects for an output section: its size, and the largest
alignment of an input as a power of two. -/
structure Section where
  size : Nat
  p2align : Nat

/-- `ALIGN(2 ^ p)` on an output section, with the location counter at `dot`. -/
def Section.start (s : Section) (p dot : Nat) : Nat := alignUp (2 ^ max p s.p2align) dot

structure Sections where
  text : Section
  vectors : Section
  guestVectors : Section
  rodata : Section
  data : Section
  bss : Section

namespace Sections

variable (s : Sections)

def textStart : Nat := s.text.start 2 0x40080000

/-- `__vectors_start`. -/
def vectorsStart : Nat := s.vectors.start 11 (s.textStart + s.text.size)

/-- `__guest_vectors_start`. -/
def guestVectorsStart : Nat := s.guestVectors.start 11 (s.vectorsStart + s.vectors.size)

def rodataStart : Nat := s.rodata.start 3 (s.guestVectorsStart + s.guestVectors.size)

def dataStart : Nat := s.data.start 3 (s.rodataStart + s.rodata.size)

/-- `__bss_start` and `__bss_end`. -/
def bssStart : Nat := s.bss.start 4 (s.dataStart + s.data.size)
def bssEnd : Nat := s.bssStart + s.bss.size

/-- The 16 KiB stack of EL2. -/
def stackBottom : Nat := alignUp 16 s.bssEnd
def stackTop : Nat := s.stackBottom + 0x4000

/-- The stacks of the two guests. -/
def guestStackBottomA : Nat := alignUp 16 s.stackTop
def guestStackTopA : Nat := s.guestStackBottomA + 0x4000
def guestStackBottomB : Nat := alignUp 16 s.guestStackTopA
def guestStackTopB : Nat := s.guestStackBottomB + 0x4000

end Sections

/-- A linked image, which ends before the addresses do. -/
structure Image extends Sections where
  kmain : BitVec 64
  fits : toSections.guestStackTopB < 2 ^ 64

section Layout

theorem Section.dvd_start (s : Section) (p dot : Nat) : 2 ^ p ∣ s.start p dot :=
  Nat.dvd_trans (Nat.pow_dvd_pow 2 (Nat.le_max_left p s.p2align)) (dvd_alignUp _ _)

theorem Section.le_start (s : Section) (p dot : Nat) : dot ≤ s.start p dot :=
  le_alignUp (Nat.two_pow_pos _) dot

variable (s : Sections)

/-- `.bss` and the stacks follow one another. -/
theorem bss_before_stacks : s.bssEnd ≤ s.stackBottom ∧ s.stackTop ≤ s.guestStackBottomA
    ∧ s.guestStackTopA ≤ s.guestStackBottomB :=
  ⟨le_alignUp (by decide) _, le_alignUp (by decide) _, le_alignUp (by decide) _⟩

/-- Rounded up to doublewords, `.bss` still ends before the stack begins. -/
theorem bss_rounded_le : s.bssStart + 8 * ((s.bss.size + 7) / 8) ≤ s.stackBottom := by
  obtain ⟨q, hq⟩ : 2 ^ 4 ∣ s.bssStart := s.bss.dvd_start 4 _
  obtain ⟨r, hr⟩ : 16 ∣ s.stackBottom := dvd_alignUp 16 s.bssEnd
  have hle : s.bssEnd ≤ s.stackBottom := (bss_before_stacks s).1
  rw [Sections.bssEnd] at hle
  omega

/-- The vectors are where `VBAR_EL2` can point, and `SP` is aligned. -/
theorem vectors_stack_aligned : s.vectorsStart % 2048 = 0 ∧ s.stackTop % 16 = 0 := by
  have hvec : 2 ^ 11 ∣ s.vectorsStart := s.vectors.dvd_start 11 _
  have hstack : 16 ∣ s.stackBottom := dvd_alignUp 16 s.bssEnd
  have hsize : 16 ∣ 0x4000 := by decide
  exact ⟨Nat.mod_eq_zero_of_dvd hvec, Nat.mod_eq_zero_of_dvd (Nat.dvd_add hstack hsize)⟩

/-- What `.bss` and the vectors are below. -/
theorem below_end : s.vectorsStart ≤ s.guestStackTopB ∧ s.stackTop ≤ s.guestStackTopB := by
  have hgv : s.vectorsStart + s.vectors.size ≤ s.guestVectorsStart := s.guestVectors.le_start 11 _
  have hro : s.guestVectorsStart + s.guestVectors.size ≤ s.rodataStart := s.rodata.le_start 3 _
  have hda : s.rodataStart + s.rodata.size ≤ s.dataStart := s.data.le_start 3 _
  have hbss : s.dataStart + s.data.size ≤ s.bssStart := s.bss.le_start 4 _
  obtain ⟨hst, ha, hb⟩ := bss_before_stacks s
  rw [Sections.bssEnd] at hst
  rw [Sections.stackTop] at *
  rw [Sections.guestStackTopA] at hb
  rw [Sections.guestStackTopB]
  omega

end Layout

/-! ## The source -/

inductive Symbol where
  | stackTop
  | vectorTableEl2
  | bssStart
  | bssEnd
deriving DecidableEq

def Image.address (I : Image) : Symbol → BitVec 64
  | .stackTop => BitVec.ofNat 64 I.stackTop
  | .vectorTableEl2 => BitVec.ofNat 64 I.vectorsStart
  | .bssStart => BitVec.ofNat 64 I.bssStart
  | .bssEnd => BitVec.ofNat 64 I.bssEnd

inductive Op where
  /-- `mrs xd, mpidr_el1`. -/
  | mrsMpidr (d : Fin 31)
  | andImm (d n : Fin 31) (imm : BitVec 64)
  /-- `ldr xd, =symbol`. -/
  | ldrSym (d : Fin 31) (sym : Symbol)
  /-- `mov sp, xn`. -/
  | movSp (n : Fin 31)
  /-- `msr vbar_el2, xn`. -/
  | msrVbar (n : Fin 31)
  | isb
  | cmp (n m : Fin 31)
  /-- `str xzr, [xn], #8`. -/
  | strXzr (n : Fin 31)
  | wfe
deriving DecidableEq

inductive Ctl (ℓ : Type _) where
  | cbnz (n : Fin 31) (l : ℓ)
  /-- `b.hs`. -/
  | bHs (l : ℓ)
  | b (l : ℓ)
  | blKmain
deriving DecidableEq

def Ctl.resolve {ℓ : Type _} (sym : ℓ → Nat) : Ctl ℓ → Ctl Nat
  | .cbnz n l => .cbnz n (sym l)
  | .bHs l => .bHs (sym l)
  | .b l => .b (sym l)
  | .blKmain => .blKmain

def resolveInsn {ℓ : Type _} (sym : ℓ → Nat) : Insn Op (Ctl ℓ) → Insn Op (Ctl Nat)
  | .op i => .op i
  | .ctl i => .ctl (i.resolve sym)

inductive Label where
  | start
  /-- `1:` and `2:`. -/
  | clear
  | cleared
  | park
deriving DecidableEq

def source : List (Item Label (Insn Op (Ctl Label))) :=
  [.label .start,
   .insn (.op (.mrsMpidr 1)),
   .insn (.op (.andImm 1 1 0xFF)),
   .insn (.ctl (.cbnz 1 .park)),
   .insn (.op (.ldrSym 1 .stackTop)),
   .insn (.op (.movSp 1)),
   .insn (.op (.ldrSym 1 .vectorTableEl2)),
   .insn (.op (.msrVbar 1)),
   .insn (.op .isb),
   .insn (.op (.ldrSym 1 .bssStart)),
   .insn (.op (.ldrSym 2 .bssEnd)),
   .label .clear,
   .insn (.op (.cmp 1 2)),
   .insn (.ctl (.bHs .cleared)),
   .insn (.op (.strXzr 1)),
   .insn (.ctl (.b .clear)),
   .label .cleared,
   .insn (.ctl .blKmain),
   .label .park,
   .insn (.op .wfe),
   .insn (.ctl (.b .park))]

def sym (l : Label) : Nat := offset source l

def image : List (Nat × Insn Op (Ctl Nat)) := code (resolveInsn sym) 0 source

/-! ## Running it -/

/-- What the stub works on. Of the flags it reads only C. -/
structure Cpu where
  x : Fin 31 → BitVec 64
  sp : BitVec 64
  vbarEl2 : BitVec 64
  mpidrEl1 : BitVec 64
  carry : Bool
  mem : WrapMem

def Cpu.setX (c : Cpu) (d : Fin 31) (v : BitVec 64) : Cpu := { c with x := Function.update c.x d v }

section Run

variable (I : Image)

/-- The address of `_start`, which is first in `.text`. -/
def Image.start : BitVec 64 := BitVec.ofNat 64 I.textStart

def execOp : Op → Cpu → Cpu
  | .mrsMpidr d, c => c.setX d c.mpidrEl1
  | .andImm d n imm, c => c.setX d (c.x n &&& imm)
  | .ldrSym d s, c => c.setX d (I.address s)
  | .movSp n, c => { c with sp := c.x n }
  | .msrVbar n, c => { c with vbarEl2 := c.x n }
  | .isb, c => c
  | .cmp n m, c => { c with carry := decide (c.x m ≤ c.x n) }
  | .strXzr n, c => { c with mem := c.mem.write64 (c.x n) 0 }.setX n (c.x n + 8)
  | .wfe, c => c

def execCtl : Ctl Nat → BitVec 64 → Cpu → BitVec 64 × Cpu
  | .cbnz n l, pc, c => if c.x n = 0 then (pc + 4, c) else atOff I.start l c
  | .bHs l, pc, c => if c.carry then atOff I.start l c else (pc + 4, c)
  | .b l, _, c => atOff I.start l c
  | .blKmain, pc, c => (I.kmain, c.setX 30 (pc + 4))

def isa : Isa Op (Ctl Nat) Cpu where
  op i c := some (execOp I i c)
  ctl i pc c := some (execCtl I i pc c)

def step : BitVec 64 × Cpu → Option (BitVec 64 × Cpu) := AsmRun.step (isa I) image I.start

/-- `n` instructions, whatever else goes on. -/
abbrev Steps (n : Nat) (s t : BitVec 64 × Cpu) : Prop := Path (step I) (fun _ => True) n s t

end Run

theorem codeAt_start : CodeAt image 0
    (blocks [([.mrsMpidr 1, .andImm 1 1 0xFF], .cbnz 1 0x3C)]) := by
  decide +kernel

theorem codeAt_setup : CodeAt image 0xC ([.ldrSym 1 .stackTop, .movSp 1, .ldrSym 1 .vectorTableEl2,
    .msrVbar 1, .isb, .ldrSym 1 .bssStart, .ldrSym 2 .bssEnd].map .op) := by
  decide +kernel

theorem codeAt_clear : CodeAt image 0x28
    (blocks [([.cmp 1 2], .bHs 0x38), ([.strXzr 1], .b 0x28), ([], .blKmain),
      ([.wfe], .b 0x3C)]) := by
  decide +kernel

section Steps

variable {I : Image}

theorem ops_eq (is : List Op) (c : Cpu) :
    (isa I).ops is c = some (is.foldl (fun c i => execOp I i c) c) := by
  induction is generalizing c with
  | nil => rfl
  | cons i is ih => exact ih (execOp I i c)

theorem steps_ops {is : List Op} {off : Nat} (hcode : CodeAt image off (is.map .op))
    (hoff : off + 4 * is.length < 2 ^ 64) (c : Cpu) :
    Steps I is.length (atOff I.start off c)
      (atOff I.start (off + 4 * is.length) (is.foldl (fun c i => execOp I i c) c)) :=
  (path_ops (Q := fun _ => True) (fun _ _ _ _ _ => trivial) hcode hoff trivial (ops_eq is c)).1

theorem steps_ctl {i : Ctl Nat} {off : Nat} (hcode : image.lookup off = some (.ctl i))
    (hoff : off < 2 ^ 64) {c : Cpu} {t : BitVec 64 × Cpu}
    (hctl : execCtl I i (I.start + BitVec.ofNat 64 off) c = t) :
    Steps I 1 (atOff I.start off c) t := by
  refine .next trivial ?_ (.refl _)
  rw [← hctl]
  exact step_ctl (isa I) image I.start hoff hcode c

/-- The instruction after a branch that is not taken. -/
theorem fall_through (off : Nat) (c : Cpu) :
    (I.start + BitVec.ofNat 64 off + 4, c) = atOff I.start (off + 4) c := by
  rw [atOff, BitVec.ofNat_add, ← BitVec.add_assoc]
  rfl

end Steps

/-! ## Clearing `.bss` -/

section Clear

/-- `k` doublewords of zeros from `a` on. -/
def zeroed (μ : WrapMem) (a : BitVec 64) (k : Nat) : WrapMem :=
  fun b => if (b - a).toNat < 8 * k then 0 else μ b

theorem zeroed_zero (μ : WrapMem) (a : BitVec 64) : zeroed μ a 0 = μ :=
  funext fun _ => if_neg (Nat.not_lt_zero _)

theorem zeroed_succ (μ : WrapMem) (a : BitVec 64) {k : Nat} (hk : 8 * (k + 1) ≤ 2 ^ 64) :
    (zeroed μ a k).write64 (a + BitVec.ofNat 64 (8 * k)) 0 = zeroed μ a (k + 1) := by
  funext b
  have hlt := (b - a).isLt
  have hoff : (b - (a + BitVec.ofNat 64 (8 * k))).toNat
      = ((b - a).toNat + (2 ^ 64 - 8 * k)) % 2 ^ 64 := by
    simp only [BitVec.toNat_sub, BitVec.toNat_add, BitVec.toNat_ofNat]
    omega
  have hzero : ∀ n, (0 : BitVec 64).extractLsb' n 8 = 0 := fun n => BitVec.extractLsb'_zero
  simp only [WrapMem.write64, zeroed, hzero, hoff]
  by_cases hlow : (b - a).toNat < 8 * k
  · rw [if_neg (by omega), if_pos hlow, if_pos (by omega)]
  · rw [if_neg hlow]
    by_cases hhere : (b - a).toNat < 8 * (k + 1)
    · rw [if_pos (by omega), if_pos hhere]
    · rw [if_neg (by omega), if_neg hhere]

variable (I : Image) (c₀ : Cpu)

/-- A CPU in the loop, after `j` doublewords. -/
def clearing (j : Nat) (carry : Bool) : Cpu where
  x := Function.update (Function.update c₀.x 1 (BitVec.ofNat 64 (I.bssStart + 8 * j))) 2
    (BitVec.ofNat 64 I.bssEnd)
  sp := BitVec.ofNat 64 I.stackTop
  vbarEl2 := BitVec.ofNat 64 I.vectorsStart
  mpidrEl1 := c₀.mpidrEl1
  carry := carry
  mem := zeroed c₀.mem (BitVec.ofNat 64 I.bssStart) j

/-- The number of doublewords. -/
def Image.bssWords : Nat := (I.bss.size + 7) / 8

theorem Image.rounded_lt : I.bssStart + 8 * I.bssWords + 0x4000 < 2 ^ 64 := by
  have hround := bss_rounded_le I.toSections
  have hend := (below_end I.toSections).2
  have hfits := I.fits
  rw [Sections.stackTop] at hend
  rw [Image.bssWords]
  omega

/-- The comparison at the head of the loop. -/
theorem steps_compare {j : Nat} (hj : j ≤ I.bssWords) (carry : Bool) :
    Steps I 2 (atOff I.start 0x28 (clearing I c₀ j carry))
      (if j = I.bssWords then atOff I.start 0x38 (clearing I c₀ j true)
        else atOff I.start 0x30 (clearing I c₀ j false)) := by
  obtain ⟨hcmp, hbhs, -⟩ := codeAt_blocks.mp codeAt_clear
  have hlt := I.rounded_lt
  have hwords : I.bssWords = (I.bss.size + 7) / 8 := rfl
  have hdone : decide (BitVec.ofNat 64 I.bssEnd ≤ BitVec.ofNat 64 (I.bssStart + 8 * j))
      = decide (j = I.bssWords) := by
    rw [decide_eq_decide, BitVec.le_def, BitVec.toNat_ofNat, BitVec.toNat_ofNat, Sections.bssEnd,
      Nat.mod_eq_of_lt (by omega), Nat.mod_eq_of_lt (by omega)]
    omega
  have hexec : execOp I (.cmp 1 2) (clearing I c₀ j carry)
      = clearing I c₀ j (decide (j = I.bssWords)) := congrArg (clearing I c₀ j) hdone
  have hstep := steps_ops (I := I) hcmp (by decide) (clearing I c₀ j carry)
  rw [List.foldl_cons, List.foldl_nil, hexec] at hstep
  refine hstep.trans (n := 1) (steps_ctl hbhs (by decide) ?_)
  by_cases hlast : j = I.bssWords
  · rw [if_pos hlast, decide_eq_true hlast]
    rfl
  · rw [if_neg hlast, decide_eq_false hlast]
    exact fall_through 0x2C _

/-- One doubleword. -/
theorem steps_clear {j : Nat} (hj : j < I.bssWords) (carry : Bool) :
    Steps I 4 (atOff I.start 0x28 (clearing I c₀ j carry))
      (atOff I.start 0x28 (clearing I c₀ (j + 1) false)) := by
  obtain ⟨-, -, hcode⟩ := codeAt_blocks.mp codeAt_clear
  obtain ⟨hstr, hb, -⟩ := codeAt_blocks.mp hcode
  have hlt := I.rounded_lt
  have hcmp := steps_compare I c₀ hj.le carry
  rw [if_neg hj.ne] at hcmp
  have haddr : BitVec.ofNat 64 (I.bssStart + 8 * j)
      = BitVec.ofNat 64 I.bssStart + BitVec.ofNat 64 (8 * j) := BitVec.ofNat_add _ _
  have hnext : execOp I (.strXzr 1) (clearing I c₀ j false) = clearing I c₀ (j + 1) false := by
    have hmem : (zeroed c₀.mem (BitVec.ofNat 64 I.bssStart) j).write64
        (BitVec.ofNat 64 (I.bssStart + 8 * j)) 0
          = zeroed c₀.mem (BitVec.ofNat 64 I.bssStart) (j + 1) := by
      rw [haddr, zeroed_succ _ _ (by omega)]
    have hx : Function.update (clearing I c₀ j false).x 1 (BitVec.ofNat 64 (I.bssStart + 8 * j) + 8)
        = (clearing I c₀ (j + 1) false).x := by
      have hinc : BitVec.ofNat 64 (I.bssStart + 8 * j) + 8
          = BitVec.ofNat 64 (I.bssStart + 8 * (j + 1)) := (BitVec.ofNat_add _ 8).symm
      have hne : (1 : Fin 31) ≠ 2 := by decide
      rw [hinc]
      simp only [clearing]
      rw [← Function.update_comm hne, Function.update_idem]
    change ({ clearing I c₀ j false with
      x := Function.update (clearing I c₀ j false).x 1 (BitVec.ofNat 64 (I.bssStart + 8 * j) + 8)
      mem := (zeroed c₀.mem (BitVec.ofNat 64 I.bssStart) j).write64
        (BitVec.ofNat 64 (I.bssStart + 8 * j)) 0 } : Cpu) = _
    rw [hmem, hx]
    rfl
  refine hcmp.trans (n := 2) ((steps_ops hstr (by decide) _).trans (n := 1) ?_)
  refine steps_ctl hb (by decide) ?_
  change atOff I.start 0x28 (execOp I (.strXzr 1) (clearing I c₀ j false)) = _
  rw [hnext]

/-- The loop, from `j` doublewords on. -/
theorem steps_loop {k j : Nat} (hjk : j + k = I.bssWords) (carry : Bool) :
    Steps I (4 * k + 2) (atOff I.start 0x28 (clearing I c₀ j carry))
      (atOff I.start 0x38 (clearing I c₀ I.bssWords true)) := by
  induction k generalizing j carry with
  | zero =>
      obtain rfl : j = I.bssWords := hjk
      have hcmp := steps_compare I c₀ (le_refl _) carry
      rw [if_pos rfl] at hcmp
      exact hcmp
  | succ k ih =>
      have hlen : 4 * (k + 1) + 2 = 4 + (4 * k + 2) := by omega
      rw [hlen]
      exact (steps_clear I c₀ (by omega) carry).trans (ih (by omega) false)

end Clear

/-! ## The way to `kmain` -/

section Boot

variable (I : Image)

/-- What `kmain` finds when the CPU started as `c`: nothing is changed in memory
but from `__bss_start` to `__stack_bottom`, and of the registers only three. -/
structure AtKmain (c d : Cpu) : Prop where
  sp : d.sp.toNat = I.stackTop
  vbarEl2 : d.vbarEl2.toNat = I.vectorsStart
  link : d.x 30 = I.start + BitVec.ofNat 64 (sym .park)
  kept : ∀ i, i ≠ 1 → i ≠ 2 → i ≠ 30 → d.x i = c.x i
  cleared : ∀ a : BitVec 64, I.bssStart ≤ a.toNat → a.toNat < I.bssEnd → d.mem a = 0
  untouched : ∀ a : BitVec 64, a.toNat < I.bssStart ∨ I.stackBottom ≤ a.toNat → d.mem a = c.mem a

theorem sym_park : sym .park = 0x3C := by decide +kernel

theorem atKmain_clearing (c : Cpu) : AtKmain I c
    ((clearing I c I.bssWords true).setX 30 (I.start + BitVec.ofNat 64 0x3C)) := by
  have hlt := I.rounded_lt
  have hend := below_end I.toSections
  have hfits := I.fits
  have hround := bss_rounded_le I.toSections
  have hwords : I.bssWords = (I.bss.size + 7) / 8 := rfl
  have hoff : ∀ a : BitVec 64, (a - BitVec.ofNat 64 I.bssStart).toNat
      = (a.toNat + (2 ^ 64 - I.bssStart)) % 2 ^ 64 := by
    intro a
    have hstart : (BitVec.ofNat 64 I.bssStart).toNat = I.bssStart := Nat.mod_eq_of_lt (by omega)
    rw [BitVec.toNat_sub, hstart, Nat.add_comm]
  refine ⟨?_, ?_, ?_, ?_, ?_, ?_⟩
  · exact Nat.mod_eq_of_lt (by omega)
  · exact Nat.mod_eq_of_lt (by omega)
  · rw [sym_park]
    rfl
  · intro i h1 h2 h30
    simp only [Cpu.setX, clearing, Function.update_of_ne h30, Function.update_of_ne h2,
      Function.update_of_ne h1]
  · intro a hlo hhi
    have ha := a.isLt
    rw [Sections.bssEnd] at hhi
    refine if_pos ?_
    rw [hoff]
    omega
  · intro a ha
    have halt := a.isLt
    refine if_neg ?_
    rw [hoff]
    omega

/-- After the CPU's number is read. -/
def numbered (c : Cpu) : Cpu := (c.setX 1 c.mpidrEl1).setX 1 (c.mpidrEl1 &&& 0xFF)

/-- The first two instructions. -/
theorem steps_number (c : Cpu) : Steps I 2 (I.start, c) (atOff I.start 8 (numbered c)) := by
  obtain ⟨hmrs, -, -⟩ := codeAt_blocks.mp codeAt_start
  have hstart : (I.start, c) = atOff I.start 0 c := by
    rw [atOff, BitVec.add_zero]
  rw [hstart]
  exact steps_ops hmrs (by decide) c

/-- The stack, the vectors and the bounds of `.bss`. -/
theorem steps_setup (c : Cpu) :
    Steps I 7 (atOff I.start 0xC (numbered c)) (atOff I.start 0x28 (clearing I c 0 c.carry)) := by
  have hx : Function.update (Function.update (Function.update (Function.update (numbered c).x 1
      (I.address .stackTop)) 1 (I.address .vectorTableEl2)) 1 (I.address .bssStart)) 2
      (I.address .bssEnd) = (clearing I c 0 c.carry).x := by
    simp only [numbered, Cpu.setX, Function.update_idem]
    rfl
  have hmem : (clearing I c 0 c.carry).mem = c.mem :=
    zeroed_zero c.mem (BitVec.ofNat 64 I.bssStart)
  have hsetup : ([.ldrSym 1 .stackTop, .movSp 1, .ldrSym 1 .vectorTableEl2, .msrVbar 1, .isb,
      .ldrSym 1 .bssStart, .ldrSym 2 .bssEnd] : List Op).foldl (fun c i => execOp I i c)
      (numbered c) = clearing I c 0 c.carry := by
    change ({ clearing I c 0 c.carry with
      x := Function.update (Function.update (Function.update (Function.update (numbered c).x 1
        (I.address .stackTop)) 1 (I.address .vectorTableEl2)) 1 (I.address .bssStart)) 2
        (I.address .bssEnd)
      mem := c.mem } : Cpu) = _
    rw [hx, ← hmem]
  have hrun := steps_ops (I := I) codeAt_setup (by decide) (numbered c)
  rw [hsetup] at hrun
  exact hrun

/-- With `Aff0` zero, `kmain` is reached. -/
theorem boot_reaches_kmain {c : Cpu} (h0 : c.mpidrEl1 &&& 0xFF = 0) :
    ∃ d, Steps I (13 + 4 * I.bssWords) (I.start, c) (I.kmain, d) ∧ AtKmain I c d
      ∧ d.vbarEl2.toNat % 2048 = 0 ∧ d.sp.toNat % 16 = 0 := by
  obtain ⟨-, hcbnz, -⟩ := codeAt_blocks.mp codeAt_start
  obtain ⟨-, -, hcode⟩ := codeAt_blocks.mp codeAt_clear
  obtain ⟨-, -, hcode⟩ := codeAt_blocks.mp hcode
  obtain ⟨-, hbl, -⟩ := codeAt_blocks.mp hcode
  have hfirst : Steps I 1 (atOff I.start 8 (numbered c)) (atOff I.start 0xC (numbered c)) := by
    refine steps_ctl hcbnz (by decide) ?_
    have hzero : (numbered c).x 1 = 0 := h0
    rw [execCtl, if_pos hzero]
    exact fall_through 8 _
  have hcall : Steps I 1 (atOff I.start 0x38 (clearing I c I.bssWords true))
      (I.kmain, (clearing I c I.bssWords true).setX 30 (I.start + BitVec.ofNat 64 0x3C)) := by
    refine steps_ctl hbl (by decide) ?_
    have hret : I.start + BitVec.ofNat 64 0x38 + 4 = I.start + BitVec.ofNat 64 0x3C := by
      rw [BitVec.add_assoc]
      rfl
    exact congrArg (fun r => (I.kmain, (clearing I c I.bssWords true).setX 30 r)) hret
  have hlen : 13 + 4 * I.bssWords = 2 + (1 + (7 + (4 * I.bssWords + 2 + 1))) := by omega
  have hkmain := atKmain_clearing I c
  obtain ⟨hvec, hstack⟩ := vectors_stack_aligned I.toSections
  refine ⟨_, ?_, hkmain, ?_, ?_⟩
  · rw [hlen]
    exact (steps_number I c).trans (hfirst.trans ((steps_setup I c).trans
      ((steps_loop I c (Nat.zero_add _) c.carry).trans hcall)))
  · rw [hkmain.vbarEl2, hvec]
  · rw [hkmain.sp, hstack]

end Boot

/-! ## The way to `park` -/

section Park

variable (I : Image)

/-- In the loop at `park`. -/
def Parked (c : Cpu) (t : BitVec 64 × Cpu) : Prop :=
  t = atOff I.start 0x3C c ∨ t = atOff I.start 0x40 c

/-- A CPU that parks stays there. -/
theorem steps_parked (c : Cpu) {s : BitVec 64 × Cpu} (hs : Parked I c s) (n : Nat) :
    ∃ t, Steps I n s t ∧ Parked I c t := by
  obtain ⟨-, -, hcode⟩ := codeAt_blocks.mp codeAt_clear
  obtain ⟨-, -, hcode⟩ := codeAt_blocks.mp hcode
  obtain ⟨-, -, hcode⟩ := codeAt_blocks.mp hcode
  obtain ⟨hwfe, hb, -⟩ := codeAt_blocks.mp hcode
  induction n generalizing s with
  | zero => exact ⟨s, .refl s, hs⟩
  | succ n ih =>
      obtain rfl | rfl := hs
      · obtain ⟨t, hsteps, ht⟩ := ih (.inr rfl)
        rw [Nat.add_comm]
        exact ⟨t, (steps_ops hwfe (by decide) c).trans hsteps, ht⟩
      · obtain ⟨t, hsteps, ht⟩ := ih (.inl rfl)
        have hjump : Steps I 1 (atOff I.start 0x40 c) (atOff I.start 0x3C c) :=
          steps_ctl hb (by decide) rfl
        rw [Nat.add_comm]
        exact ⟨t, hjump.trans hsteps, ht⟩

/-- With `Aff0` nonzero, `park` is where the CPU stays. -/
theorem secondary_cpus_park {c : Cpu} (h : c.mpidrEl1 &&& 0xFF ≠ 0) (n : Nat) :
    ∃ t, Steps I n (I.start, c) t ∧ t.2.mem = c.mem ∧ t.2.sp = c.sp ∧ t.2.vbarEl2 = c.vbarEl2
      ∧ (3 ≤ n → Parked I (numbered c) t) := by
  obtain ⟨hmrs, hcbnz, -⟩ := codeAt_blocks.mp codeAt_start
  have hstart : (I.start, c) = atOff I.start 0 c := by
    rw [atOff, BitVec.add_zero]
  have hjump : Steps I 1 (atOff I.start 8 (numbered c)) (atOff I.start 0x3C (numbered c)) := by
    refine steps_ctl hcbnz (by decide) ?_
    have hne : (numbered c).x 1 ≠ 0 := h
    rw [execCtl, if_neg hne]
  rcases n with _ | _ | _ | n
  · exact ⟨_, .refl _, rfl, rfl, rfl, fun h3 => absurd h3 (by decide)⟩
  · refine ⟨atOff I.start 4 (c.setX 1 c.mpidrEl1), ?_, rfl, rfl, rfl,
      fun h3 => absurd h3 (by decide)⟩
    have hfirst : CodeAt image 0 ([.mrsMpidr 1].map .op) := ⟨hmrs.1, trivial⟩
    rw [hstart]
    exact steps_ops hfirst (by decide) c
  · exact ⟨_, steps_number I c, rfl, rfl, rfl, fun h3 => absurd h3 (by decide)⟩
  · obtain ⟨t, hsteps, ht⟩ := steps_parked I (numbered c) (.inl rfl) n
    have hlen : n + 3 = 2 + (1 + n) := by omega
    have hcpu : t.2 = numbered c := by
      obtain rfl | rfl := ht <;> rfl
    refine ⟨t, ?_, ?_, ?_, ?_, fun _ => ht⟩
    · rw [hlen]
      exact (steps_number I c).trans (hjump.trans hsteps)
    · rw [hcpu]
      rfl
    · rw [hcpu]
      rfl
    · rw [hcpu]
      rfl

end Park

/-- **The stub sorts the CPUs by `Aff0`.** For sections of any size. A CPU with
`Aff0` zero gets to `kmain` on the hypervisor's stack, with the vectors
installed, with every byte of `.bss` zero and memory below it and from
`__stack_bottom` on unchanged; `SP` and `VBAR_EL2` have the alignment they need;
and if `kmain` returned, the CPU would park. Any other never gets stuck and
never writes memory, `SP` or `VBAR_EL2`, however long it runs; after three
instructions it is in `park`. -/
theorem boot_by_affinity (I : Image) (c : Cpu) :
    (c.mpidrEl1 &&& 0xFF = 0 →
      ∃ d, Steps I (13 + 4 * I.bssWords) (I.start, c) (I.kmain, d) ∧ AtKmain I c d
        ∧ d.vbarEl2.toNat % 2048 = 0 ∧ d.sp.toNat % 16 = 0)
    ∧ (c.mpidrEl1 &&& 0xFF ≠ 0 → ∀ n,
      ∃ t, Steps I n (I.start, c) t ∧ t.2.mem = c.mem ∧ t.2.sp = c.sp ∧ t.2.vbarEl2 = c.vbarEl2
        ∧ (3 ≤ n → Parked I (numbered c) t)) :=
  ⟨boot_reaches_kmain I, secondary_cpus_park I⟩

/-- 8 KiB of code, vectors of 2 KiB, and a `.bss` that ends between doublewords. -/
def smallImage : Image where
  text := ⟨0x2000, 4⟩
  vectors := ⟨0x834, 11⟩
  guestVectors := ⟨0x800, 11⟩
  rodata := ⟨0x100, 3⟩
  data := ⟨0, 0⟩
  bss := ⟨0x900D, 12⟩
  kmain := 0x40080100
  fits := by decide

/-- A CPU with the number `n`, and all ones in memory. -/
def cpuNumbered (n : BitVec 64) : Cpu where
  x := fun _ => 0
  sp := 0
  vbarEl2 := 0
  mpidrEl1 := n
  carry := false
  mem := fun _ => 0xFF

/-- CPU 0 of the first cluster, and CPU 1. -/
theorem boot_by_affinity_small :
    (∃ d, Steps smallImage (13 + 4 * 0x1202) (smallImage.start, cpuNumbered 0x80000000)
        (0x40080100, d)
      ∧ d.sp.toNat = 0x40091010 ∧ d.mem 0x4008D00C = 0 ∧ d.mem 0x4008D010 = 0xFF)
    ∧ ∃ t, Steps smallImage 1000 (smallImage.start, cpuNumbered 0x80000001) t
      ∧ t.2.mem = (cpuNumbered 0x80000001).mem := by
  obtain ⟨d, hsteps, hd, -⟩ :=
    (boot_by_affinity smallImage (cpuNumbered 0x80000000)).1 (by decide)
  obtain ⟨t, hparked, hmem, -⟩ :=
    (boot_by_affinity smallImage (cpuNumbered 0x80000001)).2 (by decide) 1000
  refine ⟨⟨d, hsteps, hd.sp, hd.cleared _ ?_ ?_, hd.untouched _ (.inr ?_)⟩, t, hparked, hmem⟩
  · decide
  · decide
  · decide

end BootStub

end ArmHyp
