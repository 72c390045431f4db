import ArmHyp.AsmRun
import ArmHyp.AsmSource
import ArmHyp.System
import ArmHyp.Vectors

/-!
# The EL2 vector table (`vectors.S`)

The file as the assembler lays it out: sixteen slots, 23 instructions each,
and the tail they all branch to. `Vectors` says what the macros do as
sequences; here they are run from where the hardware enters, through the
branch, the call of `handle_exception` and the `eret`.

An exception taken to slot `k` is 45 instructions (`runs_slot`). With a C
handler that does to the frame what `handleException` does, these are one
`step` of the system (`vector_table_refines_step`).
-/

namespace ArmHyp

namespace VectorTable

open Vectors Asm AsmSource AsmRun

/-! ## The source -/

inductive Label where
  | vectorTableEl2
  | vectorTail
deriving DecidableEq

/-- What `vectors.S` has besides the instructions of its macros. -/
inductive Ctl (ℓ : Type _) where
  | b (l : ℓ)
  /-- `bl handle_exception`. -/
  | blHandleException
  | eret
deriving DecidableEq

def Ctl.resolve {ℓ : Type _} (sym : ℓ → Nat) : Ctl ℓ → Ctl Nat
  | .b l => .b (sym l)
  | .blHandleException => .blHandleException
  | .eret => .eret

def resolveInsn {ℓ : Type _} (sym : ℓ → Nat) :
    AsmRun.Insn Vectors.Insn (Ctl ℓ) → AsmRun.Insn Vectors.Insn (Ctl Nat)
  | .op i => .op i
  | .ctl i => .ctl (i.resolve sym)

abbrev Line := Item Label (AsmRun.Insn Vectors.Insn (Ctl Label))

def macroLines (is : List Vectors.Insn) : List Line := is.map fun i => .insn (.op i)

/-- `.balign 128; VEC_ENTRY kind`. -/
def slot (kind : Nat) : List Line :=
  .balign 128 :: macroLines (vecEntry (BitVec.ofNat 64 kind)) ++ [.insn (.ctl (.b .vectorTail))]

def tail : List Line :=
  [.balign 16, .label .vectorTail, .insn (.ctl .blHandleException)]
    ++ (macroLines restoreCtx ++ [.insn (.ctl .eret)])

def source : List Line :=
  .balign 2048 :: .label .vectorTableEl2 :: ((List.range 16).flatMap slot ++ tail)

/-- The offset of a label from `vector_table_el2`. -/
def sym (l : Label) : Nat := offset source l

def image : List (Nat × AsmRun.Insn Vectors.Insn (Ctl Nat)) := code (resolveInsn sym) 0 source

/-! ## Running it -/

section Run

variable (base : BitVec 64) (h : Handler)

/-- The call of `handle_exception` is one step: it returns to `x30`. -/
def isa : Isa Vectors.Insn (Ctl Nat) Cpu where
  op i c := some (c.exec i)
  ctl
    | .b l, _, c => some (atOff base l c)
    | .blHandleException, pc, c => some (pc + 4, h.call (c.setX 30 (pc + 4)))
    | .eret, _, c => some (c.elr, c)

def step : BitVec 64 × Cpu → Option (BitVec 64 × Cpu) := AsmRun.step (isa base h) image base

/-- Exception vector `k` is entered, with `VBAR_EL2 = vbar`, of which the low
bits are reserved. -/
def enter (vbar : BitVec 64) (k : Nat) (c : Cpu) : BitVec 64 × Cpu :=
  (vbar >>> 11 <<< 11 + BitVec.ofNat 64 (0x80 * k), c)

end Run

/-! ## Where the code is -/

theorem image_sorted : image.Pairwise fun p q => p.1 < q.1 := by
  have hchain : image.IsChain fun p q => p.1 < q.1 := by decide +kernel
  have htrans : IsTrans (Nat × AsmRun.Insn Vectors.Insn (Ctl Nat)) fun p q => p.1 < q.1 :=
    ⟨fun _ _ _ h h' => h.trans h'⟩
  exact List.isChain_iff_pairwise.mp hchain

theorem codeAt_slot (k : Fin 16) : CodeAt image (0x80 * k.val)
    (blocks [(vecEntry (BitVec.ofNat 64 k.val), .b 0x7E0)]) := by
  have hslot : (image.drop (23 * k.val)).take 23
      = stretch (0x80 * k.val) (blocks [(vecEntry (BitVec.ofNat 64 k.val), .b 0x7E0)]) := by
    revert k
    decide +kernel
  refine codeAt_of_infix image_sorted ?_
  rw [← hslot]
  exact (List.take_prefix _ _).isInfix.trans (List.drop_suffix _ _).isInfix

theorem codeAt_tail :
    CodeAt image 0x7E0 (blocks [([], .blHandleException), (restoreCtx, .eret)]) := by
  have htail : image.drop (23 * 16)
      = stretch 0x7E0 (blocks [([], .blHandleException), (restoreCtx, .eret)]) := by
    decide +kernel
  refine codeAt_of_infix image_sorted ?_
  rw [← htail]
  exact (List.drop_suffix _ _).isInfix

/-! ## An exception -/

section Exception

variable {base : BitVec 64} {h : Handler}

/-- The handler as `vector_tail` calls it. -/
def linked (h : Handler) (ret : BitVec 64) : Handler where
  call c := h.call (c.setX 30 ret)
  sp_eq c := h.sp_eq (c.setX 30 ret)

theorem ops_eq (is : List Vectors.Insn) (c : Cpu) : (isa base h).ops is c = some (c.run is) := by
  induction is generalizing c with
  | nil => rfl
  | cons i is ih => exact ih (c.exec i)

variable (base h) in
/-- A macro. -/
theorem path_macro {is : List Vectors.Insn} {off : Nat} (hcode : CodeAt image off (is.map .op))
    (hoff : off + 4 * is.length < 2 ^ 64) (c : Cpu) :
    Path (step base h) (fun _ => True) is.length (atOff base off c)
      (atOff base (off + 4 * is.length) (c.run is)) :=
  (path_ops (Q := fun _ => True) (fun _ _ _ _ _ => trivial) hcode hoff trivial (ops_eq is c)).1

/-- Slot `k`, from its first instruction to the guest. -/
theorem runs_slot (k : Fin 16) (c : Cpu) :
    let d := c.exception (BitVec.ofNat 64 k.val) (linked h (base + BitVec.ofNat 64 0x7E4))
    Path (step base h) (fun _ => True) 45 (atOff base (0x80 * k.val) c) (d.elr, d) := by
  obtain ⟨hentry, hb, -⟩ := codeAt_blocks.mp (codeAt_slot k)
  obtain ⟨-, hbl, hcode⟩ := codeAt_blocks.mp codeAt_tail
  obtain ⟨hrestore, heret, -⟩ := codeAt_blocks.mp hcode
  have hk := k.isLt
  have hlen : (vecEntry (BitVec.ofNat 64 k.val)).length = 22 := rfl
  have hlen' : restoreCtx.length = 20 := rfl
  have hsave := path_macro base h hentry (by omega) c
  rw [hlen] at hb hsave
  have hbranch : Path (step base h) (fun _ => True) 1
      (atOff base (0x80 * k.val + 4 * 22) (c.run (vecEntry (BitVec.ofNat 64 k.val))))
      (atOff base 0x7E0 (c.run (vecEntry (BitVec.ofNat 64 k.val)))) :=
    path_ctl (Q := fun _ => True) hb (by omega) trivial rfl
  have hnext : base + BitVec.ofNat 64 0x7E0 + 4 = base + BitVec.ofNat 64 0x7E4 := by
    rw [BitVec.add_assoc]
    rfl
  have hcall : Path (step base h) (fun _ => True) 1
      (atOff base 0x7E0 (c.run (vecEntry (BitVec.ofNat 64 k.val))))
      (atOff base 0x7E4 ((linked h (base + BitVec.ofNat 64 0x7E4)).call
        (c.run (vecEntry (BitVec.ofNat 64 k.val))))) := by
    refine path_ctl (Q := fun _ => True) hbl (by decide) trivial ?_
    simp only [isa, List.length_nil, Nat.mul_zero, Nat.add_zero, hnext]
    rfl
  have hload := path_macro base h hrestore (by rw [hlen']; decide)
    ((linked h (base + BitVec.ofNat 64 0x7E4)).call (c.run (vecEntry (BitVec.ofNat 64 k.val))))
  rw [hlen'] at hload heret
  refine (((hsave.trans hbranch).trans hcall).trans hload).trans (n := 1) ?_
  refine .next trivial ?_ (.refl _)
  exact step_ctl (isa base h) image base (by decide) heret _

/-- A table at a multiple of 2 KiB is entered where its slots are. -/
theorem enter_eq (hbase : base.toNat % 2048 = 0) (k : Nat) (c : Cpu) :
    enter base k c = atOff base (0x80 * k) c := by
  have hbits : base >>> 11 <<< 11 = base := by
    have hlt := base.isLt
    apply BitVec.eq_of_toNat_eq
    rw [BitVec.toNat_shiftLeft, BitVec.toNat_ushiftRight, Nat.shiftRight_eq_div_pow,
      Nat.shiftLeft_eq]
    omega
  rw [enter, hbits]
  rfl

end Exception

/-! ## The system's step -/

section Refines

variable (base : BitVec 64) (h : Handler)

/-- `handle_exception` for this exception: called with a pointer to the frame
in `x0` and the vector in `x1`, it leaves the frame of `m'`. -/
def Handles (kind : VecKind) (tf tf' : TrapFrame) : Prop :=
  ∀ c, c.frame = tf → c.x 0 = c.sp → c.x 1 = kind.toBitVec → (h.call c).frame = tf'

theorem ctorIdx_lt (kind : VecKind) : kind.ctorIdx < 16 := by
  cases kind <;> decide

/-- **The vector table is a step of the system.** Let the CPU show what the
machine holds when `t` is taken, and `handle_exception` do to the frame what
the model of it does. From the vector that the hardware enters for `t`, 45
instructions later the next guest runs, at the PC and with the registers
`step` gives, and `SP_EL2` is where it was. -/
theorem vector_table_refines_step (hbase : base.toNat % 2048 = 0) {b : Build} {m m' : Machine}
    {t : Trap} (hstep : ArmHyp.step b m t = some m') {c : Cpu} (hc : c.Shows (m.enter t))
    (hpad : (c.exec (.subSp frameSize)).frame.word 33 = m.tf.word 33)
    (hh : Handles h t.kind (m.enter t).saveCtx.tf m'.tf) :
    ∃ d, Path (step base h) (fun _ => True) 45 (enter base t.kind.ctorIdx c) (d.elr, d)
      ∧ d.Shows m' ∧ d.sp = c.sp := by
  obtain ⟨m₂, -, rfl⟩ := Option.map_eq_some_iff.mp hstep
  let g := linked h (base + BitVec.ofNat 64 0x7E4)
  have hframe : (c.run (vecEntry t.kind.toBitVec)).frame = (m.enter t).saveCtx.tf := by
    rw [frame_vecEntry]
    exact saveCtx_refines hc hpad
  have hcall : (g.call (c.run (vecEntry t.kind.toBitVec))).frame = m₂.tf := by
    refine hh _ ?_ ?_ ?_
    · rw [frame_setX, hframe]
    · rw [run_vecEntry]
      generalize c.run saveCtx = p
      rfl
    · rw [run_vecEntry]
      generalize c.run saveCtx = p
      rfl
  refine ⟨c.exception t.kind.toBitVec g, ?_, ?_, ?_⟩
  · rw [enter_eq hbase]
    exact runs_slot ⟨t.kind.ctorIdx, ctorIdx_lt t.kind⟩ c
  · exact restoreCtx_refines hcall
  · rw [exception_eq]

/-- A CPU that shows the machine `m`, with `SP_EL2 = sp` and nothing in memory. -/
def cpuOf (m : Machine) (sp : BitVec 64) : Cpu where
  x := m.gpr
  sp := sp
  elr := m.regs .elrEl2
  spsr := m.regs .spsrEl2
  mem := fun _ => 0

theorem vector_table_refines_spurious : ∃ m' d,
    ArmHyp.step default default (Trap.irq intidSpurious) = some m'
      ∧ Path (step 0x40090000 ⟨id, fun _ => rfl⟩) (fun _ => True) 45
        (enter 0x40090000 9 (cpuOf (Machine.enter (Trap.irq intidSpurious) default) 0x400A0000))
        (d.elr, d)
      ∧ d.Shows m' := by
  have hsame : ∃ m', ArmHyp.step default default (Trap.irq intidSpurious) = some m'
      ∧ m'.tf = (Machine.enter (Trap.irq intidSpurious) default).saveCtx.tf := ⟨_, rfl, rfl⟩
  obtain ⟨m', hstep, htf⟩ := hsame
  obtain ⟨d, hpath, hd, -⟩ := vector_table_refines_step 0x40090000 ⟨id, fun _ => rfl⟩ (by decide)
    hstep (c := cpuOf (Machine.enter (Trap.irq intidSpurious) default) 0x400A0000)
    ⟨rfl, rfl, rfl⟩ (by decide) (fun c hc _ _ => hc.trans htf.symm)
  exact ⟨m', d, hstep, hpath, hd⟩

end Refines

end VectorTable

end ArmHyp
