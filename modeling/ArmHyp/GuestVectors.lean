import Mathlib.Logic.Function.Iterate
import ArmHyp.AsmLayout
import ArmHyp.Vectors

/-!
# The bare-metal guest's vectors (`guest_vectors.S`)

The table as it is written, laid out by the assembler, and run from the
offsets the hardware enters at. `GSAVE` and `GRESTORE` are the instructions
of `SAVE_CTX` and `RESTORE_CTX`, here with `SP_EL1`, `ELR_EL1` and
`SPSR_EL1`, so that what they do is known from `Vectors`; what is new is
where they are. The code of the EL1h IRQ slot is 42 instructions long and
runs over into the slot after it: an FIQ enters it eleven instructions into
`GRESTORE`, and every later slot holds the code meant for the one before.
-/

namespace ArmHyp

namespace GuestVectors

open Vectors Asm

/-! ## The source -/

/-- The instructions of `guest_vectors.S`. -/
inductive GInsn where
  /-- The instructions of `GSAVE` and `GRESTORE`. -/
  | op (i : Insn)
  /-- `bl guest_irq_handler`. -/
  | blHandler
  | eret
  | wfi
  /-- `b`, by the distance from itself. -/
  | b (dist : Int)
deriving DecidableEq

/-- `GFRAME`. -/
def gframe : Nat := 272

def gsave : List Insn :=
  [.subSp gframe,
   .stp 0 1 0x00, .stp 2 3 0x10, .stp 4 5 0x20, .stp 6 7 0x30, .stp 8 9 0x40,
   .stp 10 11 0x50, .stp 12 13 0x60, .stp 14 15 0x70, .stp 16 17 0x80, .stp 18 19 0x90,
   .stp 20 21 0xA0, .stp 22 23 0xB0, .stp 24 25 0xC0, .stp 26 27 0xD0, .stp 28 29 0xE0,
   .mrs 9 .elr, .mrs 10 .spsr, .stp 30 9 0xF0, .str 10 0x100]

def grestore : List Insn :=
  [.ldr 10 0x100, .ldp 30 9 0xF0, .msr .spsr 10, .msr .elr 9,
   .ldp 28 29 0xE0, .ldp 26 27 0xD0, .ldp 24 25 0xC0, .ldp 22 23 0xB0, .ldp 20 21 0xA0,
   .ldp 18 19 0x90, .ldp 16 17 0x80, .ldp 14 15 0x70, .ldp 12 13 0x60, .ldp 10 11 0x50,
   .ldp 8 9 0x40, .ldp 6 7 0x30, .ldp 4 5 0x20, .ldp 2 3 0x10, .ldp 0 1 0x00,
   .addSp gframe]

/-- `GPANIC`: `1: wfi; b 1b`. -/
def gpanic : List GInsn := [.wfi, .b (-4)]

/-- The code of the EL1h IRQ slot. -/
def irqCode : List GInsn := gsave.map .op ++ .blHandler :: (grestore.map .op ++ [.eret])

/-- `.balign 128` and what follows it. -/
def slot (is : List GInsn) : List (Line GInsn) := .balign 128 :: is.map .insn

def guestVectorTableEl1 : List (Line GInsn) :=
  [.balign 2048]
    ++ slot gpanic ++ slot gpanic ++ slot gpanic ++ slot gpanic           -- EL1t
    ++ slot [.b 0] ++ slot irqCode ++ slot gpanic ++ slot gpanic          -- EL1h
    ++ slot gpanic ++ slot gpanic ++ slot gpanic ++ slot gpanic           -- lower EL
    ++ slot gpanic ++ slot gpanic ++ slot gpanic ++ slot gpanic

/-- The instructions by their offset from `guest_vector_table_el1`. -/
def image : List (Nat × GInsn) := assemble 0 guestVectorTableEl1

/-! ## Where the code is -/

theorem codeAt_irq : CodeAt image 0x280 irqCode := by decide

/-- The slot the code of the EL1h IRQ runs over into. -/
theorem codeAt_fiq : CodeAt image 0x300 ((grestore.drop 11).map .op ++ [.eret]) := by decide

theorem codeAt_sync : CodeAt image 0x200 [.b 0] := by decide

theorem codeAt_panic (k : Fin 16) (h4 : k ≠ 4) (h5 : k ≠ 5) (h6 : k ≠ 6) :
    CodeAt image (0x80 * k.val) gpanic := by
  revert k
  decide

/-! ## Running it -/

/-- A C function under the procedure call standard: it returns with the stack
pointer it was called with, and does not write to its caller's frame. -/
structure CHandler extends Handler where
  frame_eq : ∀ c, (call c).frame = c.frame

/-- The guest in its vectors at `pc`, or after the `eret`. -/
inductive State where
  | running (pc : BitVec 64) (c : Cpu)
  | returned (c : Cpu)

/-- One instruction, with the table at `vbar`. A call of the handler is one
step; where there is no instruction there is padding, which is `nop`. -/
def step (vbar : BitVec 64) (h : CHandler) : State → State
  | .returned c => .returned c
  | .running pc c =>
      match image.lookup (pc - vbar).toNat with
      | some (.op i) => .running (pc + 4) (c.exec i)
      | some .blHandler => .running (pc + 4) (h.call (c.setX 30 (pc + 4)))
      | some .eret => .returned c
      | some .wfi => .running (pc + 4) c
      | some (.b dist) => .running (pc + BitVec.ofInt 64 dist) c
      | none => .running (pc + 4) c

/-- At offset `off` of the table. -/
def atOff (vbar : BitVec 64) (off : Nat) (c : Cpu) : State :=
  .running (vbar + BitVec.ofNat 64 off) c

/-- Exception vector `k` is entered. -/
def enter (vbar : BitVec 64) (k : Fin 16) (c : Cpu) : State := atOff vbar (0x80 * k.val) c

section Steps

variable (vbar : BitVec 64) (h : CHandler) {off : Nat} (hoff : off < 2 ^ 64)

include hoff

/-- The next instruction from an offset. -/
theorem step_atOff (c : Cpu) : step vbar h (atOff vbar off c) =
    match image.lookup off with
    | some (.op i) => atOff vbar (off + 4) (c.exec i)
    | some .blHandler =>
        atOff vbar (off + 4) (h.call (c.setX 30 (vbar + BitVec.ofNat 64 (off + 4))))
    | some .eret => .returned c
    | some .wfi => atOff vbar (off + 4) c
    | some (.b dist) => .running (vbar + BitVec.ofNat 64 off + BitVec.ofInt 64 dist) c
    | none => atOff vbar (off + 4) c := by
  have hback : (vbar + BitVec.ofNat 64 off - vbar).toNat = off := by
    rw [BitVec.add_comm, BitVec.add_sub_cancel, BitVec.toNat_ofNat, Nat.mod_eq_of_lt hoff]
  have hnext : vbar + BitVec.ofNat 64 off + 4 = vbar + BitVec.ofNat 64 (off + 4) := by
    rw [BitVec.ofNat_add, BitVec.add_assoc]
    rfl
  simp only [step, atOff, hback, hnext]

end Steps

/-- A straight line of loads, stores and moves. -/
theorem iterate_ops (vbar : BitVec 64) (h : CHandler) {is : List Insn} {off : Nat}
    (hcode : CodeAt image off (is.map .op)) (hoff : off + 4 * is.length < 2 ^ 64) (c : Cpu) :
    (step vbar h)^[is.length] (atOff vbar off c) = atOff vbar (off + 4 * is.length) (c.run is) := by
  induction is generalizing off c with
  | nil => rfl
  | cons i is ih =>
      rw [List.length_cons] at hoff
      obtain ⟨hi, his⟩ := hcode
      have hend : off + 4 + 4 * is.length = off + 4 * (is.length + 1) := by omega
      rw [List.length_cons, Function.iterate_succ_apply, step_atOff vbar h (by omega), hi]
      simp only
      rw [ih his (by omega), hend, run_cons]

/-- A straight line that ends in the `eret`. -/
theorem iterate_return (vbar : BitVec 64) (h : CHandler) {is : List Insn} {off : Nat}
    (hcode : CodeAt image off (is.map .op ++ [.eret])) (hoff : off + 4 * is.length < 2 ^ 64)
    (c : Cpu) : (step vbar h)^[is.length + 1] (atOff vbar off c) = .returned (c.run is) := by
  rw [codeAt_append, List.length_map] at hcode
  obtain ⟨hops, heret, -⟩ := hcode
  rw [Function.iterate_succ_apply', iterate_ops vbar h hops hoff, step_atOff vbar h hoff, heret]

/-! ## The slots -/

section Slots

variable (vbar : BitVec 64) (h : CHandler) (c : Cpu)

/-- The EL1h IRQ slot, instruction by instruction. -/
theorem iterate_irq : (step vbar h)^[42] (enter vbar 5 c)
    = .returned ((h.call ((c.run gsave).setX 30 (vbar + BitVec.ofNat 64 0x2D4))).run grestore) := by
  have hcode := codeAt_irq
  rw [irqCode, codeAt_append] at hcode
  obtain ⟨hsave, hbl, hrest⟩ := hcode
  have hbl' : image.lookup 0x2D0 = some .blHandler := hbl
  have hrest' : CodeAt image 0x2D4 (grestore.map .op ++ [.eret]) := hrest
  have hentry : (step vbar h)^[20] (enter vbar 5 c) = atOff vbar 0x2D0 (c.run gsave) :=
    iterate_ops vbar h hsave (by decide) c
  have hcall : step vbar h (atOff vbar 0x2D0 (c.run gsave))
      = atOff vbar 0x2D4 (h.call ((c.run gsave).setX 30 (vbar + BitVec.ofNat 64 0x2D4))) := by
    rw [step_atOff vbar h (by decide), hbl']
  have hexit := iterate_return vbar h hrest' (by decide)
    (h.call ((c.run gsave).setX 30 (vbar + BitVec.ofNat 64 0x2D4)))
  have hsplit : (step vbar h)^[42] (enter vbar 5 c)
      = (step vbar h)^[21] (step vbar h ((step vbar h)^[20] (enter vbar 5 c))) := by
    rw [← Function.iterate_succ_apply, ← Function.iterate_add_apply]
  rw [hsplit, hentry, hcall]
  exact hexit

/-- The IRQ is transparent: `GRESTORE` loads the frame that `GSAVE` left. -/
theorem irq_returns : ∃ c', (step vbar h)^[42] (enter vbar 5 c) = .returned c'
    ∧ c'.x = c.x ∧ c'.sp = c.sp ∧ c'.elr = c.elr ∧ c'.spsr = c.spsr := by
  have hrestore : grestore = restoreCtx := rfl
  have hsave : gsave = saveCtx := rfl
  obtain ⟨hx, helr, hspsr⟩ := frame_saveCtx c
  have hsp := (run_saveCtx c).1
  refine ⟨_, iterate_irq vbar h c, ?_⟩
  rw [hrestore, hsave, run_restoreCtx, h.frame_eq, h.sp_eq, frame_setX, sp_setX, hsp,
    BitVec.sub_add_cancel]
  exact ⟨funext hx, rfl, helr, hspsr⟩

/-- An FIQ runs the end of `GRESTORE` and returns. -/
theorem iterate_fiq : (step vbar h)^[10] (enter vbar 6 c) = .returned (c.run (grestore.drop 11)) :=
  iterate_return vbar h codeAt_fiq (by decide) c

/-- Spinning at `off`: at one of two instructions, with the registers that
were there at the start. -/
def Spins (off : Nat) (s : State) : Prop := s = atOff vbar off c ∨ s = atOff vbar (off + 4) c

variable {off : Nat} (hoff : off + 4 < 2 ^ 64)

include hoff

theorem iterate_panic (hcode : CodeAt image off gpanic) (n : Nat) :
    Spins vbar c off ((step vbar h)^[n] (atOff vbar off c)) := by
  obtain ⟨hwfi, hb, -⟩ := hcode
  have hback : vbar + BitVec.ofNat 64 (off + 4) + BitVec.ofInt 64 (-4)
      = vbar + BitVec.ofNat 64 off := by
    have hdist : BitVec.ofNat 64 4 + BitVec.ofInt 64 (-4) = 0#64 := rfl
    rw [BitVec.ofNat_add, BitVec.add_assoc, BitVec.add_assoc, hdist, BitVec.add_zero]
  induction n with
  | zero => exact .inl rfl
  | succ n ih =>
      rw [Function.iterate_succ_apply']
      rcases ih with ih | ih
      · right
        rw [ih, step_atOff vbar h (by omega), hwfi]
      · left
        rw [ih, step_atOff vbar h hoff, hb]
        simp only [hback]
        rfl

/-- `b .` stays at one instruction. -/
theorem iterate_branch_self (hcode : CodeAt image off [.b 0]) (n : Nat) :
    (step vbar h)^[n] (atOff vbar off c) = atOff vbar off c := by
  have hstep : step vbar h (atOff vbar off c) = atOff vbar off c := by
    have hzero : BitVec.ofInt 64 0 = 0#64 := rfl
    rw [step_atOff vbar h (by omega), hcode.1]
    simp only [hzero, BitVec.add_zero]
    rfl
  exact Function.iterate_fixed hstep n

end Slots

/-! ## What the table's comments say of it -/

/-- Slot `k` does what it is for: the EL1h IRQ returns to what it
interrupted, and every other exception spins in its slot for ever. -/
def SlotOk (vbar : BitVec 64) (h : CHandler) (k : Fin 16) (c : Cpu) : Prop :=
  if k = 5 then
    ∃ n c', (step vbar h)^[n] (enter vbar k c) = .returned c'
      ∧ c'.x = c.x ∧ c'.sp = c.sp ∧ c'.elr = c.elr ∧ c'.spsr = c.spsr
  else ∀ n, Spins vbar c (0x80 * k.val) ((step vbar h)^[n] (enter vbar k c))

theorem not_slotOk_fiq (vbar : BitVec 64) (h : CHandler) (c : Cpu) : ¬SlotOk vbar h 6 c := by
  intro hok
  rw [SlotOk, if_neg (by decide)] at hok
  have hspin := hok 10
  rw [iterate_fiq] at hspin
  rcases hspin with hspin | hspin <;> cases hspin

/-- **Every slot but one does what it is for.** Whatever the registers, the
stack and the handler: the FIQ slot is the one that the EL1h IRQ's code has
run over. -/
theorem slot_ok_iff (vbar : BitVec 64) (h : CHandler) (k : Fin 16) (c : Cpu) :
    SlotOk vbar h k c ↔ k ≠ 6 := by
  constructor
  · rintro hok rfl
    exact not_slotOk_fiq vbar h c hok
  · intro h6
    have hoff : 0x80 * k.val + 4 < 2 ^ 64 := by
      have hk := k.isLt
      omega
    by_cases h5 : k = 5
    · subst h5
      exact ⟨42, irq_returns vbar h c⟩
    · rw [SlotOk, if_neg h5]
      intro n
      by_cases h4 : k = 4
      · subst h4
        exact .inl (iterate_branch_self vbar h c hoff codeAt_sync n)
      · exact iterate_panic vbar h c hoff (codeAt_panic k h4 h5 h6) n

/-- A handler that does nothing. -/
def idleHandler : CHandler := { call := id, sp_eq := fun _ => rfl, frame_eq := fun _ => rfl }

/-- A guest with ones in its registers, over a stack of zeros. -/
def busyCpu : Cpu :=
  { x := fun _ => 1, sp := 0x48100000, elr := 0x48080000, spsr := 0x5, mem := fun _ => 0 }

/-- An FIQ there returns, with registers from the stack and another stack
pointer. -/
theorem fiq_pops_stack :
    (step 0x48081000 idleHandler)^[10] (enter 0x48081000 6 busyCpu)
        = .returned (busyCpu.run (grestore.drop 11))
      ∧ (busyCpu.run (grestore.drop 11)).sp = 0x48100110
      ∧ (busyCpu.run (grestore.drop 11)).x 0 = 0 ∧ busyCpu.x 0 = 1
      ∧ ¬SlotOk 0x48081000 idleHandler 6 busyCpu :=
  ⟨iterate_fiq _ _ _, by decide, by decide, rfl, not_slotOk_fiq _ _ _⟩

end GuestVectors

end ArmHyp
