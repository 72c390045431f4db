import ArmHyp.Machine
import ArmHyp.WrapMem

/-!
# Vector entry and exit (`vectors.S`)

`SAVE_CTX`, `RESTORE_CTX` and `VEC_ENTRY` as the instruction sequences they
are, over a CPU with the registers they touch and a byte-addressed memory.
An instruction that stores to the frame is one or two updates of the
frame's doublewords (`exec_stp`, `exec_str`), so that running a sequence is
a calculation on frames; the fifteen register pairs of each macro are dealt
with by induction on their number.

`Machine.saveCtx` and `Machine.restoreCtx` are what the rest of the
development uses; `saveCtx_refines` and `restoreCtx_refines` connect them
to the instructions.
-/

namespace ArmHyp

namespace Vectors

/-! ## Instructions -/

/-- What `vectors.S` works on: `x0..x30`, `SP_EL2`, `ELR_EL2`, `SPSR_EL2`, memory. -/
structure Cpu where
  x : Fin 31 → BitVec 64
  sp : BitVec 64
  elr : BitVec 64
  spsr : BitVec 64
  mem : WrapMem

/-- The two system registers the macros move. -/
inductive El2Reg where
  | elr
  | spsr
deriving DecidableEq

/-- The instructions `vectors.S` uses; memory operands are `[sp, #off]`. -/
inductive Insn where
  | subSp (imm : Nat)
  | addSp (imm : Nat)
  | stp (t t' : Fin 31) (off : Nat)
  | str (t : Fin 31) (off : Nat)
  | ldp (t t' : Fin 31) (off : Nat)
  | ldr (t : Fin 31) (off : Nat)
  | mrs (t : Fin 31) (r : El2Reg)
  | msr (r : El2Reg) (t : Fin 31)
  | movSp (t : Fin 31)
  | movImm (t : Fin 31) (imm : BitVec 64)
deriving DecidableEq

namespace Cpu

def addr (c : Cpu) (off : Nat) : BitVec 64 := c.sp + BitVec.ofNat 64 off

def setX (c : Cpu) (t : Fin 31) (v : BitVec 64) : Cpu := { c with x := Function.update c.x t v }

def exec (c : Cpu) : Insn → Cpu
  | .subSp imm => { c with sp := c.sp - BitVec.ofNat 64 imm }
  | .addSp imm => { c with sp := c.sp + BitVec.ofNat 64 imm }
  | .stp t t' off =>
      { c with mem := (c.mem.write64 (c.addr off) (c.x t)).write64 (c.addr (off + 8)) (c.x t') }
  | .str t off => { c with mem := c.mem.write64 (c.addr off) (c.x t) }
  | .ldp t t' off =>
      (c.setX t (c.mem.read64 (c.addr off))).setX t' (c.mem.read64 (c.addr (off + 8)))
  | .ldr t off => c.setX t (c.mem.read64 (c.addr off))
  | .mrs t .elr => c.setX t c.elr
  | .mrs t .spsr => c.setX t c.spsr
  | .msr .elr t => { c with elr := c.x t }
  | .msr .spsr t => { c with spsr := c.x t }
  | .movSp t => c.setX t c.sp
  | .movImm t imm => c.setX t imm

def run (c : Cpu) (is : List Insn) : Cpu := is.foldl exec c

end Cpu

/-- `FRAME_SIZE`. -/
def frameSize : Nat := 272

def saveCtx : List Insn :=
  [.subSp frameSize,
   .stp 0 1 0x00, .stp 2 3 0x10, .stp 4 5 0x20, .stp 6 7 0x30, .stp 8 9 0x40,
   .stp 10 11 0x50, .stp 12 13 0x60, .stp 14 15 0x70, .stp 16 17 0x80, .stp 18 19 0x90,
   .stp 20 21 0xA0, .stp 22 23 0xB0, .stp 24 25 0xC0, .stp 26 27 0xD0, .stp 28 29 0xE0,
   .mrs 9 .elr, .mrs 10 .spsr, .stp 30 9 0xF0, .str 10 0x100]

def restoreCtx : List Insn :=
  [.ldr 10 0x100, .ldp 30 9 0xF0, .msr .spsr 10, .msr .elr 9,
   .ldp 28 29 0xE0, .ldp 26 27 0xD0, .ldp 24 25 0xC0, .ldp 22 23 0xB0, .ldp 20 21 0xA0,
   .ldp 18 19 0x90, .ldp 16 17 0x80, .ldp 14 15 0x70, .ldp 12 13 0x60, .ldp 10 11 0x50,
   .ldp 8 9 0x40, .ldp 6 7 0x30, .ldp 4 5 0x20, .ldp 2 3 0x10, .ldp 0 1 0x00,
   .addSp frameSize]

/-- `VEC_ENTRY kind`, up to its branch to `vector_tail`. -/
def vecEntry (kind : BitVec 64) : List Insn := saveCtx ++ [.movSp 0, .movImm 1 kind]

/-! ## Frames in memory -/

/-- The `trap_frame_t` at `SP_EL2`. -/
def Cpu.frame (c : Cpu) : TrapFrame := ⟨fun k => c.mem.entry c.sp k.val⟩

section Frame

variable (c : Cpu)

theorem frame_setX (t : Fin 31) (v : BitVec 64) : (c.setX t v).frame = c.frame := rfl

theorem sp_setX (t : Fin 31) (v : BitVec 64) : (c.setX t v).sp = c.sp := rfl

/-- A doubleword stored into the frame. -/
theorem frame_write64 {k : Nat} (hk : k < 34) (v : BitVec 64) :
    ({ c with mem := c.mem.write64 (c.addr (8 * k)) v } : Cpu).frame = c.frame.setX k v := by
  refine TrapFrame.ext fun j => ?_
  have hj := j.isLt
  have hidx : j = Fin.ofNat 34 k ↔ j.val = k := by
    rw [Fin.ext_iff, Fin.val_ofNat, Nat.mod_eq_of_lt hk]
  simp only [Cpu.frame, Cpu.addr, TrapFrame.setX, Function.update_apply, hidx]
  exact WrapMem.entry_write64 c.mem c.sp v (by omega) (by omega)

theorem read64_frame {k : Nat} (hk : k < 34) : c.mem.read64 (c.addr (8 * k)) = c.frame.x k := by
  simp only [Cpu.frame, TrapFrame.x, Fin.val_ofNat, Nat.mod_eq_of_lt hk]
  rfl

theorem exec_str (t : Fin 31) {k : Nat} (hk : k < 34) :
    (c.exec (.str t (8 * k))).frame = c.frame.setX k (c.x t) :=
  frame_write64 c hk (c.x t)

theorem exec_stp (t t' : Fin 31) {k : Nat} (hk : k + 1 < 34) :
    (c.exec (.stp t t' (8 * k))).frame = (c.frame.setX k (c.x t)).setX (k + 1) (c.x t') := by
  rw [← frame_write64 c (by omega) (c.x t)]
  exact frame_write64 { c with mem := c.mem.write64 (c.addr (8 * k)) (c.x t) } hk (c.x t')

theorem exec_ldr (t : Fin 31) {k : Nat} (hk : k < 34) :
    c.exec (.ldr t (8 * k)) = c.setX t (c.frame.x k) := by
  rw [← read64_frame c hk]
  rfl

theorem exec_ldp (t t' : Fin 31) {k : Nat} (hk : k + 1 < 34) :
    c.exec (.ldp t t' (8 * k)) = (c.setX t (c.frame.x k)).setX t' (c.frame.x (k + 1)) := by
  rw [← read64_frame c (by omega), ← read64_frame c hk]
  rfl

end Frame

/-! ## SAVE_CTX -/

/-- The `j`-th pair of `SAVE_CTX`, and of `RESTORE_CTX`. -/
def storePair (j : Nat) : Insn :=
  .stp (Fin.ofNat 31 (2 * j)) (Fin.ofNat 31 (2 * j + 1)) (8 * (2 * j))

def loadPair (j : Nat) : Insn :=
  .ldp (Fin.ofNat 31 (2 * j)) (Fin.ofNat 31 (2 * j + 1)) (8 * (2 * j))

theorem saveCtx_eq : saveCtx = .subSp frameSize :: ((List.range 15).map storePair
    ++ [.mrs 9 .elr, .mrs 10 .spsr, .stp 30 9 (8 * 30), .str 10 (8 * 32)]) := by
  decide

theorem restoreCtx_eq : restoreCtx = [.ldr 10 (8 * 32), .ldp 30 9 (8 * 30), .msr .spsr 10,
    .msr .elr 9] ++ ((List.range 15).reverse.map loadPair ++ [.addSp frameSize]) := by
  decide

theorem run_append (c : Cpu) (is js : List Insn) : c.run (is ++ js) = (c.run is).run js :=
  List.foldl_append

theorem run_cons (c : Cpu) (i : Insn) (is : List Insn) : c.run (i :: is) = (c.exec i).run is := rfl

theorem run_nil (c : Cpu) : c.run [] = c := rfl

/-- `c'` is `c` but for memory. -/
def SameRegs (c c' : Cpu) : Prop :=
  c'.x = c.x ∧ c'.sp = c.sp ∧ c'.elr = c.elr ∧ c'.spsr = c.spsr

/-- After `n` pairs the frame holds `x0` to `x(2n-1)`. -/
theorem run_storePairs (c : Cpu) {n : Nat} (hn : n ≤ 15) :
    SameRegs c (c.run ((List.range n).map storePair))
      ∧ ∀ k : Fin 34, (c.run ((List.range n).map storePair)).frame.word k
          = if k.val < 2 * n then c.x (Fin.ofNat 31 k.val) else c.frame.word k := by
  induction n with
  | zero => exact ⟨⟨rfl, rfl, rfl, rfl⟩, fun k => (if_neg (by omega)).symm⟩
  | succ n ih =>
      obtain ⟨hregs, hframe⟩ := ih (by omega)
      rw [List.range_succ, List.map_append, run_append]
      refine ⟨hregs, fun k => ?_⟩
      have hk := k.isLt
      change ((c.run ((List.range n).map storePair)).exec (storePair n)).frame.word k = _
      rw [storePair, exec_stp _ _ _ (by omega), hregs.1]
      simp only [TrapFrame.setX, Function.update_apply, Fin.ext_iff, Fin.val_ofNat, hframe,
        Nat.mod_eq_of_lt (by omega : 2 * n + 1 < 34), Nat.mod_eq_of_lt (by omega : 2 * n < 34)]
      by_cases hodd : k.val = 2 * n + 1
      · rw [if_pos hodd, if_pos (by omega), hodd]
      · by_cases heven : k.val = 2 * n
        · rw [if_neg hodd, if_pos heven, if_pos (by omega), heven]
        · rw [if_neg hodd, if_neg heven]
          by_cases hlt : k.val < 2 * n
          · rw [if_pos hlt, if_pos (by omega)]
          · rw [if_neg hlt, if_neg (by omega)]

/-- The frame `SAVE_CTX` leaves: the registers, `ELR_EL2`, `SPSR_EL2`, and
what the stack held in the padding. -/
theorem run_saveCtx (c : Cpu) :
    (c.run saveCtx).sp = c.sp - BitVec.ofNat 64 frameSize
      ∧ ∀ k : Fin 34, (c.run saveCtx).frame.word k =
          if h : k.val < 31 then c.x ⟨k.val, h⟩
          else if k = 31 then c.elr
          else if k = 32 then c.spsr
          else (c.exec (.subSp frameSize)).frame.word k := by
  obtain ⟨⟨hx, hsp, helr, hspsr⟩, hframe⟩ := run_storePairs (c.exec (.subSp frameSize)) (le_refl 15)
  have hrun : c.run saveCtx = ((c.exec (.subSp frameSize)).run ((List.range 15).map storePair)).run
      [.mrs 9 .elr, .mrs 10 .spsr, .stp 30 9 (8 * 30), .str 10 (8 * 32)] := by
    rw [saveCtx_eq, run_cons, run_append]
  rw [hrun]
  generalize (c.exec (.subSp frameSize)).run ((List.range 15).map storePair) = p at *
  refine ⟨hsp, fun k => ?_⟩
  rw [run_cons, run_cons, run_cons, run_cons, run_nil, exec_str _ _ (by decide),
    exec_stp _ _ _ (by decide)]
  -- `x9` and `x10` are in the frame by now, and serve as scratch
  have h30 : ((p.exec (.mrs 9 .elr)).exec (.mrs 10 .spsr)).x 30 = c.x 30 := congrFun hx 30
  have h9 : ((p.exec (.mrs 9 .elr)).exec (.mrs 10 .spsr)).x 9 = c.elr := helr
  have h10 : (((p.exec (.mrs 9 .elr)).exec (.mrs 10 .spsr)).exec (.stp 30 9 (8 * 30))).x 10
      = c.spsr := hspsr
  have hmem : ((p.exec (.mrs 9 .elr)).exec (.mrs 10 .spsr)).frame = p.frame := rfl
  rw [h30, h9, h10, hmem]
  simp only [TrapFrame.setX, Function.update_apply, hframe]
  by_cases hlt : k.val < 30
  · have hne : ∀ n, 30 ≤ n → n < 34 → k ≠ Fin.ofNat 34 n := by
      intro n hlo hhi h
      rw [h, Fin.val_ofNat, Nat.mod_eq_of_lt hhi] at hlt
      omega
    have hidx : Fin.ofNat 31 k.val = ⟨k.val, by omega⟩ := by
      rw [Fin.ext_iff, Fin.val_ofNat, Nat.mod_eq_of_lt (by omega)]
    rw [if_neg (hne 32 (by decide) (by decide)), if_neg (hne 31 (by decide) (by decide)),
      if_neg (hne 30 (by decide) (by decide)), if_pos hlt, dif_pos (by omega), hidx]
    rfl
  · have hlast : k = 30 ∨ k = 31 ∨ k = 32 ∨ k = 33 := by
      have hk := k.isLt
      simp only [Fin.ext_iff]
      change k.val = 30 ∨ k.val = 31 ∨ k.val = 32 ∨ k.val = 33
      omega
    rcases hlast with rfl | rfl | rfl | rfl <;> rfl

/-! ## RESTORE_CTX -/

/-- After pairs `n-1` down to `0`, `x0` to `x(2n-1)` are loaded. -/
theorem run_loadPairs (c : Cpu) {n : Nat} (hn : n ≤ 15) :
    c.run ((List.range n).reverse.map loadPair)
      = { c with x := fun i => if i.val < 2 * n then c.frame.x i.val else c.x i } := by
  induction n generalizing c with
  | zero => rfl
  | succ n ih =>
      have hfirst : c.run (([n] : List Nat).reverse.map loadPair)
          = (c.setX (Fin.ofNat 31 (2 * n)) (c.frame.x (2 * n))).setX
            (Fin.ofNat 31 (2 * n + 1)) (c.frame.x (2 * n + 1)) := exec_ldp c _ _ (by omega)
      rw [List.range_succ, List.reverse_append, List.map_append, run_append, hfirst,
        ih _ (by omega)]
      -- the loads change neither the frame nor `sp`
      refine congrArg (fun x => ({ c with x := x } : Cpu)) (funext fun i => ?_)
      change (if i.val < 2 * n then c.frame.x i.val else Function.update (Function.update c.x
        (Fin.ofNat 31 (2 * n)) (c.frame.x (2 * n))) (Fin.ofNat 31 (2 * n + 1))
        (c.frame.x (2 * n + 1)) i) = _
      simp only [Function.update_apply, Fin.ext_iff, Fin.val_ofNat,
        Nat.mod_eq_of_lt (by omega : 2 * n + 1 < 31), Nat.mod_eq_of_lt (by omega : 2 * n < 31)]
      by_cases hlt : i.val < 2 * n
      · rw [if_pos hlt, if_pos (by omega)]
      · rw [if_neg hlt]
        by_cases hodd : i.val = 2 * n + 1
        · rw [if_pos hodd, if_pos (by omega), hodd]
        · by_cases heven : i.val = 2 * n
          · rw [if_neg hodd, if_pos heven, if_pos (by omega), heven]
          · rw [if_neg hodd, if_neg heven, if_neg (by omega)]

/-- What `RESTORE_CTX` leaves: every register from the frame, and `SP_EL2`
past it. -/
theorem run_restoreCtx (c : Cpu) :
    c.run restoreCtx =
      { c with
        x := fun i => c.frame.x i.val
        sp := c.sp + BitVec.ofNat 64 frameSize
        elr := c.frame.elrEl2
        spsr := c.frame.spsrEl2 } := by
  have hhead : c.run [.ldr 10 (8 * 32), .ldp 30 9 (8 * 30), .msr .spsr 10, .msr .elr 9]
      = { c with
          x := Function.update (Function.update (Function.update c.x 10 (c.frame.x 32)) 30
            (c.frame.x 30)) 9 (c.frame.x 31)
          elr := c.frame.x 31
          spsr := c.frame.x 32 } := by
    rw [run_cons, run_cons, run_cons, run_cons, run_nil, exec_ldr _ _ (by decide),
      exec_ldp _ _ _ (by decide)]
    rfl
  rw [restoreCtx_eq, run_append, hhead, run_append, run_loadPairs _ (le_refl 15)]
  refine congrArg (fun x => ({ c with
    x := x
    sp := c.sp + BitVec.ofNat 64 frameSize
    elr := c.frame.elrEl2
    spsr := c.frame.spsrEl2 } : Cpu)) (funext fun i => ?_)
  change (if i.val < 2 * 15 then c.frame.x i.val else Function.update (Function.update
    (Function.update c.x 10 (c.frame.x 32)) 30 (c.frame.x 30)) 9 (c.frame.x 31) i) = c.frame.x i.val
  by_cases hlt : i.val < 30
  · rw [if_pos hlt]
  · have hlast : i = 30 := by
      have hi := i.isLt
      rw [Fin.ext_iff]
      change i.val = 30
      omega
    subst hlast
    rfl

/-! ## An exception -/

/-- A C function called from `vector_tail`: it may do anything to the
registers and to memory, but the procedure call standard has it return with
the stack pointer it was called with. -/
structure Handler where
  call : Cpu → Cpu
  sp_eq : ∀ c, (call c).sp = c.sp

/-- From the vector to the `eret`. -/
def Cpu.exception (c : Cpu) (kind : BitVec 64) (h : Handler) : Cpu :=
  (h.call (c.run (vecEntry kind))).run restoreCtx

theorem run_vecEntry (c : Cpu) (kind : BitVec 64) :
    c.run (vecEntry kind)
      = ((c.run saveCtx).setX 0 (c.run saveCtx).sp).setX 1 kind := by
  rw [vecEntry, run_append, run_cons, run_cons, run_nil]
  rfl

theorem frame_vecEntry (c : Cpu) (kind : BitVec 64) :
    (c.run (vecEntry kind)).frame = (c.run saveCtx).frame := by
  rw [run_vecEntry, frame_setX, frame_setX]

/-- The frame of `SAVE_CTX`, field by field. -/
theorem frame_saveCtx (c : Cpu) :
    (∀ i : Fin 31, (c.run saveCtx).frame.x i.val = c.x i)
      ∧ (c.run saveCtx).frame.elrEl2 = c.elr ∧ (c.run saveCtx).frame.spsrEl2 = c.spsr := by
  obtain ⟨-, hword⟩ := run_saveCtx c
  generalize c.run saveCtx = p at *
  refine ⟨fun i => ?_, hword 31, hword 32⟩
  have hi := i.isLt
  have hidx : (Fin.ofNat 34 i.val).val = i.val := Nat.mod_eq_of_lt (by omega)
  rw [TrapFrame.x, hword, dif_pos (by omega)]
  exact congrArg c.x (Fin.ext hidx)

theorem exception_eq (c : Cpu) (kind : BitVec 64) (h : Handler) :
    c.exception kind h =
      { h.call (c.run (vecEntry kind)) with
        x := fun i => (h.call (c.run (vecEntry kind))).frame.x i.val
        sp := c.sp
        elr := (h.call (c.run (vecEntry kind))).frame.elrEl2
        spsr := (h.call (c.run (vecEntry kind))).frame.spsrEl2 } := by
  have hentry : (c.run (vecEntry kind)).sp = (c.run saveCtx).sp := by
    rw [run_vecEntry, sp_setX, sp_setX]
  have hsp : (h.call (c.run (vecEntry kind))).sp + BitVec.ofNat 64 frameSize = c.sp := by
    rw [h.sp_eq, hentry, (run_saveCtx c).1, BitVec.sub_add_cancel]
  rw [Cpu.exception, run_restoreCtx, hsp]

/-- **Vector entry and exit agree with `trap_frame_t`.** `SAVE_CTX` leaves a
frame with the registers of the interrupted guest, which is what
`handle_exception` is passed; whatever frame the handler leaves,
`RESTORE_CTX` loads exactly that, with `SP_EL2` back where it was; and a
handler that leaves the frame alone is not noticed. -/
theorem vectors_exact (c : Cpu) (kind : BitVec 64) (h : Handler) :
    ((∀ i : Fin 31, (c.run saveCtx).frame.x i.val = c.x i)
        ∧ (c.run saveCtx).frame.elrEl2 = c.elr ∧ (c.run saveCtx).frame.spsrEl2 = c.spsr)
      ∧ ((c.run (vecEntry kind)).frame = (c.run saveCtx).frame
        ∧ (c.run (vecEntry kind)).x 0 = (c.run (vecEntry kind)).sp
        ∧ (c.run (vecEntry kind)).x 1 = kind)
      ∧ ((∀ i : Fin 31,
            (c.exception kind h).x i = (h.call (c.run (vecEntry kind))).frame.x i.val)
        ∧ (c.exception kind h).elr = (h.call (c.run (vecEntry kind))).frame.elrEl2
        ∧ (c.exception kind h).spsr = (h.call (c.run (vecEntry kind))).frame.spsrEl2
        ∧ (c.exception kind h).sp = c.sp)
      ∧ ((h.call (c.run (vecEntry kind))).frame = (c.run (vecEntry kind)).frame →
        (c.exception kind h).x = c.x ∧ (c.exception kind h).elr = c.elr
          ∧ (c.exception kind h).spsr = c.spsr ∧ (c.exception kind h).sp = c.sp) := by
  obtain ⟨hx, helr, hspsr⟩ := frame_saveCtx c
  refine ⟨⟨hx, helr, hspsr⟩, ⟨frame_vecEntry c kind, ?_, ?_⟩, ?_, ?_⟩
  · rw [run_vecEntry]
    generalize c.run saveCtx = p
    rfl
  · rw [run_vecEntry]
    generalize c.run saveCtx = p
    rfl
  · rw [exception_eq]
    exact ⟨fun _ => rfl, rfl, rfl, rfl⟩
  · intro hsame
    rw [exception_eq, hsame, frame_vecEntry]
    exact ⟨funext hx, helr, hspsr, rfl⟩

/-! ## The machine's entry and exit -/

/-- The CPU has the registers of `m`. -/
structure Cpu.Shows (c : Cpu) (m : Machine) : Prop where
  x : c.x = m.gpr
  elr : c.elr = m.regs .elrEl2
  spsr : c.spsr = m.regs .spsrEl2

theorem saveCtx_refines {c : Cpu} {m : Machine} (h : c.Shows m)
    (hpad : (c.exec (.subSp frameSize)).frame.word 33 = m.tf.word 33) :
    (c.run saveCtx).frame = m.saveCtx.tf := by
  refine TrapFrame.ext fun k => ?_
  rw [(run_saveCtx c).2 k, h.x, h.elr, h.spsr]
  simp only [Machine.saveCtx]
  by_cases h31 : k.val < 31
  · rw [dif_pos h31, dif_pos h31]
  · rw [dif_neg h31, dif_neg h31]
    split_ifs with helr hspsr
    · rfl
    · rfl
    · have hlast : k = 33 := by
        have hk := k.isLt
        rw [Fin.ext_iff] at *
        change ¬k.val = 31 at helr
        change ¬k.val = 32 at hspsr
        change k.val = 33
        omega
      rw [hlast, hpad]

theorem restoreCtx_refines {c : Cpu} {m : Machine} (h : c.frame = m.tf) :
    (c.run restoreCtx).Shows m.restoreCtx := by
  rw [run_restoreCtx, h]
  exact ⟨rfl, rfl, rfl⟩

end Vectors

end ArmHyp
