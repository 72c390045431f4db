import ArmHyp.GuestV3Main

/-!
# An interrupt that is gone

The IRQ handler of `guest_v3.S` finds 1023 in `ICC_IAR1_EL1` if the interrupt
for which it was entered is no longer there. It then completes 1023, which the
interface ignores, restores what it saved and returns. What it saved are the
registers its subroutines use; `x19`, `x20` and `x21`, which it uses itself, it
did not save. `spurious_irq_resumes` says that these, `ELR_EL1` and `SPSR_EL1`,
which taking any interrupt writes, and six doublewords below SP are all an
interrupted guest can tell.
-/

namespace ArmHyp

namespace GuestV3

open Asm AsmSource AsmRun

theorem codeAt_spuriousPath : CodeAt image 0x118 (blocks spuriousCode) :=
  codeAt_listing (i := 7) rfl

/-- The vectors are installed, and the stack has room for the handler's frame. -/
structure Interruptible (L : Link) (c : Cpu) : Prop where
  vbarEl1 : c.vbarEl1 = L.base + BitVec.ofNat 64 0x800
  sp : ∃ k, c.sp = L.base + BitVec.ofNat 64 (k + 64) ∧ sym .guestV3StackBottom ≤ k
    ∧ k + 64 ≤ size source

/-- From `c` to `d`: an interrupt was taken that was not there. `ELR_EL1` and
`SPSR_EL1` are not listed, since taking it wrote them. -/
structure Resumed (c d : Cpu) : Prop where
  x : ∀ i, i ∉ [19, 20, 21] → d.x i = c.x i
  sp : d.sp = c.sp
  nzcv : d.nzcv = c.nzcv
  daif : d.daif = c.daif
  esrEl1 : d.esrEl1 = c.esrEl1
  vbarEl1 : d.vbarEl1 = c.vbarEl1
  mem : ∀ a, 48 ≤ (a - (c.sp - 64)).toNat → d.mem a = c.mem a
  vif : d.vif = c.vif
  seen : d.seen = c.seen ++ [.iar 1023, .eoir 1023]

/-! ## The frame -/

section Frame

variable (c : Cpu)

/-- What the handler saves, as it lies in memory. -/
def saved : List (BitVec 64) := [c.x 0, c.x 1, c.x 2, c.x 3, c.x 29, c.x 30]

/-- The handler's view of the guest it interrupted, when it has found 1023. -/
def entered : Cpu :=
  { c with
    x := Function.update (Function.update (Function.update c.x 19 1023) 20 1023) 21 1023
    sp := c.sp - 64
    nzcv := cmpFlags 1023 1023
    mem := WrapMem.writeList (c.sp - 64) 0 (saved c) c.mem
    seen := c.seen ++ [.iar 1023] }

theorem read64_entered {j : Nat} (hj : j < 6) :
    (entered c).mem.read64 ((entered c).addr (8 * j)) = (saved c).getD j 0 := by
  have hlen : (saved c).length = 6 := rfl
  have hentry := WrapMem.entry_writeList (c.sp - 64) (i := 0) (j := j) (saved c) c.mem
    (by rw [hlen]; decide) (by omega)
  rw [if_pos (Nat.zero_le j), Nat.sub_zero] at hentry
  refine hentry.trans ?_
  rw [List.getD_eq_getElem?_getD, List.getD_eq_getElem?_getD,
    List.getElem?_eq_getElem (hlen.symm ▸ hj), Option.getD_some, Option.getD_some]

end Frame

/-! ## The handler -/

section Handler

variable {L : Link} {c : Cpu}

theorem Interruptible.inFile (h : Interruptible L c) {k lo : Nat} (hk : k + 16 ≤ 64)
    (hlo : lo ≤ sym .guestV3StackBottom) :
    GuestV3.inFile L lo 16 (c.sp - 64 + BitVec.ofNat 64 k) = true := by
  obtain ⟨f, hsp, hbottom, htop⟩ := h.sp
  have haddr : c.sp - 64 + BitVec.ofNat 64 k = L.base + BitVec.ofNat 64 (f + k) := by
    have h64 : (64 : BitVec 64) = BitVec.ofNat 64 64 := rfl
    rw [hsp, BitVec.ofNat_add, ← BitVec.add_assoc, ← h64, BitVec.add_sub_cancel, BitVec.ofNat_add,
      BitVec.add_assoc]
  rw [haddr]
  exact inFile_atOff _ _ (by omega) (by omega)

/-- A pair stored in the frame. -/
theorem execOp_stp_frame (h : Interruptible L c) {d : Cpu} (hd : d.sp = c.sp - 64) (t u : Fin 31)
    {k : Nat} (hk : 8 * k + 16 ≤ 64) :
    execOp L (.stp t u (8 * k)) d
      = some { d with mem := WrapMem.writeList (c.sp - 64) k [d.x t, d.x u] d.mem } := by
  have hin : inFile L (sym .guestV3StackBottom) 16 (d.addr (8 * k)) = true := by
    rw [Cpu.addr, hd]
    exact h.inFile hk (Nat.le_refl _)
  have hnext : 8 * k + 8 = 8 * (k + 1) := by omega
  rw [execOp, if_pos hin, Cpu.addr, Cpu.addr, hd, hnext]
  rfl

theorem ops_saveFrame (h : Interruptible L c) :
    (isa L).ops [.subSp 64, .stp 0 1 (8 * 0), .stp 2 3 (8 * 2), .stp 29 30 (8 * 4)] c
      = some { c with
          sp := c.sp - 64
          mem := WrapMem.writeList (c.sp - 64) 0 (saved c) c.mem } := by
  rw [ops_cons, execOp, Option.bind_some, ops_cons, execOp_stp_frame h rfl 0 1 (by decide),
    Option.bind_some, ops_cons, execOp_stp_frame h rfl 2 3 (by decide), Option.bind_some,
    ops_single, execOp_stp_frame h rfl 29 30 (by decide)]
  rfl

/-- `ICC_IAR1_EL1` is read, and there is nothing. -/
theorem ops_readNone (hs : c.vif.signals = false) :
    (isa L).ops [.mrs 19 .iccIar1El1, .andImm 20 19 0xFFFFFF, .movImm 21 1023, .cmpReg 20 21] c
      = some { c with
          x := Function.update (Function.update (Function.update c.x 19 1023) 20 1023) 21 1023
          nzcv := cmpFlags 1023 1023
          seen := c.seen ++ [.iar 1023] } := by
  have hack : c.vif.acknowledge = (1023, c.vif) := if_neg (by rw [hs]; decide)
  have hlow : (1023 : BitVec 64) &&& 0xFFFFFF = 1023 := by decide
  rw [ops_cons, execOp, Cpu.mrs, hack]
  change some ({ c with
    x := Function.update (Function.update (Function.update c.x 19 1023) 20 (1023 &&& 0xFFFFFF)) 21
      1023
    nzcv := cmpFlags (1023 &&& 0xFFFFFF) 1023
    seen := c.seen ++ [.iar 1023] } : Cpu) = _
  rw [hlow]

/-- A pair loaded from the frame. -/
theorem execOp_ldp_frame (h : Interruptible L c) {e : Cpu} (he : e = entered c)
    (x : Fin 31 → BitVec 64) (seen : List Obs) (t u : Fin 31) {k : Nat} (hk : k + 1 < 6) :
    execOp L (.ldp t u (8 * k)) { e with x := x, seen := seen }
      = some { e with
          x := Function.update (Function.update x t ((saved c).getD k 0)) u
            ((saved c).getD (k + 1) 0)
          seen := seen } := by
  have haddr : ∀ j, Cpu.addr { e with x := x, seen := seen } j = (entered c).addr j := by
    intro j
    rw [he]
    rfl
  have hmem : e.mem = (entered c).mem := by
    rw [he]
  have hin : inFile L 0 16 ((entered c).addr (8 * k)) = true := by
    rw [Cpu.addr]
    exact h.inFile (by omega) (Nat.zero_le _)
  have hnext : 8 * k + 8 = 8 * (k + 1) := by omega
  rw [execOp, haddr, haddr, if_pos hin, hnext, hmem, read64_entered c (by omega),
    read64_entered c hk]
  rfl

/-- The completion of 1023. -/
theorem msr_eoir_none (h19 : c.x 19 = 1023) :
    c.msr (c.x 19) .iccEoir1El1 = { c with seen := c.seen ++ [.eoir 1023] } := by
  have hignored : c.vif.complete 1023 = c.vif := by
    unfold VirtIf.complete
    exact if_pos (by decide)
  rw [h19, Cpu.msr, hignored]
  rfl

/-- The registers once they are loaded back. -/
def restored (c : Cpu) (x : Fin 31 → BitVec 64) : Fin 31 → BitVec 64 :=
  let x := Function.update (Function.update x 29 (c.x 29)) 30 (c.x 30)
  let x := Function.update (Function.update x 2 (c.x 2)) 3 (c.x 3)
  Function.update (Function.update x 0 (c.x 0)) 1 (c.x 1)

theorem restored_eq (c : Cpu) {i : Fin 31} (hi : i ∉ [19, 20, 21]) :
    restored c (entered c).x i = c.x i := by
  have hkeep : ∀ (x : Fin 31 → BitVec 64) (t : Fin 31), x i = c.x i →
      Function.update x t (c.x t) i = c.x i := by
    intro x t hx
    by_cases hit : i = t
    · rw [hit, Function.update_self]
    · rw [Function.update_of_ne hit, hx]
  simp only [List.mem_cons, List.not_mem_nil, or_false, not_or] at hi
  have hx : (entered c).x i = c.x i := by
    simp only [entered, Function.update_of_ne hi.1, Function.update_of_ne hi.2.1,
      Function.update_of_ne hi.2.2]
  exact hkeep _ 1 (hkeep _ 0 (hkeep _ 3 (hkeep _ 2 (hkeep _ 30 (hkeep _ 29 hx)))))

/-- The handler from its test to its `eret`. -/
theorem ops_leave (h : Interruptible L c) {e : Cpu} (he : e = entered c) :
    (isa L).ops [.msr .iccEoir1El1 19, .isb, .ldp 29 30 (8 * 4), .ldp 2 3 (8 * 2), .ldp 0 1 (8 * 0),
        .addSp 64] e
      = some { e with
          x := restored c e.x
          sp := c.sp - 64 + 64
          seen := e.seen ++ [.eoir 1023] } := by
  have h19 : e.x 19 = 1023 := by
    rw [he]
    rfl
  have hsp : e.sp = c.sp - 64 := by
    rw [he]
    rfl
  rw [ops_cons, execOp, msr_eoir_none h19, Option.bind_some, ops_cons, execOp, Option.bind_some,
    ops_cons, execOp_ldp_frame h he _ _ 29 30 (by decide), Option.bind_some, ops_cons,
    execOp_ldp_frame h he _ _ 2 3 (by decide), Option.bind_some, ops_cons,
    execOp_ldp_frame h he _ _ 0 1 (by decide), Option.bind_some, ops_single, execOp, ← hsp]
  rfl

/-- The `eret`, to a guest that is in `C`. -/
theorem runs_eret {C : State → Prop} {off : Nat} (hcode : image.lookup off = some (.ctl .eret))
    (hlt : off < 2 ^ 64) (hq : Quiet c) (hel1h : isEl1h c.spsrEl1 = true)
    (hC : C (c.elrEl1, { c with nzcv := spsrNzcv c.spsrEl1, daif := spsrDaif c.spsrEl1 })) :
    Runs L C 1 (atOff L.base off c) := by
  have hstep : step L (atOff L.base off c)
      = some (c.elrEl1, { c with nzcv := spsrNzcv c.spsrEl1, daif := spsrDaif c.spsrEl1 }) :=
    (step_ctl (isa L) image L.base hlt hcode c).trans (if_pos hel1h)
  exact ⟨1, _, Nat.le_refl 1, .next hq hstep (.refl _), hC⟩

/-- The guest when the handler has returned. -/
def resumed (c : Cpu) : Cpu :=
  { entered c with
    x := restored c (entered c).x
    sp := c.sp - 64 + 64
    nzcv := spsrNzcv c.spsrEl1
    daif := spsrDaif c.spsrEl1
    seen := (entered c).seen ++ [.eoir 1023] }

/-- The handler, from its slot to its return. -/
theorem runs_spurious {C : State → Prop} (h : Interruptible L c) (hs : c.vif.signals = false)
    (hq : Quiet c) (hel1h : isEl1h c.spsrEl1 = true) (hC : C (c.elrEl1, resumed c)) :
    Runs L C 17 (atOff L.base 0xA80 c) := by
  obtain ⟨⟨h0, h1, h2, h3, h4, h5, h6, h7, -⟩, hbeq, -⟩ := codeAt_blocks.mp codeAt_irqEntry
  obtain ⟨hleave, heret, -⟩ := codeAt_blocks.mp codeAt_spuriousPath
  have hequal : (entered c).nzcv.getLsbD 2 = true := by
    rw [entered, (cmpFlags_bits _ _).2]
    rfl
  refine jump_then (n := 16) lookup_irqSlot (by decide) hq rfl ?_
  refine ops_then (n := 12) (l := [_, _, _, _]) ⟨h0, h1, h2, h3, trivial⟩ rfl (by decide) hq
    (ops_saveFrame h) fun hq => ?_
  refine ops_then (n := 8) (l := [_, _, _, _]) ⟨h4, h5, h6, h7, trivial⟩ rfl (by decide) hq
    (ops_readNone hs) fun hq => ?_
  refine jump_then (n := 7) (c := entered c) (e := 0x118) hbeq (by decide) hq ?_ ?_
  · rw [execCtl, if_pos hequal]
  · refine ops_then (n := 1) hleave rfl (by decide) hq (ops_leave h rfl) fun hq => ?_
    exact runs_eret heret (by decide) hq hel1h hC

theorem resumed_mem (c : Cpu) {a : BitVec 64} (ha : 48 ≤ (a - (c.sp - 64)).toNat) :
    (resumed c).mem a = c.mem a :=
  WrapMem.writeList_of_apart (c.sp - 64) (i := 0) (saved c) c.mem ha

end Handler

/-- **An interrupt that is gone is not felt.** Wherever the guest is interrupted
with its vectors installed and room on its stack: if the interface has nothing
for it, then within 17 instructions it continues where it was, with SP, its
flags, its masks and all general registers but `x19` to `x21` as they were, and
so are `ESR_EL1`, `VBAR_EL1` and all of memory but the six doublewords from 64
below SP on; the interface is as it was too. -/
theorem spurious_irq_resumes (L : Link) (s : State) (h : Interruptible L s.2)
    (hs : s.2.vif.signals = false) :
    Runs L (fun t => t.1 = s.1 ∧ Resumed s.2 t.2) 17 (enter 5 s) := by
  obtain ⟨hel1h, hnzcv, hdaif⟩ := packSpsr_fields s.2.nzcv s.2.daif
  have hsp : s.2.sp - 64 + 64 = s.2.sp := BitVec.sub_add_cancel _ _
  have hseen : s.2.seen ++ [.iar 1023] ++ [.eoir 1023] = s.2.seen ++ [.iar 1023, .eoir 1023] :=
    List.append_assoc _ _ _
  have hall : (0xF : BitVec 4).getLsbD 1 = true := rfl
  rw [enter_eq h.vbarEl1]
  refine runs_spurious ⟨h.vbarEl1, h.sp⟩ hs hall hel1h ⟨rfl, ?_⟩
  exact ⟨fun i hi => restored_eq _ hi, hsp, hnzcv, hdaif, rfl, rfl, fun a ha => resumed_mem _ ha,
    rfl, hseen⟩

/-- A guest in its loop, with nothing in the list register. -/
def idleCpu : Cpu where
  x := fun _ => 0
  sp := ramLink.base + BitVec.ofNat 64 0x2050
  nzcv := 0
  daif := 0xD
  elrEl1 := 0
  spsrEl1 := 0
  esrEl1 := 0
  vbarEl1 := ramLink.base + BitVec.ofNat 64 0x800
  mem := fileMem ramLink
  vif := { hcr := 1, vmcr := 0xFF000002, lr0 := 0, active := [] }
  seen := []

theorem spurious_irq_resumes_idle :
    Runs ramLink (fun t => t.1 = 0x4010003C ∧ Resumed idleCpu t.2) 17
      (enter 5 (0x4010003C, idleCpu)) := by
  refine spurious_irq_resumes ramLink (0x4010003C, idleCpu) ⟨rfl, 0x2010, rfl, ?_, ?_⟩ (by decide)
  · rw [sym_stackBottom]
    decide
  · rw [size_source]

end GuestV3

end ArmHyp
