import ArmHyp.GuestV3
import ArmHyp.Machine

/-!
# What the guest's subroutines do

What the assembler makes of the file is said once (`assembled`). A piece of
it is run with one lemma for a straight line (`ops_then`) and one for a
branch (`ctl_then`); the subroutines then have specifications of the form
"it is back at its return address within so many instructions, has sent
this, and kept the rest" (`runs_puts`, `runs_hexNibble`, `runs_putc`), from
which their callers are put together with `runs_call`.
-/

namespace ArmHyp

namespace GuestV3

open Asm AsmSource AsmRun

/-! ## Where things are -/

/-- A straight line and the branch after it. -/
abbrev Block := List (Op Nat) × Ctl Nat

def startCode : List Block :=
  [([.adr 0 0x2050, .movSp 0, .adr 0 0x800, .msr .vbarEl1 0, .isb, .movImm 0 1,
      .msr .iccSreEl1 0, .isb, .movImm 0 0xFF, .msr .iccPmrEl1 0, .movImm 0 1,
      .msr .iccIgrpen1El1 0, .isb], .bl 0x74),
    ([], .daifclr 0x2), ([.wfe], .b 0x3C)]

def putcCode : List Block := [([.movImm 1 pl011Dr, .strw 0 1], .ret)]

def putsCode : List Block :=
  [([.movReg 2 0, .movReg 3 30, .movImm 1 pl011Dr, .ldrb 0 2 1], .cbz 0 0x6C),
    ([.strw 0 1], .b 0x5C), ([.movReg 30 3], .ret)]

def bannerCode : List Block :=
  [([.movReg 29 30, .adr 0 0x88], .bl 0x50), ([.movReg 30 29], .ret)]

def irqEntryCode : List Block :=
  [([.subSp 64, .stp 0 1 0, .stp 2 3 16, .stp 29 30 32, .mrs 19 .iccIar1El1,
      .andImm 20 19 0xFFFFFF, .movImm 21 1023, .cmpReg 20 21], .bEq 0x118),
    ([.adr 0 0x15C], .bl 0x50),
    ([.andImm 20 19 0xFF, .lsr 0 20 4], .bl 0x134),
    ([.andImm 0 20 0xF], .bl 0x134),
    ([.movImm 0 0x0A], .bl 0x44),
    ([.msr .iccEoir1El1 19, .isb, .adr 0 0x170], .bl 0x50),
    ([.daifset 0xF, .wfe], .b 0x110)]

def spuriousCode : List Block :=
  [([.msr .iccEoir1El1 19, .isb, .ldp 29 30 32, .ldp 2 3 16, .ldp 0 1 0, .addSp 64], .eret)]

def hexNibbleCode : List Block :=
  [([.movReg 2 30, .cmpImm 0 9], .bHi 0x148), ([.addImm 0 0 0x30], .b 0x14C),
    ([.addImm 0 0 (0x61 - 10), .movImm 1 pl011Dr, .strw 0 1, .movReg 30 2], .ret)]

def badCode : List Block :=
  [([.adr 0 0x1024], .bl 0x50),
    ([.movReg 0 21, .lsr 0 0 4, .andImm 0 0 0xF], .bl 0x134),
    ([.movReg 0 21, .andImm 0 0 0xF], .bl 0x134),
    ([.adr 0 0x103C], .bl 0x50)]

/-- The shifts of the seven digits that have one. -/
def esrShifts : List Nat := [28, 24, 20, 16, 12, 8, 4]

/-- The blocks that send one digit each. -/
def digitBlocks (shs : List Nat) : List Block :=
  shs.map fun sh => ([.lsr 0 22 sh, .andImm 0 0 0xF], .bl 0x134)

def lastCode : List Block :=
  [([.andImm 0 22 0xF], .bl 0x134), ([.movImm 0 0x0A], .bl 0x44), ([.wfe], .b 0x101C)]

/-- `1: wfe; b 1b`, at `off`. -/
def loopCode (off : Nat) : List Block := [([.wfe], .b off)]

/-- The code that runs, by its offset. -/
def listing : List (Nat × List Block) :=
  [(0, startCode), (0x3C, loopCode 0x3C), (0x44, putcCode), (0x50, putsCode), (0x74, bannerCode),
    (0xB4, irqEntryCode), (0x110, loopCode 0x110), (0x118, spuriousCode), (0x134, hexNibbleCode),
    (0xF88, badCode), (0xFB8, digitBlocks esrShifts), (0x100C, lastCode),
    (0x101C, loopCode 0x101C)]

/-- What the two passes make of the file. They walk over all the texts, so they
are evaluated here and nowhere else. -/
theorem assembled :
    size source = 0x2050 ∧ sym .guestV3StackBottom = 0x1050
      ∧ data 0 source = [(0x88, asciz bannerText), (0x15C, asciz gotIrqText),
        (0x170, asciz doneText), (0x1024, asciz badMsgText), (0x103C, asciz badEsrText)]
      ∧ (∀ p ∈ listing, CodeAt image p.1 (blocks p.2))
      ∧ image.lookup 0xA80 = some (.ctl (.b 0xB4))
      ∧ image.lookup 0xFB4 = some (.op (.mrs 22 .esrEl1))
      ∧ ∀ k : Fin 16, k ≠ 5 → CodeAt image (0x800 + 0x80 * k.val)
        (blocks [([.movImm 21 (BitVec.ofNat 64 k.val)], .b 0xF88)]) := by
  decide +kernel

theorem size_source : size source = 0x2050 := assembled.1

theorem sym_stackBottom : sym .guestV3StackBottom = 0x1050 := assembled.2.1

theorem data_source : data 0 source =
    [(0x88, asciz bannerText), (0x15C, asciz gotIrqText), (0x170, asciz doneText),
      (0x1024, asciz badMsgText), (0x103C, asciz badEsrText)] := assembled.2.2.1

theorem codeAt_listing {i off : Nat} {bs : List Block} (h : listing[i]? = some (off, bs)) :
    CodeAt image off (blocks bs) := assembled.2.2.2.1 _ (List.mem_of_getElem? h)

theorem codeAt_putc : CodeAt image 0x44 (blocks putcCode) := codeAt_listing (i := 2) rfl

theorem codeAt_puts : CodeAt image 0x50 (blocks putsCode) := codeAt_listing (i := 3) rfl

theorem codeAt_hexNibble : CodeAt image 0x134 (blocks hexNibbleCode) :=
  codeAt_listing (i := 8) rfl

/-! ## Straight lines and branches -/

section Rules

variable {L : Link} {C : State → Prop} {c d : Cpu} {n off e : Nat}

/-- Within `n` instructions, with IRQs masked, the guest is in `C`. -/
abbrev Runs (L : Link) (C : State → Prop) (n : Nat) (s : State) : Prop :=
  Within (step L) (fun s => Quiet s.2) C n s

/-- At `off`, with a CPU in `P`. -/
def At (L : Link) (off : Nat) (P : Cpu → Prop) (s : State) : Prop :=
  ∃ c, s = atOff L.base off c ∧ P c

theorem execOp_quiet {i : Op Nat} (hc : Quiet c) (h : execOp L i c = some d) : Quiet d := by
  unfold Quiet at *
  cases i with
  | daifset imm =>
      obtain rfl := Option.some.inj h
      rw [BitVec.getLsbD_or, hc, Bool.true_or]
  | msr r n =>
      obtain rfl := Option.some.inj h
      cases r <;> exact hc
  | mrs d r =>
      obtain rfl := Option.some.inj h
      cases r <;> exact hc
  | strw | ldrb | stp | ldp =>
      simp only [execOp, Option.ite_none_right_eq_some, Option.some.injEq] at h
      obtain ⟨-, rfl⟩ := h
      exact hc
  | _ =>
      obtain rfl := Option.some.inj h
      exact hc

theorem Quiet.setX (h : Quiet c) {i : Fin 31} {v : BitVec 64} : Quiet (c.setX i v) := h

/-- A straight line, and then the rest. -/
theorem ops_then {l : List (Op Nat)} (hcode : CodeAt image off (l.map .op))
    (he : off + 4 * l.length = e) (hlt : e < 2 ^ 64) (hc : Quiet c)
    (hrun : (isa L).ops l c = some d) (hrest : Quiet d → Runs L C n (atOff L.base e d)) :
    Runs L C (l.length + n) (atOff L.base off c) := by
  subst he
  obtain ⟨hpath, hq⟩ := path_ops (Q := Quiet) (fun _ _ _ => execOp_quiet) hcode hlt hc hrun
  exact hpath.within (hrest hq)

theorem ops_cons (i : Op Nat) (l : List (Op Nat)) (c : Cpu) :
    (isa L).ops (i :: l) c = (execOp L i c).bind ((isa L).ops l) := rfl

theorem ops_single (i : Op Nat) (c : Cpu) : (isa L).ops [i] c = execOp L i c :=
  Option.bind_fun_some (execOp L i c)

/-- A branch, and then the rest. -/
theorem ctl_then {i : Ctl Nat} (hcode : image.lookup off = some (.ctl i)) (hlt : off < 2 ^ 64)
    (hc : Quiet c)
    (hctl : execCtl L i (L.base + BitVec.ofNat 64 off) c = some (atOff L.base e d))
    (hrest : Runs L C n (atOff L.base e d)) : Runs L C (1 + n) (atOff L.base off c) :=
  (path_ctl (Q := Quiet) hcode hlt hc hctl).within hrest

theorem pc_next (off : Nat) :
    L.base + BitVec.ofNat 64 off + 4 = L.base + BitVec.ofNat 64 (off + 4) := by
  rw [BitVec.ofNat_add, BitVec.add_assoc]
  rfl

/-- A branch that is taken. -/
theorem jump_then {i : Ctl Nat} (hcode : image.lookup off = some (.ctl i)) (hlt : off < 2 ^ 64)
    (hc : Quiet c)
    (hctl : execCtl L i (L.base + BitVec.ofNat 64 off) c = some (atOff L.base e c))
    (hrest : Runs L C n (atOff L.base e c)) : Runs L C (1 + n) (atOff L.base off c) :=
  ctl_then hcode hlt hc hctl hrest

/-- A branch that is not. -/
theorem fall_then {i : Ctl Nat} (hcode : image.lookup off = some (.ctl i)) (hlt : off < 2 ^ 64)
    (hc : Quiet c)
    (hctl : execCtl L i (L.base + BitVec.ofNat 64 off) c
      = some (L.base + BitVec.ofNat 64 off + 4, c))
    (hrest : Runs L C n (atOff L.base (off + 4) c)) : Runs L C (1 + n) (atOff L.base off c) := by
  refine ctl_then hcode hlt hc ?_ hrest
  rw [hctl, pc_next]
  rfl

end Rules

/-! ## What a subroutine keeps -/

/-- Registers the subroutines use. -/
def scratch : List (Fin 31) := [0, 1, 2, 3, 30]

/-- From `c` to `c'` the guest has sent `out`, and otherwise only used the
scratch registers and the flags. -/
structure Sent (out : List (BitVec 8)) (c c' : Cpu) : Prop where
  x : ∀ i, i ∉ scratch → c'.x i = c.x i
  sp : c'.sp = c.sp
  daif : c'.daif = c.daif
  elrEl1 : c'.elrEl1 = c.elrEl1
  spsrEl1 : c'.spsrEl1 = c.spsrEl1
  esrEl1 : c'.esrEl1 = c.esrEl1
  vbarEl1 : c'.vbarEl1 = c.vbarEl1
  mem : c'.mem = c.mem
  vif : c'.vif = c.vif
  seen : c'.seen = c.seen ++ out.map .tx

namespace Sent

theorem refl (c : Cpu) : Sent [] c c :=
  ⟨fun _ _ => rfl, rfl, rfl, rfl, rfl, rfl, rfl, rfl, rfl, (List.append_nil _).symm⟩

variable {out : List (BitVec 8)} {c c' : Cpu} (h : Sent out c c')

include h

theorem quiet (hc : Quiet c) : Quiet c' := by
  unfold Quiet
  rw [h.daif]
  exact hc

/-- A scratch register is set. -/
theorem setX {i : Fin 31} (hi : i ∈ scratch) (v : BitVec 64) : Sent out c (c'.setX i v) where
  x := by
    intro j hj
    have hne : j ≠ i := fun hji => hj (hji ▸ hi)
    rw [← h.x j hj]
    exact Function.update_of_ne hne v c'.x
  sp := h.sp
  daif := h.daif
  elrEl1 := h.elrEl1
  spsrEl1 := h.spsrEl1
  esrEl1 := h.esrEl1
  vbarEl1 := h.vbarEl1
  mem := h.mem
  vif := h.vif
  seen := h.seen

theorem flags (f : BitVec 4) : Sent out c { c' with nzcv := f } :=
  ⟨h.x, h.sp, h.daif, h.elrEl1, h.spsrEl1, h.esrEl1, h.vbarEl1, h.mem, h.vif, h.seen⟩

/-- A byte is sent. -/
theorem tx (b : BitVec 8) : Sent (out ++ [b]) c (c'.see (.tx b)) := by
  refine ⟨h.x, h.sp, h.daif, h.elrEl1, h.spsrEl1, h.esrEl1, h.vbarEl1, h.mem, h.vif, ?_⟩
  rw [List.map_append, ← List.append_assoc, ← h.seen]
  rfl

end Sent

/-! ## Subroutines -/

section Subroutines

variable {L : Link} {c₀ c : Cpu} {out : List (BitVec 8)} {off r : Nat}

/-- `ret`, to `r`. -/
theorem runs_ret {P : Cpu → Prop} (hcode : image.lookup off = some (.ctl .ret))
    (hlt : off < 2 ^ 64) (hc : Quiet c) (hx : c.x 30 = L.base + BitVec.ofNat 64 r) (hP : P c) :
    Runs L (At L r P) 1 (atOff L.base off c) := by
  refine ctl_then hcode hlt hc (d := c) (e := r) ?_ (.here ⟨c, rfl, hP⟩ 0)
  rw [execCtl, hx]
  rfl

/-- `bl`, to a subroutine that returns. -/
theorem runs_call {P : Cpu → Prop} {l n : Nat} (hcode : image.lookup off = some (.ctl (.bl l)))
    (hlt : off < 2 ^ 64) (hc : Quiet c)
    (hsub : Runs L (At L (off + 4) P) n
      (atOff L.base l (c.setX 30 (L.base + BitVec.ofNat 64 (off + 4))))) :
    Runs L (At L (off + 4) P) (1 + n) (atOff L.base off c) := by
  rw [← pc_next] at hsub
  exact ctl_then hcode hlt hc rfl hsub

/-- `guest_v3_putc`. -/
theorem runs_putc (h : Sent out c₀ c) (hc : Quiet c) (hx : c.x 30 = L.base + BitVec.ofNat 64 r) :
    Runs L (At L r (Sent (out ++ [(c.x 0).setWidth 8]) c₀)) 3 (atOff L.base 0x44 c) := by
  obtain ⟨hops, hret, -⟩ := codeAt_blocks.mp codeAt_putc
  refine ops_then (n := 1) hops rfl (by decide) hc rfl fun hq => ?_
  exact runs_ret hret (by decide) hq hx ((h.setX (by decide) _).tx _)

/-- The carry and the zero flag of `cmp a, b`. -/
theorem cmpFlags_bits (a b : BitVec 64) :
    (cmpFlags a b).getLsbD 1 = decide (b ≤ a) ∧ (cmpFlags a b).getLsbD 2 = decide (a = b) := by
  have hbits : ∀ n z c v : Bool,
      (BitVec.ofBool n ++ BitVec.ofBool z ++ BitVec.ofBool c ++ BitVec.ofBool v).getLsbD 1 = c
        ∧ (BitVec.ofBool n ++ BitVec.ofBool z ++ BitVec.ofBool c ++ BitVec.ofBool v).getLsbD 2
          = z := by
    decide
  exact hbits _ _ _ _

/-- `b.hi` after `cmp a, b`. -/
theorem cmpFlags_hi (a b : BitVec 64) :
    ((cmpFlags a b).getLsbD 1 && !(cmpFlags a b).getLsbD 2) = decide (b < a) := by
  rw [(cmpFlags_bits a b).1, (cmpFlags_bits a b).2, ← decide_not, ← Bool.decide_and,
    decide_eq_decide, BitVec.le_def, BitVec.lt_def, ← BitVec.toNat_inj]
  omega

/-- The end of `guest_v3_hex_nibble`, from `2:`. -/
theorem runs_nibblePut (h : Sent out c₀ c) (hc : Quiet c)
    (hret : c.x 2 = L.base + BitVec.ofNat 64 r) {b : BitVec 8} (hx : (c.x 0).setWidth 8 = b) :
    Runs L (At L r (Sent (out ++ [b]) c₀)) 4 (atOff L.base 0x14C c) := by
  subst hx
  obtain ⟨-, -, hrest⟩ := codeAt_blocks.mp codeAt_hexNibble
  obtain ⟨-, -, hrest⟩ := codeAt_blocks.mp hrest
  obtain ⟨⟨-, hops⟩, hcodeRet, -⟩ := codeAt_blocks.mp hrest
  refine ops_then (n := 1) hops rfl (by decide) hc rfl fun hq => ?_
  exact runs_ret hcodeRet (by decide) hq hret
    (((h.setX (by decide) _).tx _).setX (by decide) _)

/-- The digits that `add x0, x0, #'0'` and `add x0, x0, #('a' - 10)` make. -/
theorem hexDigit_add : ∀ v < 16,
    (v ≤ 9 → (BitVec.ofNat 64 v + 0x30).setWidth 8 = Machine.hexDigit v)
      ∧ (9 < v → (BitVec.ofNat 64 v + (0x61 - 10)).setWidth 8 = Machine.hexDigit v) := by
  decide

/-- `guest_v3_hex_nibble`. -/
theorem runs_hexNibble (h : Sent out c₀ c) (hc : Quiet c)
    (hret : c.x 30 = L.base + BitVec.ofNat 64 r) {v : Nat} (hv : v < 16)
    (hx : c.x 0 = BitVec.ofNat 64 v) :
    Runs L (At L r (Sent (out ++ [Machine.hexDigit v]) c₀)) 9 (atOff L.base 0x134 c) := by
  obtain ⟨hops, hbhi, hrest⟩ := codeAt_blocks.mp codeAt_hexNibble
  obtain ⟨hdigit, hb, hrest⟩ := codeAt_blocks.mp hrest
  obtain ⟨⟨hletter, -⟩, -⟩ := codeAt_blocks.mp hrest
  have hflags : ((cmpFlags (c.x 0) 9).getLsbD 1 && !(cmpFlags (c.x 0) 9).getLsbD 2)
      = decide (9 < v) := by
    rw [cmpFlags_hi, decide_eq_decide, hx, BitVec.lt_def, BitVec.toNat_ofNat,
      Nat.mod_eq_of_lt (by omega)]
    rfl
  -- the return address moves to `x2`
  obtain ⟨d, hrun, hd, hdx, hdret, hhi⟩ : ∃ d, (isa L).ops [.movReg 2 30, .cmpImm 0 9] c = some d
      ∧ Sent out c₀ d ∧ d.x 0 = BitVec.ofNat 64 v ∧ d.x 2 = L.base + BitVec.ofNat 64 r
      ∧ (d.nzcv.getLsbD 1 && !d.nzcv.getLsbD 2) = decide (9 < v) :=
    ⟨_, rfl, (h.setX (by decide) _).flags _, hx, hret, hflags⟩
  refine ops_then (n := 7) hops rfl (by decide) hc hrun fun hq => ?_
  by_cases h9 : 9 < v
  · refine (jump_then (n := 5) (e := 0x148) hbhi (by decide) hq ?_ ?_).mono (by decide)
    · rw [execCtl, hhi, decide_eq_true h9, if_pos rfl]
    · refine ops_then (n := 4) (l := [_]) ⟨hletter, trivial⟩ rfl (by decide) hq rfl fun hq' => ?_
      refine runs_nibblePut (hd.setX (by decide) _) hq' hdret ?_
      rw [← (hexDigit_add v hv).2 h9, ← hdx]
      rfl
  · refine fall_then (n := 6) hbhi (by decide) hq ?_ ?_
    · rw [execCtl, hhi, decide_eq_false h9, if_neg (by decide)]
    · refine ops_then (n := 5) hdigit rfl (by decide) hq rfl fun hq' => ?_
      refine jump_then (n := 4) hb (by decide) hq' rfl ?_
      refine runs_nibblePut (hd.setX (by decide) _) hq' hdret ?_
      rw [← (hexDigit_add v hv).1 (by omega), ← hdx]
      rfl

/-- A digit goes to `x0` and is sent. -/
theorem runs_digit {l : List (Op Nat)} {d : Cpu} {e v : Nat}
    (hcode : CodeAt image off (l.map .op)) (he : off + 4 * l.length = e) (hlt : e < 2 ^ 64)
    (hbl : image.lookup e = some (.ctl (.bl 0x134))) (hc : Quiet c)
    (hrun : (isa L).ops l c = some d) (hd : Sent out c₀ d) (hv : v < 16)
    (hx : d.x 0 = BitVec.ofNat 64 v) :
    Runs L (At L (e + 4) (Sent (out ++ [Machine.hexDigit v]) c₀)) (l.length + 10)
      (atOff L.base off c) := by
  refine ops_then (n := 10) hcode he hlt hc hrun fun hq => ?_
  exact runs_call (n := 9) hbl hlt hq (runs_hexNibble (hd.setX (by decide) _) hq.setX rfl hv hx)

/-- The string `s`, with its NUL, at offset `off`. -/
def CStrAt (L : Link) (μ : WrapMem) : Nat → List (BitVec 8) → Prop
  | off, [] => off < size source ∧ μ (L.base + BitVec.ofNat 64 off) = 0
  | off, b :: s => off < size source ∧ μ (L.base + BitVec.ofNat 64 off) = b ∧ b ≠ 0
      ∧ CStrAt L μ (off + 1) s

theorem inFile_atOff (lo n : Nat) (hlo : lo ≤ off) (hn : off + n ≤ size source) :
    inFile L lo n (L.base + BitVec.ofNat 64 off) = true := by
  have hback : (L.base + BitVec.ofNat 64 off - L.base).toNat = off := by
    rw [size_source] at hn
    rw [BitVec.add_comm, BitVec.add_sub_cancel, BitVec.toNat_ofNat, Nat.mod_eq_of_lt (by omega)]
  rw [inFile, hback, decide_eq_true hlo, decide_eq_true hn]
  rfl

theorem CStrAt.inFile {s : List (BitVec 8)} (h : CStrAt L c.mem off s) :
    GuestV3.inFile L 0 1 (L.base + BitVec.ofNat 64 off) = true := by
  cases s with
  | nil => exact inFile_atOff 0 1 (Nat.zero_le _) h.1
  | cons b s => exact inFile_atOff 0 1 (Nat.zero_le _) h.1

/-- `ldrb w0, [x2], #1` from the file. -/
theorem ops_ldrb (hin : inFile L 0 1 (L.base + BitVec.ofNat 64 off) = true)
    (hx : c.x 2 = L.base + BitVec.ofNat 64 off) :
    (isa L).ops [.ldrb 0 2 1] c
      = some ((c.setX 2 (L.base + BitVec.ofNat 64 (off + 1))).setX 0
          ((c.mem (L.base + BitVec.ofNat 64 off)).setWidth 64)) := by
  have hnext : L.base + BitVec.ofNat 64 off + BitVec.ofNat 64 1
      = L.base + BitVec.ofNat 64 (off + 1) := by
    rw [BitVec.ofNat_add, BitVec.add_assoc]
  rw [ops_single, execOp, hx, if_pos hin, hnext]

/-- The loop of `guest_v3_puts`, from `1:`: four instructions for a byte. -/
theorem runs_putsLoop {s : List (BitVec 8)} (h : Sent out c₀ c) (hc : Quiet c)
    (hptr : c.x 2 = L.base + BitVec.ofNat 64 off) (hret : c.x 3 = L.base + BitVec.ofNat 64 r)
    (hdr : c.x 1 = pl011Dr) (hstr : CStrAt L c.mem off s) :
    Runs L (At L r (Sent (out ++ s) c₀)) (4 * s.length + 4) (atOff L.base 0x5C c) := by
  obtain ⟨⟨-, -, -, hldrb⟩, hcbz, hloop⟩ := codeAt_blocks.mp codeAt_puts
  obtain ⟨hstr', hb, hloop⟩ := codeAt_blocks.mp hloop
  obtain ⟨hmov, hcodeRet, -⟩ := codeAt_blocks.mp hloop
  induction s generalizing c out off with
  | nil =>
      obtain ⟨-, hnul⟩ := id hstr
      refine ops_then (n := 3) hldrb rfl (by decide) hc (ops_ldrb hstr.inFile hptr) fun hq => ?_
      rw [hnul]
      refine jump_then (n := 2) hcbz (by decide) hq rfl ?_
      refine ops_then (n := 1) hmov rfl (by decide) hq rfl fun hq' => ?_
      refine runs_ret hcodeRet (by decide) hq' hret ?_
      rw [List.append_nil]
      exact ((h.setX (by decide) _).setX (by decide) _).setX (by decide) _
  | cons b s ih =>
      obtain ⟨-, hbyte, hne, hrest⟩ := id hstr
      obtain ⟨d, hrun, hd, hdx, hdptr, hdret, hddr, hdmem⟩ : ∃ d,
          (isa L).ops [.ldrb 0 2 1] c = some d ∧ Sent out c₀ d ∧ d.x 0 = b.setWidth 64
            ∧ d.x 2 = L.base + BitVec.ofNat 64 (off + 1) ∧ d.x 3 = L.base + BitVec.ofNat 64 r
            ∧ d.x 1 = pl011Dr ∧ d.mem = c.mem :=
        ⟨_, ops_ldrb hstr.inFile hptr, (h.setX (by decide) _).setX (by decide) _,
          by rw [hbyte]; rfl, rfl, hret, hdr, rfl⟩
      have hsend : (isa L).ops [.strw 0 1] d = some (d.see (.tx b)) := by
        have hb8 : (b.setWidth 64).setWidth 8 = b := by simp
        rw [ops_single, execOp, if_pos hddr, hdx, hb8]
      have hnz : ¬(d.x 0).setWidth 32 = (0 : BitVec 32) := by
        intro hz
        apply hne
        have hb32 : ((d.x 0).setWidth 32).setWidth 8 = b := by
          rw [hdx]
          simp
        rw [← hb32, hz]
        rfl
      have hbound : 4 * (b :: s).length + 4 = 1 + (1 + (1 + (1 + (4 * s.length + 4)))) := by
        rw [List.length_cons]
        omega
      rw [hbound]
      refine ops_then hldrb rfl (by decide) hc hrun fun hq => ?_
      refine fall_then hcbz (by decide) hq (congrArg some (if_neg hnz)) ?_
      refine ops_then hstr' rfl (by decide) hq hsend fun hq' => ?_
      refine jump_then hb (by decide) hq' rfl ?_
      have hgo := ih (hd.tx b) hq' hdptr hdret hddr (hdmem.symm ▸ hrest)
      rw [List.append_assoc] at hgo
      exact hgo

/-- `guest_v3_puts`. -/
theorem runs_puts {s : List (BitVec 8)} (h : Sent out c₀ c) (hc : Quiet c)
    (hptr : c.x 0 = L.base + BitVec.ofNat 64 off) (hret : c.x 30 = L.base + BitVec.ofNat 64 r)
    (hstr : CStrAt L c.mem off s) :
    Runs L (At L r (Sent (out ++ s) c₀)) (4 * s.length + 7) (atOff L.base 0x50 c) := by
  obtain ⟨⟨h0, h1, h2, -⟩, -⟩ := codeAt_blocks.mp codeAt_puts
  have hbound : 4 * s.length + 7 = 3 + (4 * s.length + 4) := by omega
  rw [hbound]
  refine ops_then (l := [_, _, _]) ⟨h0, h1, h2, trivial⟩ rfl (by decide) hc rfl fun hq => ?_
  exact runs_putsLoop (((h.setX (by decide) _).setX (by decide) _).setX (by decide) _) hq hptr hret
    rfl hstr

end Subroutines

end GuestV3

end ArmHyp
