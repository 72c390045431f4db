import Mathlib.Algebra.Group.Nat.Defs
import ArmHyp.AsmLayout
import ArmHyp.Checkpoints

/-!
# Running an assembled program

A program is a list of instructions by offset, loaded at an address. The
machine fetches from the program counter and executes; `none` is an
instruction fetched where there is none, or an access the model of the CPU
does not cover. Instructions that fall through are `op`s: a straight line of
them is one fold over the state (`path_ops`). The others set the program
counter and are taken one at a time (`path_ctl`).
-/

namespace ArmHyp

namespace AsmRun

open Asm

/-- An instruction that falls through, or one that sets the program counter. -/
inductive Insn (ο κ : Type _) where
  | op (i : ο)
  | ctl (i : κ)
deriving DecidableEq

/-- What the instructions do; `ctl` is given the program counter. -/
structure Isa (ο κ σ : Type _) where
  op : ο → σ → Option σ
  ctl : κ → BitVec 64 → σ → Option (BitVec 64 × σ)

/-- A straight line. -/
def Isa.ops {ο κ σ : Type _} (isa : Isa ο κ σ) : List ο → σ → Option σ
  | [], c => some c
  | i :: is, c => (isa.op i c).bind (isa.ops is)

/-- Code as straight lines that each end in a `ctl`. -/
def blocks {ο κ : Type _} (bs : List (List ο × κ)) : List (Insn ο κ) :=
  bs.flatMap fun b => b.1.map .op ++ [.ctl b.2]

theorem codeAt_blocks {ο κ : Type _} {img : List (Nat × Insn ο κ)} {off : Nat} {is : List ο} {j : κ}
    {bs : List (List ο × κ)} :
    CodeAt img off (blocks ((is, j) :: bs)) ↔ CodeAt img off (is.map .op)
      ∧ img.lookup (off + 4 * is.length) = some (.ctl j)
      ∧ CodeAt img (off + 4 * is.length + 4) (blocks bs) := by
  rw [blocks, List.flatMap_cons, List.append_assoc, codeAt_append, List.length_map]
  rfl

variable {ο κ σ : Type _} (isa : Isa ο κ σ) (img : List (Nat × Insn ο κ)) (base : BitVec 64)

/-- One instruction of the program at `base`. -/
def step (s : BitVec 64 × σ) : Option (BitVec 64 × σ) :=
  match img.lookup (s.1 - base).toNat with
  | some (.op i) => (isa.op i s.2).map fun c => (s.1 + 4, c)
  | some (.ctl i) => isa.ctl i s.1 s.2
  | none => none

/-- At offset `off` of the program. -/
def atOff (off : Nat) (c : σ) : BitVec 64 × σ := (base + BitVec.ofNat 64 off, c)

section Steps

variable {off : Nat} (hoff : off < 2 ^ 64)

include hoff

theorem lookup_atOff (c : σ) :
    img.lookup ((atOff base off c).1 - base).toNat = img.lookup off := by
  rw [atOff, BitVec.add_comm, BitVec.add_sub_cancel, BitVec.toNat_ofNat, Nat.mod_eq_of_lt hoff]

theorem step_op {i : ο} (hcode : img.lookup off = some (.op i)) (c : σ) :
    step isa img base (atOff base off c) = (isa.op i c).map (atOff base (off + 4)) := by
  have hnext : base + BitVec.ofNat 64 off + 4 = base + BitVec.ofNat 64 (off + 4) := by
    rw [BitVec.ofNat_add, BitVec.add_assoc]
    rfl
  rw [step, lookup_atOff img base hoff, hcode]
  simp only [atOff, hnext]
  rfl

theorem step_ctl {i : κ} (hcode : img.lookup off = some (.ctl i)) (c : σ) :
    step isa img base (atOff base off c) = isa.ctl i (base + BitVec.ofNat 64 off) c := by
  rw [step, lookup_atOff img base hoff, hcode]
  rfl

end Steps

/-! ## Paths -/

section Paths

variable {isa img base} {Q : σ → Prop}

/-- A straight line with interrupts masked, of instructions that do not unmask
them. -/
theorem path_ops (hquiet : ∀ i c c', Q c → isa.op i c = some c' → Q c') {is : List ο}
    {off : Nat} (hcode : CodeAt img off (is.map .op)) (hoff : off + 4 * is.length < 2 ^ 64)
    {c c' : σ} (hc : Q c) (hrun : isa.ops is c = some c') :
    Path (step isa img base) (fun s => Q s.2) is.length (atOff base off c)
        (atOff base (off + 4 * is.length) c')
      ∧ Q c' := by
  induction is generalizing off c with
  | nil =>
      obtain rfl : c = c' := Option.some.inj hrun
      exact ⟨.refl _, hc⟩
  | cons i is ih =>
      rw [List.length_cons] at hoff
      obtain ⟨hi, his⟩ := hcode
      obtain ⟨d, hd, hrest⟩ := Option.bind_eq_some_iff.mp hrun
      have hend : off + 4 + 4 * is.length = off + 4 * (is.length + 1) := by omega
      obtain ⟨hpath, hc'⟩ := ih his (by omega) (hquiet i c d hc hd) hrest
      rw [hend] at hpath
      refine ⟨.next hc ?_ hpath, hc'⟩
      rw [step_op isa img base (by omega) hi, hd]
      rfl

/-- One instruction that sets the program counter. -/
theorem path_ctl {i : κ} {off off' : Nat} (hcode : img.lookup off = some (.ctl i))
    (hoff : off < 2 ^ 64) {c c' : σ} (hc : Q c)
    (hctl : isa.ctl i (base + BitVec.ofNat 64 off) c = some (atOff base off' c')) :
    Path (step isa img base) (fun s => Q s.2) 1 (atOff base off c) (atOff base off' c') := by
  refine .next hc ?_ (.refl _)
  rw [step_ctl isa img base hoff hcode, hctl]

end Paths

end AsmRun

end ArmHyp
