import Mathlib.Algebra.Group.Nat.Defs

/-!
# Code as an assembler lays it out

A source file is a list of lines: instructions, four bytes each, and
alignment directives, which move the location counter on to a multiple.
`assemble` gives every instruction its address, so that where a piece of
code ends up depends on the size of everything before it. `CodeAt` says that
instructions stand one after the other from an address on.
-/

namespace ArmHyp

namespace Asm

variable {α : Type _}

inductive Line (α : Type _) where
  /-- `.balign n`. -/
  | balign (n : Nat)
  | insn (i : α)

/-- The first multiple of `n` from `a` on. -/
def alignUp (n a : Nat) : Nat := (a + n - 1) / n * n

/-- The instructions with their addresses, when the location counter is at `a`. -/
def assemble : Nat → List (Line α) → List (Nat × α)
  | _, [] => []
  | a, .balign n :: ls => assemble (alignUp n a) ls
  | a, .insn i :: ls => (a, i) :: assemble (a + 4) ls

/-- `is` stands at `a`. -/
def CodeAt (img : List (Nat × α)) (a : Nat) : List α → Prop
  | [] => True
  | i :: is => img.lookup a = some i ∧ CodeAt img (a + 4) is

instance codeAt_decidable [DecidableEq α] (img : List (Nat × α)) :
    ∀ (a : Nat) (is : List α), Decidable (CodeAt img a is)
  | _, [] => .isTrue trivial
  | a, _ :: is => @instDecidableAnd _ _ inferInstance (codeAt_decidable img (a + 4) is)

theorem codeAt_append {img : List (Nat × α)} {a : Nat} {is js : List α} :
    CodeAt img a (is ++ js) ↔ CodeAt img a is ∧ CodeAt img (a + 4 * is.length) js := by
  induction is generalizing a with
  | nil => exact (and_iff_right trivial).symm
  | cons i is ih =>
      have hnext : a + 4 + 4 * is.length = a + 4 * (i :: is).length := by
        rw [List.length_cons]
        omega
      rw [List.cons_append, CodeAt, ih, CodeAt, and_assoc, hnext]

end Asm

end ArmHyp
