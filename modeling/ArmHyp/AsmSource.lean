import Mathlib.Data.List.Infix
import ArmHyp.AsmLayout

/-!
# An assembly source file

The items of a source file in order: labels, instructions, data bytes, space
and alignment. The first pass walks the location counter over them and gives
every label its offset (`symbols`); the second walks it again and puts the
instructions and the bytes where they belong (`code`, `data`), with labels
resolved by the table of the first. All offsets are from the start of the
section, which the linker puts at a multiple of every alignment in it.
-/

namespace ArmHyp

namespace AsmSource

open Asm

variable {ℓ α β : Type _}

inductive Item (ℓ α : Type _) where
  | label (l : ℓ)
  | insn (i : α)
  /-- `.ascii`, `.byte`. -/
  | bytes (bs : List (BitVec 8))
  | skip (n : Nat)
  | balign (n : Nat)

/-- The location counter after an item. -/
def Item.next (a : Nat) : Item ℓ α → Nat
  | .label _ => a
  | .insn _ => a + 4
  | .bytes bs => a + bs.length
  | .skip n => a + n
  | .balign n => alignUp n a

/-- The first pass: where the labels are. -/
def symbols : Nat → List (Item ℓ α) → List (ℓ × Nat)
  | _, [] => []
  | a, .label l :: is => (l, a) :: symbols a is
  | a, i :: is => symbols (i.next a) is

/-- The second pass: the instructions, with their labels resolved. -/
def code (resolve : α → β) : Nat → List (Item ℓ α) → List (Nat × β)
  | _, [] => []
  | a, .insn i :: is => (a, resolve i) :: code resolve (a + 4) is
  | a, i :: is => code resolve (i.next a) is

/-- The data, one entry for each directive. -/
def data : Nat → List (Item ℓ α) → List (Nat × List (BitVec 8))
  | _, [] => []
  | a, .bytes bs :: is => (a, bs) :: data (a + bs.length) is
  | a, i :: is => data (i.next a) is

/-- The location counter at the end. -/
def size (is : List (Item ℓ α)) : Nat := is.foldl Item.next 0

/-- The offset of a label that occurs. -/
def offset [BEq ℓ] (is : List (Item ℓ α)) (l : ℓ) : Nat := ((symbols 0 is).lookup l).getD 0

/-- The bytes of a text in ASCII. -/
def chars (s : String) : List (BitVec 8) := s.toList.map fun c => BitVec.ofNat 8 c.toNat

/-- `.asciz`. -/
def asciz (s : String) : List (BitVec 8) := chars s ++ [0]

/-! ## Alignment -/

theorem le_alignUp {n : Nat} (hn : 0 < n) (a : Nat) : a ≤ alignUp n a := by
  have hdiv := Nat.div_add_mod (a + n - 1) n
  have hmod := Nat.mod_lt (a + n - 1) hn
  rw [alignUp, Nat.mul_comm]
  omega

theorem dvd_alignUp (n a : Nat) : n ∣ alignUp n a := Nat.dvd_mul_left n _

/-! ## Code in one piece -/

/-- `is` with its addresses, from `a` on. -/
def stretch : Nat → List α → List (Nat × α)
  | _, [] => []
  | a, i :: is => (a, i) :: stretch (a + 4) is

theorem lookup_of_mem {img : List (Nat × α)} (hs : img.Pairwise fun p q => p.1 < q.1) {a : Nat}
    {i : α} (h : (a, i) ∈ img) : img.lookup a = some i := by
  induction img with
  | nil => cases h
  | cons p img ih =>
      obtain ⟨hlt, hs⟩ := List.pairwise_cons.mp hs
      rw [List.lookup_cons]
      obtain rfl | hmem := List.mem_cons.mp h
      · rw [beq_self_eq_true]
      · have hne : (a == p.1) = false := beq_false_of_ne (hlt _ hmem).ne'
        rw [hne]
        exact ih hs hmem

/-- Where addresses increase, code that stands in one piece stands at its
address. -/
theorem codeAt_of_infix {img : List (Nat × α)} (hs : img.Pairwise fun p q => p.1 < q.1) {a : Nat}
    {is : List α} (h : stretch a is <:+: img) : CodeAt img a is := by
  have hmem := h.subset
  clear h
  induction is generalizing a with
  | nil => trivial
  | cons i is ih =>
      refine ⟨lookup_of_mem hs (hmem (.head _)), ih fun p hp => ?_⟩
      exact hmem (.tail _ hp)

end AsmSource

end ArmHyp
