import Mathlib.Algebra.Group.Nat.Defs
import Mathlib.Tactic.ByContra
import Mathlib.Tactic.SplitIfs

/-!
# Programs that access buffers

A program that accesses buffers through raw offsets ends in one of three
ways: it returns, it rejects its input, or it makes an access that is not
inside its buffer, after which nothing is known about it. `Checked` is the
monad of such programs. The rule for safety is `safe_bind`: a sequence is
safe if its first part is, and if the rest is after everything the first
part can return.

`InRange` is the access: every byte of it, with offsets that wrap at `2^64`,
lies in a buffer of a given size.
-/

namespace ArmHyp

/-- `ok` returns, `reject` gives the input up, `escape` is the first access
outside its buffer. -/
inductive Checked (ε ω : Type) (α : Type) where
  | ok (a : α)
  | reject (e : ε)
  | escape (w : ω)
deriving DecidableEq

namespace Checked

variable {ε ω α β : Type}

def bind (x : Checked ε ω α) (f : α → Checked ε ω β) : Checked ε ω β :=
  match x with
  | .ok a => f a
  | .reject e => .reject e
  | .escape w => .escape w

instance : Monad (Checked ε ω) where
  pure := .ok
  bind := bind

@[simp] theorem ok_bind (a : α) (f : α → Checked ε ω β) : (.ok a : Checked ε ω α) >>= f = f a := rfl

/-- No access escapes. -/
def Safe (x : Checked ε ω α) : Prop := ∀ w, x ≠ .escape w

@[simp] theorem safe_ok (a : α) : Safe (.ok a : Checked ε ω α) := nofun

@[simp] theorem safe_reject (e : ε) : Safe (.reject e : Checked ε ω α) := nofun

@[simp] theorem not_safe_escape (w : ω) : ¬ Safe (.escape w : Checked ε ω α) := fun h => h w rfl

/-- A sequence is safe if its parts are, as far as they are reached. -/
theorem safe_bind {x : Checked ε ω α} {f : α → Checked ε ω β} :
    Safe (x >>= f) ↔ Safe x ∧ ∀ a, x = .ok a → Safe (f a) := by
  cases x with
  | ok a =>
      rw [ok_bind]
      constructor
      · intro h
        refine ⟨safe_ok a, ?_⟩
        rintro b hb
        exact Checked.ok.inj hb ▸ h
      · rintro ⟨-, h⟩
        exact h a rfl
  | reject e => exact iff_of_true (safe_reject e) ⟨safe_reject e, nofun⟩
  | escape w => exact iff_of_false (not_safe_escape w) fun h => not_safe_escape w h.1

/-- An access that needs `p`. -/
def access (p : Prop) [Decidable p] (w : ω) (a : α) : Checked ε ω α := if p then .ok a else .escape w

section Access

variable {p : Prop} [Decidable p] {w : ω}

theorem access_of {a : α} (h : p) : (access p w a : Checked ε ω α) = .ok a := if_pos h

theorem safe_access {a : α} : Safe (access p w a : Checked ε ω α) ↔ p := by
  unfold access
  split_ifs with h
  · exact iff_of_true (safe_ok a) h
  · exact iff_of_false (not_safe_escape w) h

theorem access_eq_ok {a b : α} : (access p w a : Checked ε ω α) = .ok b ↔ p ∧ a = b := by
  unfold access
  split_ifs with h
  · rw [ok.injEq, and_iff_right h]
  · exact iff_of_false nofun fun hx => h hx.1

/-- An access and what follows it. -/
theorem safe_access_bind {a : α} {f : α → Checked ε ω β} :
    Safe (access p w a >>= f) ↔ p ∧ (p → Safe (f a)) := by
  rw [safe_bind, safe_access]
  refine and_congr_right fun h => ?_
  constructor
  · intro hf _
    exact hf a (access_of h)
  · intro hf b hb
    exact (access_eq_ok.mp hb).2 ▸ hf h

end Access

end Checked

/-! ## Ranges in a buffer -/

/-- The `n` bytes at `off` lie in a buffer of `size` bytes. -/
def InRange (off : BitVec 64) (n size : Nat) : Prop :=
  ∀ k < n, (off + BitVec.ofNat 64 k).toNat < size

/-- An offset that does not wrap. -/
theorem toNat_add_ofNat {off : BitVec 64} {k : Nat} (h : off.toNat + k < 2 ^ 64) :
    (off + BitVec.ofNat 64 k).toNat = off.toNat + k := by
  rw [BitVec.toNat_add, BitVec.toNat_ofNat, Nat.mod_eq_of_lt (show k < 2 ^ 64 by omega),
    Nat.mod_eq_of_lt h]

/-- A range in a buffer does not wrap. -/
theorem inRange_iff {off : BitVec 64} {n size : Nat} (hsize : size < 2 ^ 64) :
    InRange off n size ↔ n = 0 ∨ off.toNat + n ≤ size := by
  have hoff : off.toNat < 2 ^ 64 := off.isLt
  constructor
  · intro h
    by_contra hout
    -- the byte that is the first one outside
    have hbyte := h (size - off.toNat) (by omega)
    rw [toNat_add_ofNat (by omega)] at hbyte
    omega
  · intro h k hk
    rw [toNat_add_ofNat (by omega)]
    omega

instance inRange_decidable (off : BitVec 64) (n size : Nat) : Decidable (InRange off n size) :=
  if h : size < 2 ^ 64 then decidable_of_iff _ (inRange_iff h).symm
  else .isTrue fun _ _ => Nat.lt_of_lt_of_le (BitVec.isLt _) (Nat.le_of_not_lt h)

end ArmHyp
