import Mathlib.Algebra.Group.Nat.Defs
import ArmHyp.Boot
import ArmHyp.TextCode

/-!
# Console text

What `uart_puts` and `uart_put_hex` send, as bytes, and the scanner that gets
the number back: a number is `0x` and its sixteen digits, so that it can be
told where it ends.
-/

namespace ArmHyp

namespace Console

open Machine TextCode

/-- The bytes of `uart_puts` on a literal. -/
def text (t : String) : List (BitVec 8) := putsBytes (t.toUTF8.toList.map (·.toBitVec))

/-- The last `n` hexadecimal digits of `x`. -/
def hexDigits (n x : Nat) : List (BitVec 8) :=
  (List.range n).map fun k => hexDigit (x / 16 ^ (n - 1 - k) % 16)

/-- The bytes of `uart_put_hex`. -/
def hexText (v : BitVec 64) : List (BitVec 8) := text "0x" ++ hexDigits 16 v.toNat

section Sent

variable (m : Machine)

theorem uartPuts_text (t : String) : m.uartPuts t = m.withUart (· ++ text t) := rfl

theorem uartPutHex_text (v : BitVec 64) : m.uartPutHex v = m.withUart (· ++ hexText v) := by
  have happ : (fun u : List (BitVec 8) => u ++ hexText v)
      = fun u => (u ++ text "0x") ++ hexDigits 16 v.toNat := by
    funext u
    rw [hexText, List.append_assoc]
  rw [happ]
  rfl

end Sent

/-! ## Reading a number back -/

/-- One hexadecimal digit. -/
def digit : Scan (BitVec 8) Nat := fun
  | [] => none
  | c :: l => ((List.range 16).find? fun n => hexDigit n = c).map (·, l)

/-- `n` digits, after digits that make `acc`. -/
def digits : Nat → Nat → Scan (BitVec 8) Nat
  | 0, acc => pure acc
  | n + 1, acc => do
      let d ← digit
      digits n (16 * acc + d)

/-- What `uart_put_hex` sent. -/
def hex : Scan (BitVec 8) (BitVec 64) := do
  word (text "0x")
  let n ← digits 16 0
  pure (BitVec.ofNat 64 n)

end Console

end ArmHyp
