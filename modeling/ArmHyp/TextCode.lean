import Mathlib.Data.List.Infix

/-!
# Reading a text back

`Scan α` takes an `α` off the front of a text. `Recovers p a w` says that the
scanner `p` finds `a` written as `w`, whatever comes after: so the texts of
one scanner after another can be strung together and read one after another
(`Recovers.bind`), and two values that are written alike are one
(`Recovers.unique`). The scanners are fixed words, one of a list of words of
which none begins another, and a counted repetition.
-/

namespace ArmHyp

namespace TextCode

variable {α γ χ : Type _}

abbrev Scan (χ α : Type _) := StateT (List χ) Option α

/-- `p` reads `w` as `a`, and stops there. -/
def Recovers (p : Scan χ α) (a : α) (w : List χ) : Prop :=
  ∀ rest, p.run (w ++ rest) = some (a, rest)

theorem recovers_pure (a : α) : Recovers (χ := χ) (pure a) a [] := fun _ => rfl

theorem Recovers.bind {p : Scan χ α} {q : α → Scan χ γ} {a : α} {c : γ} {v w : List χ}
    (h : Recovers p a v) (h' : Recovers (q a) c w) : Recovers (p >>= q) c (v ++ w) := by
  intro rest
  rw [StateT.run_bind, List.append_assoc, h]
  exact h' rest

/-- The last scanner may compute its value from what was read. -/
theorem Recovers.map {p : Scan χ α} {a : α} {w : List χ} (h : Recovers p a w) (f : α → γ) :
    Recovers (p >>= fun a => pure (f a)) (f a) w := by
  have hbind := h.bind (q := fun a => pure (f a)) (recovers_pure (f a))
  rw [List.append_nil] at hbind
  exact hbind

/-- What is written alike is the same. -/
theorem Recovers.unique {p : Scan χ α} {a c : α} {w : List χ} (h : Recovers p a w)
    (h' : Recovers p c w) : a = c :=
  congrArg Prod.fst (Option.some.inj ((h []).symm.trans (h' [])))

/-! ## Words -/

section Words

variable [DecidableEq χ]

def word (w : List χ) : Scan χ Unit := fun l =>
  if w <+: l then some ((), l.drop w.length) else none

/-- The first of `cs` that the text begins with. -/
def oneOf (cs : List (α × List χ)) : Scan χ α := fun l =>
  (cs.find? fun c => decide (c.2 <+: l)).map fun c => (c.1, l.drop c.2.length)

end Words

/-! ## Repetition -/

/-- `n` values one after another, each with its place from `i` on. -/
def times (p : Nat → Scan χ α) : Nat → Nat → Scan χ (List α)
  | 0, _ => pure []
  | n + 1, i => do
      let a ← p i
      let as ← times p n (i + 1)
      pure (a :: as)

end TextCode

end ArmHyp
