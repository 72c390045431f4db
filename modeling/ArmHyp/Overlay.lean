import Mathlib.Data.List.Basic

/-!
# Overlays

A patch is a partial function laid over a total one: where it is defined it
wins. Patches laid one after the other give, at each point, the last one
defined there; where at most one is, the order does not matter
(`overlay_of_mem`), and where none is, nothing changes (`overlay_of_none`).
-/

namespace ArmHyp

variable {α β : Type _}

/-- A patch laid over a function. -/
def patch (μ : α → β) (p : α → Option β) : α → β := fun a => (p a).getD (μ a)

/-- Patches laid over a function, the first one first. -/
def overlay (μ : α → β) (ps : List (α → Option β)) : α → β := ps.foldl patch μ

theorem patch_of_none {μ : α → β} {p : α → Option β} {a : α} (h : p a = none) :
    patch μ p a = μ a := by
  rw [patch, h]
  rfl

theorem patch_of_some {μ : α → β} {p : α → Option β} {a : α} {v : β} (h : p a = some v) :
    patch μ p a = v := by
  rw [patch, h]
  rfl

theorem overlay_of_none {μ : α → β} {ps : List (α → Option β)} {a : α}
    (h : ∀ p ∈ ps, p a = none) : overlay μ ps a = μ a := by
  induction ps generalizing μ with
  | nil => rfl
  | cons p ps ih =>
      rw [List.forall_mem_cons] at h
      exact (ih h.2).trans (patch_of_none h.1)

theorem overlay_of_mem {μ : α → β} {ps : List (α → Option β)} {a : α} {v : β}
    (hdis : ps.Pairwise fun p q => p a = none ∨ q a = none) {p : α → Option β} (hp : p ∈ ps)
    (hv : p a = some v) : overlay μ ps a = v := by
  induction ps generalizing μ with
  | nil => cases hp
  | cons q ps ih =>
      rw [List.pairwise_cons] at hdis
      rcases List.mem_cons.mp hp with rfl | hmem
      · have hrest : ∀ q ∈ ps, q a = none := by
          intro q hq
          refine (hdis.1 q hq).resolve_left ?_
          rw [hv]
          exact Option.some_ne_none v
        exact (overlay_of_none hrest).trans (patch_of_some hv)
      · exact ih hdis.2 hmem

end ArmHyp
