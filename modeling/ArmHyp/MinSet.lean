import Mathlib.Data.Finset.Max
import Mathlib.Data.Finset.Sort

/-!
# Finite sets popped from below

A finite set over a linear order as a pending set: elements are added in
any order and taken out least first. A run is a list of operations; the two
facts a client needs are that popping until empty lists the set in order
(`pops_drain`), and that without `clear` nothing is lost or delivered
twice (`balance`): every time an element enters the set it either leaves
through a pop or is still there at the end.
-/

namespace ArmHyp

namespace MinSet

variable {α : Type _} [LinearOrder α]

/-- What can happen to a pending set. -/
inductive Op (α : Type _) where
  | add (a : α)
  | pop
  | clear
  | keep

/-- The element a pop would take. -/
def top (s : Finset α) : Option α := if h : s.Nonempty then some (s.min' h) else none

theorem top_eq_none {s : Finset α} : top s = none ↔ s = ∅ := by
  unfold top
  split
  · rename_i h
    simpa using h.ne_empty
  · rename_i h
    simpa using h

theorem top_eq_some {s : Finset α} {a : α} : top s = some a ↔ IsLeast (s : Set α) a := by
  unfold top
  split
  · rename_i h
    rw [Option.some_inj]
    exact ⟨fun he => he ▸ s.isLeast_min' h, fun hl => (s.isLeast_min' h).unique hl⟩
  · rename_i h
    simp only [reduceCtorEq, false_iff]
    exact fun hl => h ⟨a, hl.1⟩

namespace Op

def apply : Op α → Finset α → Finset α
  | add a, s => insert a s
  | pop, s => match top s with
      | some a => s.erase a
      | none => s
  | clear, _ => ∅
  | keep, s => s

end Op

/-- The set after a list of operations. -/
def run : List (Op α) → Finset α → Finset α
  | [], s => s
  | o :: os, s => run os (o.apply s)

/-- What the pops of a run returned, in order; `none` from an empty set. -/
def pops : List (Op α) → Finset α → List (Option α)
  | [], _ => []
  | .pop :: os, s => top s :: pops os (Op.pop.apply s)
  | o :: os, s => pops os (o.apply s)

/-- How often `a` entered the set. -/
def entries (a : α) : List (Op α) → Finset α → Nat
  | [], _ => 0
  | o :: os, s => (if a ∉ s ∧ a ∈ o.apply s then 1 else 0) + entries a os (o.apply s)

/-- Is `a` in the set, as a number. -/
def present (a : α) (s : Finset α) : Nat := if a ∈ s then 1 else 0

theorem pop_empty : (Op.pop : Op α).apply ∅ = ∅ := rfl

theorem pop_of_top {s : Finset α} {a : α} (h : top s = some a) :
    (Op.pop : Op α).apply s = s.erase a := by
  simp only [Op.apply, h]

theorem pops_cons (o : Op α) (os : List (Op α)) (s : Finset α) :
    pops (o :: os) s = pops [o] s ++ pops os (o.apply s) := by
  cases o <;> rfl

theorem pops_append (os os' : List (Op α)) (s : Finset α) :
    pops (os ++ os') s = pops os s ++ pops os' (run os s) := by
  induction os generalizing s with
  | nil => rfl
  | cons o os ih => rw [List.cons_append, pops_cons, ih, pops_cons o os, List.append_assoc, run]

/-- Only `add` adds. -/
theorem Op.mem_of_mem_apply {a : α} {o : Op α} {s : Finset α} (h : a ∈ o.apply s) :
    a ∈ s ∨ o = .add a := by
  cases o with
  | add b =>
      rcases Finset.mem_insert.mp h with rfl | hs
      · exact Or.inr rfl
      · exact Or.inl hs
  | pop =>
      simp only [Op.apply] at h
      split at h
      · exact Or.inl (Finset.mem_of_mem_erase h)
      · exact Or.inl h
  | clear => exact absurd h (Finset.notMem_empty a)
  | keep => exact Or.inl h

theorem mem_of_mem_pops {a : α} {o : Op α} {s : Finset α} (h : some a ∈ pops [o] s) : a ∈ s := by
  cases o with
  | pop => exact (top_eq_some.mp (List.mem_singleton.mp h).symm).1
  | _ => cases h

/-- One operation other than `clear`: what was there or enters leaves by the
pop or stays. -/
theorem balance_step (a : α) {o : Op α} (ho : o ≠ .clear) (s : Finset α) :
    present a s + (if a ∉ s ∧ a ∈ o.apply s then 1 else 0)
      = (pops [o] s).count (some a) + present a (o.apply s) := by
  unfold present
  cases o with
  | clear => exact absurd rfl ho
  | keep => by_cases ha : a ∈ s <;> simp [pops, Op.apply, ha]
  | add b =>
      by_cases ha : a ∈ s
      · simp [pops, Op.apply, ha]
      · simp [pops, Op.apply, ha]
  | pop =>
      cases ht : top s with
      | none =>
          obtain rfl := top_eq_none.mp ht
          simp [pops, ht, pop_empty]
      | some b =>
          have hb : b ∈ s := (top_eq_some.mp ht).1
          rw [pop_of_top ht]
          by_cases hab : a = b
          · subst hab
            simp [pops, ht, hb]
          · simp [pops, ht, hab, Ne.symm hab]

/-- Without `clear`, every entry into the set is matched by exactly one pop
or by the element still being there at the end. -/
theorem balance (a : α) (os : List (Op α)) (hos : Op.clear ∉ os) (s : Finset α) :
    present a s + entries a os s = (pops os s).count (some a) + present a (run os s) := by
  induction os generalizing s with
  | nil => simp [entries, pops, run]
  | cons o os ih =>
      have ho : o ≠ .clear := fun h => hos (h ▸ List.mem_cons_self)
      have hstep := balance_step a ho s
      have hrest := ih (fun h => hos (List.mem_cons_of_mem o h)) (o.apply s)
      rw [pops_cons, List.count_append]
      simp only [entries, run]
      omega

/-- Taking the least element takes the head of the sorted list. -/
theorem sort_eq_cons_of_top {s : Finset α} {a : α} (h : top s = some a) :
    s.sort (· ≤ ·) = a :: (s.erase a).sort (· ≤ ·) := by
  have hl := top_eq_some.mp h
  rw [← Finset.sort_insert (· ≤ ·) (fun b hb => hl.2 (Finset.mem_of_mem_erase hb))
    (Finset.notMem_erase a s), Finset.insert_erase hl.1]

/-- Popping as often as there are elements lists them in ascending order and
leaves the set empty. -/
theorem pops_replicate (s : Finset α) :
    pops (List.replicate s.card .pop) s = (s.sort (· ≤ ·)).map some
      ∧ run (List.replicate s.card .pop) s = ∅ := by
  generalize hn : s.card = n
  induction n generalizing s with
  | zero =>
      obtain rfl := Finset.card_eq_zero.mp hn
      simp [pops, run]
  | succ n ih =>
      have hne : s.Nonempty := Finset.card_pos.mp (by omega)
      obtain ⟨a, ha⟩ : ∃ a, top s = some a := ⟨_, dif_pos hne⟩
      have hcard : (s.erase a).card = n := by
        rw [Finset.card_erase_of_mem (top_eq_some.mp ha).1, hn]
        rfl
      obtain ⟨hpops, hrun⟩ := ih (s.erase a) hcard
      rw [List.replicate_succ, sort_eq_cons_of_top ha]
      simp only [pops, run, pop_of_top ha, ha, hpops, hrun, List.map_cons, and_self]

/-- Popping until the first `none`. -/
theorem pops_drain (s : Finset α) :
    pops (List.replicate (s.card + 1) .pop) s = (s.sort (· ≤ ·)).map some ++ [none] := by
  obtain ⟨hpops, hrun⟩ := pops_replicate s
  rw [List.replicate_succ', pops_append, hpops, hrun]
  simp [pops, top_eq_none.mpr]

end MinSet

end ArmHyp
