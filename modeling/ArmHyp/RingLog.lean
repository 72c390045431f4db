import Mathlib.Algebra.Group.Nat.Defs
import Mathlib.Data.List.Nodup
import Mathlib.Data.Nat.ModEq
import Mathlib.Logic.Function.Basic

/-!
# A ring of the newest records

A circular log of `n` slots keeps the newest records of a history that is
never stored. `Logs` says which slot holds which record: record number `j`
(counted from the oldest) is in slot `j % n` until it is overwritten. A push
keeps it (`Logs.push`), and a walk backwards from the next slot to write
lists the newest records first (`Logs.walkBack`), each slot once
(`nodup_walkBack_id`).
-/

namespace ArmHyp

namespace RingLog

variable {α : Type _} {n : Nat}

/-- The slots of a ring hold the newest records of `hist`, which is listed
newest first. -/
def Logs (n : Nat) (slot : Nat → α) (hist : List α) : Prop :=
  ∀ k, (h : k < hist.length) → k < n → slot ((hist.length - 1 - k) % n) = hist[k]

theorem logs_nil (slot : Nat → α) : Logs n slot [] := by
  intro k hk
  exact absurd hk (Nat.not_lt_zero k)

/-- Two of the newest `n` records are in different slots. -/
theorem slot_ne {a k : Nat} (hk : 0 < k) (hn : k < n) (ha : k ≤ a) : (a - k) % n ≠ a % n := by
  intro heq
  have hdvd : n ∣ a - (a - k) := (Nat.modEq_iff_dvd' (Nat.sub_le a k)).mp heq
  have hle : n ≤ a - (a - k) := Nat.le_of_dvd (by omega) hdvd
  omega

/-- A push overwrites the oldest record. -/
theorem Logs.push {slot : Nat → α} {hist : List α} (h : Logs n slot hist) (a : α) :
    Logs n (Function.update slot (hist.length % n) a) (a :: hist) := by
  intro k hk hkn
  cases k with
  | zero => exact Function.update_self _ a slot
  | succ k =>
      rw [List.length_cons] at hk
      have hpos : (a :: hist).length - 1 - (k + 1) = hist.length - 1 - k := by
        rw [List.length_cons]
        omega
      have hne : (hist.length - 1 - k) % n ≠ hist.length % n := by
        rw [show hist.length - 1 - k = hist.length - (k + 1) by omega]
        exact slot_ne (Nat.succ_pos k) hkn (by omega)
      rw [hpos, Function.update_of_ne hne, List.getElem_cons_succ]
      exact h k (by omega) (by omega)

/-- `depth` slots backwards from the one before `idx`. -/
def walkBack (n : Nat) (slot : Nat → α) : Nat → Nat → List α
  | 0, _ => []
  | depth + 1, idx =>
      let idx := (idx + n - 1) % n
      slot idx :: walkBack n slot depth idx

/-- One step back from the slot of record number `a`. -/
theorem step_back {a : Nat} (hn : 0 < n) (ha : 0 < a) : (a % n + n - 1) % n = (a - 1) % n := by
  have hmod : a % n + n - 1 ≡ a - 1 [MOD n] := by
    have hadd : a % n + n - 1 + 1 ≡ a - 1 + 1 [MOD n] := by
      rw [Nat.sub_add_cancel (by omega), Nat.sub_add_cancel ha]
      exact (Nat.add_mod_right (a % n) n).trans (Nat.mod_mod a n)
    exact Nat.ModEq.add_right_cancel' 1 hadd
  exact hmod

/-- The walk, `j` records in. -/
theorem Logs.walkBack_drop {slot : Nat → α} {hist : List α} (h : Logs n slot hist)
    {depth : Nat} : ∀ {j : Nat}, j + depth ≤ hist.length → j + depth ≤ n →
      walkBack n slot depth ((hist.length - j) % n) = (hist.drop j).take depth := by
  induction depth with
  | zero =>
      intro j _ _
      rfl
  | succ depth ih =>
      intro j hlen hn
      have hj : j < hist.length := by omega
      have hback := step_back (n := n) (a := hist.length - j) (by omega) (by omega)
      have hpos : hist.length - j - 1 = hist.length - (j + 1) := by omega
      have hslot : slot ((hist.length - (j + 1)) % n) = hist[j] := by
        rw [show hist.length - (j + 1) = hist.length - 1 - j by omega]
        exact h j hj (by omega)
      simp only [walkBack, hback, hpos, hslot]
      rw [ih (j := j + 1) (by omega) (by omega), List.drop_eq_getElem_cons hj, List.take_succ_cons]

/-- **The walk lists the newest records.** -/
theorem Logs.walkBack {slot : Nat → α} {hist : List α} (h : Logs n slot hist) :
    walkBack n slot (min hist.length n) (hist.length % n) = hist.take n := by
  have hwalk : RingLog.walkBack n slot (min hist.length n) ((hist.length - 0) % n) =
      (hist.drop 0).take (min hist.length n) := h.walkBack_drop (by omega) (by omega)
  rw [Nat.sub_zero, List.drop_zero] at hwalk
  rw [hwalk, List.take_eq_take_iff]
  omega

/-- A walk lists what is in the slots it visits. -/
theorem walkBack_map (slot : Nat → α) (depth idx : Nat) :
    walkBack n slot depth idx = (walkBack n id depth idx).map slot := by
  induction depth generalizing idx with
  | zero => rfl
  | succ depth ih => simp only [walkBack, List.map_cons, ih, id]

/-- The slots of a walk are those of the record numbers it counts down. -/
theorem walkBack_id (hn : 0 < n) {depth a : Nat} (h : depth ≤ a) :
    walkBack n id depth (a % n) = (List.range depth).map fun k => (a - (k + 1)) % n := by
  induction depth generalizing a with
  | zero => rfl
  | succ depth ih =>
      have hback := step_back hn (show 0 < a by omega)
      simp only [walkBack, id, hback]
      rw [ih (by omega), List.range_succ_eq_map, List.map_cons, List.map_map]
      refine congrArg _ (List.map_congr_left fun k _ => ?_)
      exact congrArg (· % n) (by omega)

/-- A walk of at most `n` slots visits none twice. -/
theorem nodup_walkBack_id {depth a : Nat} (h : depth ≤ a) (hn : depth ≤ n) :
    (walkBack n id depth (a % n)).Nodup := by
  rcases Nat.eq_zero_or_pos depth with rfl | hpos
  · exact List.nodup_nil
  rw [walkBack_id (by omega) h]
  refine List.Nodup.map_on ?_ List.nodup_range
  intro i hi j hj heq
  rw [List.mem_range] at hi hj
  -- the later of two steps that met would be a whole turn behind the other
  rcases Nat.lt_trichotomy i j with hlt | rfl | hgt
  · have hne := slot_ne (n := n) (a := a - (i + 1)) (k := j - i) (by omega) (by omega) (by omega)
    rw [show a - (i + 1) - (j - i) = a - (j + 1) by omega] at hne
    exact absurd heq.symm hne
  · rfl
  · have hne := slot_ne (n := n) (a := a - (j + 1)) (k := i - j) (by omega) (by omega) (by omega)
    rw [show a - (j + 1) - (i - j) = a - (i + 1) by omega] at hne
    exact absurd heq hne

end RingLog

end ArmHyp
