import Mathlib.Algebra.Group.Nat.Defs
import Mathlib.Data.List.Basic

/-!
# The GICv3 virtual CPU interface

What the hypervisor programs (`ICH_HCR_EL2`, `ICH_VMCR_EL2`, the list
register) and what a guest then sees through `ICC_IAR1_EL1`,
`ICC_EOIR1_EL1`, `ICC_PMR_EL1` and `ICC_IGRPEN1_EL1`, with
`HCR_EL2.IMO` set and `ICH_VMCR_EL2.VEOIM` clear. One list register is in
use; the others hold no interrupt.
-/

namespace ArmHyp

/-- The virtual CPU interface with list register 0. -/
structure VirtIf where
  /-- `ICH_HCR_EL2`, `ICH_VMCR_EL2`, `ICH_LR0_EL2`. -/
  hcr : BitVec 64
  vmcr : BitVec 64
  lr0 : BitVec 64
  /-- The active priorities, last acknowledged first. -/
  active : List (BitVec 8)
deriving DecidableEq

namespace VirtIf

/-! ## Fields -/

/-- `vINTID`, `Priority`, `Group` and `State` of a list register. -/
def lrVintid (lr : BitVec 64) : BitVec 32 := lr.extractLsb' 0 32
def lrPriority (lr : BitVec 64) : BitVec 8 := lr.extractLsb' 48 8
def lrGroup (lr : BitVec 64) : Bool := lr.getLsbD 60
def lrState (lr : BitVec 64) : BitVec 2 := lr.extractLsb' 62 2

def setLrState (lr : BitVec 64) (st : BitVec 2) : BitVec 64 := st ++ lr.extractLsb' 0 62

def pending : BitVec 2 := 0b01
def activeState : BitVec 2 := 0b10

/-- `VPMR` and `VENG1`. -/
def vpmr (v : VirtIf) : BitVec 8 := v.vmcr.extractLsb' 24 8
def veng1 (v : VirtIf) : Bool := v.vmcr.getLsbD 1

/-- The `INTID` that says there is none. -/
def spurious : BitVec 64 := 1023

/-! ## What the guest sees -/

/-- A virtual IRQ is signalled: the interface is enabled, and the list
register holds a pending Group 1 interrupt of a priority that is neither
masked nor at or below one that is active. -/
def signals (v : VirtIf) : Bool :=
  v.hcr.getLsbD 0 && v.veng1 && lrState v.lr0 == pending && lrGroup v.lr0
    && decide (lrPriority v.lr0 < v.vpmr) && v.active.all fun p => decide (lrPriority v.lr0 < p)

/-- Reading `ICC_IAR1_EL1`. -/
def acknowledge (v : VirtIf) : BitVec 64 × VirtIf :=
  if v.signals then
    ((lrVintid v.lr0).setWidth 64,
      { v with lr0 := setLrState v.lr0 activeState, active := lrPriority v.lr0 :: v.active })
  else (spurious, v)

/-- Writing `ICC_EOIR1_EL1`: the priority drop, and the deactivation of the
interrupt. A special INTID is ignored. -/
def complete (val : BitVec 64) (v : VirtIf) : VirtIf :=
  let intid := val.extractLsb' 0 24
  if 1020 ≤ intid.toNat ∧ intid.toNat ≤ 1023 then v
  else if lrState v.lr0 = activeState ∧ lrVintid v.lr0 = intid.setWidth 32 then
    { v with lr0 := setLrState v.lr0 0, active := v.active.tail }
  else { v with active := v.active.tail }

/-- Writing `ICC_PMR_EL1` and `ICC_IGRPEN1_EL1`. -/
def setPmr (val : BitVec 64) (v : VirtIf) : VirtIf :=
  { v with vmcr := v.vmcr.extractLsb' 32 32 ++ val.extractLsb' 0 8 ++ v.vmcr.extractLsb' 0 24 }

def setIgrpen1 (val : BitVec 64) (v : VirtIf) : VirtIf :=
  { v with vmcr := v.vmcr.extractLsb' 2 62 ++ val.extractLsb' 0 1 ++ v.vmcr.extractLsb' 0 1 }

/-! ## Fields of what is written -/

section Fields

variable (lr : BitVec 64) (st : BitVec 2)

@[simp] theorem lrState_setLrState : lrState (setLrState lr st) = st :=
  BitVec.extractLsb'_append_eq_left

@[simp] theorem lrVintid_setLrState : lrVintid (setLrState lr st) = lrVintid lr :=
  (BitVec.extractLsb'_append_eq_of_add_le (by decide)).trans
    (BitVec.extractLsb'_extractLsb'_of_le (by decide))

end Fields

section Masks

variable (v : VirtIf) (val : BitVec 64)

theorem vpmr_setPmr : (v.setPmr val).vpmr = val.extractLsb' 0 8 :=
  (BitVec.extractLsb'_append_eq_of_le (Nat.le_refl 24)).trans BitVec.extractLsb'_append_eq_right

theorem vpmr_setIgrpen1 : (v.setIgrpen1 val).vpmr = v.vpmr := by
  have hhigh : (v.setIgrpen1 val).vpmr = (v.vmcr.extractLsb' 2 62).extractLsb' 22 8 :=
    (BitVec.extractLsb'_append_eq_of_le (by decide)).trans
      (BitVec.extractLsb'_append_eq_of_le (by decide))
  rw [hhigh]
  ext i hi
  have hi' : 22 + i < 62 := by omega
  simp [vpmr, hi', ← Nat.add_assoc]

theorem veng1_setIgrpen1 : (v.setIgrpen1 val).veng1 = val.getLsbD 0 := by
  have hbit : (v.setIgrpen1 val).veng1
      = (v.vmcr.extractLsb' 2 62 ++ val.extractLsb' 0 1).getLsbD 0 :=
    BitVec.getLsbD_append
  rw [hbit, BitVec.getLsbD_append]
  simp

end Masks

/-! ## An interrupt's life -/

/-- Interrupt `n` waits in the list register, and nothing is active. -/
structure Waiting (n : BitVec 32) (v : VirtIf) : Prop where
  enabled : v.hcr.getLsbD 0 = true
  state : lrState v.lr0 = pending
  group : lrGroup v.lr0 = true
  priority : lrPriority v.lr0 < 0xFF
  intid : lrVintid v.lr0 = n
  idle : v.active = []

variable {n : BitVec 32} {v : VirtIf}

/-- Unmasked, it is signalled. -/
theorem Waiting.signals (h : v.Waiting n) : ((v.setPmr 0xFF).setIgrpen1 1).signals = true := by
  have hpmr : ((v.setPmr 0xFF).setIgrpen1 1).vpmr = 0xFF := by
    rw [vpmr_setIgrpen1, vpmr_setPmr]
    decide
  have heng : ((v.setPmr 0xFF).setIgrpen1 1).veng1 = true := by
    rw [veng1_setIgrpen1]
    decide
  have hhcr : ((v.setPmr 0xFF).setIgrpen1 1).hcr = v.hcr := rfl
  have hlr : ((v.setPmr 0xFF).setIgrpen1 1).lr0 = v.lr0 := rfl
  have hactive : ((v.setPmr 0xFF).setIgrpen1 1).active = [] := h.idle
  rw [VirtIf.signals, hpmr, heng, hhcr, hlr, hactive, h.enabled, h.state, h.group,
    decide_eq_true h.priority]
  rfl

/-- Acknowledged and completed, it is gone. -/
theorem complete_acknowledge (hs : v.signals = true) (hn : lrVintid v.lr0 = n)
    (hidle : v.active = []) (hlt : n.toNat < 1020) :
    v.acknowledge.1 = n.setWidth 64
      ∧ lrState (v.acknowledge.2.complete (n.setWidth 64)).lr0 = 0
      ∧ (v.acknowledge.2.complete (n.setWidth 64)).active = [] := by
  have hack : v.acknowledge = (n.setWidth 64, { v with
      lr0 := setLrState v.lr0 activeState, active := [lrPriority v.lr0] }) := by
    rw [acknowledge, if_pos hs, hn, hidle]
  have hlow : (n.setWidth 64).extractLsb' 0 24 = n.setWidth 24 := by
    ext i hi
    simp
    omega
  have hnat : (n.setWidth 24).toNat = n.toNat := by
    rw [BitVec.toNat_setWidth, Nat.mod_eq_of_lt (by omega)]
  have hback : (n.setWidth 24).setWidth 32 = n := by
    apply BitVec.eq_of_toNat_eq
    rw [BitVec.toNat_setWidth, hnat, Nat.mod_eq_of_lt n.isLt]
  rw [hack]
  refine ⟨rfl, ?_⟩
  rw [complete, hlow, hnat, if_neg (by omega), if_pos ?_]
  · exact ⟨lrState_setLrState _ _, rfl⟩
  · rw [hback, lrState_setLrState, lrVintid_setLrState]
    exact ⟨rfl, hn⟩

end VirtIf

end ArmHyp
