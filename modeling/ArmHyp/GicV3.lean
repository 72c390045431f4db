import ArmHyp.BitField
import ArmHyp.BitSet
import ArmHyp.Exceptions
import ArmHyp.VirtIf

/-!
# The GICv3 build (`gic_v3.c`)

`gic_init_el2` of this build wakes the redistributor, enables the EL2 timer's
PPI, loads one virtual interrupt into the list register and leaves for an EL1
guest; it never returns, so that the scheduler is not started. What is left
of EL2 afterwards is the physical interrupt handler.

How long the redistributor takes to wake up is the hardware's choice: the
values of `GICR_WAKER` are given from outside, one for each read.
-/

namespace ArmHyp

namespace V3

open Machine VirtIf

/-- EL2 of the GICv3 build: the CPU, memory and the exit ring are those of
`Machine`; the interrupt controller is another one. -/
structure Hyp where
  m : Machine
  /-- `GICD_CTLR`. -/
  gicdCtlr : BitVec 32
  -- the redistributor
  waker : BitVec 32
  igroupr0 : BitVec 32
  isenabler0 : BitVec 32
  ipriorityr : Nat → BitVec 8
  -- the physical CPU interface
  iccSreEl2 : BitVec 64
  iccPmrEl1 : BitVec 64
  iccIgrpen1El1 : BitVec 64
  /-- The values read from `ICC_IAR1_EL1` and written to `ICC_EOIR1_EL1`. -/
  iars : List (BitVec 64)
  eoirs : List (BitVec 64)
  -- the virtual CPU interface
  vif : VirtIf
  /-- `gic_v3_cnthp_count`. -/
  cnthpCount : BitVec 64

namespace Hyp

/-- A function of the rest of EL2. -/
def onM (f : Machine → Machine) (h : Hyp) : Hyp := { h with m := f h.m }

def uartPuts (s : String) (h : Hyp) : Hyp := h.onM (Machine.uartPuts s)

end Hyp

/-! ## The redistributor -/

/-- `GICR_WAKER_PROCESSOR_SLEEP` and `GICR_WAKER_CHILDREN_ASLEEP`. -/
def gicrWakerProcessorSleep : BitVec 32 := 1#32 <<< 1
def gicrWakerChildrenAsleep : BitVec 32 := 1#32 <<< 2

/-- `mmio_r(GICR_BASE + GICR_WAKER) & GICR_WAKER_CHILDREN_ASLEEP`. -/
def childrenAsleep (w : BitVec 32) : Bool := w &&& gicrWakerChildrenAsleep != 0

/-- The `while` loop of `wake_redistributor`, from read `k` on, with `left`
more turns before `spins` passes its limit: whether it times out. -/
def wakeTimesOut (reads : Nat → BitVec 32) : Nat → Nat → Bool
  | 0, k => childrenAsleep (reads k)
  | left + 1, k => childrenAsleep (reads k) && wakeTimesOut reads left (k + 1)

/-- `wake_redistributor`; `reads k` is what the `k`-th read of `GICR_WAKER`
returns. -/
def wakeRedistributor (reads : Nat → BitVec 32) (h : Hyp) : Hyp :=
  let w := reads 0 &&& ~~~gicrWakerProcessorSleep
  let h := { h with waker := w }
  if wakeTimesOut reads 1000000 1 then h.uartPuts "[gic-v3] redistributor wake timeout\n" else h

/-- `enable_ppi`; `GICR_ISENABLER0` sets what is written as one. -/
def enablePpi (intid : Nat) (priority : BitVec 8) (h : Hyp) : Hyp :=
  { h with
    ipriorityr := Function.update h.ipriorityr intid priority
    igroupr0 := h.igroupr0 ||| 1#32 <<< intid
    isenabler0 := h.isenabler0 ||| 1#32 <<< intid }

/-! ## The virtual interrupt -/

/-- `make_lr`. -/
def makeLr (intid : BitVec 32) (prio : BitVec 8) (group1 : Bool) : BitVec 64 :=
  let v : BitVec 64 := 0
  let v := v ||| (intid &&& 0xFFFFFF).setWidth 64
  let v := v ||| prio.setWidth 64 <<< 48
  let v := if group1 then v ||| 1#64 <<< 60 else v
  v ||| 1#64 <<< 62

/-- `stage4_eret_to_guest`, up to the `eret`; `guestV3Start` is the address
of the guest. -/
def stage4EretToGuest (guestV3Start : BitVec 64) (h : Hyp) : Hyp :=
  let h := h.onM fun m => m.msr .hcrEl2 (m.mrs .hcrEl2 ||| 1#64 <<< 4)
  let h := { h with vif := { h.vif with hcr := 1 } }
  let vmcr := 0xFF#64 <<< 24 ||| 1#64 <<< 1
  let h := { h with vif := { h.vif with vmcr := vmcr } }
  let h := { h with vif := { h.vif with lr0 := makeLr 42 0xA0 true } }
  let h := h.uartPuts "[gic-v3] LR0 loaded (INTID 42 pending), ERETing to EL1 guest\n"
  h.onM fun m => (m.msr .elrEl2 guestV3Start).msr .spsrEl2 0x3C5

/-- `IRQ_HTIMER_PPI`. -/
def irqHtimerPpi : Nat := 26

/-- `gic_init_el2`, up to the `eret`. -/
def gicInitEl2 (reads : Nat → BitVec 32) (guestV3Start : BitVec 64) (h : Hyp) : Hyp :=
  let h := h.uartPuts "[gic-v3] init: SRE, redistributor, distributor, CPU interface\n"
  let h := { h with iccSreEl2 := 0x9 }
  let h := wakeRedistributor reads h
  let h := { h with gicdCtlr := 0x12 }
  let h := { h with vif := { h.vif with hcr := 1 } }
  let h := { h with iccPmrEl1 := 0xFF }
  let h := { h with iccIgrpen1El1 := 0x1 }
  let h := enablePpi irqHtimerPpi 0xA0 h
  let h := h.uartPuts "[gic-v3] PPI 26 (CNTHP) enabled\n"
  stage4EretToGuest guestV3Start h

/-- `kmain` of this build, up to the `eret` into the guest. -/
def kmain (reads : Nat → BitVec 32) (guestV3Start : BitVec 64) (h : Hyp) : Hyp :=
  let h := h.onM fun m => { m with imsc := 0 }
  let el := readCurrentEl h.m >>> 2 &&& 3
  let h := h.onM fun m =>
    ((m.uartPuts "Hello from EL").uartPutc (0x30 + el.setWidth 8)).uartPuts "\n"
  gicInitEl2 reads guestV3Start h

/-! ## Physical interrupts -/

/-- `(unsigned)(iar & 0xFFFFFF)`. -/
def intidOfIar (iar : BitVec 64) : BitVec 32 := (iar &&& 0xFFFFFF).setWidth 32

/-- `write_icc_eoir1_el1`. -/
def writeEoir1 (v : BitVec 64) (h : Hyp) : Hyp := { h with eoirs := h.eoirs ++ [v] }

/-- The text for an interrupt that is not expected. -/
def unexpectedIntid (intid : BitVec 32) (m : Machine) : Machine :=
  ((m.uartPuts "[gic-v3] unexpected INTID ").uartPutHex (intid.setWidth 64)).uartPuts "\n"

/-- `gic_handle_physical_irq`, when `ICC_IAR1_EL1` reads as `iar`. -/
def gicHandlePhysicalIrq (iar : BitVec 64) (h : Hyp) : Hyp :=
  let h := { h with iars := h.iars ++ [iar] }
  let intid := intidOfIar iar
  if 1020 ≤ intid then h
  else if intid = BitVec.ofNat 32 irqHtimerPpi then
    let h := h.onM fun m => m.msr .cnthpCtlEl2 0
    let h := writeEoir1 iar h
    { h with cnthpCount := h.cnthpCount + 1 }
  else
    let h := h.onM (unexpectedIntid intid)
    writeEoir1 iar h

/-- `handle_exception` for an IRQ. -/
def handleIrq (kind : VecKind) (iar : BitVec 64) (h : Hyp) : Hyp :=
  let h := h.onM fun m =>
    exitRingPush kind (m.mrs .esrEl2) m.tf.elrEl2 (m.mrs .farEl2) m.currentVcpu.id m
  gicHandlePhysicalIrq iar h

/-! ## The redistributor's answers -/

/-- The loop times out when every read it makes shows the children asleep. -/
theorem wakeTimesOut_iff (reads : Nat → BitVec 32) (left k : Nat) :
    wakeTimesOut reads left k = true ↔ ∀ i ≤ left, childrenAsleep (reads (k + i)) = true := by
  induction left generalizing k with
  | zero =>
      constructor
      · intro h i hi
        rw [Nat.le_zero.mp hi]
        exact h
      · exact fun h => h 0 (Nat.le_refl 0)
  | succ left ih =>
      rw [wakeTimesOut, Bool.and_eq_true, ih]
      constructor
      · rintro ⟨h0, h⟩ i hi
        cases i with
        | zero => exact h0
        | succ i =>
            rw [show k + (i + 1) = k + 1 + i by omega]
            exact h i (by omega)
      · intro h
        refine ⟨h 0 (by omega), fun i hi => ?_⟩
        rw [show k + 1 + i = k + (i + 1) by omega]
        exact h (i + 1) (by omega)

/-! ## The list register -/

section MakeLr

variable (intid : BitVec 32) (prio : BitVec 8) (group1 : Bool)

theorem getLsbD_intidMask {i : Nat} (hi : i < 32) :
    (0xFFFFFF : BitVec 32).getLsbD i = decide (i < 24) := by
  have hmask : (0xFFFFFF : BitVec 32) = BitVec.ofNat 32 (2 ^ 24 - 1) := by decide
  rw [hmask, BitField.getLsbD_mask hi]

theorem getLsbD_makeLr (i : Nat) : (makeLr intid prio group1).getLsbD i =
    ((decide (i < 24) && intid.getLsbD i) || (decide (48 ≤ i) && prio.getLsbD (i - 48))
      || (group1 && decide (i = 60)) || decide (i = 62)) := by
  have hlow : ((intid &&& 0xFFFFFF).setWidth 64).getLsbD i
      = (decide (i < 24) && intid.getLsbD i) := by
    rw [BitVec.getLsbD_setWidth, BitVec.getLsbD_and]
    by_cases hi : i < 32
    · rw [getLsbD_intidMask hi, decide_eq_true (by omega : i < 64), Bool.true_and, Bool.and_comm]
    · rw [BitVec.getLsbD_of_ge intid i (by omega), Bool.false_and, Bool.and_false, Bool.and_false]
  have hprio : (prio.setWidth 64 <<< 48).getLsbD i
      = (decide (48 ≤ i) && prio.getLsbD (i - 48)) := by
    rw [BitVec.getLsbD_shiftLeft, BitVec.getLsbD_setWidth]
    by_cases hi : i < 64
    · rw [decide_eq_true hi, decide_eq_true (by omega : i - 48 < 64), Bool.true_and, Bool.true_and,
        ← decide_not]
      exact congrArg (· && _) (decide_eq_decide.mpr (by omega))
    · rw [BitVec.getLsbD_of_ge prio _ (by omega)]
      simp
  have hzero : (0 : BitVec 64).getLsbD i = false := BitVec.getLsbD_zero
  simp only [makeLr]
  cases group1 with
  | false =>
      simp only [BitVec.getLsbD_or, hlow, hprio, getLsbD_one_shiftLeft (by decide : 62 < 64),
        hzero, Bool.false_or, Bool.false_and, Bool.or_false, Bool.false_eq_true,
        if_false]
  | true =>
      simp only [BitVec.getLsbD_or, hlow, hprio, getLsbD_one_shiftLeft (by decide : 62 < 64),
        getLsbD_one_shiftLeft (by decide : 60 < 64), hzero, Bool.false_or,
        Bool.true_and, if_true]

/-- The fields of the list register are the arguments. -/
theorem makeLr_fields : lrVintid (makeLr intid prio group1) = intid &&& 0xFFFFFF
    ∧ lrPriority (makeLr intid prio group1) = prio
    ∧ lrGroup (makeLr intid prio group1) = group1
    ∧ lrState (makeLr intid prio group1) = pending := by
  refine ⟨?_, ?_, ?_, ?_⟩
  · apply BitVec.eq_of_getLsbD_eq
    intro i hi
    rw [lrVintid, BitVec.getLsbD_extractLsb', Nat.zero_add, getLsbD_makeLr, BitVec.getLsbD_and,
      getLsbD_intidMask hi, decide_eq_true hi, decide_eq_false (by omega : ¬48 ≤ i),
      decide_eq_false (by omega : ¬i = 60), decide_eq_false (by omega : ¬i = 62)]
    simp only [Bool.true_and, Bool.false_and, Bool.and_false, Bool.or_false, Bool.and_comm]
  · apply BitVec.eq_of_getLsbD_eq
    intro i hi
    rw [lrPriority, BitVec.getLsbD_extractLsb', getLsbD_makeLr, decide_eq_true hi,
      decide_eq_false (by omega : ¬48 + i < 24), decide_eq_true (by omega : 48 ≤ 48 + i),
      decide_eq_false (by omega : ¬48 + i = 60), decide_eq_false (by omega : ¬48 + i = 62)]
    simp only [Bool.true_and, Bool.false_and, Bool.and_false, Bool.or_false, Bool.false_or,
      Nat.add_sub_cancel_left]
  · rw [lrGroup, getLsbD_makeLr, BitVec.getLsbD_of_ge prio _ (by decide)]
    simp
  · apply BitVec.eq_of_getLsbD_eq
    intro i hi
    rw [lrState, BitVec.getLsbD_extractLsb', getLsbD_makeLr,
      BitVec.getLsbD_of_ge prio _ (by omega), decide_eq_false (by omega : ¬62 + i < 24),
      decide_eq_false (by omega : ¬62 + i = 60), decide_eq_true hi]
    simp only [Bool.true_and, Bool.false_and, Bool.and_false, Bool.or_false, Bool.false_or]
    rcases (by omega : i = 0 ∨ i = 1) with rfl | rfl <;> rfl

end MakeLr

end V3

end ArmHyp
