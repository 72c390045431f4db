import ArmHyp.ConsoleText
import ArmHyp.GicV3
import ArmHyp.GuestV3Bad
import ArmHyp.System

/-!
# The GICv3 build as a system

EL2 after `gic_init_el2` and the EL1 guest, with what can happen next: an
instruction of the guest, the virtual interrupt, or a physical interrupt,
which goes through the vectors to `gic_handle_physical_irq` and back.

Physical interrupts do not touch the guest (`physical_irqs_transparent`), so
that its run is the run of `GuestV3` without them; and what EL2 does about
them does not depend on the guest (`physical_irqs_completed`).
-/

namespace ArmHyp

namespace V3

open Machine GuestV3 VirtIf Console

/-! ## The system -/

structure Sys where
  hyp : Hyp
  guest : GuestV3.State

inductive Event where
  | insn
  | virq
  /-- A physical interrupt, for which `ICC_IAR1_EL1` reads as `iar`. -/
  | phys (iar : BitVec 64)

/-- `eret` to the guest; its other registers are as they were. -/
def eretEl1 (h : Hyp) (c : Cpu) : Option Sys :=
  let spsr := h.m.mrs .spsrEl2
  if isEl1h spsr then
    some ⟨h, (h.m.mrs .elrEl2,
      { c with x := h.m.gpr, nzcv := spsrNzcv spsr, daif := spsrDaif spsr })⟩
  else none

/-- The guest is interrupted: the hardware's part of the exception. -/
def trapToEl2 (s : Sys) : Hyp :=
  s.hyp.onM fun m =>
    ({ m with gpr := s.guest.2.x }.msr .elrEl2 s.guest.1).msr .spsrEl2
      (packSpsr s.guest.2.nzcv s.guest.2.daif)

/-- A physical interrupt. It goes to EL2 as `HCR_EL2.IMO` says; without it the
guest would get it, which is not modelled. -/
def takePhys (iar : BitVec 64) (s : Sys) : Option Sys :=
  if (s.hyp.m.mrs .hcrEl2).getLsbD 4 then
    let h := (trapToEl2 s).onM saveCtx
    let h := handleIrq .l64Irq iar h
    eretEl1 (h.onM restoreCtx) s.guest.2
  else none

def step (L : Link) (s : Sys) : Event → Option Sys
  | .insn => (GuestV3.step L s.guest).map fun g => { s with guest := g }
  | .virq => some { s with guest := GuestV3.virq s.guest }
  | .phys iar => takePhys iar s

/-- From reset to the guest's first instruction: `c` is what the CPU holds of
EL1 when `kmain` runs. -/
def handOver (reads : Nat → BitVec 32) (L : Link) (h : Hyp) (c : Cpu) : Option Sys :=
  let h := kmain reads L.base h
  eretEl1 h { c with vif := h.vif }

/-! ## A physical interrupt, from the vector to the `eret` -/

section Phys

variable (iar : BitVec 64)

theorem unexpectedIntid_frame (intid : BitVec 32) (m : Machine) :
    (unexpectedIntid intid m).tf = m.tf ∧ (unexpectedIntid intid m).regs = m.regs := ⟨rfl, rfl⟩

/-- The handler leaves the frame alone, and of the registers it writes one. -/
theorem handleIrq_frame (kind : VecKind) (h : Hyp) : (handleIrq kind iar h).m.tf = h.m.tf
    ∧ ∀ r, r ≠ .cnthpCtlEl2 → (handleIrq kind iar h).m.regs r = h.m.regs r := by
  simp only [handleIrq, gicHandlePhysicalIrq]
  split_ifs
  · exact ⟨rfl, fun _ _ => rfl⟩
  · exact ⟨rfl, fun r hr => Function.update_of_ne hr _ _⟩
  · obtain ⟨htf, hregs⟩ := unexpectedIntid_frame (intidOfIar iar) (h.onM fun m =>
      exitRingPush kind (m.mrs .esrEl2) m.tf.elrEl2 (m.mrs .farEl2) m.currentVcpu.id m).m
    exact ⟨htf, fun r _ => congrFun hregs r⟩

/-- The frame that `SAVE_CTX` leaves of the guest. -/
theorem saveCtx_frame (s : Sys) : let tf := ((trapToEl2 s).onM saveCtx).m.tf
    (∀ i : Fin 31, tf.x i.val = s.guest.2.x i) ∧ tf.elrEl2 = s.guest.1
      ∧ tf.spsrEl2 = packSpsr s.guest.2.nzcv s.guest.2.daif := by
  refine ⟨fun i => ?_, rfl, rfl⟩
  have hi := i.isLt
  have hidx : (Fin.ofNat 34 i.val).val = i.val := Nat.mod_eq_of_lt (by omega)
  have hlt : (Fin.ofNat 34 i.val).val < 31 := by
    rw [hidx]
    exact hi
  have hword : ((trapToEl2 s).onM saveCtx).m.tf.x i.val
      = if h : (Fin.ofNat 34 i.val).val < 31 then s.guest.2.x ⟨(Fin.ofNat 34 i.val).val, h⟩
        else if Fin.ofNat 34 i.val = 31 then s.guest.1
        else if Fin.ofNat 34 i.val = 32 then packSpsr s.guest.2.nzcv s.guest.2.daif
        else s.hyp.m.tf.word (Fin.ofNat 34 i.val) := rfl
  rw [hword, dif_pos hlt]
  exact congrArg s.guest.2.x (Fin.ext hidx)

/-- What EL2 is after a physical interrupt. -/
def afterPhys (s : Sys) : Hyp :=
  (handleIrq .l64Irq iar ((trapToEl2 s).onM saveCtx)).onM restoreCtx

/-- The guest is not touched. -/
theorem takePhys_eq {s : Sys} (himo : (s.hyp.m.mrs .hcrEl2).getLsbD 4 = true) :
    takePhys iar s = some ⟨afterPhys iar s, s.guest⟩ := by
  obtain ⟨hx, helr, hspsr⟩ := saveCtx_frame s
  have htf := (handleIrq_frame iar .l64Irq ((trapToEl2 s).onM saveCtx)).1
  have hregs : (afterPhys iar s).m.mrs .spsrEl2 = packSpsr s.guest.2.nzcv s.guest.2.daif
      ∧ (afterPhys iar s).m.mrs .elrEl2 = s.guest.1 := by
    rw [← hspsr, ← helr, ← htf]
    exact ⟨rfl, rfl⟩
  have hgpr : (afterPhys iar s).m.gpr = s.guest.2.x := by
    funext i
    rw [← hx i, ← htf]
    rfl
  obtain ⟨hel1h, hnzcv, hdaif⟩ := packSpsr_fields s.guest.2.nzcv s.guest.2.daif
  rw [takePhys, if_pos himo]
  change eretEl1 (afterPhys iar s) s.guest.2 = _
  simp only [eretEl1, hregs.1, hregs.2, hgpr, hel1h, hnzcv, hdaif, if_true]

/-- `HCR_EL2` stays as `stage4_eret_to_guest` left it. -/
theorem afterPhys_hcr (s : Sys) : (afterPhys iar s).m.mrs .hcrEl2 = s.hyp.m.mrs .hcrEl2 := by
  have hregs := (handleIrq_frame iar .l64Irq ((trapToEl2 s).onM saveCtx)).2 .hcrEl2 (by decide)
  exact hregs

end Phys

/-! ## The guest does not see physical interrupts -/

/-- What an event is to the guest. -/
def Event.tick? : Event → Option Tick
  | .insn => some .insn
  | .virq => some .irq
  | .phys _ => none

theorem step_hcr {L : Link} {s s' : Sys} {e : Event} (h : step L s e = some s') :
    s'.hyp.m.mrs .hcrEl2 = s.hyp.m.mrs .hcrEl2 := by
  cases e with
  | insn =>
      obtain ⟨g, -, rfl⟩ := Option.map_eq_some_iff.mp h
      rfl
  | virq =>
      obtain rfl := Option.some.inj h
      rfl
  | phys iar =>
      by_cases himo : (s.hyp.m.mrs .hcrEl2).getLsbD 4 = true
      · rw [step, takePhys_eq iar himo] at h
        obtain rfl := Option.some.inj h
        exact afterPhys_hcr iar s
      · rw [step, takePhys, if_neg himo] at h
        cases h

/-- The run of the guest is that of its own events. -/
theorem run_guest (L : Link) (s : Sys)
    (himo : (s.hyp.m.mrs .hcrEl2).getLsbD 4 = true) (es : List Event) :
    (runEvents (step L) s es).map (·.guest)
      = runEvents (tick (GuestV3.step L) GuestV3.virq) s.guest (es.filterMap Event.tick?) := by
  induction es generalizing s with
  | nil => rfl
  | cons e es ih =>
      rw [runEvents, Option.map_bind]
      cases e with
      | insn =>
          have hcons : (Event.insn :: es).filterMap Event.tick?
              = .insn :: es.filterMap Event.tick? := rfl
          rw [hcons, runEvents, tick, step, Option.bind_map]
          cases GuestV3.step L s.guest with
          | none => rfl
          | some g => exact ih { s with guest := g } himo
      | virq => exact ih { s with guest := GuestV3.virq s.guest } himo
      | phys iar =>
          rw [step, takePhys_eq iar himo]
          refine ih ⟨afterPhys iar s, s.guest⟩ ?_
          rw [afterPhys_hcr]
          exact himo

/-! ## Boot -/

/-- What `kmain` prints before the guest runs. -/
def bootText (el : BitVec 64) (timeout : Bool) : List (BitVec 8) :=
  text "Hello from EL" ++ [0x30 + el.setWidth 8] ++ text "\n"
    ++ text "[gic-v3] init: SRE, redistributor, distributor, CPU interface\n"
    ++ (if timeout then text "[gic-v3] redistributor wake timeout\n" else [])
    ++ text "[gic-v3] PPI 26 (CNTHP) enabled\n"
    ++ text "[gic-v3] LR0 loaded (INTID 42 pending), ERETing to EL1 guest\n"

section Boot

variable (reads : Nat → BitVec 32) (guestV3Start : BitVec 64) (h : Hyp)

/-- `wake_redistributor` writes one register, and may print. -/
theorem wakeRedistributor_eq (h : Hyp) : wakeRedistributor reads h =
    { h with
      waker := reads 0 &&& ~~~gicrWakerProcessorSleep
      m := { h.m with uart := h.m.uart ++ (if wakeTimesOut reads 1000000 1
        then text "[gic-v3] redistributor wake timeout\n" else []) } } := by
  rw [wakeRedistributor]
  generalize wakeTimesOut reads 1000000 1 = timeout
  cases timeout with
  | false =>
      simp only [Bool.false_eq_true, if_false, List.append_nil]
  | true => rfl

/-- EL2 when it leaves for the guest. -/
theorem kmain_eq : kmain reads guestV3Start h =
    { h with
      m := { h.m with
        imsc := 0
        uart := h.m.uart
          ++ bootText (readCurrentEl h.m >>> 2 &&& 3) (wakeTimesOut reads 1000000 1)
        regs := Function.update (Function.update (Function.update h.m.regs .hcrEl2
          (h.m.mrs .hcrEl2 ||| 1#64 <<< 4)) .elrEl2 guestV3Start) .spsrEl2 0x3C5 }
      gicdCtlr := 0x12
      waker := reads 0 &&& ~~~gicrWakerProcessorSleep
      igroupr0 := h.igroupr0 ||| 1#32 <<< irqHtimerPpi
      isenabler0 := h.isenabler0 ||| 1#32 <<< irqHtimerPpi
      ipriorityr := Function.update h.ipriorityr irqHtimerPpi 0xA0
      iccSreEl2 := 0x9
      iccPmrEl1 := 0xFF
      iccIgrpen1El1 := 0x1
      vif := { h.vif with
        hcr := 1, vmcr := 0xFF#64 <<< 24 ||| 1#64 <<< 1, lr0 := makeLr 42 0xA0 true } } := by
  simp only [kmain, gicInitEl2, wakeRedistributor_eq]
  generalize wakeTimesOut reads 1000000 1 = timeout
  simp only [stage4EretToGuest, enablePpi, Hyp.uartPuts, Hyp.onM, Machine.uartPuts,
    Machine.uartPutBytes, Machine.uartPutc, Machine.msr, bootText, text, List.append_assoc]
  rfl

/-- What the CPU and memory hold when `kmain` is called: the virtual CPU
interface is idle, and the guest's file is loaded. -/
structure AtReset (L : Link) (h : Hyp) (c : Cpu) : Prop where
  idle : h.vif.active = []
  loaded : Loaded L c.mem
  seen : c.seen = []

/-- The guest is entered at `guest_v3_start`, with interrupt 42 waiting. -/
theorem handOver_eq {L : Link} {c : Cpu} (hr : AtReset L h c) : ∃ d,
    handOver reads L h c = some ⟨kmain reads L.base h, AsmRun.atOff L.base 0 d⟩
      ∧ Fresh L 42 d := by
  obtain ⟨hintid, hprio, hgroup, hstate⟩ := makeLr_fields 42 0xA0 true
  have hel1h : isEl1h 0x3C5 = true := by decide
  have hnzcv : spsrNzcv 0x3C5 = 0 := by decide
  have hdaif : spsrDaif 0x3C5 = 0xF := by decide
  refine ⟨{ c with
    x := h.m.gpr, nzcv := 0, daif := 0xF, vif := (kmain reads L.base h).vif }, ?_, ?_⟩
  · have hspsr : (kmain reads L.base h).m.mrs .spsrEl2 = 0x3C5 := by
      rw [kmain_eq]
      rfl
    have helr : (kmain reads L.base h).m.mrs .elrEl2 = L.base := by
      rw [kmain_eq]
      rfl
    have hgpr : (kmain reads L.base h).m.gpr = h.m.gpr := by
      rw [kmain_eq]
    have hpc : L.base + BitVec.ofNat 64 0 = L.base := BitVec.add_zero L.base
    simp only [handOver, eretEl1, hspsr, helr, hgpr, hel1h, hnzcv, hdaif, if_true, AsmRun.atOff,
      hpc]
  · refine ⟨rfl, hr.loaded, ?_, hr.seen⟩
    have hen : (1 : BitVec 64).getLsbD 0 = true := by decide
    have hlow : lrPriority (makeLr 42 0xA0 true) < 0xFF := by
      rw [hprio]
      decide
    rw [kmain_eq]
    exact ⟨hen, hstate, hgroup, hlow, hintid, hr.idle⟩

/-- **What EL2 leaves behind.** Whatever the redistributor answers, `kmain` gets
to the guest, at its first instruction with everything masked and interrupt 42
waiting; physical interrupts go to EL2; of the PPIs 26 is enabled, in group 1
and with priority `0xA0`, and the others are as they were; and a timeout is
reported if the redistributor was asleep each of 1000001 times. -/
theorem boot_hands_over (L : Link) (c : Cpu) (hr : AtReset L h c) : ∃ s d,
    handOver reads L h c = some s ∧ s.guest = AsmRun.atOff L.base 0 d ∧ Fresh L 42 d
      ∧ (∀ k, (s.hyp.m.mrs .hcrEl2).getLsbD k
          = ((h.m.mrs .hcrEl2).getLsbD k || decide (k = 4)))
      ∧ (∀ n, s.hyp.isenabler0.getLsbD n = (h.isenabler0.getLsbD n || decide (n = 26))
        ∧ s.hyp.igroupr0.getLsbD n = (h.igroupr0.getLsbD n || decide (n = 26))
        ∧ s.hyp.ipriorityr n = if n = 26 then 0xA0 else h.ipriorityr n)
      ∧ ∃ timeout, s.hyp.m.uart
          = h.m.uart ++ bootText (readCurrentEl h.m >>> 2 &&& 3) timeout
        ∧ (timeout = true ↔ ∀ i ≤ 1000000, childrenAsleep (reads (1 + i)) = true) := by
  obtain ⟨d, hover, hfresh⟩ := handOver_eq reads h hr
  refine ⟨_, d, hover, rfl, hfresh, ?_, ?_, wakeTimesOut reads 1000000 1, ?_,
    wakeTimesOut_iff reads 1000000 1⟩
  · intro k
    have hhcr : (kmain reads L.base h).m.mrs .hcrEl2 = h.m.mrs .hcrEl2 ||| 1#64 <<< 4 := by
      rw [kmain_eq]
      rfl
    rw [hhcr, BitVec.getLsbD_or, getLsbD_one_shiftLeft (by decide)]
  · intro n
    rw [kmain_eq]
    refine ⟨?_, ?_, ?_⟩
    · exact (BitVec.getLsbD_or).trans
        (congrArg (h.isenabler0.getLsbD n || ·) (getLsbD_one_shiftLeft (by decide) n))
    · exact (BitVec.getLsbD_or).trans
        (congrArg (h.igroupr0.getLsbD n || ·) (getLsbD_one_shiftLeft (by decide) n))
    · exact Function.update_apply h.ipriorityr 26 0xA0 n
  · rw [kmain_eq]

/-- A reset state: zeros, and the guest's file in memory. -/
def resetHyp : Hyp where
  m := default
  gicdCtlr := 0
  waker := 0
  igroupr0 := 0
  isenabler0 := 0
  ipriorityr := fun _ => 0
  iccSreEl2 := 0
  iccPmrEl1 := 0
  iccIgrpen1El1 := 0
  iars := []
  eoirs := []
  vif := { hcr := 0, vmcr := 0, lr0 := 0, active := [] }
  cnthpCount := 0

def resetCpu : Cpu where
  x := fun _ => 0
  sp := 0
  nzcv := 0
  daif := 0xF
  elrEl1 := 0
  spsrEl1 := 0
  esrEl1 := 0
  vbarEl1 := 0
  mem := fileMem ramLink
  vif := { hcr := 0, vmcr := 0, lr0 := 0, active := [] }
  seen := []

theorem atReset_reset : AtReset ramLink resetHyp resetCpu := by
  refine ⟨rfl, ?_, rfl⟩
  simp only [resetCpu]
  exact loaded_fileMem ramLink

theorem boot_hands_over_awake : AtReset ramLink resetHyp resetCpu
    ∧ ∃ s d, handOver (fun _ => 0) ramLink resetHyp resetCpu = some s
      ∧ s.guest = AsmRun.atOff ramLink.base 0 d := by
  obtain ⟨s, d, hs, hg, -⟩ := boot_hands_over (fun _ => 0) resetHyp ramLink resetCpu atReset_reset
  exact ⟨atReset_reset, s, d, hs, hg⟩

end Boot

/-! ## The virtual interrupt is delivered once -/

section Delivered

variable (reads : Nat → BitVec 32) (L : Link) (h : Hyp) (c : Cpu)

/-- Physical interrupts go to EL2 from the guest's first instruction on. -/
theorem handOver_imo {s : Sys} (hs : handOver reads L h c = some s) :
    (s.hyp.m.mrs .hcrEl2).getLsbD 4 = true := by
  rw [handOver, eretEl1] at hs
  split_ifs at hs with hel1h
  obtain rfl := Option.some.inj hs
  have hhcr : (kmain reads L.base h).m.mrs .hcrEl2 = h.m.mrs .hcrEl2 ||| 1#64 <<< 4 := by
    rw [kmain_eq]
    rfl
  rw [hhcr, BitVec.getLsbD_or, getLsbD_one_shiftLeft (by decide), decide_eq_true rfl, Bool.or_true]

/-- From reset the guest is on its way to its wait. -/
theorem handOver_runs {s : Sys} (hr : AtReset L h c) (hs : handOver reads L h c = some s) :
    Runs L (Looping L 0x3C (Ready L 42)) 191 s.guest := by
  obtain ⟨d, hover, hfresh⟩ := handOver_eq reads h hr
  obtain rfl := Option.some.inj (hs.symm.trans hover)
  exact runs_start hfresh

/-- The system does not get stuck where the guest does not. -/
theorem run_of_guest {s : Sys} (himo : (s.hyp.m.mrs .hcrEl2).getLsbD 4 = true) {es : List Event}
    {g : GuestV3.State}
    (hg : runEvents (tick (GuestV3.step L) GuestV3.virq) s.guest (es.filterMap Event.tick?)
      = some g) : ∃ t, runEvents (step L) s es = some t ∧ t.guest = g := by
  rw [← run_guest L s himo] at hg
  exact Option.map_eq_some_iff.mp hg

/-- Enough instructions before and after a virtual interrupt, and the guest has
handled it. -/
theorem guest_finishes (hr : AtReset L h c) {s : Sys} (hs : handOver reads L h c = some s)
    {es es' : List Event} (hes : 191 ≤ (es.filterMap Event.tick?).count .insn)
    (hes' : 385 ≤ (es'.filterMap Event.tick?).count .insn) :
    ∃ g, runEvents (tick (GuestV3.step L) GuestV3.virq) s.guest
        ((es ++ .virq :: es').filterMap Event.tick?) = some g
      ∧ Looping L 0x110 (Finished 42) g := by
  have hruns := handOver_runs reads L h c hr hs
  have hsplit : (es ++ .virq :: es').filterMap Event.tick?
      = es.filterMap Event.tick? ++ .irq :: es'.filterMap Event.tick? := List.filterMap_append
  rw [hsplit]
  exact (oneShot (L := L) (n := 42) (by decide)).finishes hruns hes hes'

theorem le_count_insn {n : Nat} {es : List Event} (h : (List.replicate n Event.insn).Sublist es) :
    n ≤ (es.filterMap Event.tick?).count .insn := by
  have hsome : Event.tick? .insn = some .insn := rfl
  have hcount := (h.filterMap Event.tick?).count_le .insn
  rw [List.filterMap_replicate_of_some hsome, List.count_replicate_self] at hcount
  exact hcount

/-- The guest gets to its wait, with the timer's interrupt on its way, and is
interrupted there: by one that is gone, the virtual one, and INTID 33. -/
def beforeVirq : List Event := .phys 26 :: (List.replicate 191 .insn ++ [.phys 1023])

def afterVirq : List Event := .phys 33 :: List.replicate 385 .insn

def roundRun : List Event := beforeVirq ++ .virq :: afterVirq

theorem beforeVirq_insns : (List.replicate 191 Event.insn).Sublist beforeVirq :=
  (List.sublist_append_left _ _).cons _

theorem afterVirq_insns : (List.replicate 385 Event.insn).Sublist afterVirq :=
  List.sublist_cons_self _ _

/-- **The guest runs as if there were no physical interrupts.** Whatever EL2 was
booted with and for every order of events, the guest ends up in the state, or
gets stuck at the instruction, to which its own events alone lead. -/
theorem physical_irqs_transparent {s : Sys} (hs : handOver reads L h c = some s)
    (es : List Event) :
    (runEvents (step L) s es).map (·.guest)
      = runEvents (tick (GuestV3.step L) GuestV3.virq) s.guest (es.filterMap Event.tick?) :=
  run_guest L s (handOver_imo reads L h c hs) es

theorem physical_irqs_transparent_handled : ∃ s g,
    handOver (fun _ => 0) ramLink resetHyp resetCpu = some s
      ∧ (runEvents (step ramLink) s roundRun).map (·.guest) = some g
      ∧ Looping ramLink 0x110 (Finished 42) g := by
  obtain ⟨d, hover, -⟩ := handOver_eq (fun _ => 0) resetHyp atReset_reset
  generalize hs : Sys.mk _ _ = s at hover
  obtain ⟨g, hg, hdone⟩ := guest_finishes _ ramLink resetHyp resetCpu atReset_reset hover
    (le_count_insn beforeVirq_insns) (le_count_insn afterVirq_insns)
  refine ⟨s, g, hover, ?_, hdone⟩
  rw [physical_irqs_transparent _ ramLink resetHyp resetCpu hover roundRun]
  exact hg

/-- **Nothing is delivered twice, or but as it should be.** From reset, for every
order of instructions, virtual and physical interrupts: the system is never
stuck, and what the guest has been seen to do begins the one sequence in which
it announces itself, reads interrupt 42, reports it, completes it, and is
done. -/
theorem virq_delivered_once (hr : AtReset L h c) {s : Sys} (hs : handOver reads L h c = some s)
    (es : List Event) :
    ∃ t, runEvents (step L) s es = some t ∧ t.guest.2.seen <+: handled 42 := by
  have himo := handOver_imo reads L h c hs
  have hruns := handOver_runs reads L h c hr hs
  have hwait : ∀ s, Looping L 0x3C (Ready L 42) s → s.2.seen <+: handled 42 := by
    intro s hs
    rw [hs.cpu.seen]
    simp only [handled, List.append_assoc]
    exact List.prefix_append _ _
  have hdone : ∀ s, Looping L 0x110 (Finished 42) s → s.2.seen <+: handled 42 := by
    intro s hs
    rw [hs.cpu.seen]
  obtain ⟨g, hg, hseen⟩ := (oneShot (L := L) (n := 42) (by decide)).safe step_seen hwait hdone hruns
    (es.filterMap Event.tick?)
  obtain ⟨t, ht, rfl⟩ := run_of_guest L himo hg
  exact ⟨t, ht, hseen⟩

theorem virq_delivered_once_round : ∃ s t,
    handOver (fun _ => 0) ramLink resetHyp resetCpu = some s
      ∧ runEvents (step ramLink) s roundRun = some t
      ∧ t.guest.2.seen <+: handled 42 ∧ .iar 42 ∈ t.guest.2.seen := by
  obtain ⟨d, hover, -⟩ := handOver_eq (fun _ => 0) resetHyp atReset_reset
  generalize hs : Sys.mk _ _ = s at hover
  obtain ⟨g, hg, hdone⟩ := guest_finishes _ ramLink resetHyp resetCpu atReset_reset hover
    (le_count_insn beforeVirq_insns) (le_count_insn afterVirq_insns)
  obtain ⟨t, ht, rfl⟩ := run_of_guest ramLink (handOver_imo _ ramLink resetHyp resetCpu hover) hg
  obtain ⟨t', ht', hseen⟩ := virq_delivered_once (fun _ => 0) ramLink resetHyp resetCpu
    atReset_reset hover roundRun
  obtain rfl := Option.some.inj (ht'.symm.trans ht)
  refine ⟨s, t', hover, ht', hseen, ?_⟩
  rw [hdone.cpu.seen]
  simp only [handled, List.mem_append, List.mem_singleton]
  exact .inl (.inl (.inl (.inr rfl)))

/-- **It is delivered.** From reset, once 191 instructions have run, a virtual
interrupt has been offered and 385 more have run, with anything in between and
around: the guest is in its last loop, has done all of it, and interrupt 42 is
neither pending nor active. -/
theorem virq_delivered (hr : AtReset L h c) {s : Sys} (hs : handOver reads L h c = some s)
    {es es' : List Event} (hes : 191 ≤ (es.filterMap Event.tick?).count .insn)
    (hes' : 385 ≤ (es'.filterMap Event.tick?).count .insn) :
    ∃ t, runEvents (step L) s (es ++ .virq :: es') = some t
      ∧ Looping L 0x110 (Finished 42) t.guest := by
  obtain ⟨g, hg, hdone⟩ := guest_finishes reads L h c hr hs hes hes'
  obtain ⟨t, ht, rfl⟩ := run_of_guest L (handOver_imo reads L h c hs) hg
  exact ⟨t, ht, hdone⟩

theorem virq_delivered_reset : ∃ s t,
    handOver (fun _ => 0) ramLink resetHyp resetCpu = some s
      ∧ runEvents (step ramLink) s
        (List.replicate 191 .insn ++ .virq :: List.replicate 385 .insn) = some t
      ∧ Looping ramLink 0x110 (Finished 42) t.guest := by
  obtain ⟨d, hover, -⟩ := handOver_eq (fun _ => 0) resetHyp atReset_reset
  obtain ⟨t, ht, hdone⟩ := virq_delivered (fun _ => 0) ramLink resetHyp resetCpu atReset_reset
    hover (le_count_insn (.refl _)) (le_count_insn (.refl _))
  exact ⟨_, t, hover, ht, hdone⟩

end Delivered

/-! ## Every physical interrupt is completed -/

def Event.iar? : Event → Option (BitVec 64)
  | .phys iar => some iar
  | _ => none

/-- What EL2 prints about an interrupt. -/
def physText (iar : BitVec 64) : List (BitVec 8) :=
  if 1020 ≤ intidOfIar iar ∨ intidOfIar iar = 26 then []
  else text "[gic-v3] unexpected INTID " ++ hexText ((intidOfIar iar).setWidth 64) ++ text "\n"

/-- What EL2 has done about the physical interrupts read as `vs` from `h` to `h'`. -/
structure Completed (vs : List (BitVec 64)) (h h' : Hyp) : Prop where
  iars : h'.iars = h.iars ++ vs
  eoirs : h'.eoirs = h.eoirs ++ vs.filter fun v => decide (intidOfIar v < 1020)
  cnthpCount : h'.cnthpCount
    = h.cnthpCount + BitVec.ofNat 64 (vs.countP fun v => decide (intidOfIar v = 26))
  uart : h'.m.uart = h.m.uart ++ vs.flatMap physText
  exits : h'.m.exitRingCount = h.m.exitRingCount + BitVec.ofNat 64 vs.length

theorem Completed.refl (h : Hyp) : Completed [] h h :=
  ⟨(List.append_nil _).symm, (List.append_nil _).symm, (BitVec.add_zero _).symm,
    (List.append_nil _).symm, (BitVec.add_zero _).symm⟩

theorem Completed.trans {vs vs' : List (BitVec 64)} {h h' h'' : Hyp} (hc : Completed vs h h')
    (hc' : Completed vs' h' h'') : Completed (vs ++ vs') h h'' where
  iars := by rw [hc'.iars, hc.iars, List.append_assoc]
  eoirs := by rw [hc'.eoirs, hc.eoirs, List.filter_append, List.append_assoc]
  cnthpCount := by
    rw [hc'.cnthpCount, hc.cnthpCount, List.countP_append, BitVec.ofNat_add, BitVec.add_assoc]
  uart := by rw [hc'.uart, hc.uart, List.flatMap_append, List.append_assoc]
  exits := by rw [hc'.exits, hc.exits, List.length_append, BitVec.ofNat_add, BitVec.add_assoc]

/-- One interrupt. -/
theorem completed_afterPhys (iar : BitVec 64) (s : Sys) :
    Completed [iar] s.hyp (afterPhys iar s) := by
  have hppi : BitVec.ofNat 32 irqHtimerPpi = 26 := rfl
  have hlt : decide (intidOfIar iar < 1020) = !decide (1020 ≤ intidOfIar iar) := by
    rw [← decide_not, decide_eq_decide, BitVec.not_le]
  have heoirs : [iar].filter (fun v => decide (intidOfIar v < 1020))
      = if 1020 ≤ intidOfIar iar then [] else [iar] := by
    rw [List.filter_singleton, hlt]
    by_cases h : 1020 ≤ intidOfIar iar <;> simp only [h, decide_true, decide_false, Bool.not_true,
      Bool.not_false, cond_true, cond_false, if_true, if_false]
  have hcount : [iar].countP (fun v => decide (intidOfIar v = 26))
      = if intidOfIar iar = 26 then 1 else 0 := by
    rw [List.countP_singleton]
    by_cases h : intidOfIar iar = 26 <;> simp only [h, decide_true, decide_false,
      Bool.false_eq_true, if_true, if_false]
  have huart : [iar].flatMap physText = physText iar := List.flatMap_singleton physText iar
  rw [afterPhys, handleIrq, gicHandlePhysicalIrq, hppi]
  by_cases hspurious : 1020 ≤ intidOfIar iar
  · have hne : intidOfIar iar ≠ 26 := by
      intro h26
      rw [h26] at hspurious
      exact absurd hspurious (by decide)
    rw [if_pos hspurious] at heoirs ⊢
    rw [if_neg hne] at hcount
    refine ⟨rfl, ?_, ?_, ?_, rfl⟩
    · rw [heoirs]
      exact (List.append_nil _).symm
    · rw [hcount]
      exact (BitVec.add_zero _).symm
    · rw [huart, physText, if_pos (.inl hspurious)]
      exact (List.append_nil _).symm
  · rw [if_neg hspurious] at heoirs ⊢
    by_cases h26 : intidOfIar iar = 26
    · rw [if_pos h26] at hcount ⊢
      refine ⟨rfl, ?_, ?_, ?_, rfl⟩
      · rw [heoirs]
        rfl
      · rw [hcount]
        rfl
      · rw [huart, physText, if_pos (.inr h26)]
        exact (List.append_nil _).symm
    · rw [if_neg h26] at hcount ⊢
      refine ⟨rfl, ?_, ?_, ?_, rfl⟩
      · rw [heoirs]
        rfl
      · rw [hcount]
        exact (BitVec.add_zero _).symm
      · rw [huart, physText, if_neg (not_or.mpr ⟨hspurious, h26⟩)]
        simp only [hexText, hexDigits, text, ← List.append_assoc]
        rfl

theorem run_completed (L : Link) {s t : Sys} (himo : (s.hyp.m.mrs .hcrEl2).getLsbD 4 = true)
    {es : List Event} (hrun : runEvents (step L) s es = some t) :
    Completed (es.filterMap Event.iar?) s.hyp t.hyp := by
  induction es generalizing s with
  | nil =>
      obtain rfl := Option.some.inj hrun
      exact .refl _
  | cons e es ih =>
      obtain ⟨s', hstep, hrest⟩ := runEvents_cons_eq_some.mp hrun
      have himo' : (s'.hyp.m.mrs .hcrEl2).getLsbD 4 = true := by
        rw [step_hcr hstep]
        exact himo
      cases e with
      | insn =>
          obtain ⟨g, -, rfl⟩ := Option.map_eq_some_iff.mp hstep
          exact ih (s := { s with guest := g }) himo' hrest
      | virq =>
          obtain rfl := Option.some.inj hstep
          exact ih (s := { s with guest := GuestV3.virq s.guest }) himo' hrest
      | phys iar =>
          rw [step, takePhys_eq iar himo] at hstep
          obtain rfl := Option.some.inj hstep
          exact (completed_afterPhys iar s).trans (ih himo' hrest)

/-- **Every acknowledge is completed.** From boot and for every order of events:
EL2 has written `ICC_EOIR1_EL1` for exactly the interrupts it has acknowledged,
each with the value read and in the order of the reads, spurious ones apart; it
has counted the timer's; and it has printed one line for each of the others. -/
theorem physical_irqs_completed (reads : Nat → BitVec 32) (L : Link) (h : Hyp) (c : Cpu)
    {s t : Sys} (hs : handOver reads L h c = some s) {es : List Event}
    (hrun : runEvents (step L) s es = some t) :
    Completed (es.filterMap Event.iar?) s.hyp t.hyp :=
  run_completed L (handOver_imo reads L h c hs) hrun

theorem physical_irqs_completed_timer : ∃ s t,
    handOver (fun _ => 0) ramLink resetHyp resetCpu = some s
      ∧ runEvents (step ramLink) s [.phys 26, .phys 1023, .phys 33] = some t
      ∧ Completed [26, 1023, 33] s.hyp t.hyp := by
  obtain ⟨d, hover, -⟩ := handOver_eq (fun _ => 0) resetHyp atReset_reset
  generalize hs : Sys.mk _ _ = s at hover
  have himo := handOver_imo _ ramLink resetHyp resetCpu hover
  obtain ⟨t, ht, -⟩ : ∃ t, runEvents (step ramLink) s [.phys 26, .phys 1023, .phys 33] = some t
      ∧ t.guest = s.guest := run_of_guest ramLink himo rfl
  exact ⟨s, t, hover, ht, physical_irqs_completed _ ramLink resetHyp resetCpu hover ht⟩

end V3

end ArmHyp
