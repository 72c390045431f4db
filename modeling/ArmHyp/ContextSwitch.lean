import Mathlib.Order.Bounds.Basic
import ArmHyp.Boot

/-!
# Context switches along a run

A `Context` is what `vcpu_t` is meant to capture: the frame and the
registers it lists. `schedTick_context` says that a tick replaces the
context of the machine by the one in the incoming record, having stored the
outgoing one. From that follow, over runs of any length with arbitrary
guest execution between the ticks, that every vCPU resumes with the context
it was descheduled with, and, for one switch and two runs, which registers
can carry information from one guest to the other.
-/

namespace ArmHyp

open Machine

/-! ## Contexts -/

/-- A vCPU's registers, as far as `vcpu_t` lists them. -/
@[ext] structure Context where
  x : Fin 31 → BitVec 64
  elr : BitVec 64
  spsr : BitVec 64
  reg : SysReg → BitVec 64

/-- The context the machine would save now. -/
def Machine.context (m : Machine) : Context where
  x := fun i => m.tf.x i.val
  elr := m.tf.elrEl2
  spsr := m.tf.spsrEl2
  reg := fun r => if r.inVcpu then m.regs r else 0

/-- The context a record holds. -/
def Vcpu.context (v : Vcpu) : Context where
  x := v.x
  elr := v.elrEl2
  spsr := v.spsrEl2
  reg := fun r => if r.inVcpu then v.reg r else 0

theorem saveVcpu_context (v : Vcpu) (m : Machine) : (saveVcpu v m).context = m.context := by
  ext1
  · rfl
  · rfl
  · rfl
  · funext r
    simp only [Vcpu.context, Machine.context]
    split
    · rename_i hr
      exact saveVcpu_reg v m hr
    · rfl

theorem loadFrame_x (v : Vcpu) (tf : TrapFrame) (i : Fin 31) :
    (loadFrame v tf).x i.val = v.x i := by
  have hi := i.isLt
  have hmod : (Fin.ofNat 34 i.val).val = i.val := Nat.mod_eq_of_lt (by omega)
  simp only [loadFrame, TrapFrame.x, hmod, hi, dif_pos]

/-- A tick loads the incoming record's context. -/
theorem schedTick_context (b : Build) (m : Machine) (hn : 1 < b.nvcpu) :
    (schedTick b m).context = (savedVcpus m (nextVcpu b m)).context := by
  have htf := schedTick_tf b m hn
  ext1
  · funext i
    simp only [Machine.context, htf]
    exact loadFrame_x _ _ i
  · simp only [Machine.context, htf]
    rfl
  · simp only [Machine.context, htf]
    rfl
  · funext r
    simp only [Vcpu.context, Machine.context]
    split
    · rename_i hr
      exact schedTick_regs_inVcpu b m hn hr
    · rfl

/-! ## Runs of ticks -/

/-- What may happen between two ticks: guests run and other exceptions are
handled. Frame, registers, memory and devices are arbitrary afterwards;
only `sched.c` writes `vcpus[]`, `current` and `VTTBR_EL2`. -/
structure Between (m m' : Machine) : Prop where
  vcpus : m'.vcpus = m.vcpus
  current : m'.current = m.current
  vttbr : m'.regs .vttbrEl2 = m.regs .vttbrEl2

/-- A run of ticks from boot. `pre k` is the machine on which `sched_tick` is
called for the `k`-th time (from 0); a finite run is the beginning of one. -/
structure TickRun (b : Build) where
  boot : Machine
  booted : Booted b boot
  pre : Nat → Machine
  start : Between boot (pre 0)
  next : ∀ k, Between (schedTick b (pre k)) (pre (k + 1))

namespace TickRun

variable {b : Build} (r : TickRun b)

/-- Ticks and nothing else, from a booted machine. -/
def ofBooted {m : Machine} (h : Booted b m) : TickRun b where
  boot := m
  booted := h
  pre := fun k => (schedTick b)^[k] m
  start := ⟨rfl, rfl, rfl⟩
  next := fun k => by
    rw [Function.iterate_succ_apply']
    exact ⟨rfl, rfl, rfl⟩

/-- The machine after the `n`-th tick. -/
def after : Nat → Machine
  | 0 => r.boot
  | n + 1 => schedTick b (r.pre n)

theorem between (n : Nat) : Between (r.after n) (r.pre n) := by
  cases n with
  | zero => exact r.start
  | succ n => exact r.next n

theorem after_current (hn : b.nvcpu = 2) (n : Nat) : (r.after n).current = n % 2 := by
  induction n with
  | zero =>
      obtain ⟨m₀, -, hs⟩ := r.booted.state
      exact hs.current
  | succ n ih =>
      have hb := (r.between n).current
      rw [after, schedTick_current, nextVcpu, if_pos (by omega), hb, ih, hn]
      omega

theorem pre_current (hn : b.nvcpu = 2) (n : Nat) : (r.pre n).current = n % 2 := by
  rw [(r.between n).current, r.after_current hn]

theorem nextVcpu_pre (hn : b.nvcpu = 2) (n : Nat) : nextVcpu b (r.pre n) = (n + 1) % 2 := by
  rw [← schedTick_current b (r.pre n)]
  exact r.after_current hn (n + 1)

/-- The context loaded by tick `n + 1` is the idle vCPU's record. -/
theorem after_context (hn : b.nvcpu = 2) (n : Nat) :
    (r.after (n + 1)).context = ((r.after n).vcpus ((n + 1) % 2)).context := by
  have hn' : 1 < b.nvcpu := by omega
  rw [after, schedTick_context b _ hn', savedVcpus_of_ne (nextVcpu_ne _ hn'), r.nextVcpu_pre hn,
    (r.between n).vcpus]

/-- From the second tick on, that record is the one saved a tick earlier. -/
theorem after_context_succ (hn : b.nvcpu = 2) (n : Nat) :
    (r.after (n + 2)).context = (r.pre n).context := by
  have hcur : (n + 2) % 2 = (r.pre n).current := by
    rw [r.pre_current hn]
    omega
  rw [r.after_context hn (n + 1), after, schedTick_vcpus b _ (by omega), hcur, savedVcpus_current,
    saveVcpu_context]

/-- `VTTBR_EL2` of every vCPU is what `stage2_alloc_vm` returned for it. -/
theorem after_vttbr (hn : b.nvcpu = 2) (n : Nat) {i : Nat} (hi : i < 2) :
    (r.after n).ctxReg i .vttbrEl2 = s2Vttbr b.layout i (BitVec.ofNat 32 (i + 1)) := by
  induction n with
  | zero =>
      obtain ⟨m₀, -, hs⟩ := r.booted.state
      rw [after, ctxReg, hs.current, hs.regs .vttbrEl2 rfl, hs.vcpus]
      obtain rfl | rfl : i = 0 ∨ i = 1 := by omega
      · rw [if_pos rfl, bootVcpus_zero]
        rfl
      · rw [if_neg (by decide), bootVcpus_one (by omega)]
        rfl
  | succ n ih =>
      have hb := r.between n
      rw [after, schedTick_ctxReg b _ rfl, ← ih, ctxReg, ctxReg, hb.vcpus, hb.current, hb.vttbr]

/-- How the machine after the `n`-th tick got its context: from the last tick
that descheduled the vCPU now running, or, if there was none, from the
record `sched_init` set up. -/
def Restored (n : Nat) : Prop :=
  (∃ k, IsGreatest {k | k < n ∧ (r.pre k).current = (r.after n).current} k
      ∧ (r.after n).context = (r.pre k).context)
    ∨ ((∀ k < n, (r.pre k).current ≠ (r.after n).current)
      ∧ (r.after n).context
        = (bootVcpus b (fun _ => Vcpu.zero) (r.after n).current).context)

theorem restored (hn : b.nvcpu = 2) (n : Nat) : r.Restored (n + 1) := by
  cases n with
  | zero =>
      right
      have hcur : (r.after 1).current = 1 := r.after_current hn 1
      rw [hcur]
      refine ⟨?_, ?_⟩
      · intro k hk
        rw [r.pre_current hn]
        omega
      · obtain ⟨m₀, h₀, hs⟩ := r.booted.state
        rw [r.after_context hn 0]
        change (r.boot.vcpus 1).context = _
        rw [hs.vcpus, h₀.vcpus]
  | succ n =>
      left
      refine ⟨n, ⟨⟨by omega, ?_⟩, ?_⟩, r.after_context_succ hn n⟩
      · rw [r.pre_current hn, r.after_current hn]
        omega
      · rintro k ⟨hk, hcur⟩
        rw [r.pre_current hn, r.after_current hn] at hcur
        omega

end TickRun

/-- **Context-switch fidelity.** With two vCPUs, over any number of ticks
with arbitrary execution in between: the vCPUs alternate; `VTTBR_EL2` is
what `stage2_alloc_vm` returned for the running vCPU (on any memory); after
a tick the frame and every register of `vcpu_t` are those the vCPU was last
descheduled with, or its initial ones; and a tick changes no record but
the outgoing one's. -/
theorem context_switch_faithful (b : Build) (hn : b.nvcpu = 2) (r : TickRun b) (n : Nat) :
    (r.after n).current = n % b.nvcpu
    ∧ (∀ μ, (stage2AllocVm b.layout (r.after n).current
          (BitVec.ofNat 32 ((r.after n).current + 1)) μ).map Prod.fst
        = some ((r.after n).regs .vttbrEl2))
    ∧ r.Restored (n + 1)
    ∧ ∀ j, j ≠ (r.pre n).current → (r.after (n + 1)).vcpus j = (r.pre n).vcpus j := by
  have hcur := r.after_current hn n
  refine ⟨?_, ?_, r.restored hn n, ?_⟩
  · rw [hn]
    exact hcur
  · intro μ
    have hlt : (r.after n).current < maxVms := by
      rw [hcur]
      exact Nat.mod_lt _ (by decide)
    have hvttbr := r.after_vttbr hn n hlt
    rw [ctxReg, if_pos rfl] at hvttbr
    rw [hvttbr, stage2AllocVm, if_neg (Nat.not_le.mpr hlt)]
    rfl
  · intro j hj
    rw [TickRun.after, schedTick_vcpus b _ (by omega), savedVcpus_of_ne hj]

/-- Two ticks with nothing in between: vCPU 0 resumes with the context it was
descheduled with. -/
theorem context_switch_faithful_two_ticks :
    ∃ r : TickRun default, (r.after 2).current = 0 ∧ r.Restored 2 := by
  obtain ⟨m, hb, -⟩ := exists_booted default atReset_default
  exact ⟨.ofBooted hb, (context_switch_faithful default rfl (.ofBooted hb) 2).1,
    (context_switch_faithful default rfl (.ofBooted hb) 1).2.2.1⟩

/-! ## What a switch carries over -/

/-- Every register a guest can see or write at EL1 and EL0, with the PC and
PSTATE it resumes at. -/
@[ext] structure GuestRegs where
  gpr : Fin 31 → BitVec 64
  pc : BitVec 64
  pstate : BitVec 64
  reg : SysReg → BitVec 64
  vreg : Fin 32 → BitVec 128

def Machine.guestRegs (m : Machine) : GuestRegs where
  gpr := m.gpr
  pc := m.regs .elrEl2
  pstate := m.regs .spsrEl2
  reg := fun r => if r.guestWritable then m.regs r else 0
  vreg := m.vreg

/-- `sched_tick`, then the tail of the vector. -/
def switchTo (b : Build) (m : Machine) : Machine := (schedTick b m).restoreCtx

/-- The two machines agree on EL2's own state and on the incoming vCPU's
record, and may differ in everything the outgoing guest can write: the
frame, the EL1/EL0 system registers, `V0..V31` and memory. -/
structure AgreeEl2 (b : Build) (m₁ m₂ : Machine) : Prop where
  current : m₁.current = m₂.current
  record : m₁.vcpus (nextVcpu b m₁) = m₂.vcpus (nextVcpu b m₂)
  vgics : m₁.vgics = m₂.vgics
  gicd : m₁.gicd = m₂.gicd
  gicc : m₁.gicc = m₂.gicc
  el2 : ∀ r, r.guestWritable = false → r ≠ .elrEl2 → r ≠ .spsrEl2 → m₁.regs r = m₂.regs r

/-- The registers a guest can write that a switch does not replace: every one
that `vcpu_t` does not list. -/
structure AgreeLeftover (m₁ m₂ : Machine) : Prop where
  reg : ∀ r, r.guestWritable = true → r.inVcpu = false → m₁.regs r = m₂.regs r
  vreg : m₁.vreg = m₂.vreg

theorem switchTo_regs (b : Build) (m : Machine) {r : SysReg} (h : r.guestWritable = true) :
    (switchTo b m).regs r = (schedTick b m).regs r := by
  have h₁ : r ≠ .elrEl2 := by rintro rfl; cases h
  have h₂ : r ≠ .spsrEl2 := by rintro rfl; cases h
  simp only [switchTo, restoreCtx, msr, Function.update_of_ne h₁, Function.update_of_ne h₂]

theorem switchTo_vreg (b : Build) (m : Machine) : (switchTo b m).vreg = m.vreg :=
  schedTick_vreg b m

/-- A register `vcpu_t` does not list is still the outgoing guest's. -/
theorem switchTo_regs_leftover (b : Build) (m : Machine) {r : SysReg}
    (h : r.guestWritable = true) (hr : r.inVcpu = false) : (switchTo b m).regs r = m.regs r := by
  have h₁ : r ≠ .cnthpCvalEl2 := by rintro rfl; cases h
  have h₂ : r ≠ .cnthpCtlEl2 := by rintro rfl; cases h
  rw [switchTo_regs b m h, schedTick_regs_other b m hr h₁ h₂]

/-- The rest of what the guest sees is in the incoming record. -/
theorem switchTo_regs_record (b : Build) (hn : 1 < b.nvcpu) (m : Machine) {r : SysReg}
    (h : r.guestWritable = true) (hr : r.inVcpu = true) :
    (switchTo b m).regs r = (m.vcpus (nextVcpu b m)).reg r := by
  rw [switchTo_regs b m h, schedTick_regs_inVcpu b m hn hr, savedVcpus_of_ne (nextVcpu_ne m hn)]

theorem switchTo_frame (b : Build) (hn : 1 < b.nvcpu) (m : Machine) :
    (switchTo b m).gpr = (m.vcpus (nextVcpu b m)).x
      ∧ (switchTo b m).regs .elrEl2 = (m.vcpus (nextVcpu b m)).elrEl2
      ∧ (switchTo b m).regs .spsrEl2 = (m.vcpus (nextVcpu b m)).spsrEl2 := by
  have htf := schedTick_tf b m hn
  rw [savedVcpus_of_ne (nextVcpu_ne m hn)] at htf
  refine ⟨?_, ?_, ?_⟩
  · funext i
    change (schedTick b m).tf.x i.val = _
    rw [htf]
    exact loadFrame_x _ _ i
  · change (schedTick b m).tf.elrEl2 = _
    rw [htf]
    rfl
  · change (schedTick b m).tf.spsrEl2 = _
    rw [htf]
    rfl

/-- **What leaks through a switch.** For two machines that agree on EL2's
state and the incoming record, the incoming guest sees the same registers
exactly if the outgoing guests left the same values in the registers that
`vcpu_t` does not list: `V0..V31`, `FPCR`, `FPSR`, `CNTKCTL_EL1`, the PMU's
and the debug registers and whatever else the CPU has. -/
theorem switch_noninterference_iff (b : Build) (hn : b.nvcpu = 2) (m₁ m₂ : Machine)
    (h : AgreeEl2 b m₁ m₂) :
    (switchTo b m₁).guestRegs = (switchTo b m₂).guestRegs ↔ AgreeLeftover m₁ m₂ := by
  have hn' : 1 < b.nvcpu := by omega
  constructor
  · intro heq
    refine ⟨?_, ?_⟩
    · intro r hw hr
      have hreg := congrFun (congrArg GuestRegs.reg heq) r
      simp only [Machine.guestRegs, hw, if_true] at hreg
      rwa [switchTo_regs_leftover b m₁ hw hr, switchTo_regs_leftover b m₂ hw hr] at hreg
    · have hvreg := congrArg GuestRegs.vreg heq
      simp only [Machine.guestRegs] at hvreg
      rwa [switchTo_vreg, switchTo_vreg] at hvreg
  · intro hleft
    obtain ⟨hx₁, he₁, hs₁⟩ := switchTo_frame b hn' m₁
    obtain ⟨hx₂, he₂, hs₂⟩ := switchTo_frame b hn' m₂
    ext1
    · rw [Machine.guestRegs, Machine.guestRegs, hx₁, hx₂, h.record]
    · rw [Machine.guestRegs, Machine.guestRegs, he₁, he₂, h.record]
    · rw [Machine.guestRegs, Machine.guestRegs, hs₁, hs₂, h.record]
    · funext r
      simp only [Machine.guestRegs]
      split
      · rename_i hw
        cases hr : r.inVcpu with
        | true =>
            rw [switchTo_regs_record b hn' m₁ hw hr, switchTo_regs_record b hn' m₂ hw hr, h.record]
        | false =>
            rw [switchTo_regs_leftover b m₁ hw hr, switchTo_regs_leftover b m₂ hw hr]
            exact hleft.reg r hw hr
      · rfl
    · rw [Machine.guestRegs, Machine.guestRegs, switchTo_vreg, switchTo_vreg]
      exact hleft.vreg

/-- The outgoing guest's general registers, for one, do not leak. -/
theorem switch_noninterference_gpr :
    (switchTo default default).guestRegs
      = (switchTo default { (default : Machine) with tf := ⟨fun _ => 7⟩ }).guestRegs :=
  (switch_noninterference_iff default rfl default { (default : Machine) with tf := ⟨fun _ => 7⟩ }
    ⟨rfl, rfl, rfl, rfl, rfl, fun _ _ _ _ => rfl⟩).mpr ⟨fun _ _ _ => rfl, rfl⟩

/-- Two copies of a booted machine whose guest left 0 and 1 in the SIMD
registers: the incoming guest reads different values in `V0`. -/
theorem switch_leaks_v0 :
    ∃ m₁ m₂ : Machine, AgreeEl2 default m₁ m₂
      ∧ (∃ m, Booted default m ∧ m₁ = { m with vreg := fun _ => 0 }
        ∧ m₂ = { m with vreg := fun _ => 1 })
      ∧ (switchTo default m₁).guestRegs.vreg 0 = 0
      ∧ (switchTo default m₂).guestRegs.vreg 0 = 1 := by
  obtain ⟨m, hb, -⟩ := exists_booted default atReset_default
  refine ⟨{ m with vreg := fun _ => 0 }, { m with vreg := fun _ => 1 },
    ⟨rfl, rfl, rfl, rfl, rfl, fun _ _ _ _ => rfl⟩, ⟨m, hb, rfl, rfl⟩, ?_, ?_⟩
  · simp only [Machine.guestRegs, switchTo_vreg]
  · simp only [Machine.guestRegs, switchTo_vreg]

end ArmHyp
