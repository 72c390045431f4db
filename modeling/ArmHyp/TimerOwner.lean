import ArmHyp.Footprint
import ArmHyp.IrqLocal

/-!
# Whose virtual timer it is

There is one `CNTV` timer. `sched_tick` saves and loads it with the rest of
a vCPU, and the handler of INTID 27 both stops it and picks the vCPU to
inject into, each through whatever is loaded. `System` lets a guest leave
anything in `CNTV_CTL_EL0` and `CNTV_CVAL_EL0` between two exceptions; here
its writes are events of their own, so that what each vCPU programmed can
be recorded: a `TimerSlot` per vCPU, changed only by that vCPU's own writes
and by the interrupts injected into it.

The invariant is that the slots are the registers, in hardware or in
`vcpus[]`, and that an arming fires at most once.
-/

namespace ArmHyp

open Machine MinSet

/-! ## Slots -/

/-- `ENABLE` and `IMASK` of a value of `CNTV_CTL_EL0`. -/
def ctlBits (ctl : BitVec 64) : BitVec 2 := ctl.extractLsb' 0 2

/-- What one vCPU did with its virtual timer. -/
structure TimerSlot where
  /-- `ENABLE` and `IMASK` as it left them; an injection disarms. -/
  ctl : BitVec 2
  /-- The deadline it wrote. -/
  cval : BitVec 64
  /-- How often it armed the timer. -/
  arms : Nat
  /-- How often INTID 27 was injected between the `n`-th arming and the next;
  entry 0 counts what came before the first. -/
  fired : Nat → Nat

namespace TimerSlot

/-- Enabled and not masked. -/
def Armed (s : TimerSlot) : Prop := s.ctl = 1

/-- Nothing written yet. -/
def boot : TimerSlot := ⟨0, 0, 0, fun _ => 0⟩

def writeCtl (v : BitVec 64) (s : TimerSlot) : TimerSlot :=
  { s with ctl := ctlBits v, arms := if ctlBits v = 1 then s.arms + 1 else s.arms }

def writeCval (v : BitVec 64) (s : TimerSlot) : TimerSlot := { s with cval := v }

def fire (s : TimerSlot) : TimerSlot :=
  { s with ctl := 0, fired := Function.update s.fired s.arms (s.fired s.arms + 1) }

/-- An arming fires at most once, and nothing fires before the first. -/
structure Once (s : TimerSlot) : Prop where
  le_one : ∀ n, s.fired n ≤ 1
  boot_eq : s.fired 0 = 0
  later : ∀ n, s.arms < n → s.fired n = 0
  armed : s.Armed → 0 < s.arms ∧ s.fired s.arms = 0

theorem boot_once : boot.Once where
  le_one := fun _ => Nat.zero_le 1
  boot_eq := rfl
  later := fun _ _ => rfl
  armed := fun h => absurd h (by decide : (0 : BitVec 2) ≠ 1)

variable {s : TimerSlot}

theorem Once.writeCtl (h : s.Once) (v : BitVec 64) : (s.writeCtl v).Once := by
  by_cases hv : ctlBits v = 1
  · -- a new arming: its entry is still empty
    have harms : (s.writeCtl v).arms = s.arms + 1 := if_pos hv
    refine ⟨h.le_one, h.boot_eq, ?_, ?_⟩
    · intro n hn
      exact h.later n (by omega)
    · intro _
      rw [harms]
      exact ⟨Nat.succ_pos _, h.later _ (Nat.lt_succ_self _)⟩
  · have harms : (s.writeCtl v).arms = s.arms := if_neg hv
    refine ⟨h.le_one, h.boot_eq, ?_, ?_⟩
    · intro n hn
      exact h.later n (harms ▸ hn)
    · intro harmed
      exact absurd harmed hv

theorem Once.writeCval (h : s.Once) (v : BitVec 64) : (s.writeCval v).Once :=
  ⟨h.le_one, h.boot_eq, h.later, h.armed⟩

theorem Once.fire (h : s.Once) (harmed : s.Armed) : s.fire.Once := by
  obtain ⟨hpos, hzero⟩ := h.armed harmed
  refine ⟨?_, ?_, ?_, ?_⟩
  · intro n
    by_cases hn : n = s.arms
    · subst hn
      simp only [TimerSlot.fire, Function.update_self, hzero, Nat.zero_add, Nat.le_refl]
    · simp only [TimerSlot.fire, Function.update_of_ne hn]
      exact h.le_one n
  · have hne : 0 ≠ s.arms := Nat.ne_of_lt hpos
    simp only [TimerSlot.fire, Function.update_of_ne hne]
    exact h.boot_eq
  · intro n hn
    have hne : n ≠ s.arms := Nat.ne_of_gt hn
    simp only [TimerSlot.fire, Function.update_of_ne hne]
    exact h.later n hn
  · intro h
    exact absurd h (by decide : (0 : BitVec 2) ≠ 1)

end TimerSlot

/-! ## Events -/

/-- A timer write of the running guest (a write of `CNTV_TVAL_EL0` is one of
the deadline it amounts to), or an exception. -/
inductive TimedEvent where
  | writeCtl (v : BitVec 64)
  | writeCval (v : BitVec 64)
  | trap (t : Trap)

def timedStep (b : Build) (m : Machine) : TimedEvent → Option Machine
  | .writeCtl v => some (m.msr .cntvCtlEl0 v)
  | .writeCval v => some (m.msr .cntvCvalEl0 v)
  | .trap t => step b m t

/-- The record: every event goes to the slot of the running vCPU. -/
def timedObserve (m : Machine) (g : Nat → TimerSlot) : TimedEvent → Nat → TimerSlot
  | .writeCtl v => Function.update g m.current ((g m.current).writeCtl v)
  | .writeCval v => Function.update g m.current ((g m.current).writeCval v)
  | .trap t => if t.IsVtimer then Function.update g m.current (g m.current).fire else g

/-- An exception finds the timer as the guest's last write or the last return
left it, and PPI 27 is level-sensitive: the interface returns it only while
the loaded timer asserts it. -/
def TimedOk (s : Machine × (Nat → TimerSlot)) : TimedEvent → Prop
  | .trap t =>
      ctlBits (t.guest .cntvCtlEl0) = ctlBits (s.1.mrs .cntvCtlEl0)
        ∧ t.guest .cntvCvalEl0 = s.1.mrs .cntvCvalEl0
        ∧ (intidOf t.iar = irqVtimer → (s.1.enter t).cntvFires = true)
  | _ => True

def TimedInit (b : Build) (s : Machine × (Nat → TimerSlot)) : Prop :=
  Booted b s.1 ∧ s.2 = fun _ => .boot

/-- Machines and records after any interleaving of timer writes, expiries,
ticks and other exceptions. -/
def TimedReach (b : Build) (s : Machine × (Nat → TimerSlot)) : Prop :=
  Reach (TimedInit b) (observed (timedStep b) timedObserve) TimedOk s

/-! ## The timer of each vCPU -/

theorem mrs_msr_self (m : Machine) (r : SysReg) (v : BitVec 64) : (m.msr r v).mrs r = v := by
  simp only [mrs, msr, Function.update_self]

theorem mrs_msr_of_ne (m : Machine) {r r' : SysReg} (v : BitVec 64) (h : r' ≠ r) :
    (m.msr r v).mrs r' = m.mrs r' := by
  simp only [mrs, msr, Function.update_of_ne h]

theorem ctlBits_eq_one (v : BitVec 64) :
    ctlBits v = 1 ↔ v.getLsbD 0 = true ∧ v.getLsbD 1 = false := by
  have h0 : (ctlBits v).getLsbD 0 = v.getLsbD 0 := by simp [ctlBits]
  have h1 : (ctlBits v).getLsbD 1 = v.getLsbD 1 := by simp [ctlBits]
  rw [← h0, ← h1]
  generalize ctlBits v = w
  revert w
  decide

/-- The timer line in terms of what the guest left in the registers. -/
theorem cntvFires_enter (t : Trap) (m : Machine) :
    (m.enter t).cntvFires = true
      ↔ ctlBits (t.guest .cntvCtlEl0) = 1 ∧ t.guest .cntvCvalEl0 ≤ (m.enter t).cntvct := by
  have hctl : (m.enter t).regs .cntvCtlEl0 = t.guest .cntvCtlEl0 := rfl
  have hcval : (m.enter t).regs .cntvCvalEl0 = t.guest .cntvCvalEl0 := rfl
  rw [cntvFires, hctl, hcval, ctlBits_eq_one, Bool.and_eq_true, Bool.and_eq_true,
    Bool.not_eq_true', decide_eq_true_eq]

/-- The slots are the registers. -/
structure TimerOwned (b : Build) (s : Machine × (Nat → TimerSlot)) : Prop where
  wf : s.1.Wf b
  ctl : ∀ i < b.nvcpu, ctlBits (s.1.ctxReg i .cntvCtlEl0) = (s.2 i).ctl
  cval : ∀ i < b.nvcpu, s.1.ctxReg i .cntvCvalEl0 = (s.2 i).cval
  once : ∀ i, (s.2 i).Once

namespace TimerOwned

variable {b : Build} {s : Machine × (Nat → TimerSlot)}

theorem of_booted (hb : Booted b s.1) (hg : s.2 = fun _ => .boot) : TimerOwned b s := by
  obtain ⟨m₀, -, h⟩ := hb.state
  have hctx : ∀ i < b.nvcpu, s.1.ctxReg i .cntvCtlEl0 = 0 ∧ s.1.ctxReg i .cntvCvalEl0 = 0 := by
    intro i hi
    have hn := b.nvcpu_le
    rw [ctxReg, ctxReg, h.current, h.vcpus, h.regs .cntvCtlEl0 rfl, h.regs .cntvCvalEl0 rfl]
    obtain rfl | ⟨rfl, hone⟩ : i = 0 ∨ i = 1 ∧ 1 < b.nvcpu := by omega
    · rw [if_pos rfl, if_pos rfl, bootVcpus_zero]
      exact ⟨rfl, rfl⟩
    · rw [if_neg (by decide), if_neg (by decide), bootVcpus_one hone]
      exact ⟨rfl, rfl⟩
  refine ⟨booted_wf hb, ?_, ?_, ?_⟩
  · intro i hi
    rw [(hctx i hi).1, hg]
    exact (by decide : ctlBits 0 = 0)
  · intro i hi
    rw [(hctx i hi).2, hg]
    rfl
  · intro i
    rw [hg]
    exact TimerSlot.boot_once

/-- The running vCPU's slot, at an exception. -/
theorem current (h : TimerOwned b s) {t : Trap} (hok : TimedOk s (.trap t)) :
    ctlBits (t.guest .cntvCtlEl0) = (s.2 s.1.current).ctl
      ∧ t.guest .cntvCvalEl0 = (s.2 s.1.current).cval := by
  have hctl := h.ctl s.1.current h.wf.current_lt
  have hcval := h.cval s.1.current h.wf.current_lt
  rw [ctxReg_current] at hctl hcval
  exact ⟨hok.1.trans hctl, hok.2.1.trans hcval⟩

/-- The line is up exactly while the running vCPU is armed and its own
deadline has passed. -/
theorem fires_iff (h : TimerOwned b s) {t : Trap} (hok : TimedOk s (.trap t)) :
    (s.1.enter t).cntvFires = true ↔ (s.2 s.1.current).Armed
      ∧ (s.2 s.1.current).cval ≤ (s.1.enter t).cntvct := by
  obtain ⟨hctl, hcval⟩ := h.current hok
  rw [cntvFires_enter, hctl, hcval]
  rfl

/-- It is enough to look at the running vCPU if the others keep theirs. -/
theorem update (h : TimerOwned b s) {m' : Machine} {g : TimerSlot} (hwf : m'.Wf b)
    (hother : ∀ i, i ≠ s.1.current → m'.ctxReg i .cntvCtlEl0 = s.1.ctxReg i .cntvCtlEl0
      ∧ m'.ctxReg i .cntvCvalEl0 = s.1.ctxReg i .cntvCvalEl0)
    (hctl : ctlBits (m'.ctxReg s.1.current .cntvCtlEl0) = g.ctl)
    (hcval : m'.ctxReg s.1.current .cntvCvalEl0 = g.cval) (honce : g.Once) :
    TimerOwned b (m', Function.update s.2 s.1.current g) := by
  refine ⟨hwf, ?_, ?_, ?_⟩
  · refine (Function.forall_update_iff s.2 fun i g => i < b.nvcpu →
      ctlBits (m'.ctxReg i .cntvCtlEl0) = g.ctl).mpr ⟨fun _ => hctl, fun i hic hi => ?_⟩
    rw [(hother i hic).1, h.ctl i hi]
  · refine (Function.forall_update_iff s.2 fun i g => i < b.nvcpu →
      m'.ctxReg i .cntvCvalEl0 = g.cval).mpr ⟨fun _ => hcval, fun i hic hi => ?_⟩
    rw [(hother i hic).2, h.cval i hi]
  · exact (Function.forall_update_iff s.2 fun _ g => g.Once).mpr ⟨honce, fun i _ => h.once i⟩

/-- A write of the running guest. -/
theorem write (h : TimerOwned b s) {r : SysReg} (v : BitVec 64) {g : TimerSlot}
    (hctl : ctlBits ((s.1.msr r v).mrs .cntvCtlEl0) = g.ctl)
    (hcval : (s.1.msr r v).mrs .cntvCvalEl0 = g.cval) (honce : g.Once) :
    TimerOwned b (s.1.msr r v, Function.update s.2 s.1.current g) := by
  refine h.update (h.wf.congr rfl rfl) ?_ ?_ ?_ honce
  · intro i hi
    have hrec : ∀ r', (s.1.msr r v).ctxReg i r' = s.1.ctxReg i r' := fun r' => by
      rw [ctxReg_of_ne hi]
      exact ctxReg_of_ne (m := s.1.msr r v) hi r'
    exact ⟨hrec _, hrec _⟩
  · rw [← hctl]
    exact congrArg ctlBits (ctxReg_current (s.1.msr r v) .cntvCtlEl0)
  · rw [← hcval]
    exact ctxReg_current (s.1.msr r v) .cntvCvalEl0

theorem writeCtl (h : TimerOwned b s) (v : BitVec 64) :
    TimerOwned b (s.1.msr .cntvCtlEl0 v, timedObserve s.1 s.2 (.writeCtl v)) := by
  have hcval := h.cval s.1.current h.wf.current_lt
  rw [ctxReg_current] at hcval
  have hne : SysReg.cntvCvalEl0 ≠ .cntvCtlEl0 := by decide
  refine h.write v ?_ ?_ ((h.once _).writeCtl v)
  · exact congrArg ctlBits (mrs_msr_self s.1 .cntvCtlEl0 v)
  · exact (mrs_msr_of_ne s.1 v hne).trans hcval

theorem writeCval (h : TimerOwned b s) (v : BitVec 64) :
    TimerOwned b (s.1.msr .cntvCvalEl0 v, timedObserve s.1 s.2 (.writeCval v)) := by
  have hctl := h.ctl s.1.current h.wf.current_lt
  rw [ctxReg_current] at hctl
  have hne : SysReg.cntvCtlEl0 ≠ .cntvCvalEl0 := by decide
  refine h.write v ?_ ?_ ((h.once _).writeCval v)
  · exact (congrArg ctlBits (mrs_msr_of_ne s.1 v hne)).trans hctl
  · exact mrs_msr_self s.1 .cntvCvalEl0 v

theorem trap (h : TimerOwned b s) {t : Trap} {m' : Machine} (hok : TimedOk s (.trap t))
    (hs : step b s.1 t = some m') : TimerOwned b (m', timedObserve s.1 s.2 (.trap t)) := by
  obtain ⟨hctl, hcval⟩ := h.current hok
  have hwf := step_wf h.wf hs
  have hother : ∀ i, i ≠ s.1.current → m'.ctxReg i .cntvCtlEl0 = s.1.ctxReg i .cntvCtlEl0
      ∧ m'.ctxReg i .cntvCvalEl0 = s.1.ctxReg i .cntvCvalEl0 := by
    intro i hi
    rw [step_cntvCtl h.wf hs, if_neg fun hv => hi hv.2, step_ctxReg hs rfl rfl,
      enter_ctxReg _ _ rfl rfl, enter_ctxReg _ _ rfl rfl, if_neg hi, if_neg hi]
    exact ⟨rfl, rfl⟩
  have hcval' : m'.ctxReg s.1.current .cntvCvalEl0 = (s.2 s.1.current).cval := by
    rw [step_ctxReg hs rfl rfl, enter_ctxReg _ _ rfl rfl, if_pos rfl, hcval]
  simp only [timedObserve]
  split
  · rename_i hv
    refine h.update hwf hother ?_ hcval' ((h.once _).fire ((h.fires_iff hok).mp (hok.2.2 hv.2)).1)
    rw [step_cntvCtl h.wf hs, if_pos ⟨hv, rfl⟩]
    exact (by decide : ctlBits 0 = 0)
  · rename_i hv
    have hsame : Function.update s.2 s.1.current (s.2 s.1.current) = s.2 :=
      Function.update_eq_self _ _
    rw [← hsame]
    refine h.update hwf hother ?_ hcval' (h.once _)
    rw [step_cntvCtl h.wf hs, if_neg fun h => hv h.1, enter_ctxReg _ _ rfl rfl, if_pos rfl, hctl]

theorem of_reach (h : TimedReach b s) : TimerOwned b s := by
  refine Reach.invariant ?_ ?_ h
  · rintro s ⟨hb, hg⟩
    exact of_booted hb hg
  · rintro s e ⟨m', g'⟩ - hinv hok hs
    obtain ⟨hs, rfl⟩ := observed_eq_some.mp hs
    cases e with
    | writeCtl v =>
        cases hs
        exact hinv.writeCtl v
    | writeCval v =>
        cases hs
        exact hinv.writeCval v
    | trap t => exact hinv.trap hok hs

end TimerOwned

/-! ## Runs -/

/-- **A virtual timer belongs to its vCPU.** In every interleaving of timer
writes, expiries, ticks and other exceptions, the registers of a vCPU that
waits are what it programmed itself; no arming of a vCPU is followed by more
than one injection before its next, and none comes before the first. At
every exception the timer line is up exactly if the running vCPU is armed
and its own deadline has passed; an injection happens only then and pends
INTID 27 for that vCPU; INTID 27 becomes pending for no other vCPU and for
no other reason; and what the waiting vCPU programmed survives, in its
record or, if the exception loads it, in the hardware. -/
theorem vtimer_owned (b : Build) (s : Machine × (Nat → TimerSlot)) (h : TimedReach b s) :
    (∀ i < b.nvcpu, i ≠ s.1.current → ctlBits (s.1.vcpus i).cntvCtl = (s.2 i).ctl
      ∧ (s.1.vcpus i).cntvCval = (s.2 i).cval)
    ∧ (∀ i n, (s.2 i).fired n ≤ 1) ∧ (∀ i, (s.2 i).fired 0 = 0)
    ∧ ∀ (t : Trap) (m' : Machine), TimedOk s (.trap t) → step b s.1 t = some m' →
      ((s.1.enter t).cntvFires = true ↔ (s.2 s.1.current).Armed
        ∧ (s.2 s.1.current).cval ≤ (s.1.enter t).cntvct)
      ∧ (t.IsVtimer → (s.1.enter t).cntvFires = true ∧ 27 ∈ (m'.vgics s.1.current).pending)
      ∧ (∀ i, 27 ∉ (s.1.vgics i).pending → 27 ∈ (m'.vgics i).pending →
        i = s.1.current ∧ t.IsVtimer)
      ∧ ∀ i < b.nvcpu, i ≠ s.1.current →
        ctlBits (m'.ctxReg i .cntvCtlEl0) = (s.2 i).ctl
          ∧ m'.ctxReg i .cntvCvalEl0 = (s.2 i).cval := by
  have hown := TimerOwned.of_reach h
  refine ⟨?_, fun i => (hown.once i).le_one, fun i => (hown.once i).boot_eq, ?_⟩
  · intro i hi hic
    have hctl := hown.ctl i hi
    have hcval := hown.cval i hi
    rw [ctxReg_of_ne hic] at hctl hcval
    exact ⟨hctl, hcval⟩
  · intro t m' hok hs
    refine ⟨hown.fires_iff hok, ?_, ?_, ?_⟩
    · intro hv
      exact ⟨hok.2.2 hv.2, step_vtimer_pending hown.wf hs hv⟩
    · intro i hold hnew
      obtain ⟨hi, hraise⟩ := step_raises hown.wf hs hold hnew
      exact ⟨hi, Trap.raises_vtimer hraise⟩
    · intro i hi hic
      have hnext := hown.trap hok hs
      have hslot : timedObserve s.1 s.2 (.trap t) i = s.2 i := by
        simp only [timedObserve]
        split
        · exact Function.update_of_ne hic _ _
        · rfl
      exact ⟨(hnext.ctl i hi).trans (congrArg TimerSlot.ctl hslot),
        (hnext.cval i hi).trans (congrArg TimerSlot.cval hslot)⟩

/-- A tick that finds the registers as they are. -/
theorem TimedReach.tick {b : Build} {s : Machine × (Nat → TimerSlot)} (h : TimedReach b s) :
    ∃ m', TimedReach b (m', s.2)
      ∧ m'.current = if 1 < b.nvcpu then (s.1.current + 1) % b.nvcpu else s.1.current := by
  obtain ⟨t, hkind, hiar, hguest⟩ : ∃ t : Trap, t.kind = .l64Irq ∧ intidOf t.iar = irqHtimer
      ∧ t.guest = s.1.regs :=
    ⟨{ Trap.irq 26 with guest := s.1.regs }, rfl, (by decide : intidOf 26 = irqHtimer), rfl⟩
  have hne : intidOf t.iar ≠ irqVtimer := by
    rw [hiar]
    decide
  obtain ⟨m', hs⟩ := step_handled b s.1 (t := t) (Or.inl hkind)
  have hok : TimedOk s (.trap t) := by
    refine ⟨?_, ?_, fun hv => absurd hv hne⟩
    · rw [hguest]
      rfl
    · rw [hguest]
      rfl
  have hobs : timedObserve s.1 s.2 (.trap t) = s.2 := if_neg fun hv => hne hv.2
  refine ⟨m', h.next hok (observed_eq_some.mpr ⟨hs, hobs⟩), ?_⟩
  exact step_tick_current (TimerOwned.of_reach h).wf hs ⟨Or.inl hkind, hiar⟩

/-- vCPU 0 arms its timer and is swapped out: its deadline waits with it. -/
theorem vtimer_owned_parked :
    ∃ s, TimedReach default s ∧ s.1.current = 1 ∧ (s.2 0).Armed ∧ (s.2 0).arms = 1
      ∧ ctlBits (s.1.vcpus 0).cntvCtl = 1 ∧ (s.1.vcpus 0).cntvCval = 5 := by
  obtain ⟨m₀, hb, -⟩ := exists_booted default atReset_default
  have hcur : m₀.current = 0 := (booted_irqView hb).cur_eq
  have hr₀ : TimedReach default (m₀, fun _ => .boot) := .start ⟨hb, rfl⟩
  obtain ⟨m₁, g₁, hr₁, hcur₁, hg₁⟩ : ∃ m₁ g₁, TimedReach default (m₁, g₁) ∧ m₁.current = 0
      ∧ g₁ 0 = TimerSlot.boot.writeCval 5 := by
    refine ⟨_, _, Reach.next (e := .writeCval 5) hr₀ trivial rfl, hcur, ?_⟩
    simp only [timedObserve, hcur, Function.update_self]
  obtain ⟨m₂, g₂, hr₂, hcur₂, hslot⟩ : ∃ m₂ g₂, TimedReach default (m₂, g₂) ∧ m₂.current = 0
      ∧ g₂ 0 = (TimerSlot.boot.writeCval 5).writeCtl 1 := by
    refine ⟨_, _, Reach.next (e := .writeCtl 1) hr₁ trivial rfl, hcur₁, ?_⟩
    simp only [timedObserve, hcur₁, hg₁, Function.update_self]
  obtain ⟨m, hr, hcur'⟩ := hr₂.tick
  have hone : m.current = 1 := by
    rw [hcur', hcur₂]
    rfl
  obtain ⟨hsaved, -⟩ := vtimer_owned default _ hr
  obtain ⟨hctl, hcval⟩ := hsaved 0 (by decide) (by rw [hone]; decide)
  refine ⟨_, hr, hone, ?_, ?_, ?_, ?_⟩
  · exact (congrArg TimerSlot.ctl hslot).trans (by decide)
  · exact (congrArg TimerSlot.arms hslot).trans (by decide)
  · exact hctl.trans ((congrArg TimerSlot.ctl hslot).trans (by decide))
  · exact hcval.trans ((congrArg TimerSlot.cval hslot).trans (by decide))

end ArmHyp
