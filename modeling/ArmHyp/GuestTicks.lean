import ArmHyp.GuestTimer
import ArmHyp.ViAgreement

/-!
# What guest B's tick counter counts

`guest_irq_handler` does not look at an INTID: whatever raised the virtual
interrupt, it counts a tick and acknowledges everything. So its counter is
right exactly as long as only INTID 27 is ever pending for B, and INTID 33
goes to whichever vCPU runs when the console line rises.

A `CountView` keeps where B is, its counter, its pending set, and the number
of times EL2 injected INTID 27 into it. The invariant of the moves
(`CountView.Ok`) charges every handler entry to an injection: one that is
owed while an interrupt is pending or the entry is not counted yet, none
between the count and `HVC_IRQ_DONE`, which clears what came in meanwhile.
-/

namespace ArmHyp

open Machine

/-! ## The protocol -/

structure CountView where
  pc : GuestPc
  ticks : Nat
  pending : Finset Nat
  /-- Injections of INTID 27 so far. -/
  injected : Nat

namespace CountView

/-- Ticks that the interrupts pending now can still lead to. -/
def owed (v : CountView) : Nat :=
  match v.pc with
  | .irqTick => 1
  | .irqCval | .irqCtl | .irqHvc => 0
  | _ => v.pending.card

/-- Nothing but INTID 27 is pending, and every tick is paid for. -/
structure Ok (v : CountView) : Prop where
  own : v.pending ⊆ {27}
  paid : v.ticks + v.owed ≤ v.injected

end CountView

/-- The counter after B's next step. -/
def GuestPc.count : GuestPc → Nat → Nat
  | .entry, _ => 0
  | .irqTick, n => n + 1
  | _, n => n

inductive CountStep : CountView → CountView → Prop
  | run {v : CountView} {pc : GuestPc} {n : Nat} : v.pc.next = some pc →
      n ≤ v.pc.count v.ticks → CountStep v { v with pc := pc, ticks := n }
  | virq {v : CountView} : v.pc = .idle → v.pending.Nonempty →
      CountStep v { v with pc := .irqTick }
  | expire {v : CountView} :
      CountStep v { v with pending := insert 27 v.pending, injected := v.injected + 1 }
  | done {v : CountView} : v.pc = .irqHvc → CountStep v { v with pc := .irqRet, pending := ∅ }
  | quiet {v : CountView} : CountStep v v

theorem CountStep.ok {v v' : CountView} (hs : CountStep v v') (h : v.Ok) : v'.Ok := by
  obtain ⟨hown, hpaid⟩ := h
  obtain ⟨pc, ticks, pend, inj⟩ := v
  cases hs with
  | run hnext hn =>
      refine ⟨hown, ?_⟩
      cases pc <;> cases hnext <;> simp only [CountView.owed, GuestPc.count] at hpaid hn ⊢ <;> omega
  | virq hpc hne =>
      -- the entry takes over what the pending interrupt was owed
      refine ⟨hown, ?_⟩
      cases hpc
      have hcard : 0 < pend.card := Finset.card_pos.mpr hne
      simp only [CountView.owed] at hpaid ⊢
      omega
  | expire =>
      refine ⟨Finset.insert_subset (Finset.mem_singleton_self 27) hown, ?_⟩
      have hcard : (insert 27 pend).card ≤ pend.card + 1 := Finset.card_insert_le 27 pend
      cases pc <;> simp only [CountView.owed] at hpaid ⊢ <;> omega
  | done hpc =>
      cases hpc
      refine ⟨Finset.empty_subset _, ?_⟩
      simp only [CountView.owed, Finset.card_empty] at hpaid ⊢
      omega
  | quiet => exact ⟨hown, hpaid⟩

/-! ## Refinement -/

/-- B's view, with `n` injections so far. -/
def GuestSys.count (s : GuestSys) (n : Nat) : CountView where
  pc := s.pc
  ticks := (s.machine.guestStates 1).ticks.toNat
  pending := (s.machine.vgics 1).pending
  injected := n

/-- Count the injections of INTID 27 into `vgics[1]`. -/
def countInjected (s : GuestSys) (n : Nat) : GuestEvent → Nat
  | .trap t => if s.machine.current = 1 ∧ t.IsVtimer then n + 1 else n
  | _ => n

/-- What can trap to EL2 while B runs: its hypercall, where its code makes it,
and physical interrupts, INTID 27 at any time. -/
def GuestTraps (s : GuestSys) : GuestEvent → Prop
  | .trap t => s.machine.current = 1 → s.pc = .irqHvc ∧ t.IsIrqDone ∨ t.kind = .l64Irq
  | _ => True

theorem GuestOk.traps {s : GuestSys} {e : GuestEvent} (h : GuestOk s e) : GuestTraps s e := by
  cases e with
  | trap t => exact fun hcur => (h hcur).2.2.imp_right And.left
  | run now => trivial
  | virq => trivial

/-- The console interrupt is taken while B runs. -/
def ConsoleToB (s : GuestSys) : GuestEvent → Prop
  | .trap t =>
      s.machine.current = 1 ∧ (t.kind = .l64Irq ∨ t.kind = .el2hIrq) ∧ intidOf t.iar = irqPl011
  | _ => False

section Exec

variable (b : Build) (m : Machine)

theorem guestStates_guestEntry (id : BitVec 64) :
    (m.guestEntry b id).guestStates
      = (m.setGs ⟨id.setWidth 32, 0, m.mrs .cntfrqEl0 / 10⟩).guestStates := rfl

theorem guestStates_guestTick :
    m.guestTick.guestStates = (m.setGs { m.gs with ticks := m.gs.ticks + 1 }).guestStates := rfl

theorem setGs_self {m : Machine} (g : GuestState) (hcur : m.current = 1) :
    (m.setGs g).guestStates 1 = g := by
  simp only [setGs, hcur, Function.update_self]

theorem guestExec_ticks (hcur : m.current = 1) (pc : GuestPc) :
    ((guestExec b m pc).guestStates 1).ticks.toNat
      ≤ pc.count ((m.guestStates 1).ticks.toNat) := by
  cases pc with
  | entry =>
      rw [guestExec, guestStates_guestEntry, setGs_self _ hcur]
      exact Nat.le_refl 0
  | irqTick =>
      rw [guestExec, guestStates_guestTick, setGs_self _ hcur, gs, hcur]
      exact (BitVec.toNat_add _ _).trans_le (Nat.mod_le _ _)
  | entryCval => exact Nat.le_refl _
  | entryCtl => exact Nat.le_refl _
  | entryDaif => exact Nat.le_refl _
  | idle => exact Nat.le_refl _
  | irqCval => exact Nat.le_refl _
  | irqCtl => exact Nat.le_refl _
  | irqHvc => exact Nat.le_refl _
  | irqRet => exact Nat.le_refl _

theorem guestExec_vgics (pc : GuestPc) : (guestExec b m pc).vgics = m.vgics := by
  have hview := congrArg IrqView.vgic (guestExec_irqView b m pc)
  split at hview <;> exact hview

end Exec

section Traps

variable {b : Build} {m m' : Machine} {t : Trap}

theorem pending_of_done (h : m.Wf b) (hs : step b m t = some m') (hcur : m.current = 1)
    (hdone : t.IsIrqDone) : (m'.vgics 1).pending = ∅ := by
  rw [step_vgic h hs, if_pos hcur.symm, hdone.irqOp]
  exact vgicAckAll_pending _

/-- An interrupt adds INTID 27, or 33, or nothing. -/
theorem pending_of_irq (h : m.Wf b) (hs : step b m t = some m') (hcur : m.current = 1)
    (hirq : t.kind = .l64Irq ∨ t.kind = .el2hIrq) (hcons : intidOf t.iar ≠ irqPl011) :
    (m'.vgics 1).pending
      = if intidOf t.iar = irqVtimer then insert 27 (m.vgics 1).pending
        else (m.vgics 1).pending := by
  have hiar : (m.enter t).irqView.cpuIf.gicc.iar = t.iar := rfl
  have hv : (m.enter t).irqView.cpuIf.v = m.vgics 1 := congrArg m.vgics hcur
  rw [step_vgic h hs, if_pos hcur.symm, Trap.irqOp_eq_phys.mpr hirq, IrqOp.onCpuIf, hiar,
    if_neg hcons]
  split
  · rw [vgicInject_pending, hv]
    rfl
  · rw [hv]

/-- The console interrupt is forwarded to whoever runs. -/
theorem pending_of_console {s s' : GuestSys} {e : GuestEvent} (h : s.machine.Wf b)
    (hcons : ConsoleToB s e) (hs : guestStep b s e = some s') :
    33 ∈ (s'.machine.vgics 1).pending := by
  cases e with
  | run now => exact hcons.elim
  | virq => exact hcons.elim
  | trap t =>
      obtain ⟨hcur, hirq, hiar⟩ := hcons
      simp only [guestStep, Option.map_eq_some_iff] at hs
      obtain ⟨m', hs, rfl⟩ := hs
      have hne : intidOf t.iar ≠ irqVtimer := by
        rw [hiar]
        decide
      have hop : IrqOp.phys.onCpuIf (s.machine.enter t).irqView.cpuIf
          = vgicForwardSpi irqPl011 t.iar (s.machine.enter t).irqView.cpuIf :=
        (if_neg hne).trans (if_pos hiar)
      rw [step_vgic h hs, if_pos hcur.symm, Trap.irqOp_eq_phys.mpr hirq, hop]
      exact mem_pending_inject (n := irqPl011) (by decide) _

end Traps

/-- B takes a virtual interrupt only while something is pending. -/
theorem pending_of_vi {b : Build} {m : Machine} (h : m.Wf b) (hvi : m.irqView.All b ViAgrees)
    (hcur : m.current = 1) (hup : m.mrs .hcrEl2 &&& hcrVi ≠ 0) : (m.vgics 1).pending.Nonempty := by
  have hhcr : m.mrs .hcrEl2 = hcrFor (m.vgics 1) := by
    have hagree : m.ctxReg m.current .hcrEl2 = hcrFor (m.vgics m.current) := hvi _ h.current_lt
    rw [ctxReg_current, hcur] at hagree
    exact hagree
  rw [Finset.nonempty_iff_ne_empty, Vgic.pending, ne_eq, bits_eq_empty_iff]
  intro hzero
  rw [hhcr, hcrFor, if_pos hzero] at hup
  exact hup (by decide)

/-- **Refinement.** A step of the system in which no console interrupt
reaches B is a move of the protocol. -/
theorem guestStep_count {b : Build} {s s' : GuestSys} {e : GuestEvent} (h : s.machine.Wf b)
    (hvi : s.machine.irqView.All b ViAgrees) (hok : GuestTraps s e) (hcons : ¬ConsoleToB s e)
    (hs : guestStep b s e = some s') (n : Nat) :
    CountStep (s.count n) (s'.count (countInjected s n e)) := by
  cases e with
  | run now =>
      simp only [guestStep] at hs
      split_ifs at hs with hcur
      obtain ⟨pc, hnext, rfl⟩ := Option.map_eq_some_iff.mp hs
      have hticks := guestExec_ticks b (s.machine.msr .cntpctEl0 now) hcur s.pc
      have hvgics := guestExec_vgics b (s.machine.msr .cntpctEl0 now) s.pc
      generalize guestExec b (s.machine.msr .cntpctEl0 now) s.pc = m' at hticks hvgics ⊢
      have hpend : (m'.vgics 1).pending = (s.machine.vgics 1).pending :=
        congrArg (fun f : Nat → Vgic => (f 1).pending) hvgics
      rw [GuestSys.count, GuestSys.count, hpend]
      exact CountStep.run (v := s.count n) hnext hticks
  | virq =>
      simp only [guestStep] at hs
      split_ifs at hs with hv
      cases hs
      exact CountStep.virq (v := s.count n) hv.2.1 (pending_of_vi h hvi hv.1 hv.2.2)
  | trap t =>
      simp only [guestStep, Option.map_eq_some_iff] at hs
      obtain ⟨m', hs, rfl⟩ := hs
      have hticks : m'.guestStates = s.machine.guestStates := step_guestStates hs
      simp only [countInjected]
      rw [GuestSys.count, GuestSys.count, hticks]
      by_cases hcur : s.machine.current = 1
      · obtain ⟨hpc, hdone⟩ | hirq := hok hcur
        · have hnot : ¬(s.machine.current = 1 ∧ t.IsVtimer) := fun hv => hdone.not_irq hv.2.1
          rw [if_pos ⟨hcur, hdone⟩, if_neg hnot, pending_of_done h hs hcur hdone]
          exact CountStep.done (v := s.count n) hpc
        · have hstay : ¬(s.machine.current = 1 ∧ t.IsIrqDone) :=
            fun hd => not_isIrqDone hirq hd.2
          have hnc : intidOf t.iar ≠ irqPl011 := fun hc => hcons ⟨hcur, Or.inl hirq, hc⟩
          rw [if_neg hstay, pending_of_irq h hs hcur (Or.inl hirq) hnc]
          by_cases hv : intidOf t.iar = irqVtimer
          · rw [if_pos hv, if_pos ⟨hcur, Or.inl hirq, hv⟩]
            exact CountStep.expire (v := s.count n)
          · rw [if_neg hv, if_neg fun h => hv h.2.2]
            exact CountStep.quiet (v := s.count n)
      · -- guest A: B's `vgic_t` is out of reach
        rw [if_neg fun hd => hcur hd.1, if_neg fun hv => hcur hv.1, step_vgic h hs,
          if_neg (Ne.symm hcur)]
        exact CountStep.quiet (v := s.count n)

/-- A step keeps what the refinement needs. -/
theorem guestStep_viAgrees {b : Build} {s s' : GuestSys} {e : GuestEvent} (h : s.machine.Wf b)
    (hvi : s.machine.irqView.All b ViAgrees) (hs : guestStep b s e = some s') :
    s'.machine.irqView.All b ViAgrees := by
  cases e with
  | run now =>
      simp only [guestStep] at hs
      split_ifs at hs with hcur
      obtain ⟨pc, -, rfl⟩ := Option.map_eq_some_iff.mp hs
      have hview : (s.machine.msr .cntpctEl0 now).irqView = s.machine.irqView :=
        irqView_msr _ _ (by decide) (by decide)
      simp only [guestExec_irqView, hview]
      split <;> exact hvi
  | virq =>
      simp only [guestStep] at hs
      split_ifs at hs
      cases hs
      exact hvi
  | trap t =>
      simp only [guestStep, Option.map_eq_some_iff] at hs
      obtain ⟨m', hs, rfl⟩ := hs
      rw [step_irqView h hs]
      exact run_viAgrees (w := (s.machine.enter t).irqView) hvi h.current_lt _

/-! ## Runs -/

/-- Runs with the number of injections, from boot. -/
def CountReach (b : Build) (ok : GuestSys → GuestEvent → Prop) (s : GuestSys × Nat) : Prop :=
  Reach (fun s => GuestInit b s.1 ∧ s.2 = 0) (observed (guestStep b) countInjected)
    (fun s e => ok s.1 e) s

/-- Runs in which no console interrupt is taken while B runs. -/
def ConsoleToA (s : GuestSys) (e : GuestEvent) : Prop := GuestTraps s e ∧ ¬ConsoleToB s e

structure Counted (b : Build) (s : GuestSys × Nat) : Prop where
  wf : s.1.machine.Wf b
  vi : s.1.machine.irqView.All b ViAgrees
  ok : (s.1.count s.2).Ok

theorem counted_of_reach {b : Build} (hn : b.nvcpu = 2) {s : GuestSys × Nat}
    (h : CountReach b ConsoleToA s) : Counted b s := by
  refine Reach.invariant ?_ ?_ h
  · rintro ⟨⟨m, pc⟩, n⟩ ⟨⟨hb, hpc⟩, hzero⟩
    cases hpc
    cases hzero
    have hticks : (m.guestStates 1).ticks = 0 := hb.ticks (by omega)
    have hpend : (m.vgics 1).pending = ∅ := by
      have hv : m.vgics 1 = vgicInit := (booted_irqView hb).vgic_eq 1 (by omega)
      rw [hv]
      exact bits_zero
    refine ⟨booted_wf hb, initial_viAgrees (booted_irqView hb), ?_, ?_⟩
    · simp only [GuestSys.count, hpend, Finset.empty_subset]
    · simp only [GuestSys.count, CountView.owed, hpend, hticks, Finset.card_empty]
      exact Nat.le_refl 0
  · rintro ⟨s, n⟩ e ⟨s', n'⟩ - ⟨hwf, hvi, hok⟩ ⟨hgok, hcons⟩ hs
    obtain ⟨hs, rfl⟩ := observed_eq_some.mp hs
    exact ⟨guestStep_wf hwf hs, guestStep_viAgrees hwf hvi hs,
      (guestStep_count hwf hvi hgok hcons hs n).ok hok⟩

/-- B boots into its idle loop before its timer first expires. -/
theorem exists_idle_uncounted :
    ∃ s, CountReach default (fun s e => GuestOk s e ∧ ¬ConsoleToB s e) (s, 0)
      ∧ s.RunsAt default .idle 1 ∧ (s.machine.guestStates 1).ticks = 0 := by
  have hrun : ∀ (s : GuestSys) (now : BitVec 64), (GuestOk s (.run now) ∧ ¬ConsoleToB s (.run now))
      ∧ countInjected s 0 (.run now) = 0 := fun _ _ => ⟨⟨trivial, id⟩, rfl⟩
  have htick : ∀ s : GuestSys,
      (GuestOk s (.trap (.tick s.machine)) ∧ ¬ConsoleToB s (.trap (.tick s.machine)))
        ∧ countInjected s 0 (.trap (.tick s.machine)) = 0 := by
    intro s
    refine ⟨⟨guestOk_tick s, fun hc => ?_⟩, if_neg fun hv => ?_⟩
    · exact absurd ((intidOf_tick s.machine).symm.trans hc.2.2) (by decide)
    · exact absurd ((intidOf_tick s.machine).symm.trans hv.2.2) (by decide)
  have hidle : Arrives (fun s e => (GuestOk s e ∧ ¬ConsoleToB s e) ∧ countInjected s 0 e = 0)
      .idle 1 := arrives_idle hrun htick
  obtain ⟨s, hr, h⟩ := hidle
  have hobs : Reach (fun x => GuestInit default x.1 ∧ x.2 = 0)
      (observed (guestStep default) countInjected)
      (fun x e => (GuestOk x.1 e ∧ ¬ConsoleToB x.1 e) ∧ countInjected x.1 0 e = 0) (s, 0) :=
    hr.observe fun _ _ hok => hok.2
  have hown : CountReach default ConsoleToA (s, 0) :=
    hobs.weaken fun _ _ hok => ⟨hok.1.1.traps, hok.1.2⟩
  have hpaid := (counted_of_reach rfl hown).ok.paid
  exact ⟨s, hobs.weaken fun _ _ hok => hok.1, h,
    BitVec.eq_of_toNat_eq (Nat.le_zero.mp (Nat.le_of_add_right_le hpaid))⟩

/-- With VI up in its idle loop, B takes the virtual interrupt and counts it. -/
theorem CountReach.counts {b : Build} {ok : GuestSys → GuestEvent → Prop} {s : GuestSys} {n : Nat}
    {ctl : BitVec 64} (hvirq : ∀ s, ok s .virq) (hrun : ∀ s now, ok s (.run now))
    (hr : CountReach b ok (s, n)) (h : s.RunsAt b .idle ctl)
    (hvi : s.machine.mrs .hcrEl2 &&& hcrVi ≠ 0) :
    ∃ s₁ s₂, guestStep b s .virq = some s₁ ∧ CountReach b ok (s₂, n)
      ∧ (s₂.machine.guestStates 1).ticks = (s.machine.guestStates 1).ticks + 1 := by
  have hcur : (s.machine.msr .cntpctEl0 0).current = 1 := h.cur_eq
  have hs₁ : guestStep b s .virq = some { s with pc := .irqTick } := by
    rw [guestStep, if_pos ⟨h.cur_eq, h.pc_eq, hvi⟩]
  have hs₂ : guestStep b { s with pc := .irqTick } (.run 0)
      = some ⟨(s.machine.msr .cntpctEl0 0).guestTick, .irqCval⟩ := if_pos h.cur_eq
  have hr₁ : CountReach b ok ({ s with pc := .irqTick }, n) :=
    hr.next (e := .virq) (hvirq _) (observed_eq_some.mpr ⟨hs₁, rfl⟩)
  have hr₂ : CountReach b ok (⟨(s.machine.msr .cntpctEl0 0).guestTick, .irqCval⟩, n) :=
    hr₁.next (e := .run 0) (hrun _ _) (observed_eq_some.mpr ⟨hs₂, rfl⟩)
  refine ⟨_, _, hs₁, hr₂, ?_⟩
  rw [guestStates_guestTick, setGs_self _ hcur, gs, hcur]
  rfl

/-- **B counts only its own timer if no console interrupt hits its slice.**
In every run in which INTID 33 is not taken while B runs, B's counter is at
most the number of times EL2 injected INTID 27 into `vgics[1]`, nothing but
INTID 27 is ever pending there, and whenever B takes a virtual interrupt it
is INTID 27. The condition is exact for the console: the step that breaks
it, and no other, makes INTID 33 pending for B. -/
theorem guest_ticks_own (b : Build) (hn : b.nvcpu = 2) (s : GuestSys × Nat)
    (h : CountReach b ConsoleToA s) :
    (s.1.machine.guestStates 1).ticks.toNat ≤ s.2
      ∧ (s.1.machine.vgics 1).pending ⊆ {27}
      ∧ (∀ s', guestStep b s.1 .virq = some s' → (s.1.machine.vgics 1).pending = {27})
      ∧ ∀ e s', GuestTraps s.1 e → guestStep b s.1 e = some s' →
        (33 ∈ (s'.machine.vgics 1).pending ↔ ConsoleToB s.1 e) := by
  have hcount := counted_of_reach hn h
  refine ⟨Nat.le_of_add_right_le hcount.ok.paid, hcount.ok.own, ?_, ?_⟩
  · intro s' hs
    simp only [guestStep] at hs
    split_ifs at hs with hv
    have hne := pending_of_vi hcount.wf hcount.vi hv.1 hv.2.2
    exact (Finset.Nonempty.subset_singleton_iff hne).mp hcount.ok.own
  · intro e s' hok hs
    refine ⟨fun hmem => ?_, fun hcons => pending_of_console hcount.wf hcons hs⟩
    by_contra hcons
    have hown := ((guestStep_count hcount.wf hcount.vi hok hcons hs s.2).ok hcount.ok).own
    exact absurd (Finset.mem_singleton.mp (hown hmem)) (by decide)

/-- B's timer expires in its slice: INTID 27 is injected, and B takes it and
counts one tick. -/
theorem guest_ticks_own_expiry :
    ∃ s₁ s₂, CountReach default ConsoleToA (s₁, 1) ∧ (s₁.machine.vgics 1).pending = {27}
      ∧ CountReach default ConsoleToA (s₂, 1) ∧ (s₂.machine.guestStates 1).ticks = 1
      ∧ (s₂.machine.guestStates 1).ticks.toNat ≤ 1 := by
  obtain ⟨s₀, hr₀, h₀, hzero⟩ := exists_idle_uncounted
  have hr₀ : CountReach default ConsoleToA (s₀, 0) :=
    hr₀.weaken fun _ _ hok => ⟨hok.1.traps, hok.2⟩
  obtain ⟨hok, s₁, hs₁, h₁, hvi, hgs⟩ := h₀.expire
  have hiar : intidOf (Trap.expiry s₀.machine).iar = irqVtimer := by
    change intidOf irqVtimer = irqVtimer
    decide
  have hcons : ¬ConsoleToB s₀ (.trap (.expiry s₀.machine)) :=
    fun hc => absurd (hiar.symm.trans hc.2.2) (by decide)
  have hr₁ : CountReach default ConsoleToA (s₁, 1) :=
    hr₀.next ⟨hok.traps, hcons⟩
      (observed_eq_some.mpr ⟨hs₁, if_pos ⟨h₀.cur_eq, Or.inl rfl, hiar⟩⟩)
  obtain ⟨s₂, s₃, hs₂, hr₃, hticks⟩ :=
    hr₁.counts (fun _ => ⟨trivial, id⟩) (fun _ _ => ⟨trivial, id⟩) h₁ hvi
  refine ⟨s₁, s₃, hr₁, (guest_ticks_own default rfl (s₁, 1) hr₁).2.2.1 s₂ hs₂, hr₃, ?_,
    (guest_ticks_own default rfl (s₃, 1) hr₃).1⟩
  rw [hticks, hgs, hzero]
  rfl

/-! ## A key pressed during B's slice -/

/-- The console interrupt. -/
def Trap.console (m : Machine) : Trap := { Trap.irq irqPl011 with guest := m.regs }

theorem intidOf_console (m : Machine) : intidOf (Trap.console m).iar = irqPl011 := by
  change intidOf irqPl011 = irqPl011
  decide

/-- Taken while B runs, it is forwarded to B. -/
theorem GuestSys.RunsAt.console {b : Build} {s : GuestSys} {pc : GuestPc} {ctl : BitVec 64}
    (h : s.RunsAt b pc ctl) :
    GuestOk s (.trap (.console s.machine))
      ∧ ∃ s', guestStep b s (.trap (.console s.machine)) = some s' ∧ s'.RunsAt b pc ctl
        ∧ s'.machine.mrs .hcrEl2 &&& hcrVi ≠ 0
        ∧ s'.machine.guestStates = s.machine.guestStates := by
  have hiar := intidOf_console s.machine
  have hne : intidOf (Trap.console s.machine).iar ≠ irqVtimer := by
    rw [hiar]
    decide
  obtain ⟨s', hs, hat, hvi, hgs⟩ := h.irq rfl rfl (Or.inr hiar)
  rw [if_neg fun hv => hne hv.2] at hat
  exact ⟨fun _ => ⟨rfl, rfl, Or.inr ⟨rfl, fun hv => absurd hv hne⟩⟩, s', hs, hat, hvi, hgs⟩

/-- With two vCPUs there is a run in which B counts a tick although EL2 never
injected INTID 27 into it: a key is pressed during B's slice. -/
theorem guest_ticks_console :
    ¬∀ (b : Build) (s : GuestSys × Nat), b.nvcpu = 2 → CountReach b GuestOk s →
      (s.1.machine.guestStates 1).ticks.toNat ≤ s.2 := by
  intro hall
  obtain ⟨s₀, hr₀, h₀, hzero⟩ := exists_idle_uncounted
  have hr₀ : CountReach default GuestOk (s₀, 0) := hr₀.weaken fun _ _ hok => hok.1
  obtain ⟨hok₁, s₁, hs₁, h₁, hvi, hgs⟩ := h₀.console
  have hr₁ : CountReach default GuestOk (s₁, 0) := by
    refine hr₀.next hok₁ (observed_eq_some.mpr ⟨hs₁, if_neg fun hv => ?_⟩)
    exact absurd ((intidOf_console s₀.machine).symm.trans hv.2.2) (by decide)
  obtain ⟨-, s₃, -, hr₃, hticks⟩ := hr₁.counts (fun _ => trivial) (fun _ _ => trivial) h₁ hvi
  have hle : (s₃.machine.guestStates 1).ticks.toNat ≤ 0 := hall default (s₃, 0) rfl hr₃
  rw [hticks, hgs, hzero] at hle
  exact absurd hle (by decide)

end ArmHyp
