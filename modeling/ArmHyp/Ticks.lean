import ArmHyp.ContextSwitch
import ArmHyp.Footprint

/-!
# Every run is a run of ticks

`TickRun` takes for granted that between two calls of `sched_tick` only
guests and other handlers run, and that these leave `vcpus[]`, `current`
and `VTTBR_EL2` alone. Here that is proved of the handlers: an exception
leaves the three alone or is one tick (`step_ticks`). Hence every machine
the system reaches is reached by some `TickRun`, and what is proved of
those holds of it.
-/

namespace ArmHyp

open Machine

theorem Between.trans {m m' m'' : Machine} (h : Between m m') (h' : Between m' m'') :
    Between m m'' where
  vcpus := h'.vcpus.trans h.vcpus
  current := h'.current.trans h.current
  vttbr := h'.vttbr.trans h.vttbr

/-! ## What a tick works on -/

/-- What `Between` keeps. -/
def Machine.schedState (m : Machine) : (Nat → Vcpu) × Nat × BitVec 64 :=
  (m.vcpus, m.current, m.regs .vttbrEl2)

theorem between_iff {m m' : Machine} : Between m m' ↔ m'.schedState = m.schedState := by
  simp only [schedState, Prod.mk.injEq]
  exact ⟨fun h => ⟨h.vcpus, h.current, h.vttbr⟩, fun h => ⟨h.1, h.2.1, h.2.2⟩⟩

theorem schedState_of_kept {m m' : Machine} (h : m'.kept = m.kept) :
    m'.schedState = m.schedState := by
  simp only [schedState, vcpus_of_kept h, current_of_kept h,
    regs_of_kept h (r := .vttbrEl2) rfl]

theorem schedState_msr (m : Machine) {r : SysReg} (v : BitVec 64) (hr : r ≠ .vttbrEl2) :
    (m.msr r v).schedState = m.schedState := by
  simp only [schedState, msr, Function.update_of_ne hr.symm]

/-! ## Steps and runs -/

/-- The tick of `gic_handle_physical_irq`. -/
theorem handleHtimer_ticks (b : Build) (iar : BitVec 32) (m : Machine) :
    ∃ p, p.schedState = m.schedState
      ∧ (handleHtimer b iar m).schedState = (schedTick b p).schedState := by
  refine ⟨pl011RxReassert
    (({ m with htimerTicks := m.htimerTicks + 1 } : Machine).msr .cnthpCtlEl2 0), ?_, ?_⟩
  · rw [schedState_of_kept (kept_pl011RxReassert _), schedState_msr _ _ (by decide)]
    rfl
  · rw [handleHtimer, schedState_of_kept (kept_writeEoir _ _), schedRearmTick, armHypTimerMs,
      schedState_msr _ _ (by decide), schedState_msr _ _ (by decide)]

/-- **An exception is at most one tick.** It leaves the scheduler's state
alone, or is one call of `sched_tick` with nothing but that around it. -/
theorem step_ticks {b : Build} {m m' : Machine} {t : Trap} (hs : step b m t = some m') :
    Between m m' ∨ ∃ p, Between m p ∧ Between (schedTick b p) m' := by
  have hdisp : (atDispatch t m).schedState = m.schedState := rfl
  simp only [between_iff]
  rcases step_footprint hs with ⟨-, rfl⟩ | ⟨-, hkept⟩
  · obtain ⟨p, hp, hpost⟩ := handleHtimer_ticks b t.iar (atDispatch t m).ackIar
    refine Or.inr ⟨p, hp.trans hdisp, ?_⟩
    rw [schedState_of_kept (kept_restoreCtx _), hpost]
  · exact Or.inl ((schedState_of_kept hkept).trans hdisp)

namespace TickRun

variable {b : Build}

/-- The same run up to the `n`-th tick, then `p`, then ticks only. -/
def resume (r : TickRun b) (n : Nat) (p : Machine) (h : Between (r.after n) p) : TickRun b where
  boot := r.boot
  booted := r.booted
  pre := fun k => if k < n then r.pre k else (schedTick b)^[k - n] p
  start := by
    cases n with
    | zero => exact h
    | succ n => exact r.start
  next := fun k => by
    rcases Nat.lt_trichotomy (k + 1) n with hlt | rfl | hgt
    · rw [if_pos hlt, if_pos (by omega)]
      exact r.next k
    · rw [if_neg (lt_irrefl _), if_pos (by omega), Nat.sub_self]
      exact h
    · have hsub : k + 1 - n = (k - n) + 1 := by omega
      rw [if_neg (by omega), if_neg (by omega), hsub, Function.iterate_succ_apply']
      exact ⟨rfl, rfl, rfl⟩

theorem resume_after (r : TickRun b) (n : Nat) (p : Machine) (h : Between (r.after n) p) :
    (r.resume n p h).after (n + 1) = schedTick b p := by
  have hpre : (r.resume n p h).pre n = p := by
    simp only [resume, lt_irrefl, if_false, Nat.sub_self, Function.iterate_zero, id]
  rw [after, hpre]

end TickRun

/-- Every machine the system reaches is reached by a run of ticks. -/
theorem reachable_tickRun {b : Build} {ok : Machine → Trap → Prop} {m : Machine}
    (h : Reachable b ok m) : ∃ (r : TickRun b) (n : Nat), Between (r.after n) m := by
  induction h with
  | start hb => exact ⟨.ofBooted hb, 0, ⟨rfl, rfl, rfl⟩⟩
  | next _ _ hs ih =>
      obtain ⟨r, n, hm⟩ := ih
      rcases step_ticks hs with hstay | ⟨p, hp, hpost⟩
      · exact ⟨r, n, hm.trans hstay⟩
      · refine ⟨r.resume n p (hm.trans hp), n + 1, ?_⟩
        rw [r.resume_after]
        exact hpost

/-- With two vCPUs, whatever happens, `VTTBR_EL2` of the running guest and of
the waiting one are what `stage2_alloc_vm` returned for them. -/
theorem reachable_vttbr {b : Build} {ok : Machine → Trap → Prop} {m : Machine}
    (h : Reachable b ok m) (hn : b.nvcpu = 2) {i : Nat} (hi : i < 2) :
    m.ctxReg i .vttbrEl2 = s2Vttbr b.layout i (BitVec.ofNat 32 (i + 1)) := by
  obtain ⟨r, n, hm⟩ := reachable_tickRun h
  rw [← r.after_vttbr hn n hi, ctxReg, ctxReg, hm.vcpus, hm.current, hm.vttbr]

end ArmHyp
