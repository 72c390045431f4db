import ArmHyp.ViAgreement

/-!
# Acknowledged physical interrupts

EL2 reads `GICC_IAR` in two places and writes `GICC_EOIR` in four. All of
them are entries of the ledger `gicc.log`; the deferral slot of a vCPU is
`Vgic.held`. On every run in which the GIC does not return an active INTID,
the open acknowledges of SPI 33 are exactly the values held in the slots
(`Ledger.Deferred`).

One acknowledge escapes this bookkeeping: `handle_wfi` reads `GICC_IAR`
after it saw 33 in `GICC_HPPIR`, and if the read returns something else the
value is neither completed nor held (`DropsAck`). Runs without such a step
conserve acknowledges.
-/

namespace ArmHyp

open Machine Ledger

/-! ## The deferral slot under `vgic.c` -/

/-- The deferred `GICC_IAR` value, if any. -/
def Vgic.held (v : Vgic) : Option (BitVec 32) :=
  if v.hasPhysIar = 0 then none else some v.physIar

section Held

variable (c : CpuIf)

theorem vgicInject_held (intid : BitVec 32) :
    (vgicInject intid c).v.held = c.v.held ∧ (vgicInject intid c).gicc = c.gicc := by
  unfold vgicInject
  split <;> exact ⟨rfl, rfl⟩

theorem vgicForwardSpi_held (intid iar : BitVec 32) :
    (vgicForwardSpi intid iar c).v.held = some iar
      ∧ (vgicForwardSpi intid iar c).gicc = c.gicc :=
  vgicInject_held { c with v := { c.v with physIar := iar, hasPhysIar := 1 } } intid

theorem readReg_held (off : BitVec 32) :
    (readReg off c).2.v.held = c.v.held ∧ (readReg off c).2.gicc = c.gicc := by
  by_cases hoff : off = 0x0C
  · subst hoff
    cases ht : MinSet.top c.v.pending with
    | none =>
        rw [readReg_iar_empty ht]
        exact ⟨rfl, rfl⟩
    | some n =>
        rw [readReg_iar_some ht]
        exact ⟨rfl, rfl⟩
  · rw [readReg_of_ne hoff]
    exact ⟨rfl, rfl⟩

/-- The slot and the interface are left alone, or the slot is emptied into
`GICC_EOIR`. -/
def CpuIf.SlotStep (c c' : CpuIf) : Prop :=
  (c'.v.held = c.v.held ∧ c'.gicc = c.gicc)
    ∨ ∃ v, c.v.held = some v ∧ c'.v.held = none ∧ c'.gicc = c.gicc.complete v

theorem readReg_slotStep (off : BitVec 32) : c.SlotStep (readReg off c).2 :=
  Or.inl (readReg_held c off)

theorem vgicAckAll_free {c : CpuIf} (h : c.v.hasPhysIar = 0) :
    vgicAckAll c = setVi false { c with v := { c.v with pendingMask := 0, active := noIntid } } :=
  congrArg (setVi false) (if_neg (not_not_intro h))

theorem vgicAckAll_used {c : CpuIf} (h : c.v.hasPhysIar ≠ 0) :
    vgicAckAll c = setVi false { c with
      v := { c.v with pendingMask := 0, active := noIntid, hasPhysIar := 0 }
      gicc := c.gicc.complete c.v.physIar } :=
  congrArg (setVi false) (if_pos h)

theorem vgicAckAll_slotStep : c.SlotStep (vgicAckAll c) := by
  by_cases h : c.v.hasPhysIar = 0
  · rw [vgicAckAll_free h]
    exact Or.inl ⟨rfl, rfl⟩
  · rw [vgicAckAll_used h]
    exact Or.inr ⟨c.v.physIar, if_neg h, rfl, rfl⟩

theorem vgicAckAll_hasPhysIar : (vgicAckAll c).v.hasPhysIar = 0 := by
  by_cases h : c.v.hasPhysIar = 0
  · rw [vgicAckAll_free h]
    exact h
  · rw [vgicAckAll_used h]
    rfl

theorem writeReg_slotStep (off val : BitVec 32) : c.SlotStep (writeReg off val c) := by
  simp only [writeReg]
  split_ifs with h₀ h₁ h₂ h₃ ha hp hp
  · exact Or.inl ⟨rfl, rfl⟩
  · exact Or.inl ⟨rfl, rfl⟩
  · exact Or.inl ⟨rfl, rfl⟩
  · exact Or.inr ⟨c.v.physIar, if_neg hp.1, if_pos rfl, rfl⟩
  · exact Or.inl ⟨rfl, rfl⟩
  · exact Or.inr ⟨c.v.physIar, if_neg hp.1, if_pos rfl, rfl⟩
  · exact Or.inl ⟨rfl, rfl⟩
  · exact Or.inl ⟨rfl, rfl⟩

end Held

/-! ## The invariant on views -/

namespace IrqView

/-- Open acknowledges of SPI 33 are exactly the held values, and any other
open acknowledge is `lost`. -/
def Deferred (b : Build) (lost : BitVec 32 → Prop) (w : IrqView) : Prop :=
  Ledger.Deferred intidOf irqPl011 lost b.nvcpu (fun i => (w.vgic i).held) w.gicc.log

/-- The next `GICC_IAR` read does not return an active INTID. -/
def GicOk (w : IrqView) : Prop :=
  intidOf w.gicc.iar = intidSpurious ∨ w.gicc.active (intidOf w.gicc.iar) = false

variable {b : Build} {lost : BitVec 32 → Prop} {w : IrqView}

theorem held_onCur (w : IrqView) (f : CpuIf → CpuIf) :
    (fun i => ((w.onCur f).vgic i).held)
      = Function.update (fun i => (w.vgic i).held) w.cur (f w.cpuIf).v.held := by
  funext i
  by_cases hi : i = w.cur
  · subst hi
    simp [onCur]
  · simp [onCur, hi]

theorem held_onCur_of_eq {f : CpuIf → CpuIf} (hf : (f w.cpuIf).v.held = w.cpuIf.v.held) :
    (fun i => ((w.onCur f).vgic i).held) = fun i => (w.vgic i).held := by
  rw [held_onCur, hf]
  exact Function.update_eq_self _ _

/-- A call that keeps the slot or empties it into `GICC_EOIR`. -/
theorem Deferred.slotStep (h : w.Deferred b lost) (hcur : w.cur < b.nvcpu) {f : CpuIf → CpuIf}
    (hf : w.cpuIf.SlotStep (f w.cpuIf)) : (w.onCur f).Deferred b lost := by
  rcases hf with ⟨hheld, hgicc⟩ | ⟨v, hv, hnone, hgicc⟩
  · rw [Deferred, held_onCur_of_eq hheld]
    change Ledger.Deferred _ _ _ _ _ (f w.cpuIf).gicc.log
    rw [hgicc]
    exact h
  · rw [Deferred, held_onCur, hnone]
    change Ledger.Deferred _ _ _ _ _ (f w.cpuIf).gicc.log
    rw [hgicc]
    exact h.release hcur hv

theorem log_ack_of_spurious (h : intidOf w.gicc.iar = intidSpurious) : w.ack = w := by
  simp only [ack, Gicc.acknowledge, if_pos h]

theorem log_ack (h : intidOf w.gicc.iar ≠ intidSpurious) :
    w.ack.gicc.log = .take w.gicc.iar :: w.gicc.log := by
  simp only [ack, Gicc.acknowledge, if_neg h]

theorem GicOk.not_busy (h : w.GicOk) (hs : intidOf w.gicc.iar ≠ intidSpurious) :
    w.gicc.log.busy intidOf (intidOf w.gicc.iar) = false := by
  rcases h with h | h
  · exact absurd h hs
  · exact h

/-- Acknowledge, anything that leaves the slots alone, complete. -/
theorem Deferred.pass (h : w.Deferred b lost) (hok : w.GicOk)
    (hs : intidOf w.gicc.iar ≠ intidSpurious) {w' : IrqView}
    (hheld : (fun i => (w'.vgic i).held) = fun i => (w.vgic i).held)
    (hgicc : w'.gicc = w.ack.gicc) : (w'.eoi w.gicc.iar).Deferred b lost := by
  have hlog : (w'.eoi w.gicc.iar).gicc.log
      = .give w.gicc.iar :: .take w.gicc.iar :: w.gicc.log := by
    change Entry.give _ :: w'.gicc.log = _
    rw [hgicc, log_ack hs]
  rw [Deferred, hlog]
  change Ledger.Deferred _ _ _ _ (fun i => (w'.vgic i).held) _
  rw [hheld]
  exact Ledger.Deferred.pass h (hok.not_busy hs)

/-- Acknowledge SPI 33 and forward it. -/
theorem Deferred.forward (h : w.Deferred b lost) (hok : w.GicOk) (hcur : w.cur < b.nvcpu)
    (hi : intidOf w.gicc.iar = irqPl011) :
    (w.ack.onCur (vgicForwardSpi irqPl011 w.gicc.iar)).Deferred b lost := by
  have hs : intidOf w.gicc.iar ≠ intidSpurious := by rw [hi]; decide
  obtain ⟨hheld, hgicc⟩ := vgicForwardSpi_held w.ack.cpuIf irqPl011 w.gicc.iar
  rw [Deferred, held_onCur, hheld]
  change Ledger.Deferred _ _ _ _ _ (vgicForwardSpi irqPl011 w.gicc.iar w.ack.cpuIf).gicc.log
  rw [hgicc]
  change Ledger.Deferred _ _ _ _ _ w.ack.gicc.log
  rw [log_ack hs]
  exact h.park (hok.not_busy hs) hi hcur

/-- Acknowledge something else, and forget it. -/
theorem Deferred.drop (h : w.Deferred b lost) (hok : w.GicOk)
    (hi : intidOf w.gicc.iar ≠ irqPl011)
    (hlost : intidOf w.gicc.iar ≠ intidSpurious → lost w.gicc.iar) : w.ack.Deferred b lost := by
  by_cases hs : intidOf w.gicc.iar = intidSpurious
  · rw [log_ack_of_spurious hs]
    exact h
  · rw [Deferred, log_ack hs]
    exact h.leak (hok.not_busy hs) hi (hlost hs)

end IrqView

/-- One operation. Only a poll that acknowledges something other than SPI 33
loses anything. -/
theorem IrqOp.run_deferred {b : Build} {lost : BitVec 32 → Prop} {w : IrqView}
    (h : w.Deferred b lost) (hok : w.GicOk) (hcur : w.cur < b.nvcpu) (o : IrqOp)
    (hlost : o = .poll → intidOf w.gicc.hppir = irqPl011 →
      vgicHasPendingPhysIar (w.vgic w.cur) = false → intidOf w.gicc.iar ≠ irqPl011 →
      intidOf w.gicc.iar ≠ intidSpurious → lost w.gicc.iar) : (o.run b w).Deferred b lost := by
  cases o with
  | idle => exact h
  | phys =>
      simp only [IrqOp.run, IrqOp.runPhys]
      split_ifs with hs hh hv hp
      · rw [IrqView.log_ack_of_spurious hs]
        exact h
      · exact h.pass hok hs rfl rfl
      · exact h.pass hok hs (IrqView.held_onCur_of_eq (vgicInject_held _ _).1)
          (vgicInject_held _ _).2
      · exact h.forward hok hcur hp
      · exact h.pass hok hs rfl rfl
  | poll =>
      simp only [IrqOp.run, IrqOp.runPoll]
      split_ifs with hpoll hi
      · exact h.forward hok hcur hi
      · exact h.drop hok hi (hlost rfl hpoll.1 hpoll.2 hi)
      · exact h
  | done => exact h.slotStep hcur (vgicAckAll_slotStep _)
  | load off => exact h.slotStep (f := fun c => (readReg off c).2) hcur (readReg_slotStep _ off)
  | store off val => exact h.slotStep hcur (writeReg_slotStep _ off val)

theorem IrqView.Initial.deferred {b : Build} {w : IrqView} (h : w.Initial b)
    (lost : BitVec 32 → Prop) : w.Deferred b lost := by
  rw [IrqView.Deferred, h.log_eq]
  apply Ledger.Deferred.nil
  intro i hi
  rw [h.vgic_eq i hi]
  rfl

/-! ## Lost acknowledges -/

/-- The trap is a WFI or WFE. -/
def Trap.IsWfi (t : Trap) : Prop := t.kind = .l64Sync ∧ esrEc t.esr = 0x01

theorem Trap.isWfi_of_irqOp {t : Trap} (h : t.irqOp = .poll) : t.IsWfi := by
  rw [Trap.irqOp] at h
  split_ifs at h with hirq hsync hhvc hwfi habt
  · rw [hvcOp] at h
    split at h <;> cases h
  · exact ⟨hsync, hwfi⟩
  · rw [Trap.abortOp, accessOp] at h
    split_ifs at h

/-- `handle_wfi` sees SPI 33 in `GICC_HPPIR`, holds nothing, and then reads
another INTID from `GICC_IAR`. -/
def DropsAck (m : Machine) (t : Trap) : Prop :=
  t.IsWfi ∧ intidOf t.hppir = 33 ∧ (m.vgics m.current).hasPhysIar = 0
    ∧ intidOf t.iar ≠ 33 ∧ intidOf t.iar ≠ 1023

instance (m : Machine) (t : Trap) : Decidable (DropsAck m t) :=
  inferInstanceAs (Decidable ((_ ∧ _) ∧ _ ∧ _ ∧ _ ∧ _))

theorem hasPendingPhysIar_eq_false {v : Vgic} :
    vgicHasPendingPhysIar v = false ↔ v.hasPhysIar = 0 := by
  simp [vgicHasPendingPhysIar]

theorem reachable_deferred {b : Build} {ok : Machine → Trap → Prop} {lost : BitVec 32 → Prop}
    (hgic : ∀ m t, ok m t → GicOk m t)
    (hlost : ∀ m t, ok m t → DropsAck m t → lost t.iar)
    {m : Machine} (h : Reachable b ok m) : m.irqView.Deferred b lost := by
  refine (reachable_irqView (P := IrqView.Deferred b lost) (fun w hw => hw.deferred lost) ?_ h).2
  intro m t hwf hok hP
  have hP' : (m.enter t).irqView.Deferred b lost := hP
  refine IrqOp.run_deferred hP' (hgic m t hok) hwf.current_lt _ ?_
  intro hop hhppir hfree hne hns
  have hslot := hasPendingPhysIar_eq_false.mp hfree
  exact hlost m t hok ⟨Trap.isWfi_of_irqOp hop, hhppir, hslot, hne, hns⟩

/-! ## has_phys_iar is a flag -/

/-- `has_phys_iar` is 0 or 1. -/
def Vgic.FlagOk (v : Vgic) (_ : BitVec 64) : Prop := v.hasPhysIar = 0 ∨ v.hasPhysIar = 1

theorem vgicInject_hasPhysIar (intid : BitVec 32) (c : CpuIf) :
    (vgicInject intid c).v.hasPhysIar = c.v.hasPhysIar := by
  unfold vgicInject
  split <;> rfl

theorem readReg_hasPhysIar (off : BitVec 32) (c : CpuIf) :
    (readReg off c).2.v.hasPhysIar = c.v.hasPhysIar := by
  by_cases hoff : off = 0x0C
  · subst hoff
    cases ht : MinSet.top c.v.pending with
    | none => rw [readReg_iar_empty ht]
    | some n => rw [readReg_iar_some ht]; rfl
  · rw [readReg_of_ne hoff]

theorem reachable_flagOk {b : Build} {ok : Machine → Trap → Prop} {m : Machine}
    (h : Reachable b ok m) : m.irqView.All b Vgic.FlagOk := by
  refine (reachable_irqView (P := IrqView.All b Vgic.FlagOk) ?_ ?_ h).2
  · intro w hw i hi
    rw [hw.vgic_eq i hi]
    exact Or.inl rfl
  · intro m t hwf _ hP
    have hP' : (m.enter t).irqView.All b Vgic.FlagOk := hP
    refine IrqOp.run_all ?_ ?_ ?_ ?_ ?_ hP' hwf.current_lt _
    · intro c hc
      rw [Vgic.FlagOk, vgicInject_hasPhysIar]
      exact hc
    · intro iar c _
      rw [Vgic.FlagOk, vgicForwardSpi, vgicInject_hasPhysIar]
      exact Or.inr rfl
    · intro c _
      exact Or.inl (vgicAckAll_hasPhysIar c)
    · intro off c hc
      rw [Vgic.FlagOk, readReg_hasPhysIar]
      exact hc
    · intro off val c hc
      simp only [Vgic.FlagOk, writeReg, completePhysIar, apply_ite CpuIf.v,
        apply_ite Vgic.hasPhysIar, ite_self]
      split_ifs
      all_goals first | exact hc | exact Or.inl rfl

theorem Vgic.FlagOk.held_eq_some {v : Vgic} {hcr : BitVec 64} (h : v.FlagOk hcr) {a : BitVec 32} :
    v.held = some a ↔ v.hasPhysIar = 1 ∧ v.physIar = a := by
  unfold Vgic.held
  rcases h with h | h
  · simp [h]
  · simp [h]

/-- **Acknowledges are conserved.** In a run whose steps never drop one,
every value read from `GICC_IAR` is written to `GICC_EOIR` at most once, no
other value is, and at every return to a guest each value not yet written
back is held by exactly one vCPU. -/
theorem acknowledge_conserved (b : Build) (m : Machine)
    (h : Reachable b (fun m t => GicOk m t ∧ ¬DropsAck m t) m) :
    Alternates m.gicc.log
      ∧ ∀ v, Open m.gicc.log v →
          ∃! i, i < b.nvcpu ∧ (m.vgics i).hasPhysIar = 1 ∧ (m.vgics i).physIar = v := by
  have hd : m.irqView.Deferred b fun _ => False :=
    reachable_deferred (fun _ _ hok => hok.1) (fun _ _ hok hdrop => hok.2 hdrop) h
  have hf := reachable_flagOk h
  refine ⟨hd.sound.alternates, ?_⟩
  intro v hv
  have hkey : intidOf v = irqPl011 := (hd.open_key hv).resolve_right id
  obtain ⟨i, hi, hs⟩ := hd.slot_of_open hv hkey
  refine ⟨i, ⟨hi, (hf i hi).held_eq_some.mp hs⟩, ?_⟩
  rintro j ⟨hj, hheld⟩
  exact hd.one hj hi ((hf j hj).held_eq_some.mpr hheld) hs

/-- After boot and one PL011 interrupt, vCPU 0 holds the acknowledge. -/
theorem acknowledge_conserved_after_pl011 :
    ∃ m : Machine, Reachable default (fun m t => GicOk m t ∧ ¬DropsAck m t) m
      ∧ m.gicc.log = [.take 33]
      ∧ ∃! i, i < 2 ∧ (m.vgics i).hasPhysIar = 1 ∧ (m.vgics i).physIar = 33 := by
  obtain ⟨m₀, hb, -⟩ := exists_booted default atReset_default
  have hi := booted_irqView hb
  have hlog₀ : m₀.gicc.log = [] := hi.log_eq
  have hok : GicOk m₀ (.irq 33) := gicOk_of_log_nil hlog₀ _
  have hdrop : ¬DropsAck m₀ (.irq 33) := fun hd => absurd hd.1.1 (by decide)
  have hr : Reachable default (fun m t => GicOk m t ∧ ¬DropsAck m t) m₀ := .start hb
  obtain ⟨m, -, hm, hv⟩ := hr.handled (t := .irq 33) ⟨hok, hdrop⟩ (Or.inl rfl)
  have hlog : m.gicc.log = [.take 33] := by
    have hiar : intidOf (Trap.irq 33).iar = irqPl011 := by decide
    have hg := congrArg IrqView.gicc (hv.trans (IrqOp.runPhys_pl011 hiar))
    have hg' : m.gicc = (m₀.enter (.irq 33)).irqView.ack.gicc :=
      hg.trans (vgicForwardSpi_held _ _ _).2
    rw [hg', IrqView.log_ack (show intidOf (Trap.irq 33).iar ≠ intidSpurious by decide)]
    exact congrArg (Entry.take 33 :: ·) hlog₀
  refine ⟨m, hm, hlog, ?_⟩
  apply (acknowledge_conserved default m hm).2 33
  rw [hlog]
  decide

/-- Boot, then a WFI during which the virtual timer fires between the reads
of `GICC_HPPIR` (33) and `GICC_IAR` (27): at the return to the guest the
acknowledge of 27 is open and no vCPU holds anything. -/
theorem acknowledge_dropped_by_wfi :
    ∃ m₀ m : Machine, Booted default m₀ ∧ step default m₀ (.wfi 33 27) = some m
      ∧ Reachable default GicOk m
      ∧ Open m.gicc.log 27
      ∧ ¬∃ i, i < 2 ∧ (m.vgics i).hasPhysIar = 1 ∧ (m.vgics i).physIar = 27 := by
  obtain ⟨m₀, hb, -⟩ := exists_booted default atReset_default
  have hi := booted_irqView hb
  have hlog₀ : m₀.gicc.log = [] := hi.log_eq
  have hok : GicOk m₀ (.wfi 33 27) := gicOk_of_log_nil hlog₀ _
  have hr : Reachable default GicOk m₀ := .start hb
  have ht : (Trap.wfi 33 27).Handled := Or.inr (Or.inr ⟨rfl, Or.inl (by decide)⟩)
  obtain ⟨m, hs, hm, hv⟩ := hr.handled hok ht
  have hfree : vgicHasPendingPhysIar (m₀.vgics m₀.current) = false := by
    have hv₀ : m₀.vgics m₀.current = vgicInit := hi.vgic_eq _ hi.wf.cur_lt
    rw [hv₀]
    rfl
  have hpoll : m.irqView = (m₀.enter (.wfi 33 27)).irqView.ack :=
    hv.trans (IrqOp.runPoll_drop (show intidOf (Trap.wfi 33 27).hppir = irqPl011 by decide) hfree
      (show intidOf (Trap.wfi 33 27).iar ≠ irqPl011 by decide))
  refine ⟨m₀, m, hb, hs, hm, ?_, ?_⟩
  · have hlog : m.gicc.log = [.take 27] := by
      have hg : m.gicc = (m₀.enter (.wfi 33 27)).irqView.ack.gicc := congrArg IrqView.gicc hpoll
      rw [hg, IrqView.log_ack (show intidOf (Trap.wfi 33 27).iar ≠ intidSpurious by decide)]
      exact congrArg (Entry.take 27 :: ·) hlog₀
    rw [hlog]
    decide
  · rintro ⟨i, hi2, hhas, -⟩
    have hvi : m.vgics i = vgicInit := (congrArg (IrqView.vgic · i) hpoll).trans (hi.vgic_eq i hi2)
    rw [hvi] at hhas
    exact absurd hhas (by decide)

end ArmHyp
