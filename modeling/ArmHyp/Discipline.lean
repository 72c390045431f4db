import ArmHyp.EoiLedger

/-!
# Guests that follow the IAR/EOIR discipline

A guest is disciplined if, after a read of `GICC_IAR` that returned an
INTID, it writes that INTID to `GICC_EOIR` before its next read that
returns one. What each vCPU's guest has read and not yet written back is
recorded by an observer of the run (`owedAfter`).

For disciplined guests a deferred physical EOI always has a carrier: the
INTID in the slot is still pending or is the active one. Two facts about
one `vgic_t` and its guest's record (`Carried`) carry the induction.
-/

namespace ArmHyp

open Machine MinSet

/-! ## Discipline -/

/-- What the guests owe: per vCPU, the INTID read from `GICC_IAR` and not
written to `GICC_EOIR` since. -/
abbrev Owed := Nat → Option (BitVec 32)

/-- The value the running guest would read from `GICC_IAR`. -/
def nextIar (m : Machine) : BitVec 32 := (readReg 0x0C (m.cpuIf m.current)).1

def owedAfter (m : Machine) (owed : Owed) : IrqOp → Owed
  | .load off =>
      if off = 0x0C ∧ nextIar m ≠ 1023 then Function.update owed m.current (some (nextIar m))
      else owed
  | .store off val =>
      if off = 0x10 ∧ owed m.current = some (val &&& 0x3FF) then
        Function.update owed m.current none
      else owed
  | _ => owed

/-- A read of `GICC_IAR` that returns an INTID comes only when the last one
has been written back. -/
def Disciplined (s : Machine × Owed) (t : Trap) : Prop :=
  t.irqOp = .load 0x0C → nextIar s.1 ≠ 1023 → s.2 s.1.current = none

/-- Machines and records reached by disciplined guests. -/
def DisciplinedRun (b : Build) (s : Machine × Owed) : Prop :=
  Reach (fun s => Booted b s.1 ∧ s.2 = fun _ => none)
    (observed (step b) fun m owed t => owedAfter m owed t.irqOp)
    (fun s t => GicOk s.1 t ∧ Disciplined s t) s

theorem DisciplinedRun.reachable {b : Build} {s : Machine × Owed} (h : DisciplinedRun b s) :
    Reachable b GicOk s.1 :=
  Reach.forget (fun _ hs => hs.1) (fun _ _ hok => hok.1) h

/-! ## One vCPU -/

/-- The slot's INTID is pending or active, and an active INTID is owed. -/
structure Carried (v : Vgic) (owed : Option (BitVec 32)) : Prop where
  spi : v.hasPhysIar ≠ 0 → intidOf v.physIar = irqPl011
  carrier : v.hasPhysIar ≠ 0 → irqPl011.toNat ∈ v.pending ∨ v.active = irqPl011
  owed_active : v.active ≠ noIntid → owed = some v.active

section OneVcpu

variable {c : CpuIf} {owed : Option (BitVec 32)}

theorem vgicInject_fields (intid : BitVec 32) (c : CpuIf) :
    ∃ mask, (vgicInject intid c).v = { c.v with pendingMask := mask } := by
  unfold vgicInject
  split
  · exact ⟨_, rfl⟩
  · exact ⟨_, rfl⟩

/-- Injecting takes nothing away. -/
theorem subset_pending_inject (intid : BitVec 32) (c : CpuIf) :
    c.v.pending ⊆ (vgicInject intid c).v.pending := by
  rw [vgicInject_pending, VgicOp.setOp]
  split
  · exact Finset.subset_insert _ _
  · exact Finset.Subset.refl _

/-- A forwarded SPI is pending. -/
theorem mem_pending_forward (iar : BitVec 32) (c : CpuIf) :
    irqPl011.toNat ∈ (vgicForwardSpi irqPl011 iar c).v.pending := by
  rw [vgicForwardSpi, vgicInject_pending]
  exact Finset.mem_insert_self _ _

theorem Carried.inject (h : Carried c.v owed) (intid : BitVec 32) :
    Carried (vgicInject intid c).v owed := by
  obtain ⟨mask, hv⟩ := vgicInject_fields intid c
  have hsub := subset_pending_inject intid c
  rw [hv] at hsub ⊢
  refine ⟨h.spi, ?_, h.owed_active⟩
  intro hhas
  exact (h.carrier hhas).imp_left fun hmem => hsub hmem

/-- Forwarding makes the new slot value pending. -/
theorem Carried.forward (h : Carried c.v owed) {iar : BitVec 32} (hi : intidOf iar = irqPl011) :
    Carried (vgicForwardSpi irqPl011 iar c).v owed := by
  obtain ⟨mask, hv⟩ := vgicInject_fields irqPl011
    { c with v := { c.v with physIar := iar, hasPhysIar := 1 } }
  have hmem := mem_pending_forward iar c
  rw [vgicForwardSpi, hv] at hmem ⊢
  exact ⟨fun _ => hi, fun _ => Or.inl hmem, h.owed_active⟩

theorem Carried.ackAll (owed : Option (BitVec 32)) (c : CpuIf) :
    Carried (vgicAckAll c).v owed := by
  have hfree := vgicAckAll_hasPhysIar c
  refine ⟨fun hhas => absurd hfree hhas, fun hhas => absurd hfree hhas, ?_⟩
  by_cases h : c.v.hasPhysIar = 0
  · rw [vgicAckAll_free h]
    exact fun hne => absurd rfl hne
  · rw [vgicAckAll_used h]
    exact fun hne => absurd rfl hne

/-- A read of `GICC_IAR` that pops `n`: nothing was active, so the slot's
INTID was pending; it still is, unless it is `n`, which is now active. -/
theorem Carried.take {v : Vgic} (h : Carried v none) {n : Nat} (hn : top v.pending = some n) :
    Carried (v.take n) (some (BitVec.ofNat 32 n)) := by
  have hidle : v.active = noIntid := by
    by_contra hne
    cases h.owed_active hne
  refine ⟨h.spi, fun hhas => ?_, fun _ => rfl⟩
  have hpend : irqPl011.toNat ∈ v.pending := by
    refine (h.carrier hhas).resolve_right ?_
    rw [hidle]
    decide
  rw [v.take_pending (lt_of_mem_bits (top_eq_some.mp hn).1)]
  by_cases hin : irqPl011.toNat = n
  · right
    change BitVec.ofNat 32 n = irqPl011
    rw [← hin, BitVec.ofNat_toNat, BitVec.setWidth_eq]
  · exact Or.inl (Finset.mem_erase.mpr ⟨hin, hpend⟩)

/-- `GICC_EOIR`: the active slot and the deferral slot. -/
theorem writeReg_eoir (val : BitVec 32) (c : CpuIf) :
    ∃ has, (writeReg 0x10 val c).v = { c.v with
        active := if val &&& 0x3FF = c.v.active then noIntid else c.v.active
        hasPhysIar := has }
      ∧ (has ≠ 0 → has = c.v.hasPhysIar ∧ intidOf c.v.physIar ≠ val &&& 0x3FF) := by
  rw [writeReg_eoir_eq]
  refine ⟨if c.v.Defers (val &&& 0x3FF) then 0 else c.v.hasPhysIar, rfl, ?_⟩
  intro hhas
  by_cases hd : c.v.Defers (val &&& 0x3FF)
  · rw [if_pos hd] at hhas
    exact absurd rfl hhas
  · rw [if_neg hd] at hhas ⊢
    exact ⟨rfl, fun he => hd ⟨hhas, he⟩⟩

/-- An EOIR write either empties the slot or is not for the slot's INTID, and
then leaves its carrier alone. -/
theorem Carried.eoir (h : Carried c.v owed) (val : BitVec 32) :
    Carried (writeReg 0x10 val c).v (if owed = some (val &&& 0x3FF) then none else owed) := by
  obtain ⟨has, hv, hkeep⟩ := writeReg_eoir val c
  rw [hv]
  refine ⟨?_, ?_, ?_⟩
  · intro hhas
    exact h.spi ((hkeep hhas).1 ▸ hhas)
  · intro hhas
    obtain ⟨heq, hne⟩ := hkeep hhas
    have hhas' : c.v.hasPhysIar ≠ 0 := heq ▸ hhas
    rw [h.spi hhas'] at hne
    refine (h.carrier hhas').imp_right fun hact => ?_
    change (if _ = c.v.active then noIntid else c.v.active) = _
    rw [hact, if_neg (Ne.symm hne)]
  · change (if _ = c.v.active then noIntid else c.v.active) ≠ noIntid →
      _ = some (if _ = c.v.active then noIntid else c.v.active)
    split
    · exact fun hne => absurd rfl hne
    · rename_i hact
      intro hne
      have ho := h.owed_active hne
      rw [ho, if_neg fun he => hact (Option.some.inj he).symm]

/-- The other registers do not touch the interrupt state. -/
theorem writeReg_of_ne {off : BitVec 32} (h : off ≠ 0x10) (val : BitVec 32) (c : CpuIf) :
    ∃ ctlr pmr bpr, (writeReg off val c).v = { c.v with ctlr := ctlr, pmr := pmr, bpr := bpr } := by
  simp only [writeReg, if_neg h]
  split_ifs
  all_goals exact ⟨_, _, _, rfl⟩

theorem Carried.store (h : Carried c.v owed) (off val : BitVec 32) :
    Carried (writeReg off val c).v
      (if off = 0x10 ∧ owed = some (val &&& 0x3FF) then none else owed) := by
  by_cases hoff : off = 0x10
  · subst hoff
    simp only [true_and]
    exact h.eoir val
  · rw [if_neg fun hx => hoff hx.1]
    obtain ⟨ctlr, pmr, bpr, hv⟩ := writeReg_of_ne hoff val c
    rw [hv]
    exact ⟨h.spi, h.carrier, h.owed_active⟩

theorem Carried.load (h : Carried c.v owed) (off : BitVec 32)
    (hd : off = 0x0C → (readReg 0x0C c).1 ≠ 1023 → owed = none) :
    Carried (readReg off c).2.v
      (if off = 0x0C ∧ (readReg 0x0C c).1 ≠ 1023 then some (readReg 0x0C c).1 else owed) := by
  by_cases hoff : off = 0x0C
  · subst hoff
    cases ht : top c.v.pending with
    | none =>
        rw [readReg_iar_empty ht, if_neg fun hx => hx.2 rfl]
        exact h
    | some n =>
        have hn : BitVec.ofNat 32 n ≠ 1023 :=
          intidRead_some_ne (lt_of_mem_bits (top_eq_some.mp ht).1)
        rw [readReg_iar_some ht] at hd ⊢
        rw [if_pos ⟨rfl, hn⟩]
        have hnone := hd rfl hn
        subst hnone
        exact h.take ht
  · rw [readReg_of_ne hoff, if_neg fun hx => hoff hx.1]
    exact h

end OneVcpu

/-! ## Runs -/

/-- Every vCPU is carried. -/
def AllCarried (b : Build) (vgic : Nat → Vgic) (owed : Owed) : Prop :=
  ∀ i < b.nvcpu, Carried (vgic i) (owed i)

theorem AllCarried.update {b : Build} {vgic : Nat → Vgic} {owed : Owed}
    (h : AllCarried b vgic owed) {k : Nat} {v : Vgic} {o : Option (BitVec 32)}
    (hk : Carried v o) :
    AllCarried b (Function.update vgic k v) (Function.update owed k o) := by
  intro i hi
  by_cases hik : i = k
  · subst hik
    rw [Function.update_self, Function.update_self]
    exact hk
  · rw [Function.update_of_ne hik, Function.update_of_ne hik]
    exact h i hi

/-- A call for the running vCPU, its record kept. -/
theorem AllCarried.keep {b : Build} {vgic : Nat → Vgic} {owed : Owed}
    (h : AllCarried b vgic owed) {k : Nat} {v : Vgic} (hk : Carried v (owed k)) :
    AllCarried b (Function.update vgic k v) owed := by
  have := h.update (k := k) hk
  rwa [Function.update_eq_self] at this

/-- One operation on views, with the record updated alongside. -/
theorem step_allCarried {b : Build} {m : Machine} {owed : Owed} {t : Trap} (hwf : m.Wf b)
    (h : AllCarried b m.vgics owed) (hd : Disciplined (m, owed) t) :
    AllCarried b (t.irqOp.run b (m.enter t).irqView).vgic (owedAfter m owed t.irqOp) := by
  have hcur : Carried (m.enter t).irqView.cpuIf.v (owed m.current) := h _ hwf.current_lt
  cases hop : t.irqOp with
  | idle => exact h
  | phys =>
      simp only [IrqOp.run, IrqOp.runPhys]
      split_ifs with hs hh hv hp
      · exact h
      · exact h
      · exact h.keep (Carried.inject (c := (m.enter t).irqView.ack.cpuIf) hcur _)
      · exact h.keep (Carried.forward (c := (m.enter t).irqView.ack.cpuIf) hcur hp)
      · exact h
  | poll =>
      simp only [IrqOp.run, IrqOp.runPoll]
      split_ifs with hpoll hi
      · exact h.keep (Carried.forward (c := (m.enter t).irqView.ack.cpuIf) hcur hi)
      · exact h
      · exact h
  | done => exact h.keep (Carried.ackAll _ _)
  | load off =>
      have hnext : nextIar m = (readReg 0x0C (m.enter t).irqView.cpuIf).1 := by
        rw [nextIar, readReg_iar_val, readReg_iar_val]
        rfl
      have hload := hcur.load off fun hoff hne =>
        hd (hoff ▸ hop) (by rw [hnext]; exact hne)
      rw [← hnext] at hload
      have howed : owedAfter m owed (.load off) = Function.update owed m.current
          (if off = 0x0C ∧ nextIar m ≠ 1023 then some (nextIar m) else owed m.current) := by
        simp only [owedAfter]
        split
        · rfl
        · rw [Function.update_eq_self]
      rw [howed]
      exact h.update hload
  | store off val =>
      have howed : owedAfter m owed (.store off val) = Function.update owed m.current
          (if off = 0x10 ∧ owed m.current = some (val &&& 0x3FF) then none
            else owed m.current) := by
        simp only [owedAfter]
        split
        · rfl
        · rw [Function.update_eq_self]
      rw [howed]
      exact h.update (hcur.store off val)

theorem DisciplinedRun.allCarried {b : Build} {s : Machine × Owed} (h : DisciplinedRun b s) :
    AllCarried b s.1.vgics s.2 := by
  refine Reach.invariant (I := fun s => AllCarried b s.1.vgics s.2) ?_ ?_ h
  · rintro s ⟨hb, howed⟩ i hi
    have hv : s.1.vgics i = vgicInit := (booted_irqView hb).vgic_eq i hi
    rw [hv]
    exact ⟨fun hh => absurd rfl hh, fun hh => absurd rfl hh, fun hh => absurd rfl hh⟩
  · intro s t s' hr hI hok hs
    have hwf := reachable_wf (DisciplinedRun.reachable hr)
    obtain ⟨hs₁, hs₂⟩ := observed_eq_some.mp hs
    have hv : s'.1.vgics = (t.irqOp.run b (s.1.enter t).irqView).vgic :=
      congrArg IrqView.vgic (step_irqView hwf hs₁)
    rw [hv, ← hs₂]
    exact step_allCarried hwf hI hok.2

/-- **A deferred EOI has a carrier.** With disciplined guests, while a vCPU
holds a physical acknowledge its INTID is pending or active for that vCPU.
So a guest with nothing pending and nothing active holds none, and every
forwarded SPI that is still active in the physical GIC is held by another
vCPU. -/
theorem deferred_eoi_carried (b : Build) (s : Machine × Owed) (h : DisciplinedRun b s) (i : Nat)
    (hi : i < b.nvcpu) :
    ((s.1.vgics i).hasPhysIar = 1 →
        (s.1.vgics i).pendingMask.getLsbD ((s.1.vgics i).physIar &&& 0x3FF).toNat = true
          ∨ (s.1.vgics i).active = (s.1.vgics i).physIar &&& 0x3FF)
    ∧ ((s.1.vgics i).pendingMask = 0 → (s.1.vgics i).active = noIntid →
        (s.1.vgics i).hasPhysIar = 0
          ∧ ∀ v, s.1.gicc.log.Open v → intidOf v = 33 →
              ∃ j < b.nvcpu, j ≠ i ∧ (s.1.vgics j).hasPhysIar = 1 ∧ (s.1.vgics j).physIar = v) := by
  have hc := h.allCarried i hi
  constructor
  · intro hone
    have hhas : (s.1.vgics i).hasPhysIar ≠ 0 := by rw [hone]; decide
    change (s.1.vgics i).pendingMask.getLsbD (intidOf (s.1.vgics i).physIar).toNat = true
      ∨ (s.1.vgics i).active = intidOf (s.1.vgics i).physIar
    rw [hc.spi hhas]
    exact (hc.carrier hhas).imp_left mem_bits.mp
  intro hmask hact
  have hfree : (s.1.vgics i).hasPhysIar = 0 := by
    by_contra hhas
    rcases hc.carrier hhas with hp | ha
    · rw [Vgic.pending, hmask, bits_zero] at hp
      exact absurd hp (Finset.notMem_empty _)
    · rw [hact] at ha
      exact absurd ha (by decide)
  refine ⟨hfree, ?_⟩
  intro v hv hkey
  have hd : s.1.irqView.Deferred b fun _ => True :=
    reachable_deferred (fun _ _ hok => hok) (fun _ _ _ _ => trivial) h.reachable
  obtain ⟨j, hj, hslot⟩ := hd.slot_of_open hv hkey
  have hheld := (reachable_flagOk h.reachable j hj).held_eq_some.mp hslot
  refine ⟨j, hj, ?_, hheld⟩
  rintro rfl
  have : (s.1.vgics j).hasPhysIar = 1 := hheld.1
  rw [hfree] at this
  exact absurd this (by decide)

/-- Boot and one PL011 interrupt: vCPU 0 holds the acknowledge. -/
theorem deferred_eoi_carried_after_pl011 :
    ∃ s : Machine × Owed, DisciplinedRun default s ∧ (s.1.vgics 0).hasPhysIar = 1
      ∧ ((s.1.vgics 0).pendingMask.getLsbD ((s.1.vgics 0).physIar &&& 0x3FF).toNat = true
        ∨ (s.1.vgics 0).active = (s.1.vgics 0).physIar &&& 0x3FF) := by
  obtain ⟨m₀, hb, -⟩ := exists_booted default atReset_default
  have hi := booted_irqView hb
  have hlog₀ : m₀.gicc.log = [] := hi.log_eq
  have hok : GicOk m₀ (.irq 33) := gicOk_of_log_nil hlog₀ _
  obtain ⟨m, hs⟩ := step_handled default m₀ (t := .irq 33) (Or.inl rfl)
  have hop : (Trap.irq 33).irqOp = .phys := rfl
  have howed : owedAfter m₀ (fun _ => none) (Trap.irq 33).irqOp = fun _ => none := by
    rw [hop]
    rfl
  have hobs : observed (step default) (fun m owed t => owedAfter m owed t.irqOp)
      (m₀, fun _ => none) (.irq 33) = some (m, fun _ => none) := observed_eq_some.mpr ⟨hs, howed⟩
  have hdisc : Disciplined (m₀, fun _ => none) (.irq 33) := fun _ _ => rfl
  have hrun : DisciplinedRun default (m, fun _ => none) :=
    Reach.next (.start ⟨hb, rfl⟩) ⟨hok, hdisc⟩ hobs
  have hhas : (m.vgics 0).hasPhysIar = 1 := by
    have hiar : intidOf (Trap.irq 33).iar = irqPl011 := by decide
    have hv := (step_irqView (booted_wf hb) hs).trans (IrqOp.runPhys_pl011 hiar)
    have hvg : m.vgics = Function.update m₀.vgics m₀.current
        (vgicForwardSpi irqPl011 33 (m₀.enter (.irq 33)).irqView.ack.cpuIf).v :=
      congrArg IrqView.vgic hv
    have hcur : m₀.current = 0 := hi.cur_eq
    rw [hvg, hcur, Function.update_self]
    rfl
  exact ⟨(m, fun _ => none), hrun, hhas,
    (deferred_eoi_carried default (m, fun _ => none) hrun 0 (by decide)).1 hhas⟩

end ArmHyp
