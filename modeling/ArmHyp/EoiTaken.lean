import ArmHyp.Discipline

/-!
# EOIs of interrupts not yet taken

`write_reg` completes a deferred physical EOI whenever the INTID written to
`GICC_EOIR` is the one in the slot; it does not ask whether the guest has
taken the interrupt. The observer of this module records, per vCPU, the
INTIDs read from `GICC_IAR` and not ended since (`takenAfter`). While no
guest ends a deferred INTID that is still pending (`EndsPending`), a deferred
INTID is pending or taken (`Awaited`), and every physical EOI caused by a
guest's EOIR is for an INTID it took.
-/

namespace ArmHyp

open Machine MinSet

/-! ## The record -/

/-- Per vCPU, the INTIDs read from `GICC_IAR` and not ended since. -/
abbrev Taken := Nat → Finset (BitVec 32)

/-- One vCPU's record, when its `GICC_IAR` would read `iar`. -/
def takenBy (iar : BitVec 32) (taken : Finset (BitVec 32)) : IrqOp → Finset (BitVec 32)
  | .load off => if off = 0x0C ∧ iar ≠ 1023 then insert iar taken else taken
  | .store off val => if off = 0x10 then taken.erase (val &&& 0x3FF) else taken
  | .done => ∅
  | _ => taken

section TakenBy

variable (iar : BitVec 32) (taken : Finset (BitVec 32))

theorem takenBy_iar {iar : BitVec 32} (h : iar ≠ 1023) :
    takenBy iar taken (.load 0x0C) = insert iar taken := if_pos ⟨rfl, h⟩

theorem takenBy_iar_none : takenBy 1023 taken (.load 0x0C) = taken := rfl

theorem takenBy_load_of_ne {off : BitVec 32} (h : off ≠ 0x0C) :
    takenBy iar taken (.load off) = taken := if_neg fun hoff => h hoff.1

theorem takenBy_eoir (val : BitVec 32) :
    takenBy iar taken (.store 0x10 val) = taken.erase (val &&& 0x3FF) := rfl

theorem takenBy_store_of_ne {off : BitVec 32} (h : off ≠ 0x10) (val : BitVec 32) :
    takenBy iar taken (.store off val) = taken := if_neg h

end TakenBy

def takenAfter (m : Machine) (taken : Taken) (t : Trap) : Taken :=
  Function.update taken m.current (takenBy (nextIar m) (taken m.current) t.irqOp)

/-- The trap is a store to `GICC_EOIR` of the INTID whose physical EOI is
deferred, while that INTID is still pending. -/
def EndsPending (m : Machine) (t : Trap) : Prop :=
  ∃ val, t.irqOp = .store 0x10 val ∧ (m.vgics m.current).Defers (val &&& 0x3FF)
    ∧ (m.vgics m.current).pendingMask.getLsbD (val &&& 0x3FF).toNat = true

/-- Machines and records after runs whose steps satisfy `ok`. -/
def TakenRun (b : Build) (ok : Machine → Trap → Prop) (s : Machine × Taken) : Prop :=
  Reach (fun s => Booted b s.1 ∧ s.2 = fun _ => ∅) (observed (step b) takenAfter)
    (fun s t => ok s.1 t) s

theorem TakenRun.reachable {b : Build} {ok : Machine → Trap → Prop} {s : Machine × Taken}
    (h : TakenRun b ok s) : Reachable b ok s.1 :=
  Reach.forget (fun _ hs => hs.1) (fun _ _ hok => hok) h

/-! ## One vCPU -/

/-- A deferred INTID is pending or taken. -/
structure Awaited (v : Vgic) (taken : Finset (BitVec 32)) : Prop where
  spi : v.hasPhysIar ≠ 0 → intidOf v.physIar = irqPl011
  awaited : v.hasPhysIar ≠ 0 → irqPl011.toNat ∈ v.pending ∨ irqPl011 ∈ taken

section OneVcpu

variable {c : CpuIf} {taken : Finset (BitVec 32)}

theorem Awaited.of_free {v : Vgic} (h : v.hasPhysIar = 0) (taken : Finset (BitVec 32)) :
    Awaited v taken :=
  ⟨fun hhas => absurd h hhas, fun hhas => absurd h hhas⟩

theorem Awaited.inject (h : Awaited c.v taken) (intid : BitVec 32) :
    Awaited (vgicInject intid c).v taken := by
  obtain ⟨mask, hv⟩ := vgicInject_fields intid c
  have hsub := subset_pending_inject intid c
  rw [hv] at hsub ⊢
  exact ⟨h.spi, fun hhas => (h.awaited hhas).imp_left fun hmem => hsub hmem⟩

/-- A forwarded SPI is pending. -/
theorem Awaited.forward {iar : BitVec 32} (hi : intidOf iar = irqPl011) (c : CpuIf)
    (taken : Finset (BitVec 32)) : Awaited (vgicForwardSpi irqPl011 iar c).v taken := by
  obtain ⟨mask, hv⟩ := vgicInject_fields irqPl011
    { c with v := { c.v with physIar := iar, hasPhysIar := 1 } }
  have hmem := mem_pending_forward iar c
  rw [vgicForwardSpi, hv] at hmem ⊢
  exact ⟨fun _ => hi, fun _ => Or.inl hmem⟩

/-- A read of `GICC_IAR` moves the INTID it returns from pending to taken. -/
theorem Awaited.load (h : Awaited c.v taken) (off : BitVec 32) :
    Awaited (readReg off c).2.v (takenBy (readReg 0x0C c).1 taken (.load off)) := by
  by_cases hoff : off = 0x0C
  · subst hoff
    cases ht : top c.v.pending with
    | none =>
        rw [readReg_iar_empty ht, takenBy_iar_none]
        exact h
    | some n =>
        have hlt : n < 64 := lt_of_mem_bits (top_eq_some.mp ht).1
        have hn : BitVec.ofNat 32 n ≠ 1023 := intidRead_some_ne hlt
        rw [readReg_iar_some ht]
        change Awaited (c.v.take n) (takenBy (BitVec.ofNat 32 n) taken (.load 0x0C))
        rw [takenBy_iar taken hn]
        refine ⟨h.spi, fun hhas => ?_⟩
        rw [c.v.take_pending hlt]
        rcases h.awaited hhas with hpend | htaken
        · by_cases hpop : irqPl011.toNat = n
          · right
            rw [← hpop, BitVec.ofNat_toNat, BitVec.setWidth_eq]
            exact Finset.mem_insert_self _ _
          · exact Or.inl (Finset.mem_erase.mpr ⟨hpop, hpend⟩)
        · exact Or.inr (Finset.mem_insert_of_mem htaken)
  · rw [readReg_of_ne hoff, takenBy_load_of_ne _ taken hoff]
    exact h

/-- A store to `GICC_EOIR` empties the slot or ends another INTID. -/
theorem Awaited.store (h : Awaited c.v taken) (iar off val : BitVec 32) :
    Awaited (writeReg off val c).v (takenBy iar taken (.store off val)) := by
  by_cases hoff : off = 0x10
  · subst hoff
    rw [writeReg_eoir_eq, takenBy_eoir]
    by_cases hd : c.v.Defers (val &&& 0x3FF)
    · exact Awaited.of_free (if_pos hd) _
    · have hkeep : (eoirWrite (val &&& 0x3FF) c).v.hasPhysIar = c.v.hasPhysIar := if_neg hd
      refine ⟨fun hhas => h.spi (hkeep ▸ hhas), fun hhas => ?_⟩
      rw [hkeep] at hhas
      refine (h.awaited hhas).imp_right fun htaken => Finset.mem_erase.mpr ⟨?_, htaken⟩
      intro hn
      exact hd ⟨hhas, (h.spi hhas).trans hn⟩
  · rw [takenBy_store_of_ne iar taken hoff]
    obtain ⟨ctlr, pmr, bpr, hv⟩ := writeReg_of_ne hoff val c
    rw [hv]
    exact ⟨h.spi, h.awaited⟩

/-- One operation of the running vCPU. -/
theorem Awaited.onCpuIf (h : Awaited c.v taken) (o : IrqOp) :
    Awaited (o.onCpuIf c).v (takenBy (readReg 0x0C c).1 taken o) := by
  cases o with
  | idle => exact h
  | phys =>
      simp only [IrqOp.onCpuIf]
      split_ifs with hv hp
      · exact h.inject irqVtimer
      · exact Awaited.forward hp c taken
      · exact h
  | poll =>
      simp only [IrqOp.onCpuIf]
      split_ifs with hp
      · exact Awaited.forward hp.2.2 c taken
      · exact h
  | done => exact Awaited.of_free (vgicAckAll_hasPhysIar c) _
  | load off => exact h.load off
  | store off val => exact h.store _ off val

end OneVcpu

/-! ## Runs -/

/-- In every run a deferred INTID is pending or taken. -/
theorem TakenRun.awaited {b : Build} {ok : Machine → Trap → Prop} {s : Machine × Taken}
    (h : TakenRun b ok s) : ∀ i < b.nvcpu, Awaited (s.1.vgics i) (s.2 i) := by
  refine Reach.invariant (I := fun s => ∀ i < b.nvcpu, Awaited (s.1.vgics i) (s.2 i)) ?_ ?_ h
  · rintro s ⟨hb, -⟩ i hi
    have hv : s.1.vgics i = vgicInit := (booted_irqView hb).vgic_eq i hi
    rw [hv]
    exact Awaited.of_free rfl _
  · intro s t s' hr hI _ hs i hi
    have hwf := reachable_wf (TakenRun.reachable hr)
    obtain ⟨hs₁, hs₂⟩ := observed_eq_some.mp hs
    rw [step_vgic hwf hs₁, ← hs₂, takenAfter]
    by_cases hcur : i = s.1.current
    · subst hcur
      rw [if_pos rfl, Function.update_self]
      have hnext : nextIar s.1 = (readReg 0x0C (s.1.enter t).irqView.cpuIf).1 := by
        rw [nextIar, readReg_iar_val, readReg_iar_val]
        rfl
      rw [hnext]
      exact Awaited.onCpuIf (hI _ hi) t.irqOp
    · rw [if_neg hcur, Function.update_of_ne hcur]
      exact hI i hi

/-- A guest's store to `GICC_EOIR`, on the whole machine. -/
theorem step_eoir {b : Build} {m m' : Machine} {t : Trap} {val : BitVec 32} (h : m.Wf b)
    (hs : step b m t = some m') (hop : t.irqOp = .store 0x10 val) :
    m'.vgics m.current = (eoirWrite (val &&& 0x3FF) (m.enter t).irqView.cpuIf).v
      ∧ m'.gicc.log = if (m.vgics m.current).Defers (val &&& 0x3FF)
          then .give (m.vgics m.current).physIar :: m.gicc.log else m.gicc.log := by
  constructor
  · rw [step_vgic h hs, if_pos rfl, hop, IrqOp.onCpuIf, writeReg_eoir_eq]
  · have hgicc : m'.gicc = (writeReg 0x10 val (m.enter t).irqView.cpuIf).gicc := by
      have hview := congrArg IrqView.gicc (step_irqView h hs)
      rw [hop] at hview
      exact hview
    rw [hgicc, writeReg_eoir_eq]
    simp only [eoirWrite]
    split_ifs with hd hd'
    · rfl
    · exact absurd hd hd'
    · rename_i hd'
      exact absurd hd' hd
    · rfl

/-- What a guest's EOIR may do: write the physical `GICC_EOIR` only for an
INTID the vCPU has taken, and leave the deferral alone while the INTID is
still pending. -/
def EoirConforms (s : Machine × Taken) (t : Trap) (m' : Machine) : Prop :=
  ∀ val, t.irqOp = .store 0x10 val →
    (m'.gicc.log ≠ s.1.gicc.log → val &&& 0x3FF ∈ s.2 s.1.current)
    ∧ ((s.1.vgics s.1.current).pendingMask.getLsbD (val &&& 0x3FF).toNat = true →
        (m'.vgics s.1.current).hasPhysIar = (s.1.vgics s.1.current).hasPhysIar
          ∧ (m'.vgics s.1.current).physIar = (s.1.vgics s.1.current).physIar)

/-- **EOIs of taken interrupts.** In a run in which no guest ends a deferred
INTID that is still pending, every guest's EOIR conforms; the first that ends
one does not. -/
theorem eoir_conforms_iff (b : Build) (s : Machine × Taken)
    (h : TakenRun b (fun m t => ¬ EndsPending m t) s) (t : Trap) (m' : Machine)
    (hs : step b s.1 t = some m') : EoirConforms s t m' ↔ ¬ EndsPending s.1 t := by
  have hwf := reachable_wf h.reachable
  constructor
  · rintro hconf ⟨val, hop, hd, hpend⟩
    obtain ⟨hv, -⟩ := step_eoir hwf hs hop
    obtain ⟨hhas, -⟩ := (hconf val hop).2 hpend
    have hempty : (m'.vgics s.1.current).hasPhysIar = 0 := by
      rw [hv]
      exact if_pos hd
    exact hd.1 (hhas.symm.trans hempty)
  · intro hok val hop
    obtain ⟨hv, hlog⟩ := step_eoir hwf hs hop
    constructor
    · intro hne
      have hd : (s.1.vgics s.1.current).Defers (val &&& 0x3FF) := by
        by_contra hd
        exact hne (hlog.trans (if_neg hd))
      have hawaited := h.awaited _ hwf.current_lt
      have hspi : irqPl011 = val &&& 0x3FF := (hawaited.spi hd.1).symm.trans hd.2
      rcases hawaited.awaited hd.1 with hpend | htaken
      · exact absurd ⟨val, hop, hd, mem_bits.mp (hspi ▸ hpend)⟩ hok
      · exact hspi ▸ htaken
    · intro hpend
      have hd : ¬ (s.1.vgics s.1.current).Defers (val &&& 0x3FF) := fun hd =>
        hok ⟨val, hop, hd, hpend⟩
      rw [hv]
      exact ⟨if_neg hd, rfl⟩

/-- The `vgic_t` of vCPU 0 after boot and a PL011 interrupt. -/
def vgicForwarded : Vgic :=
  { vgicInit with pendingMask := 1#64 <<< 33, physIar := 33, hasPhysIar := 1 }

/-- Boot and one PL011 interrupt, with nothing taken. -/
theorem exists_forwarded (ok : Machine → Trap → Prop) (hok : ∀ m, ok m (.irq 33)) :
    ∃ m, TakenRun default ok (m, fun _ => ∅) ∧ m.current = 0 ∧ m.vgics 0 = vgicForwarded := by
  obtain ⟨m₀, hb, -⟩ := exists_booted default atReset_default
  have hi := booted_irqView hb
  have hcur : m₀.current = 0 := hi.cur_eq
  have hwf := booted_wf hb
  obtain ⟨m, hs⟩ := step_handled default m₀ (t := .irq 33) (Or.inl rfl)
  have hop : (Trap.irq 33).irqOp = .phys := rfl
  have htaken : takenAfter m₀ (fun _ => ∅) (.irq 33) = fun _ => ∅ := by
    have hkeep : takenBy (nextIar m₀) ∅ .phys = ∅ := rfl
    rw [takenAfter, hop, hkeep]
    exact Function.update_eq_self m₀.current _
  have hstart : TakenRun default ok (m₀, fun _ => ∅) := .start ⟨hb, rfl⟩
  have hobs : observed (step default) takenAfter (m₀, fun _ => ∅) (.irq 33)
      = some (m, fun _ => ∅) := observed_eq_some.mpr ⟨hs, htaken⟩
  refine ⟨m, Reach.next hstart (hok m₀) hobs, ?_, ?_⟩
  · have hview := congrArg IrqView.cur (step_irqView hwf hs)
    rw [hop, IrqOp.run, IrqOp.runPhys_pl011 (show intidOf (Trap.irq 33).iar = irqPl011 by decide)]
      at hview
    exact hview.trans hcur
  · have hv : (m₀.enter (.irq 33)).irqView.cpuIf.v = vgicInit :=
      hi.vgic_eq _ hwf.current_lt
    have hfwd : IrqOp.phys.onCpuIf (m₀.enter (.irq 33)).irqView.cpuIf
        = vgicForwardSpi irqPl011 33 (m₀.enter (.irq 33)).irqView.cpuIf :=
      (if_neg (show intidOf (Trap.irq 33).iar ≠ irqVtimer by decide)).trans
        (if_pos (show intidOf (Trap.irq 33).iar = irqPl011 by decide))
    rw [step_vgic hwf hs, hcur, if_pos rfl, hop, hfwd, vgicForwardSpi, hv, vgicInject,
      if_neg (by decide)]
    have hmask : (0 : BitVec 64) ||| 1#64 <<< irqPl011 = 1#64 <<< 33 := by decide
    exact congrArg (fun mask => { vgicForwarded with pendingMask := mask }) hmask

/-- The guest reads `GICC_IAR` and then ends the interrupt. -/
theorem eoir_conforms_iff_taken :
    ∃ (s : Machine × Taken) (m' : Machine), TakenRun default (fun m t => ¬ EndsPending m t) s
      ∧ (s.1.vgics s.1.current).hasPhysIar = 1
      ∧ step default s.1 (.access 0x08010010 true 33) = some m'
      ∧ EoirConforms s (.access 0x08010010 true 33) m' := by
  obtain ⟨m₁, hrun₁, hcur₁, hv₁⟩ := exists_forwarded (fun m t => ¬ EndsPending m t)
    fun m ⟨val, hop, _⟩ => by cases hop
  have hwf₁ := reachable_wf hrun₁.reachable
  obtain ⟨m₂, hs₂⟩ := step_handled default m₁ (t := .access 0x0801000C false 0)
    (Or.inr (Or.inr ⟨rfl, Or.inr (Or.inr (by decide))⟩))
  have hop₂ : (Trap.access 0x0801000C false 0).irqOp = .load 0x0C := by decide
  have hrun₂ : TakenRun default (fun m t => ¬ EndsPending m t)
      (m₂, takenAfter m₁ (fun _ => ∅) (.access 0x0801000C false 0)) := by
    refine .next hrun₁ ?_ (observed_eq_some.mpr ⟨hs₂, rfl⟩)
    rintro ⟨val, hop, -⟩
    rw [hop₂] at hop
    cases hop
  have hcur₂ : m₂.current = 0 := by
    have hview := congrArg IrqView.cur (step_irqView hwf₁ hs₂)
    rw [hop₂] at hview
    exact hview.trans hcur₁
  have hv₂ : m₂.vgics 0 = vgicForwarded.take 33 := by
    have hc : (m₁.enter (.access 0x0801000C false 0)).irqView.cpuIf.v = vgicForwarded := by
      rw [← hv₁, ← hcur₁]
      rfl
    have hload : IrqOp.onCpuIf (.load 0x0C)
        (m₁.enter (.access 0x0801000C false 0)).irqView.cpuIf
        = (readReg 0x0C (m₁.enter (.access 0x0801000C false 0)).irqView.cpuIf).2 := rfl
    have htop : top (m₁.enter (.access 0x0801000C false 0)).irqView.cpuIf.v.pending = some 33 := by
      rw [hc]
      decide
    rw [step_vgic hwf₁ hs₂, hcur₁, if_pos rfl, hop₂, hload, readReg_iar_some htop, hc]
    rfl
  obtain ⟨m₃, hs₃⟩ := step_handled default m₂ (t := .access 0x08010010 true 33)
    (Or.inr (Or.inr ⟨rfl, Or.inr (Or.inr (by decide))⟩))
  have hop₃ : (Trap.access 0x08010010 true 33).irqOp = .store 0x10 33 := by decide
  refine ⟨_, m₃, hrun₂, ?_, hs₃, (eoir_conforms_iff default _ hrun₂ _ m₃ hs₃).mpr ?_⟩
  · change (m₂.vgics m₂.current).hasPhysIar = 1
    rw [hcur₂, hv₂]
    rfl
  · rintro ⟨val, hop, -, hpend⟩
    have hval : val = 33 := by
      rw [hop₃] at hop
      cases hop
      rfl
    subst hval
    change (m₂.vgics m₂.current).pendingMask.getLsbD _ = true at hpend
    rw [hcur₂, hv₂] at hpend
    exact absurd hpend (by decide)

/-- The guest ends the interrupt without having read `GICC_IAR`: EL2 writes
the physical `GICC_EOIR` and drops the deferral, with SPI 33 still pending. -/
theorem eoir_completes_untaken :
    ∃ (s : Machine × Taken) (m' : Machine), TakenRun default (fun _ _ => True) s
      ∧ step default s.1 (.access 0x08010010 true 33) = some m'
      ∧ s.2 s.1.current = ∅
      ∧ (s.1.vgics s.1.current).pendingMask.getLsbD 33 = true
      ∧ (s.1.vgics s.1.current).hasPhysIar = 1
      ∧ m'.gicc.log = .give 33 :: s.1.gicc.log
      ∧ (m'.vgics s.1.current).hasPhysIar = 0
      ∧ ¬ EoirConforms s (.access 0x08010010 true 33) m' := by
  obtain ⟨m₁, hrun, hcur, hv⟩ := exists_forwarded (fun _ _ => True) fun _ => trivial
  obtain ⟨m₂, hs⟩ := step_handled default m₁ (t := .access 0x08010010 true 33)
    (Or.inr (Or.inr ⟨rfl, Or.inr (Or.inr (by decide))⟩))
  have hop : (Trap.access 0x08010010 true 33).irqOp = .store 0x10 33 := by decide
  obtain ⟨hvgic, hlog⟩ := step_eoir (reachable_wf hrun.reachable) hs hop
  have hdefers : (m₁.vgics m₁.current).Defers (33 &&& 0x3FF) := by
    rw [hcur, hv]
    decide
  have hempty : (m₂.vgics m₁.current).hasPhysIar = 0 := by
    rw [hvgic]
    exact if_pos hdefers
  have hlog' : m₂.gicc.log = .give 33 :: m₁.gicc.log := by
    rw [hlog, if_pos hdefers, hcur, hv]
    rfl
  refine ⟨(m₁, fun _ => ∅), m₂, hrun, hs, rfl, ?_, ?_, hlog', hempty, ?_⟩
  · rw [hcur, hv]
    decide
  · rw [hcur, hv]
    rfl
  · intro hconf
    have hmem := (hconf 33 hop).1 (by rw [hlog']; exact List.cons_ne_self _ _)
    exact absurd hmem (Finset.notMem_empty _)

end ArmHyp
