import ArmHyp.IrqCore
import ArmHyp.Stage2Map
import ArmHyp.Ticks

/-!
# What a switch flushes

`tlbi vmalls12e1is` invalidates under the VMID that is in `VTTBR_EL2` when it
executes. `load_vcpu` writes the incoming guest's `VTTBR_EL2` first and
flushes last, so what goes is the incoming guest's entries; those of the
outgoing one, which its comment speaks of, stay. In a run the two guests
never share a VMID, so a switch drops nothing of the guest it switches away
from (`reachable_tick_keeps`).
-/

namespace ArmHyp

open Machine

/-- The VMID a tick switches away from. -/
def Machine.outgoingVmid (m : Machine) : BitVec 8 := vmidOf (m.regs .vttbrEl2)

/-- The VMID a tick switches to. -/
def Machine.incomingVmid (b : Build) (m : Machine) : BitVec 8 :=
  vmidOf (m.vcpus (nextVcpu b m)).vttbrEl2

/-- No translation under VMID `v` is cached. -/
def NoneTagged (v : BitVec 8) (tlb : List TlbEntry) : Prop := ∀ e ∈ tlb, e.vmid ≠ v

instance (v : BitVec 8) (tlb : List TlbEntry) : Decidable (NoneTagged v tlb) :=
  inferInstanceAs (Decidable (∀ e ∈ tlb, e.vmid ≠ v))

/-! ## One tick -/

theorem schedTick_tlb (b : Build) (m : Machine) (hn : 1 < b.nvcpu) :
    (schedTick b m).tlb = m.tlb.filter fun e => decide (e.vmid ≠ m.incomingVmid b) := by
  rw [schedTick_eq b m hn, loadVcpu, loadRegs_eq, savedVcpus_of_ne (nextVcpu_ne m hn)]
  rfl

theorem mem_schedTick_tlb {b : Build} {m : Machine} (hn : 1 < b.nvcpu) {e : TlbEntry} :
    e ∈ (schedTick b m).tlb ↔ e ∈ m.tlb ∧ e.vmid ≠ m.incomingVmid b := by
  rw [schedTick_tlb b m hn, List.mem_filter, decide_eq_true_iff]

/-- **A switch flushes the outgoing VMID only by accident.** Whatever the TLB
holds, nothing of the outgoing guest remains after the tick exactly if the
incoming one has the same VMID, or there was nothing to flush. -/
theorem tick_flushes_outgoing_iff (b : Build) (m : Machine) (hn : 1 < b.nvcpu) :
    NoneTagged m.outgoingVmid (schedTick b m).tlb
      ↔ m.incomingVmid b = m.outgoingVmid ∨ NoneTagged m.outgoingVmid m.tlb := by
  constructor
  · intro hnone
    by_cases heq : m.incomingVmid b = m.outgoingVmid
    · exact .inl heq
    · right
      intro e he hv
      have hkept : e ∈ (schedTick b m).tlb :=
        (mem_schedTick_tlb hn).mpr ⟨he, fun h => heq (h.symm.trans hv)⟩
      exact hnone e hkept hv
  · intro hcond e he hv
    obtain ⟨hold, hne⟩ := (mem_schedTick_tlb hn).mp he
    rcases hcond with heq | hnone
    · exact hne (hv.trans heq.symm)
    · exact hnone e hold hv

/-- A slice of vCPU 0 that ends with `tlb` cached: the EL2 timer's interrupt
after boot. -/
theorem exists_tick_after_boot : ∃ m, kmain default default = .ret m
    ∧ ∀ tlb, let p := (m.enter { Trap.irq 26 with tlb := tlb }).saveCtx
      p.tlb = tlb ∧ p.outgoingVmid = 1 ∧ p.incomingVmid default = 2 := by
  obtain ⟨m, hk, hs⟩ := kmain_spec default default
  refine ⟨m, hk, fun tlb => ⟨rfl, ?_, ?_⟩⟩
  · change vmidOf (m.regs .vttbrEl2) = 1
    rw [hs.regs .vttbrEl2 rfl, bootVcpus_zero]
    exact s2Vttbr_vmid (by decide) 1
  · change vmidOf (m.vcpus ((m.current + 1) % 2)).vttbrEl2 = 2
    rw [hs.vcpus, hs.current, bootVcpus_one (by decide)]
    exact s2Vttbr_vmid (by decide) 2

theorem tick_flushes_outgoing_other : ∃ m, kmain default default = .ret m
    ∧ let p := (m.enter { Trap.irq 26 with tlb := [⟨2, true, 0x48200⟩] }).saveCtx
      p.tlb ≠ [] ∧ 1 < (default : Build).nvcpu
        ∧ NoneTagged p.outgoingVmid (schedTick default p).tlb := by
  obtain ⟨m, hk, hp⟩ := exists_tick_after_boot
  obtain ⟨htlb, hout, -⟩ := hp [⟨2, true, 0x48200⟩]
  refine ⟨m, hk, List.cons_ne_nil _ _, by decide, ?_⟩
  refine (tick_flushes_outgoing_iff default _ (by decide)).mpr (.inr ?_)
  rw [hout, htlb]
  decide

/-- After the first slice, what vCPU 0 has cached is still there. -/
theorem tick_leaves_outgoing : ∃ m, kmain default default = .ret m
    ∧ let p := (m.enter { Trap.irq 26 with tlb := [⟨1, true, 0x48200⟩] }).saveCtx
      p.outgoingVmid = 1 ∧ p.incomingVmid default = 2
        ∧ (schedTick default p).tlb = [⟨1, true, 0x48200⟩]
        ∧ ¬NoneTagged p.outgoingVmid (schedTick default p).tlb := by
  obtain ⟨m, hk, hp⟩ := exists_tick_after_boot
  obtain ⟨htlb, hout, hin⟩ := hp [⟨1, true, 0x48200⟩]
  refine ⟨m, hk, ?_⟩
  intro p
  have hkept : (schedTick default p).tlb = [⟨1, true, 0x48200⟩] := by
    rw [schedTick_tlb default p (by decide), htlb, hin]
    decide
  refine ⟨hout, hin, hkept, ?_⟩
  rw [hkept, hout]
  decide

/-! ## Runs -/

section Runs

variable {b : Build} {ok : Machine → Trap → Prop} {m p : Machine}

theorem vmidOf_ctxReg (h : Reachable b ok m) (hn : b.nvcpu = 2) {i : Nat} (hi : i < 2) :
    vmidOf (m.ctxReg i .vttbrEl2) = BitVec.ofNat 8 (i + 1) := by
  have hid : i < maxVms := Nat.lt_of_lt_of_le hi (by decide)
  rw [reachable_vttbr h hn hi, vmidOf, s2Vttbr_vmid hid, BitVec.setWidth_ofNat_of_le (by decide)]

/-- The two guests run under different VMIDs. -/
theorem reachable_vmids_ne (h : Reachable b ok m) (hn : b.nvcpu = 2) (hp : Between m p) :
    p.incomingVmid b ≠ p.outgoingVmid := by
  have hcur : m.current < 2 := hn ▸ (reachable_wf h).current_lt
  have hnext : nextVcpu b p = (m.current + 1) % 2 := by
    rw [nextVcpu, if_pos (by omega), hn, hp.current]
  have hne : (m.current + 1) % 2 ≠ m.current := by omega
  have hout : p.outgoingVmid = BitVec.ofNat 8 (m.current + 1) := by
    rw [← vmidOf_ctxReg h hn hcur, outgoingVmid, hp.vttbr, ctxReg_current]
  have hin : p.incomingVmid b = BitVec.ofNat 8 ((m.current + 1) % 2 + 1) := by
    rw [← vmidOf_ctxReg h hn (Nat.mod_lt _ (by decide)), incomingVmid, hnext, hp.vcpus, ctxReg,
      if_neg hne]
    rfl
  rw [hin, hout]
  have hcases : m.current = 0 ∨ m.current = 1 := by omega
  rcases hcases with h0 | h1
  · rw [h0]
    decide
  · rw [h1]
    decide

/-- **In a run, no switch flushes anything of the guest it switches away
from.** -/
theorem reachable_tick_keeps (h : Reachable b ok m) (hn : b.nvcpu = 2) (hp : Between m p)
    {e : TlbEntry} (he : e ∈ p.tlb) (hv : e.vmid = p.outgoingVmid) : e ∈ (schedTick b p).tlb := by
  refine (mem_schedTick_tlb (by omega)).mpr ⟨he, ?_⟩
  rw [hv]
  exact (reachable_vmids_ne h hn hp).symm

end Runs

end ArmHyp
