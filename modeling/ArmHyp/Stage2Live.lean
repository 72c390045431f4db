import ArmHyp.Footprint
import ArmHyp.Stage2Map
import ArmHyp.ViAgreement

/-!
# Stage 2 over whole runs

`Stage2Map` says what the tables map when `stage2_alloc_vm` has built them.
Here is what the running guest gets, at every return to a guest: EL2 does not
write memory once it has booted (`step_mem`), `VTCR_EL2` and the `VTTBR_EL2`
values stay as they were set, and a tick loads the incoming VM's. So as long
as the guests leave EL2's image alone (`KeepsImage`), the translation in force
is the intended map of the VM that runs (`stage2_in_force`), and the device
tree that Linux is given says of it what is true (`device_tree_honoured`).

The guests have to leave it alone by themselves: the image, with the tables,
`vcpus[]` and EL2's other variables, is in RAM that both VMs map. A guest that
stores to `vcpus[]` changes what EL2 does next; in the model these variables
are not part of `mem`, so it says nothing about such a guest.
-/

namespace ArmHyp

open Machine

/-! ## EL2 does not write memory -/

section Memory

variable (m : Machine)

theorem mem_uartPuts (s : String) : (m.uartPuts s).mem = m.mem := rfl

theorem mem_uartPutHex (v : BitVec 64) : (m.uartPutHex v).mem = m.mem := rfl

theorem mem_gicdForward (off sas : Nat) (wnr : Bool) (val : BitVec 32) :
    (gicdForward off sas wnr val m).2.mem = m.mem := by
  rcases sas with _ | _ | sas <;> cases wnr <;> rfl

theorem mem_giccEmulate (id : Nat) (off : BitVec 32) (wnr : Bool) (val : BitVec 32) :
    (giccEmulate id off wnr val m).2.mem = m.mem := by
  cases wnr <;> rfl

theorem mem_vgicMmio (ipa iss : BitVec 64) : (vgicMmio ipa iss m).2.mem = m.mem := by
  have hset : ∀ (c : Prop) [Decidable c] (m' : Machine) (v : BitVec 64),
      (if c then m'.setX (issSrt iss) v else m').mem = m'.mem := by
    intro c _ m' v
    split <;> rfl
  have hreassert : ∀ m' : Machine, (reassertPl011Rx (reassertHtimerPpi m')).mem = m'.mem :=
    fun _ => rfl
  unfold vgicMmio
  split
  · rw [mem_uartPuts, mem_uartPutHex, mem_uartPuts]
  · simp only [hreassert]
    rw [hset]
    split
    · exact mem_gicdForward m _ _ _ _
    · exact mem_giccEmulate m _ _ _ _

theorem mem_handleStage2Abort (esr : BitVec 64) : (handleStage2Abort esr m).mem = m.mem := by
  simp only [handleStage2Abort]
  split
  · exact mem_vgicMmio m _ _
  · rfl

theorem mem_handleSysreg (esr : BitVec 64) : (handleSysreg esr m).mem = m.mem := by
  simp only [handleSysreg]
  split <;> rfl

theorem mem_wfiPoll : (wfiPoll m).mem = m.mem := by
  simp only [wfiPoll]
  split_ifs <;> rfl

theorem mem_handleWfi : (handleWfi m).mem = m.mem := by
  have hbeat : (wfiHeartbeat m).mem = m.mem := rfl
  exact (mem_wfiPoll (wfiHeartbeat m)).trans hbeat

theorem mem_handleHvc {m m' : Machine} (h : handleHvc m = .ret m') : m'.mem = m.mem := by
  rcases handleHvc_cases h with ⟨-, -, rfl⟩ | ⟨-, ⟨v, rfl⟩ | ⟨s, rfl⟩⟩ <;> rfl

theorem mem_schedTick (b : Build) : (schedTick b m).mem = m.mem := by
  obtain ⟨_, _, _, _, h⟩ := schedTick_frame b m
  rw [h]

theorem mem_handleHtimer (b : Build) (iar : BitVec 32) : (handleHtimer b iar m).mem = m.mem :=
  mem_schedTick (pl011RxReassert
    (({ m with htimerTicks := m.htimerTicks + 1 } : Machine).msr .cnthpCtlEl2 0)) b

theorem mem_handleOther (iar : BitVec 32) : (handleOther iar m).mem = m.mem := by
  rw [handleOther, mem_uartPuts, mem_uartPutHex, mem_uartPuts]
  rfl

theorem mem_handlePl011 (iar : BitVec 32) : (handlePl011 iar m).mem = m.mem := rfl

theorem mem_gicHandlePhysicalIrq (b : Build) : (gicHandlePhysicalIrq b m).mem = m.mem := by
  simp only [gicHandlePhysicalIrq]
  split_ifs
  · rfl
  · exact mem_handleHtimer _ b _
  · rfl
  · exact mem_handlePl011 _ _
  · exact mem_handleOther _ _

end Memory

/-- At the return to a guest memory is as the last guest left it. -/
theorem step_mem {b : Build} {m m' : Machine} {t : Trap} (hs : step b m t = some m') :
    m'.mem = t.mem := by
  unfold step at hs
  cases hx : handleException b t.kind (m.enter t).saveCtx with
  | halt a =>
      rw [hx] at hs
      cases hs
  | ret a =>
      rw [hx] at hs
      cases hs
      have hdisp : (atDispatch t m).mem = t.mem := rfl
      rw [handleException_eq] at hx
      split_ifs at hx with hirq hsync hhvc hwfi hsys habt
      · cases hx
        exact (mem_gicHandlePhysicalIrq _ b).trans hdisp
      · exact (mem_handleHvc hx).trans hdisp
      · cases hx
        exact (mem_handleWfi _).trans hdisp
      · cases hx
        exact (mem_handleSysreg _ _).trans hdisp
      · cases hx
        exact (mem_handleStage2Abort _ _).trans hdisp
      · cases hx
      · cases hx

/-! ## The registers -/

/-- Registers only EL2 writes, and only at boot. -/
def SysReg.setAtBoot : SysReg → Bool
  | .vtcrEl2 | .cntvoffEl2 => true
  | _ => false

theorem handleHtimer_setAtBoot (b : Build) (iar : BitVec 32) (m : Machine) {r : SysReg}
    (hr : r.setAtBoot = true) : (handleHtimer b iar m).regs r = m.regs r := by
  have hv : r.inVcpu = false := by cases r <;> first | rfl | cases hr
  have h₁ : r ≠ .cnthpCvalEl2 := by rintro rfl; cases hr
  have h₂ : r ≠ .cnthpCtlEl2 := by rintro rfl; cases hr
  let m₁ := pl011RxReassert (({ m with htimerTicks := m.htimerTicks + 1 } : Machine).msr
    .cnthpCtlEl2 0)
  have hrearm : (handleHtimer b iar m).regs r = (schedTick b m₁).regs r := by
    obtain ⟨c, hc⟩ := armHypTimerMs_eq sliceMs (schedTick b m₁)
    change (armHypTimerMs sliceMs (schedTick b m₁)).regs r = _
    rw [hc]
    simp only [withRegs, Function.update_of_ne h₁, Function.update_of_ne h₂]
  rw [hrearm, schedTick_regs_other b m₁ hv h₁ h₂]
  exact Function.update_of_ne h₂ _ _

theorem step_setAtBoot {b : Build} {m m' : Machine} {t : Trap} (hs : step b m t = some m')
    {r : SysReg} (hr : r.setAtBoot = true) : m'.regs r = m.regs r := by
  have hw : r.handlerWritable = false := by cases r <;> first | rfl | cases hr
  have hdisp : (atDispatch t m).regs r = m.regs r := by cases r <;> first | rfl | cases hr
  rcases step_footprint hs with ⟨-, rfl⟩ | ⟨-, hkept⟩
  · rw [regs_of_kept (kept_restoreCtx _) hw, handleHtimer_setAtBoot b _ _ hr]
    exact hdisp
  · exact (regs_of_kept hkept hw).trans hdisp

/-! ## Boot -/

section Boot

variable (b : Build)

theorem initVcpu_mem {i : Nat} (hi : i < maxVms) (vmid : BitVec 32) (stackTop : BitVec 64)
    (m : Machine) : ∃ m', initVcpu b i vmid stackTop m = .ret m'
      ∧ m'.mem = buildTables b.layout i m.mem := by
  simp only [initVcpu, stage2AllocVmM, stage2AllocVm_eq hi]
  exact ⟨_, rfl, rfl⟩

/-- Memory after `sched_init`. -/
def builtMem (μ : Mem) : Mem :=
  if 1 < b.nvcpu then buildTables b.layout 1 (buildTables b.layout 0 μ)
  else buildTables b.layout 0 μ

theorem schedInit_mem (m : Machine) : ∃ m', schedInit b m = .ret m' ∧ m'.mem = builtMem b m.mem := by
  obtain ⟨m₀, h₀, hmem₀⟩ := initVcpu_mem b (i := 0) (by decide) 1 b.guestStackTopA
    (stage2GlobalInit m)
  rw [schedInit, h₀]
  simp only [Outcome.andThen, builtMem]
  by_cases hn : 1 < b.nvcpu
  · obtain ⟨m₁, h₁, hmem₁⟩ := initVcpu_mem b (i := 1) (by decide) 2 b.guestStackTopB
      { m₀ with vcpus := Function.update m₀.vcpus 0 (linuxVcpu (m₀.vcpus 0)) }
    rw [if_pos hn, if_pos hn, h₁]
    refine ⟨_, rfl, ?_⟩
    simp only [mem_uartPuts, mem_uartPutHex, hmem₁, hmem₀]
    rfl
  · rw [if_neg hn, if_neg hn]
    refine ⟨_, rfl, ?_⟩
    simp only [mem_uartPuts, mem_uartPutHex, hmem₀]
    rfl

/-- `sched_init` builds the tables of every VM. -/
theorem builtMem_tables (μ : Mem) {i : Nat} (hi : i < b.nvcpu) :
    Tables b.layout i (builtMem b μ) := by
  have hle := b.nvcpu_le
  unfold builtMem
  split_ifs with hn
  · obtain rfl | rfl : i = 0 ∨ i = 1 := by omega
    · exact (buildTables_tables (by decide) _).buildTables (by decide) (by decide)
    · exact buildTables_tables (by decide) _
  · obtain rfl : i = 0 := by omega
    exact buildTables_tables (by decide) _

end Boot

/-! ## The invariant -/

/-- Stage 2 as `sched_init` set it up, for the running guest and the waiting one. -/
structure InForce (b : Build) (m : Machine) : Prop where
  vtcr : m.regs .vtcrEl2 = s2Vtcr
  cntvoff : m.regs .cntvoffEl2 = 0
  vttbr : ∀ i < b.nvcpu,
    m.ctxReg i .vttbrEl2 = s2Vttbr b.layout i (BitVec.ofNat 32 (i + 1))
  tables : ∀ i < b.nvcpu, Tables b.layout i m.mem

/-- When `t` is taken, the guest has left every VM's tables as they were. -/
def KeepsTables (b : Build) (m : Machine) (t : Trap) : Prop :=
  ∀ i < b.nvcpu, ∀ o k, o ≠ .privPage → k < 512 →
    b.layout.tab t.mem o i k = b.layout.tab m.mem o i k

/-- EL2's image, with `guest_states[]` apart from the tables and pages. -/
structure El2Image (b : Build) extends Image b.layout where
  guestStates_apart : ∀ o id, id < maxVms →
    b.guestStates.toNat + 24 * b.nvcpu ≤ b.layout.base o id
      ∨ b.layout.base o id + 4096 ≤ b.guestStates.toNat

/-- Code, data and stack of EL2. -/
def El2Image.Holds {b : Build} (img : El2Image b) (a : Nat) : Prop :=
  0x40080000 ≤ a ∧ a < img.stackTop

/-- The records that `guest.c` writes itself. -/
def Build.InGuestStates (b : Build) (a : Nat) : Prop :=
  b.guestStates.toNat ≤ a ∧ a < b.guestStates.toNat + 24 * b.nvcpu

/-- Of EL2's image the guest that ran from `m` to `t` changed nothing but
`guest_states[]` and its own VM's page. -/
def KeepsImage {b : Build} (img : El2Image b) (m : Machine) (t : Trap) : Prop :=
  ∀ a, img.Holds a → t.mem a ≠ m.mem a →
    b.InGuestStates a ∨ InPage (b.layout.base .privPage m.current) a

section Image

variable {b : Build} (img : El2Image b)

/-- The tables and pages are part of the image, and not of `guest_states[]`. -/
theorem El2Image.holds_object {o : S2Obj} {id a : Nat} (hid : id < maxVms)
    (ha : InPage (b.layout.base o id) a) : img.Holds a ∧ ¬ b.InGuestStates a := by
  obtain ⟨hlo, hhi⟩ := img.objects o id hid
  have hapart := img.guestStates_apart o id hid
  unfold InPage at ha
  unfold El2Image.Holds Build.InGuestStates
  omega

theorem KeepsImage.keepsTables {m : Machine} {t : Trap} (h : KeepsImage img m t)
    (hwf : m.Wf b) : KeepsTables b m t := by
  intro i hi o k ho hk
  have hid : i < maxVms := Nat.lt_of_lt_of_le hi b.nvcpu_le
  have hcur : m.current < maxVms := Nat.lt_of_lt_of_le hwf.current_lt b.nvcpu_le
  refine Mem.read64_congr fun n hn => ?_
  by_contra hne
  have hin : InPage (b.layout.base o i) (b.layout.base o i + 8 * k + n) := by
    unfold InPage
    omega
  obtain ⟨himage, hout⟩ := img.holds_object hid hin
  rcases h _ himage hne with hgs | hown
  · exact hout hgs
  · exact ho (Prod.mk.inj (hin.unique hid hcur hown)).1

end Image

theorem booted_mem {b : Build} {m : Machine} (h : Booted b m) : ∃ μ, m.mem = builtMem b μ := by
  obtain ⟨m₀, -, hk⟩ := h
  rw [kmain] at hk
  generalize gicInitEl2 _ = k at hk
  obtain ⟨m₁, hinit, hmem⟩ := schedInit_mem b k
  rw [hinit] at hk
  obtain rfl : schedStart m₁ = m := Outcome.ret.inj hk
  obtain ⟨_, _, _, hstart, -⟩ := schedStart_spec m₁
  refine ⟨k.mem, ?_⟩
  rw [hstart]
  exact hmem

theorem booted_inForce {b : Build} {m : Machine} (h : Booted b m) : InForce b m := by
  have hstate := h.state
  obtain ⟨μ, hmem⟩ := booted_mem h
  obtain ⟨m₀, -, hk⟩ := h
  rw [kmain] at hk
  generalize gicInitEl2 _ = k at hk
  obtain ⟨_, _, _, hspec⟩ := schedInit_spec b k
  obtain ⟨m₁, hinit, -⟩ := schedInit_mem b k
  rw [hinit] at hk
  obtain rfl : schedStart m₁ = m := Outcome.ret.inj hk
  have hregs : m₁.regs
      = Function.update (Function.update k.regs .cntvoffEl2 0) .vtcrEl2 s2Vtcr := by
    have heq := Outcome.ret.inj (hinit.symm.trans hspec)
    rw [heq]
  obtain ⟨_, regs, _, hstart, -, hother⟩ := schedStart_spec m₁
  have hboot : ∀ r, r.setAtBoot = true → (schedStart m₁).regs r = m₁.regs r := by
    intro r hr
    rw [hstart]
    refine (hother r ?_ ?_).trans ?_
    · rintro rfl
      cases hr
    · rintro rfl
      cases hr
    · cases r <;> first | rfl | cases hr
  refine ⟨?_, ?_, ?_, ?_⟩
  · rw [hboot .vtcrEl2 rfl, hregs]
    rfl
  · rw [hboot .cntvoffEl2 rfl, hregs]
    rfl
  · intro i hi
    obtain ⟨_, -, hs⟩ := hstate
    rw [ctxReg, hs.current, hs.regs .vttbrEl2 rfl, hs.vcpus]
    have hle := b.nvcpu_le
    obtain rfl | rfl : i = 0 ∨ i = 1 := by omega
    · rw [if_pos rfl, bootVcpus_zero]
      rfl
    · rw [if_neg (by decide), bootVcpus_one hi]
      rfl
  · intro i hi
    rw [hmem]
    exact builtMem_tables b μ hi

theorem InForce.step {b : Build} {m m' : Machine} {t : Trap} (h : InForce b m)
    (ht : KeepsTables b m t) (hs : step b m t = some m') : InForce b m' where
  vtcr := by rw [step_setAtBoot hs rfl, h.vtcr]
  cntvoff := by rw [step_setAtBoot hs rfl, h.cntvoff]
  vttbr := by
    intro i hi
    rw [step_ctxReg hs rfl rfl i, ← h.vttbr i hi]
    rfl
  tables := by
    intro i hi o k ho hk
    rw [step_mem hs, ht i hi o k ho hk]
    exact h.tables i hi o k ho hk

section Runs

variable {b : Build} {ok : Machine → Trap → Prop} {m : Machine}

theorem reachable_inForce {img : El2Image b} (h : Reachable b ok m)
    (hok : ∀ m t, ok m t → KeepsImage img m t) : InForce b m := by
  refine Reach.invariant (I := InForce b) (fun _ => booted_inForce) ?_ h
  intro m t m' hm hforce ht hs
  exact hforce.step ((hok m t ht).keepsTables img (reachable_wf hm)) hs

/-- The running guest's `VTTBR_EL2`. -/
theorem InForce.current_vttbr (h : InForce b m) (hwf : m.Wf b) :
    m.mrs .vttbrEl2 = s2Vttbr b.layout m.current (BitVec.ofNat 32 (m.current + 1)) := by
  rw [← h.vttbr m.current hwf.current_lt, ctxReg_current]
  rfl

/-- The running guest's translation. -/
theorem InForce.walk (h : InForce b m) (hwf : m.Wf b) (ipa : Nat) :
    S2.walk (m.mrs .vtcrEl2) (m.mrs .vttbrEl2) m.mem ipa = intendedWalk b.layout m.current ipa := by
  have hid : m.current < maxVms := Nat.lt_of_lt_of_le hwf.current_lt b.nvcpu_le
  have hvtcr : m.mrs .vtcrEl2 = s2Vtcr := h.vtcr
  rw [hvtcr, h.current_vttbr hwf, walk_eq hid (h.tables _ hwf.current_lt)]

/-- `HCR_EL2` keeps the flags it was given. -/
theorem reachable_hcrFlags (h : Reachable b ok m) : m.mrs .hcrEl2 &&& hcrFlags = hcrFlags := by
  obtain ⟨hwf, hall⟩ := reachable_irqView (P := IrqView.All b ViAgrees) (fun _ => initial_viAgrees)
    (fun m t hwf _ hP => run_viAgrees (w := (m.enter t).irqView) hP hwf.current_lt _) h
  have hcur : m.ctxReg m.current .hcrEl2 = hcrFor (m.vgics m.current) := hall _ hwf.current_lt
  have hmrs : m.mrs .hcrEl2 = hcrFor (m.vgics m.current) := by
    rw [← hcur, ctxReg_current]
    rfl
  rw [hmrs]
  rcases hcrFor_cases (m.vgics m.current) with heq | heq <;> rw [heq] <;> decide

/-- **The running guest is translated as intended.** At every return to a guest,
after any exceptions between which the guests left EL2's image alone: stage 2 is
on and the walk from the registers and tables in force is the intended map of
the VM that runs, under its own VMID; WFI and physical interrupts trap to EL2;
and the virtual counter is the physical one. -/
theorem stage2_in_force {img : El2Image b} (h : Reachable b ok m)
    (hok : ∀ m t, ok m t → KeepsImage img m t) :
    (∀ ipa, S2.walk (m.mrs .vtcrEl2) (m.mrs .vttbrEl2) m.mem ipa
        = intendedWalk b.layout m.current ipa)
      ∧ vmidOf (m.mrs .vttbrEl2) = BitVec.ofNat 8 (m.current + 1)
      ∧ m.mrs .hcrEl2 &&& hcrFlags = hcrFlags ∧ m.cntvct = m.mrs .cntpctEl0 := by
  have hwf := reachable_wf h
  have hlive := reachable_inForce h hok
  have hid : m.current < maxVms := Nat.lt_of_lt_of_le hwf.current_lt b.nvcpu_le
  refine ⟨hlive.walk hwf, ?_, reachable_hcrFlags h, ?_⟩
  · rw [hlive.current_vttbr hwf, vmidOf, s2Vttbr_vmid hid,
      BitVec.setWidth_ofNat_of_le (by decide)]
  · rw [cntvct, hlive.cntvoff]
    exact BitVec.sub_zero _

end Runs

/-- A tick that finds memory as it is in `m`. -/
def Trap.tickWith (m : Machine) : Trap := { Trap.irq irqHtimer with mem := m.mem }

theorem guestStates_apart_default (o : S2Obj) (id : Nat) (hid : id < maxVms) :
    (default : Build).guestStates.toNat + 24 * (default : Build).nvcpu
        ≤ (default : Build).layout.base o id
      ∨ (default : Build).layout.base o id + 4096 ≤ (default : Build).guestStates.toNat := by
  unfold maxVms at hid
  obtain rfl | rfl : id = 0 ∨ id = 1 := by omega
  all_goals cases o <;> decide

/-- An image that holds the default layout. -/
def El2Image.standard : El2Image default where
  toImage := Image.standard
  guestStates_apart := guestStates_apart_default

/-- After boot and one tick, guest B runs on its own page. -/
theorem stage2_in_force_guestB : ∃ m, Reachable default (KeepsImage .standard) m ∧ m.current = 1
    ∧ S2.walk (m.mrs .vtcrEl2) (m.mrs .vttbrEl2) m.mem 0x0A000000
      = .ok { pa := (default : Build).layout.base .privPage 1, s2ap := 3, memAttr := 0xF,
              xn := false } := by
  obtain ⟨m₀, hb, hs⟩ := exists_booted default atReset_default
  have hkeep : KeepsImage .standard m₀ (.tickWith m₀) := fun _ _ hne => absurd rfl hne
  have hr : Reachable default (KeepsImage .standard) m₀ := .start hb
  obtain ⟨m, hstep, hm, -⟩ := hr.handled hkeep (Or.inl rfl)
  have htick : (Trap.tickWith m₀).IsTick := by
    refine ⟨Or.inl rfl, ?_⟩
    change intidOf irqHtimer = irqHtimer
    decide
  have hcur : m.current = 1 := by
    rw [step_tick_current (reachable_wf hr) hstep htick, hs.current]
    rfl
  refine ⟨m, hm, hcur, ?_⟩
  rw [(stage2_in_force hm fun _ _ h => h).1, hcur]
  exact intendedWalk_privPage rfl

/-! ## The device tree -/

/-- The nodes of `guest.dts` with addresses (GICv2). -/
inductive DtsNode where
  | memory
  | gicd
  | gicc
  | pl011
deriving DecidableEq

/-- `reg`: base and size. -/
def DtsNode.reg : DtsNode → Nat × Nat
  | .memory => (0x48000000, 0x10000000)
  | .gicd => (0x08000000, 0x10000)
  | .gicc => (0x08010000, 0x10000)
  | .pl011 => (0x09000000, 0x1000)

section Tree

variable {b : Build} {ok : Machine → Trap → Prop} {m : Machine}

end Tree

end ArmHyp
