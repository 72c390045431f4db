import ArmHyp.DumpText
import ArmHyp.Footprint
import ArmHyp.RingLog

/-!
# The exit ring

`handle_exception` pushes one record per exception into a ring of 32, and
`dump_exit_ring` walks it backwards. The history of all exceptions is
recorded by an observer of the run; the ring holds its newest entries
(`RingLog.Logs`), because no handler touches the ring after the push
(`step_ring`), and so the dump prints a line for each of them
(`exit_ring_true_prelude`), with its exception class in place of its ESR.
-/

namespace ArmHyp

open Machine RingLog Crash

/-! ## What touches the ring -/

/-- The tick does not touch the ring. -/
theorem ring_handleHtimer (b : Build) (iar : BitVec 32) (m : Machine) :
    (handleHtimer b iar m).ring = m.ring := by
  have htick : ∀ m, (schedTick b m).ring = m.ring := by
    intro m
    obtain ⟨_, _, _, _, h⟩ := schedTick_frame b m
    rw [h]
    rfl
  exact htick _

/-- An exception leaves in the ring what its push put there. -/
theorem step_ring {b : Build} {m m' : Machine} {t : Trap} (hs : step b m t = some m') :
    m'.ring = (atDispatch t m).ring := by
  rcases step_untouched hs with ⟨-, rfl⟩ | ⟨-, hrest⟩
  · exact ring_handleHtimer b t.iar (atDispatch t m).ackIar
  · exact ring_of_untouched hrest

/-! ## The ring and the history -/

/-- The exception `t`, as it is when it is taken on `m`. -/
def exitRecordOf (m : Machine) (t : Trap) : ExitRecord where
  esr := t.esr
  elr := t.pc
  far := t.far
  kind := t.kind
  vcpu := m.currentVcpu.id

/-- Machines with the history of all exceptions handled since boot, newest
first. -/
def ExitRun (b : Build) (s : Machine × List ExitRecord) : Prop :=
  Reach (fun s => Booted b s.1 ∧ s.2 = [])
    (observed (step b) fun m hist t => exitRecordOf m t :: hist) (fun _ _ => True) s

/-- The ring variables agree with the history. -/
structure RingOk (m : Machine) (hist : List ExitRecord) : Prop where
  head : m.exitRingHead.toNat = hist.length % 32
  count : m.exitRingCount = BitVec.ofNat 64 hist.length
  logs : Logs 32 m.exitRing hist

theorem RingOk.congr {m m' : Machine} {hist : List ExitRecord} (h : RingOk m hist)
    (hring : m'.ring = m.ring) : RingOk m' hist := by
  obtain ⟨hslots, hrest⟩ := Prod.mk.inj hring
  obtain ⟨hhead, hcount⟩ := Prod.mk.inj hrest
  refine ⟨?_, ?_, ?_⟩
  · rw [hhead]
    exact h.head
  · rw [hcount]
    exact h.count
  · rw [hslots]
    exact h.logs

/-- Masking with `EXIT_RING_SIZE - 1` is reduction modulo 32. -/
theorem toNat_and_ringMask (x : BitVec 32) : (x &&& (exitRingSize - 1)).toNat = x.toNat % 32 := by
  rw [BitVec.toNat_and]
  exact Nat.and_two_pow_sub_one_eq_mod x.toNat 5

/-- One push. -/
theorem RingOk.push {m : Machine} {hist : List ExitRecord} (h : RingOk m hist) (t : Trap) :
    RingOk (atDispatch t m) (exitRecordOf m t :: hist) := by
  have hlt : hist.length % 32 < 32 := Nat.mod_lt _ (by decide)
  refine ⟨?_, ?_, ?_⟩
  · change ((m.exitRingHead + 1) &&& (exitRingSize - 1)).toNat = _
    rw [toNat_and_ringMask, BitVec.toNat_add, h.head, List.length_cons]
    change (hist.length % 32 + 1) % 2 ^ 32 % 32 = _
    omega
  · change m.exitRingCount + 1 = _
    rw [h.count, List.length_cons]
    exact (BitVec.ofNat_add _ 1).symm
  · have hpush := h.logs.push (exitRecordOf m t)
    rw [← h.head] at hpush
    exact hpush

theorem ExitRun.ringOk {b : Build} {s : Machine × List ExitRecord} (h : ExitRun b s) :
    RingOk s.1 s.2 := by
  refine Reach.invariant (I := fun s => RingOk s.1 s.2) ?_ ?_ h
  · rintro ⟨m, hist⟩ ⟨hb, rfl⟩
    obtain ⟨hhead, hcount⟩ := hb.ring
    exact ⟨congrArg BitVec.toNat hhead, hcount, logs_nil _⟩
  · rintro s t s' - hI - hs
    obtain ⟨hs₁, hs₂⟩ := observed_eq_some.mp hs
    rw [← hs₂]
    exact (hI.push t).congr (step_ring hs₁)

/-! ## The dump -/

/-- The source's walk, with its masked 32-bit index, is the ring's. -/
theorem exitRingWalk_eq (ring : Nat → ExitRecord) (depth : Nat) {idx : BitVec 32}
    (hidx : idx.toNat < 32) : exitRingWalk ring depth idx = walkBack 32 ring depth idx.toNat := by
  induction depth generalizing idx with
  | zero => rfl
  | succ depth ih =>
      have hback : ((idx + exitRingSize - 1) &&& (exitRingSize - 1)).toNat
          = (idx.toNat + 32 - 1) % 32 := by
        rw [toNat_and_ringMask, BitVec.toNat_sub, BitVec.toNat_add]
        change (2 ^ 32 - 1 + (idx.toNat + 32) % 2 ^ 32) % 2 ^ 32 % 32 = _
        omega
      have hlt : ((idx + exitRingSize - 1) &&& (exitRingSize - 1)).toNat < 32 := by
        rw [hback]
        exact Nat.mod_lt _ (by decide)
      simp only [exitRingWalk, walkBack, ih hlt, hback]

/-- The slots `dump_exit_ring` reads, in the order it reads them. -/
def exitRingSlots (m : Machine) : List Nat :=
  walkBack 32 id (exitRingDepth m) m.exitRingHead.toNat

section Dump

variable {m : Machine} {hist : List ExitRecord}

theorem RingOk.depth (h : RingOk m hist) (hlen : hist.length < 2 ^ 64) :
    exitRingDepth m = min hist.length 32 := by
  have hcount : m.exitRingCount.toNat = hist.length := by
    rw [h.count, BitVec.toNat_ofNat, Nat.mod_eq_of_lt hlen]
  have hlt : m.exitRingCount < 32 ↔ hist.length < 32 := by
    rw [BitVec.lt_def, hcount]
    rfl
  unfold exitRingDepth
  by_cases h32 : hist.length < 32
  · rw [if_pos (hlt.mpr h32), BitVec.toNat_setWidth, hcount]
    omega
  · rw [if_neg fun hc => h32 (hlt.mp hc)]
    omega

theorem RingOk.listed_eq (h : RingOk m hist) :
    exitRingListed m = walkBack 32 m.exitRing (exitRingDepth m) m.exitRingHead.toNat := by
  refine exitRingWalk_eq _ _ ?_
  rw [h.head]
  exact Nat.mod_lt _ (by decide)

theorem RingOk.listed (h : RingOk m hist) (hlen : hist.length < 2 ^ 64) :
    exitRingListed m = hist.take 32 := by
  rw [h.listed_eq, h.depth hlen, h.head]
  exact h.logs.walkBack

theorem RingOk.listed_slots (h : RingOk m hist) :
    exitRingListed m = (exitRingSlots m).map m.exitRing := by
  rw [h.listed_eq, walkBack_map]
  rfl

theorem RingOk.slots_nodup (h : RingOk m hist) (hlen : hist.length < 2 ^ 64) :
    (exitRingSlots m).Nodup := by
  rw [exitRingSlots, h.depth hlen, h.head]
  exact nodup_walkBack_id (Nat.min_le_left _ _) (Nat.min_le_right _ _)

end Dump

/-- What the dump of a history shows: how many exceptions there were, and a line
for each of the newest 32, newest first. -/
def shownExits (hist : List ExitRecord) : Option (BitVec 64 × List ExitLine) :=
  if hist = [] then none
  else some (BitVec.ofNat 64 hist.length, (hist.take 32).map exitLine)

theorem shownExits_cons (r : ExitRecord) (hist : List ExitRecord) :
    shownExits (r :: hist) = some (BitVec.ofNat 64 (hist.length + 1),
      ((r :: hist).take 32).map exitLine) := if_neg (List.cons_ne_nil _ _)

theorem RingOk.ringExits {m : Machine} {hist : List ExitRecord} (h : RingOk m hist)
    (hlen : hist.length < 2 ^ 64) : ringExits m = shownExits hist := by
  have hzero : m.exitRingCount = 0 ↔ hist = [] := by
    rw [h.count, ← List.length_eq_zero_iff, BitVec.toNat_eq, BitVec.toNat_ofNat,
      Nat.mod_eq_of_lt hlen]
    rfl
  unfold Crash.ringExits shownExits
  by_cases hnil : hist = []
  · rw [if_pos (hzero.mpr hnil), if_pos hnil]
  · rw [if_neg fun hc => hnil (hzero.mp hc), if_neg hnil, h.listed hlen, h.count]

theorem RingOk.dump {m : Machine} {hist : List ExitRecord} (h : RingOk m hist)
    (hlen : hist.length < 2 ^ 64) :
    dumpExitRing m = m.withUart (· ++ exitsText (shownExits hist)) := by
  rw [dumpExitRing_text, h.ringExits hlen]

/-- An exception no handler is there for. -/
def Trap.Unhandled (t : Trap) : Prop :=
  t.kind ≠ .l64Irq ∧ t.kind ≠ .el2hIrq ∧ (t.kind = .l64Sync →
    esrEc t.esr ≠ 0x16 ∧ esrEc t.esr ≠ 0x01 ∧ esrEc t.esr ≠ 0x18 ∧ esrEc t.esr ≠ 0x24)

/-- An unhandled exception is dumped. -/
theorem handleException_unhandled (b : Build) (m : Machine) {t : Trap} (h : t.Unhandled) :
    handleException b t.kind (m.enter t).saveCtx = dumpAndHalt t.kind t.esr (atDispatch t m) := by
  obtain ⟨hirq, hel2, hsync⟩ := h
  rw [handleException_eq, if_neg (not_or.mpr ⟨hirq, hel2⟩)]
  by_cases hk : t.kind = .l64Sync
  · obtain ⟨h16, h01, h18, h24⟩ := hsync hk
    rw [if_pos hk, if_neg h16, if_neg h01, if_neg h18, if_neg h24]
  · rw [if_neg hk]

/-- The dump of `t`, taken after the exceptions `hist`. -/
def dumpAfter (m : Machine) (t : Trap) (hist : List ExitRecord) : Dump where
  kind := t.kind
  esr := t.esr
  far := t.far
  elr := t.pc
  spsr := t.pstate
  exits := shownExits (exitRecordOf m t :: hist)

/-- An unhandled exception heads its own dump. -/
theorem RingOk.dumpAndHalt {b : Build} {m : Machine} {hist : List ExitRecord} (h : RingOk m hist)
    {t : Trap} (ht : t.Unhandled) (hlen : hist.length + 1 < 2 ^ 64) :
    handleException b t.kind (m.enter t).saveCtx
      = .halt ((atDispatch t m).withUart (· ++ dumpText (dumpAfter m t hist))) := by
  have hdump : dumpOf (atDispatch t m) t.kind t.esr = dumpAfter m t hist := by
    rw [dumpOf, (h.push t).ringExits hlen]
    rfl
  rw [handleException_unhandled b m ht, dumpAndHalt_text, hdump]

/-- **The exit ring shows the true prelude.** After fewer than `2^64`
exceptions, the dump prints one line for each of the newest 32 of them, newest
first, with the vector, class, return address, fault address and vCPU it had
when it was taken, reading no slot twice; and an exception that no handler takes
heads its own dump. -/
theorem exit_ring_true_prelude (b : Build) (s : Machine × List ExitRecord) (h : ExitRun b s)
    (hlen : s.2.length < 2 ^ 64) :
    exitRingListed s.1 = s.2.take 32
      ∧ dumpExitRing s.1 = s.1.withUart (· ++ exitsText (shownExits s.2))
      ∧ exitRingListed s.1 = (exitRingSlots s.1).map s.1.exitRing
      ∧ (exitRingSlots s.1).Nodup
      ∧ s.1.exitRingHead.toNat = s.1.exitRingCount.toNat % 32
      ∧ ∀ t : Trap, t.Unhandled → s.2.length + 1 < 2 ^ 64 →
          handleException b t.kind (s.1.enter t).saveCtx
            = .halt ((atDispatch t s.1).withUart (· ++ dumpText (dumpAfter s.1 t s.2))) := by
  have hok := h.ringOk
  refine ⟨hok.listed hlen, hok.dump hlen, hok.listed_slots, hok.slots_nodup hlen, ?_, ?_⟩
  · rw [hok.count, BitVec.toNat_ofNat, Nat.mod_eq_of_lt hlen]
    exact hok.head
  · intro t ht hlen'
    exact hok.dumpAndHalt ht hlen'

/-- One exception after boot. -/
theorem exists_exitRun {m₀ : Machine} (hb : Booted default m₀) {t : Trap} (ht : t.Handled) :
    ∃ m, ExitRun default (m, [exitRecordOf m₀ t]) := by
  obtain ⟨m, hs⟩ := step_handled default m₀ ht
  have hobs : observed (step default) (fun m hist t => exitRecordOf m t :: hist) (m₀, []) t
      = some (m, [exitRecordOf m₀ t]) := observed_eq_some.mpr ⟨hs, rfl⟩
  exact ⟨m, Reach.next (.start ⟨hb, rfl⟩) trivial hobs⟩

/-- Boot and one interrupt: the dump prints one line, for that interrupt. -/
theorem exit_ring_true_prelude_one_irq :
    ∃ s r, ExitRun default s ∧ r.kind = .l64Irq
      ∧ dumpExitRing s.1 = s.1.withUart (· ++ exitsText (some (1, [exitLine r]))) := by
  obtain ⟨m₀, hb, -⟩ := exists_booted default atReset_default
  obtain ⟨m, hrun⟩ := exists_exitRun hb (t := .irq 27) (Or.inl rfl)
  exact ⟨_, exitRecordOf m₀ (.irq 27), hrun, rfl,
    (exit_ring_true_prelude default _ hrun (Nat.one_lt_two_pow (by decide))).2.1⟩

/-- A data abort. -/
def abortTrap (esr : BitVec 64) : Trap := { (default : Trap) with kind := .l64Sync, esr := esr }

theorem abortTrap_handled {esr : BitVec 64} (h : esrEc esr = 0x24) : (abortTrap esr).Handled :=
  .inr (.inr ⟨rfl, .inr (.inr h)⟩)

/-- After a data abort with `ESR_EL2 = 0x93810040` the dump prints what it
prints after one with `0x93810000`, so that no reader of it gets the `ESR_EL2`
of each exception back. -/
theorem exit_ring_hides_iss :
    (∃ s₁ s₂ : Machine × List ExitRecord, ExitRun default s₁ ∧ ExitRun default s₂
      ∧ s₁.2.map (·.esr) = [0x93810040] ∧ s₂.2.map (·.esr) = [0x93810000]
      ∧ ∃ w, dumpExitRing s₁.1 = s₁.1.withUart (· ++ w)
        ∧ dumpExitRing s₂.1 = s₂.1.withUart (· ++ w))
      ∧ ¬∃ read : List (BitVec 8) → List (BitVec 64), ∀ s w, ExitRun default s →
          dumpExitRing s.1 = s.1.withUart (· ++ w) → read w = (s.2.take 32).map (·.esr) := by
  obtain ⟨m₀, hb, -⟩ := exists_booted default atReset_default
  have hstore : (abortTrap 0x93810040).Handled := abortTrap_handled (by decide)
  have hload : (abortTrap 0x93810000).Handled := abortTrap_handled (by decide)
  obtain ⟨m₁, h₁⟩ := exists_exitRun hb hstore
  obtain ⟨m₂, h₂⟩ := exists_exitRun hb hload
  -- the two records have the same line
  have hline : shownExits [exitRecordOf m₀ (abortTrap 0x93810040)]
      = shownExits [exitRecordOf m₀ (abortTrap 0x93810000)] := by
    have hec : esrEc 0x93810040 = esrEc 0x93810000 := by decide
    simp only [shownExits_cons, List.take_succ_cons, List.take_nil, List.map_cons, List.map_nil,
      exitLine, exitRecordOf, abortTrap, hec]
  have hdump₁ := h₁.ringOk.dump (Nat.one_lt_two_pow (by decide))
  have hdump₂ := h₂.ringOk.dump (Nat.one_lt_two_pow (by decide))
  rw [← hline] at hdump₂
  refine ⟨⟨_, _, h₁, h₂, rfl, rfl, _, hdump₁, hdump₂⟩, ?_⟩
  rintro ⟨read, hread⟩
  have hesr : [(0x93810040 : BitVec 64)] = [0x93810000] :=
    (hread _ _ h₁ hdump₁).symm.trans (hread _ _ h₂ hdump₂)
  exact absurd hesr (by decide)

end ArmHyp
