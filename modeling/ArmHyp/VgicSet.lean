import ArmHyp.BitSet
import ArmHyp.MinSet
import ArmHyp.Machine

/-!
# The pending bitmap as a set of INTIDs

`pending_mask` is one bit per INTID. Read through `bits`, each function of
`vgic.c` is an operation on a finite set popped from below (`MinSet`):
injection adds, `vgic_ack_all` clears, a read of `GICC_IAR` pops, and
nothing else touches it (`VgicOp.setOp`). A run is any list of calls, each
for any vCPU; the set semantics is then followed along the run.
-/

namespace ArmHyp

open Machine MinSet

/-- The pending INTIDs. -/
def Vgic.pending (v : Vgic) : Finset Nat := bits v.pendingMask

/-- How `read_reg` reports a pop: the INTID, or 1023 if there is none. -/
def intidRead : Option Nat → BitVec 32
  | some n => BitVec.ofNat 32 n
  | none => 1023

theorem intidRead_some_ne {n : Nat} (hn : n < 64) : intidRead (some n) ≠ noIntid := by
  intro h
  have := congrArg BitVec.toNat h
  simp only [intidRead, BitVec.toNat_ofNat, show noIntid.toNat = 1023 from rfl] at this
  omega

theorem intidRead_inj {n k : Nat} (hn : n < 64) (hk : k < 64)
    (h : intidRead (some n) = intidRead (some k)) : n = k := by
  have := congrArg BitVec.toNat h
  simp only [intidRead, BitVec.toNat_ofNat] at this
  omega

/-- `lowest_pending` finds the least element of the set. -/
theorem lowestPending_eq (mask : BitVec 64) : lowestPending mask = intidRead (top (bits mask)) := by
  unfold lowestPending
  split
  · rename_i h
    rw [h, bits_zero, top_eq_none.mpr rfl]
    rfl
  · rename_i h
    rw [top_eq_some.mpr (isLeast_ctz h)]
    apply BitVec.eq_of_toNat_eq
    simp [intidRead, BitVec.toNat_setWidth]

theorem lowestPending_eq_noIntid {mask : BitVec 64} :
    lowestPending mask = noIntid ↔ top (bits mask) = none := by
  rw [lowestPending_eq]
  constructor
  · intro h
    cases ht : top (bits mask) with
    | none => rfl
    | some n =>
        rw [ht] at h
        exact absurd h (intidRead_some_ne (lt_of_mem_bits (top_eq_some.mp ht).1))
  · intro h
    rw [h]
    rfl

/-! ## One call -/

/-- The calls of `vgic.c`, with their arguments. -/
inductive VgicOp where
  | inject (intid : BitVec 32)
  | forwardSpi (intid physIar : BitVec 32)
  | ackAll
  | read (off : BitVec 32)
  | write (off val : BitVec 32)
deriving DecidableEq

namespace VgicOp

/-- Run the call; only `read` returns a value. -/
def exec : VgicOp → CpuIf → Option (BitVec 32) × CpuIf
  | inject intid, c => (none, vgicInject intid c)
  | forwardSpi intid physIar, c => (none, vgicForwardSpi intid physIar c)
  | ackAll, c => (none, vgicAckAll c)
  | read off, c => (some (readReg off c).1, (readReg off c).2)
  | write off val, c => (none, writeReg off val c)

/-- What the call does to the pending set. -/
def setOp : VgicOp → Op Nat
  | inject intid => if intid.toNat < 64 then .add intid.toNat else .keep
  | forwardSpi intid _ => if intid.toNat < 64 then .add intid.toNat else .keep
  | ackAll => .clear
  | read off => if off = 0x0C then .pop else .keep
  | write _ _ => .keep

end VgicOp

theorem vgicInject_pending (intid : BitVec 32) (c : CpuIf) :
    (vgicInject intid c).v.pending = (VgicOp.inject intid).setOp.apply c.v.pending := by
  have hle : 64 ≤ intid ↔ ¬intid.toNat < 64 := by
    rw [BitVec.le_def]
    exact Nat.not_lt.symm
  simp only [vgicInject, VgicOp.setOp, hle]
  by_cases h : intid.toNat < 64
  · simp only [h, not_true_eq_false, if_false, if_true, setVi, Vgic.pending, Op.apply]
    rw [BitVec.shiftLeft_eq', bits_or_one_shiftLeft _ h]
  · simp only [h, not_false_eq_true, if_true, if_false, Op.apply]

theorem mem_pending_inject {n : BitVec 32} (hn : n.toNat < 64) (c : CpuIf) :
    n.toNat ∈ (vgicInject n c).v.pending := by
  rw [vgicInject_pending, VgicOp.setOp, if_pos hn]
  exact Finset.mem_insert_self _ _

theorem vgicAckAll_pending (c : CpuIf) : (vgicAckAll c).v.pending = ∅ := by
  simp only [vgicAckAll]
  split <;> exact bits_zero

/-- The `vgic_t` after `GICC_IAR` returned `n`. -/
def Vgic.take (v : Vgic) (n : Nat) : Vgic :=
  { v with pendingMask := v.pendingMask &&& ~~~(1#64 <<< n), active := BitVec.ofNat 32 n }

theorem Vgic.take_pending (v : Vgic) {n : Nat} (hn : n < 64) :
    (v.take n).pending = v.pending.erase n := bits_and_not_one_shiftLeft _ hn

/-- `GICC_IAR` with nothing pending. -/
theorem readReg_iar_empty {c : CpuIf} (h : top c.v.pending = none) :
    readReg 0x0C c = (1023, c) := by
  have hr : readReg 0x0C c = if lowestPending c.v.pendingMask = noIntid then (1023, c) else _ := rfl
  rw [hr, if_pos (lowestPending_eq_noIntid.mpr h)]

/-- `GICC_IAR` with `n` the least pending INTID. -/
theorem readReg_iar_some {c : CpuIf} {n : Nat} (h : top c.v.pending = some n) :
    readReg 0x0C c = (BitVec.ofNat 32 n,
      setVi ((c.v.take n).pendingMask != 0) { c with v := c.v.take n }) := by
  have hn : n < 64 := lt_of_mem_bits (top_eq_some.mp h).1
  have hlow : lowestPending c.v.pendingMask = BitVec.ofNat 32 n := by
    rw [lowestPending_eq]
    exact congrArg intidRead h
  have hne : lowestPending c.v.pendingMask ≠ noIntid := by
    rw [hlow]
    exact intidRead_some_ne hn
  have hr : readReg 0x0C c
      = if lowestPending c.v.pendingMask = noIntid then (1023, c)
        else (lowestPending c.v.pendingMask,
          setVi (c.v.pendingMask &&& ~~~(1#64 <<< lowestPending c.v.pendingMask) != 0)
            { c with v := { c.v with
              pendingMask := c.v.pendingMask &&& ~~~(1#64 <<< lowestPending c.v.pendingMask)
              active := lowestPending c.v.pendingMask } }) := rfl
  have hsh : 1#64 <<< BitVec.ofNat 32 n = 1#64 <<< n := by
    rw [BitVec.shiftLeft_eq', BitVec.toNat_ofNat, Nat.mod_eq_of_lt (by omega)]
  rw [hr, if_neg hne, hlow, hsh]
  rfl

/-- No other read changes anything. -/
theorem readReg_of_ne {off : BitVec 32} (h : off ≠ 0x0C) (c : CpuIf) : (readReg off c).2 = c := by
  simp only [readReg, h, if_false, apply_ite Prod.snd, ite_self]

theorem readReg_iar_val (c : CpuIf) : (readReg 0x0C c).1 = intidRead (top c.v.pending) := by
  cases h : top c.v.pending with
  | none => rw [readReg_iar_empty h, intidRead]
  | some n => rw [readReg_iar_some h, intidRead]

/-- A read of `GICC_HPPIR` returns what the next read of `GICC_IAR` would,
and changes nothing. -/
theorem readReg_hppir (c : CpuIf) : readReg 0x18 c = (intidRead (top c.v.pending), c) := by
  have h : readReg 0x18 c
      = (if lowestPending c.v.pendingMask = noIntid then 1023
        else lowestPending c.v.pendingMask, c) := rfl
  rw [h, Vgic.pending, ← lowestPending_eq]
  split
  · rename_i hn
    rw [hn]
    rfl
  · rfl

theorem readReg_pending (off : BitVec 32) (c : CpuIf) :
    (readReg off c).2.v.pending = (VgicOp.read off).setOp.apply c.v.pending := by
  by_cases h : off = 0x0C
  · subst h
    rw [VgicOp.setOp, if_pos rfl]
    cases ht : top c.v.pending with
    | none => rw [readReg_iar_empty ht, top_eq_none.mp ht, pop_empty]
    | some n =>
        rw [readReg_iar_some ht, pop_of_top ht]
        exact c.v.take_pending (lt_of_mem_bits (top_eq_some.mp ht).1)
  · rw [readReg_of_ne h, VgicOp.setOp, if_neg h]
    rfl

/-- No write touches the bitmap or VI. -/
theorem writeReg_pendingMask (off val : BitVec 32) (c : CpuIf) :
    (writeReg off val c).v.pendingMask = c.v.pendingMask := by
  simp only [writeReg, completePhysIar, apply_ite CpuIf.v, apply_ite Vgic.pendingMask, ite_self]

theorem writeReg_hcr (off val : BitVec 32) (c : CpuIf) : (writeReg off val c).hcr = c.hcr := by
  simp only [writeReg, completePhysIar, apply_ite CpuIf.hcr, ite_self]

theorem writeReg_pending (off val : BitVec 32) (c : CpuIf) :
    (writeReg off val c).v.pending = c.v.pending :=
  congrArg bits (writeReg_pendingMask off val c)

/-- The deferral slot holds an acknowledge of INTID `n`. -/
def Vgic.Defers (v : Vgic) (n : BitVec 32) : Prop := v.hasPhysIar ≠ 0 ∧ intidOf v.physIar = n

instance defers_decidable (v : Vgic) (n : BitVec 32) : Decidable (v.Defers n) :=
  inferInstanceAs (Decidable (_ ∧ _))

/-- A write of INTID `n` to `GICC_EOIR`: the active slot and the deferral
slot are tested independently. -/
def eoirWrite (n : BitVec 32) (c : CpuIf) : CpuIf where
  v := { c.v with
    active := if n = c.v.active then noIntid else c.v.active
    hasPhysIar := if c.v.Defers n then 0 else c.v.hasPhysIar }
  hcr := c.hcr
  gicc := if c.v.Defers n then c.gicc.complete c.v.physIar else c.gicc

theorem writeReg_eoir_eq (val : BitVec 32) (c : CpuIf) :
    writeReg 0x10 val c = eoirWrite (val &&& 0x3FF) c := by
  have hact : (if val &&& 0x3FF = c.v.active then { c with v := { c.v with active := noIntid } }
      else c) = { c with v := { c.v with
        active := if val &&& 0x3FF = c.v.active then noIntid else c.v.active } } := by
    split <;> rfl
  have hw : writeReg 0x10 val c =
      let c' := if val &&& 0x3FF = c.v.active then { c with v := { c.v with active := noIntid } }
        else c
      if c'.v.hasPhysIar ≠ 0 ∧ c'.v.physIar &&& 0x3FF = val &&& 0x3FF then completePhysIar c'
      else c' := rfl
  rw [hw, hact]
  by_cases hd : c.v.Defers (val &&& 0x3FF)
  · simp only [eoirWrite, if_pos hd]
    exact if_pos hd
  · simp only [eoirWrite, if_neg hd]
    exact if_neg hd

theorem VgicOp.exec_pending (op : VgicOp) (c : CpuIf) :
    (op.exec c).2.v.pending = op.setOp.apply c.v.pending := by
  cases op with
  | inject intid => exact vgicInject_pending intid c
  | forwardSpi intid physIar => exact vgicInject_pending intid _
  | ackAll => exact vgicAckAll_pending c
  | read off => exact readReg_pending off c
  | write off val => exact writeReg_pending off val c

/-! ## Runs of calls -/

/-- A call for one vCPU. -/
structure VgicCall where
  id : Nat
  op : VgicOp

namespace VgicCall

/-- The call on the machine: the value a read returns, and the machine after. -/
def exec (k : VgicCall) (m : Machine) : Option (BitVec 32) × Machine :=
  let (val, c) := k.op.exec (m.cpuIf k.id)
  (val, m.setCpuIf k.id c)

/-- The call as an operation on the pending set of vCPU `i`. -/
def setOp (i : Nat) (k : VgicCall) : Op Nat := if k.id = i then k.op.setOp else .keep

end VgicCall

/-- The machine after a list of calls. -/
def runCalls : List VgicCall → Machine → Machine
  | [], m => m
  | k :: ks, m => runCalls ks (k.exec m).2

/-- What the reads of vCPU `i`'s `GICC_IAR` returned, in order. -/
def iarReads (i : Nat) : List VgicCall → Machine → List (BitVec 32)
  | [], _ => []
  | k :: ks, m =>
      (if k.id = i ∧ k.op = .read 0x0C then (k.exec m).1.toList else [])
        ++ iarReads i ks (k.exec m).2

/-- How often INTID `n` went from not pending to pending for vCPU `i`. -/
def rises (i n : Nat) : List VgicCall → Machine → Nat
  | [], _ => 0
  | k :: ks, m =>
      (if n ∉ (m.vgics i).pending ∧ n ∈ ((k.exec m).2.vgics i).pending then 1 else 0)
        + rises i n ks (k.exec m).2

theorem VgicCall.exec_vgics (k : VgicCall) (m : Machine) (i : Nat) :
    ((k.exec m).2.vgics i).pending = (k.setOp i).apply (m.vgics i).pending := by
  by_cases h : k.id = i
  · subst h
    simp only [VgicCall.exec, setCpuIf, Function.update_self, VgicCall.setOp, if_true]
    exact k.op.exec_pending (m.cpuIf k.id)
  · simp only [VgicCall.exec, setCpuIf, Function.update_of_ne (Ne.symm h), VgicCall.setOp,
      if_neg h]
    rfl

theorem runCalls_pending (i : Nat) (ks : List VgicCall) (m : Machine) :
    ((runCalls ks m).vgics i).pending = run (ks.map (VgicCall.setOp i)) (m.vgics i).pending := by
  induction ks generalizing m with
  | nil => rfl
  | cons k ks ih => rw [runCalls, ih, k.exec_vgics]; rfl

theorem VgicOp.pops_setOp (op : VgicOp) (c : CpuIf) :
    (pops [op.setOp] c.v.pending).map intidRead
      = if op = .read 0x0C then (op.exec c).1.toList else [] := by
  cases op with
  | inject intid =>
      simp only [VgicOp.setOp]
      split <;> rfl
  | forwardSpi intid physIar =>
      simp only [VgicOp.setOp]
      split <;> rfl
  | ackAll => rfl
  | read off =>
      by_cases h : off = 0x0C
      · subst h
        rw [VgicOp.setOp, if_pos rfl, if_pos rfl]
        exact congrArg (fun v => [v]) (readReg_iar_val c).symm
      · rw [VgicOp.setOp, if_neg h, if_neg fun he => h (VgicOp.read.inj he)]
        rfl
  | write off val => rfl

/-- The values read are the set's pops. -/
theorem iarReads_eq (i : Nat) (ks : List VgicCall) (m : Machine) :
    iarReads i ks m
      = (pops (ks.map (VgicCall.setOp i)) (m.vgics i).pending).map intidRead := by
  induction ks generalizing m with
  | nil => rfl
  | cons k ks ih =>
      rw [List.map_cons, pops_cons, List.map_append, iarReads, ih, k.exec_vgics]
      congr 1
      by_cases h : k.id = i
      · subst h
        simp only [VgicCall.setOp, if_true, true_and]
        exact (k.op.pops_setOp (m.cpuIf k.id)).symm
      · simp [VgicCall.setOp, h, pops]

theorem rises_eq (i n : Nat) (ks : List VgicCall) (m : Machine) :
    rises i n ks m = entries n (ks.map (VgicCall.setOp i)) (m.vgics i).pending := by
  induction ks generalizing m with
  | nil => rfl
  | cons k ks ih =>
      simp only [rises, List.map_cons, entries, ih, k.exec_vgics]

/-- Popped INTIDs are below 64, so 1023 and the other INTIDs are told apart
in what `GICC_IAR` returns. -/
theorem count_intidRead {n : Nat} (hn : n < 64) (l : List (Option Nat))
    (hl : ∀ k, some k ∈ l → k < 64) :
    (l.map intidRead).count (BitVec.ofNat 32 n) = l.count (some n) := by
  induction l with
  | nil => rfl
  | cons o l ih =>
      have ih := ih fun k hk => hl k (List.mem_cons_of_mem o hk)
      rw [List.map_cons, List.count_cons, List.count_cons, ih]
      congr 1
      cases o with
      | none =>
          have : intidRead none ≠ BitVec.ofNat 32 n := (intidRead_some_ne hn).symm
          simp [this]
      | some k =>
          have hk : k < 64 := hl k List.mem_cons_self
          by_cases h : k = n
          · subst h
            simp [intidRead]
          · have : intidRead (some k) ≠ BitVec.ofNat 32 n :=
              fun he => h (intidRead_inj hk hn he)
            simp [this, h]

theorem pops_lt (i : Nat) (ks : List VgicCall) (m : Machine) :
    ∀ n, some n ∈ pops (ks.map (VgicCall.setOp i)) (m.vgics i).pending → n < 64 := by
  induction ks generalizing m with
  | nil => simp [pops]
  | cons k ks ih =>
      intro n hn
      rw [List.map_cons, pops_cons, List.mem_append, ← k.exec_vgics] at hn
      rcases hn with hn | hn
      · exact lt_of_mem_bits (mem_of_mem_pops hn)
      · exact ih _ n hn

/-- In a stretch without `vgic_ack_all`, an INTID is read once for every time
it became pending, except that it may still be pending. -/
theorem iarReads_balance (i : Nat) {ks : List VgicCall}
    (hks : ∀ k ∈ ks, k.id = i → k.op ≠ .ackAll) (m : Machine) {n : Nat} (hn : n < 64) :
    present n (m.vgics i).pending + rises i n ks m
      = (iarReads i ks m).count (BitVec.ofNat 32 n)
        + present n ((runCalls ks m).vgics i).pending := by
  have hclear : Op.clear ∉ ks.map (VgicCall.setOp i) := by
    intro hmem
    obtain ⟨k, hk, hop⟩ := List.mem_map.mp hmem
    by_cases h : k.id = i
    · rw [VgicCall.setOp, if_pos h] at hop
      have hne := hks k hk h
      revert hop hne
      cases k.op <;> simp [VgicOp.setOp] <;> split <;> simp
    · rw [VgicCall.setOp, if_neg h] at hop
      cases hop
  rw [rises_eq, iarReads_eq, count_intidRead hn _ (pops_lt i ks m), runCalls_pending]
  exact balance n _ hclear _

/-- Reading `GICC_IAR` until it returns 1023 lists the pending INTIDs in
ascending order. -/
theorem iarReads_drain (i : Nat) (m : Machine) :
    iarReads i (List.replicate ((m.vgics i).pending.card + 1) ⟨i, .read 0x0C⟩) m
      = ((m.vgics i).pending.sort (· ≤ ·)).map (BitVec.ofNat 32) ++ [1023] := by
  have hop : VgicCall.setOp i ⟨i, .read 0x0C⟩ = .pop := by
    rw [VgicCall.setOp, if_pos rfl]
    rfl
  rw [iarReads_eq, List.map_replicate, hop, pops_drain, List.map_append, List.map_map]
  rfl

/-- **The bitmap is a set.** After any calls, for any vCPUs, the pending
INTIDs of vCPU `i` are what the set operations leave; `GICC_IAR` returns
the least of them (and pops it), `GICC_HPPIR` the same value without
changing anything. Without `vgic_ack_all` no INTID is lost or delivered
twice, and draining lists them in strictly ascending order, then 1023. -/
theorem pendingMask_refines_set (i : Nat) (ks : List VgicCall) (m : Machine) :
    ((runCalls ks m).vgics i).pending = run (ks.map (VgicCall.setOp i)) (m.vgics i).pending
    ∧ (readReg 0x0C ((runCalls ks m).cpuIf i)).1
        = intidRead (top (run (ks.map (VgicCall.setOp i)) (m.vgics i).pending))
    ∧ readReg 0x18 ((runCalls ks m).cpuIf i)
        = ((readReg 0x0C ((runCalls ks m).cpuIf i)).1, (runCalls ks m).cpuIf i)
    ∧ ((∀ k ∈ ks, k.id = i → k.op ≠ .ackAll) → ∀ n < 64,
        present n (m.vgics i).pending + rises i n ks m
          = (iarReads i ks m).count (BitVec.ofNat 32 n)
            + present n ((runCalls ks m).vgics i).pending)
    ∧ ∃ ns : List Nat, ns.Pairwise (· < ·)
        ∧ (∀ n, n ∈ ns ↔ n ∈ ((runCalls ks m).vgics i).pending)
        ∧ iarReads i (List.replicate (ns.length + 1) ⟨i, .read 0x0C⟩) (runCalls ks m)
            = ns.map (BitVec.ofNat 32) ++ [1023] := by
  have hp := runCalls_pending i ks m
  refine ⟨hp, ?_, ?_, ?_, ?_⟩
  · rw [readReg_iar_val, ← hp]
    rfl
  · rw [readReg_hppir, readReg_iar_val]
  · intro hks n hn
    exact iarReads_balance i hks m hn
  · refine ⟨((runCalls ks m).vgics i).pending.sort (· ≤ ·), ?_, ?_, ?_⟩
    · exact (Finset.sortedLT_sort _).pairwise
    · intro n
      exact Finset.mem_sort _
    · rw [Finset.length_sort]
      exact iarReads_drain i (runCalls ks m)

end ArmHyp
