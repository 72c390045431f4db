import ArmHyp.FrameEffects
import ArmHyp.Stage2Map

/-!
# The string of HVC_PUTS

`handle_hvc` takes `x1` as a flat address: `uart_puts` reads memory there,
untranslated, up to a NUL. The VM that made the call sees memory through its
stage-2 tables. `viaFrom` reads a string through any partial reader; the two
strings are its instances for the flat reader and for the walk (`vmByte`),
and they are compared address by address, over the addresses `uart_puts`
looks at (`readsFrom`). A read of EL2 itself always succeeds here: that it
aborts where nothing backs the address is not modelled.
-/

namespace ArmHyp

open Machine

/-! ## Strings through a reader -/

/-- The NUL-terminated string at `p` as `rd` reads it, looking at `fuel` bytes
at most; `none` if there is no NUL or a byte cannot be read. -/
def viaFrom (rd : BitVec 64 → Option (BitVec 8)) : Nat → BitVec 64 → Option (List (BitVec 8))
  | 0, _ => none
  | fuel + 1, p =>
      match rd p with
      | none => none
      | some c => if c = 0 then some [] else (viaFrom rd fuel (p + 1)).map (c :: ·)

/-- The addresses `uart_puts` reads, up to and including the NUL. -/
def readsFrom (μ : Mem) : Nat → BitVec 64 → List (BitVec 64)
  | 0, _ => []
  | fuel + 1, p => p :: if μ p.toNat = 0 then [] else readsFrom μ fuel (p + 1)

section Reader

variable {rd : BitVec 64 → Option (BitVec 8)} {μ : Mem}

/-- A reader that agrees with memory on the addresses read gives the flat string. -/
theorem viaFrom_eq_cstrFrom {n : Nat} {p : BitVec 64}
    (h : ∀ a ∈ readsFrom μ n p, rd a = some (μ a.toNat)) : viaFrom rd n p = cstrFrom μ n p := by
  induction n generalizing p with
  | zero => rfl
  | succ n ih =>
      rw [readsFrom, List.forall_mem_cons] at h
      simp only [viaFrom, cstrFrom, h.1]
      by_cases hnul : μ p.toNat = 0
      · rw [if_pos hnul, if_pos hnul]
      · rw [if_neg hnul] at h
        rw [if_neg hnul, if_neg hnul, ih h.2]

/-- A reader that gives the flat string agrees with memory on the addresses read. -/
theorem eq_of_viaFrom_eq {n : Nat} {p : BitVec 64} {s : List (BitVec 8)}
    (hvia : viaFrom rd n p = some s) (hflat : cstrFrom μ n p = some s) :
    ∀ a ∈ readsFrom μ n p, rd a = some (μ a.toNat) := by
  induction n generalizing p s with
  | zero => cases hvia
  | succ n ih =>
      simp only [viaFrom] at hvia
      simp only [cstrFrom] at hflat
      rw [readsFrom, List.forall_mem_cons]
      cases hrd : rd p with
      | none =>
          rw [hrd] at hvia
          cases hvia
      | some c =>
          rw [hrd] at hvia
          simp only at hvia
          by_cases hnul : μ p.toNat = 0
          · rw [if_pos hnul] at hflat ⊢
            refine ⟨?_, by simp⟩
            by_cases hc : c = 0
            · rw [hc, hnul]
            · obtain rfl := Option.some.inj hflat
              rw [if_neg hc, Option.map_eq_some_iff] at hvia
              obtain ⟨t, -, ht⟩ := hvia
              cases ht
          · rw [if_neg hnul, Option.map_eq_some_iff] at hflat
            rw [if_neg hnul]
            obtain ⟨t, ht, rfl⟩ := hflat
            by_cases hc : c = 0
            · rw [if_pos hc] at hvia
              cases hvia
            · rw [if_neg hc, Option.map_eq_some_iff] at hvia
              obtain ⟨t', ht', heq⟩ := hvia
              obtain ⟨hhead, rfl⟩ := List.cons.inj heq
              exact ⟨congrArg some hhead, ih ht' ht⟩

/-- A string whose first byte is not NUL is not empty. -/
theorem viaFrom_ne_nil {n : Nat} {p : BitVec 64} {c : BitVec 8} (hrd : rd p = some c) (hc : c ≠ 0)
    (hn : 0 < n) : viaFrom rd n p ≠ some [] := by
  obtain ⟨n, rfl⟩ := Nat.exists_eq_add_of_lt hn
  intro h
  simp only [viaFrom, hrd, if_neg hc] at h
  obtain ⟨t, -, ht⟩ := Option.map_eq_some_iff.mp h
  cases ht

/-- Without a NUL, every address is read. -/
theorem mem_readsFrom_of_none {n : Nat} {p : BitVec 64} (h : cstrFrom μ n p = none) {k : Nat}
    (hk : k < n) : p + BitVec.ofNat 64 k ∈ readsFrom μ n p := by
  induction n generalizing p k with
  | zero => omega
  | succ n ih =>
      simp only [cstrFrom] at h
      by_cases hnul : μ p.toNat = 0
      · rw [if_pos hnul] at h
        cases h
      · rw [if_neg hnul, Option.map_eq_none_iff] at h
        rw [readsFrom, if_neg hnul]
        cases k with
        | zero =>
            rw [BitVec.ofNat_eq_ofNat, BitVec.add_zero]
            exact List.mem_cons_self
        | succ k =>
            have hadd : p + BitVec.ofNat 64 (k + 1) = p + 1 + BitVec.ofNat 64 k := by
              rw [Nat.add_comm k 1, BitVec.ofNat_add, ← BitVec.add_assoc]
              rfl
            rw [hadd]
            exact List.mem_cons_of_mem _ (ih h (by omega))

end Reader

/-! ## The VM's view -/

/-- The machine runs VM `id`, with tables as `stage2_alloc_vm` built them. -/
structure RunsVm (L : S2Layout) (id : Nat) (m : Machine) : Prop where
  id_lt : id < maxVms
  vtcr : m.mrs .vtcrEl2 = s2Vtcr
  vttbr : ∃ vmid, m.mrs .vttbrEl2 = s2Vttbr L id vmid
  tables : Tables L id m.mem

/-- The running VM's stage-2 translation. -/
def vmWalk (m : Machine) (p : BitVec 64) : Except S2.Fault S2.Xlat :=
  S2.walk (m.mrs .vtcrEl2) (m.mrs .vttbrEl2) m.mem p.toNat

/-- The byte at IPA `p` as the running VM reads it. -/
def vmByte (m : Machine) (p : BitVec 64) : Option (BitVec 8) :=
  match vmWalk m p with
  | .ok x => if x.s2ap.getLsbD 0 then some (m.mem x.pa) else none
  | .error _ => none

/-- The string at IPA `p` as the running VM reads it. -/
def vmStr (m : Machine) (p : BitVec 64) : Option (List (BitVec 8)) := viaFrom (vmByte m) (2 ^ 64) p

/-- The addresses EL2 reads for `HVC_PUTS` with `x1 = p`. -/
def putsReads (μ : Mem) (p : BitVec 64) : List (BitVec 64) := readsFrom μ (2 ^ 64) p

/-- The VM sees at `a` what EL2 sees there: RAM and the UART are mapped one
to one, and the private page is if its backing page holds the same byte. -/
def FlatAt (L : S2Layout) (id : Nat) (μ : Mem) (a : Nat) : Prop :=
  0x40000000 ≤ a ∧ a < 0x80000000 ∨ 0x09000000 ≤ a ∧ a < 0x09200000
    ∨ (0x0A000000 ≤ a ∧ a < 0x0A001000) ∧ μ (L.base .privPage id + (a - 0x0A000000)) = μ a

section Vm

variable {L : S2Layout} {id : Nat} {m : Machine}

theorem RunsVm.walk (h : RunsVm L id m) (p : BitVec 64) :
    vmWalk m p = intendedWalk L id p.toNat := by
  obtain ⟨vmid, hvttbr⟩ := h.vttbr
  rw [vmWalk, h.vtcr, hvttbr, walk_eq h.id_lt h.tables]

/-- Every mapping is readable. -/
theorem RunsVm.byte_eq (h : RunsVm L id m) (p : BitVec 64) :
    vmByte m p = (intendedMap L id p.toNat).map fun x => m.mem x.pa := by
  rw [vmByte, h.walk, intendedWalk]
  cases hmap : intendedMap L id p.toNat with
  | none => rfl
  | some x =>
      have hap : x.s2ap = 3 := by
        rw [intendedMap] at hmap
        split_ifs at hmap
        all_goals
          obtain rfl := Option.some.inj hmap
          rfl
      have hread : x.s2ap.getLsbD 0 = true := by
        rw [hap]
        decide
      exact if_pos hread

theorem RunsVm.byte_eq_iff (h : RunsVm L id m) (p : BitVec 64) :
    vmByte m p = some (m.mem p.toNat) ↔ FlatAt L id m.mem p.toNat := by
  rw [h.byte_eq, intendedMap, FlatAt]
  by_cases hram : 0x40000000 ≤ p.toNat ∧ p.toNat < 0x80000000
  · rw [if_pos hram]
    exact iff_of_true rfl (Or.inl hram)
  rw [if_neg hram, or_iff_right hram]
  by_cases huart : 0x09000000 ≤ p.toNat ∧ p.toNat < 0x09200000
  · rw [if_pos huart]
    exact iff_of_true rfl (Or.inl huart)
  rw [if_neg huart, or_iff_right huart]
  by_cases hpriv : 0x0A000000 ≤ p.toNat ∧ p.toNat < 0x0A001000
  · rw [if_pos hpriv, and_iff_right hpriv]
    exact Option.some_inj
  · rw [if_neg hpriv]
    exact iff_of_false (Option.some_ne_none _).symm fun hflat => hpriv hflat.1

theorem RunsVm.mapped_of_byte {p : BitVec 64} {c : BitVec 8} (h : vmByte m p = some c) :
    ∃ x, vmWalk m p = .ok x := by
  rw [vmByte] at h
  cases hw : vmWalk m p with
  | ok x => exact ⟨x, rfl⟩
  | error e =>
      rw [hw] at h
      cases h

/-- Nothing is mapped at IPA 0. -/
theorem RunsVm.not_mapped_zero (h : RunsVm L id m) (x : S2.Xlat) : vmWalk m 0 ≠ .ok x := by
  rw [h.walk]
  exact nofun

end Vm

theorem handleHvc_puts (m : Machine) (hnum : m.tf.x 0 = hvcPuts) :
    handleHvc m = match cstr m.mem (m.tf.x 1) with
      | some s => .ret (((m.uartPuts "  [hypervisor relaying guest string] ").uartPutBytes s).setX 0 0)
      | none => .halt (m.uartPuts "  [hypervisor relaying guest string] ") := by
  simp only [handleHvc, hnum]
  rfl

/-- **HVC_PUTS is flat.** EL2 relays the NUL-terminated string at the
untranslated address `x1` (and never comes back if there is none). That is
the string the VM sees, read through mapped addresses only, exactly if the
VM's view is flat at every address up to the NUL. -/
theorem hvc_puts_flat (L : S2Layout) (id : Nat) (m : Machine) (h : RunsVm L id m)
    (hnum : m.tf.x 0 = hvcPuts) :
    handleHvc m = (match cstr m.mem (m.tf.x 1) with
      | some s => .ret (((m.uartPuts "  [hypervisor relaying guest string] ").uartPutBytes s).setX 0 0)
      | none => .halt (m.uartPuts "  [hypervisor relaying guest string] "))
    ∧ ((cstr m.mem (m.tf.x 1) = vmStr m (m.tf.x 1)
          ∧ ∀ a ∈ putsReads m.mem (m.tf.x 1), ∃ x, vmWalk m a = .ok x)
        ↔ ∀ a ∈ putsReads m.mem (m.tf.x 1), FlatAt L id m.mem a.toNat) := by
  refine ⟨handleHvc_puts m hnum, ?_⟩
  constructor
  · rintro ⟨heq, hmapped⟩ a ha
    cases hs : cstr m.mem (m.tf.x 1) with
    | some s => exact (h.byte_eq_iff a).mp (eq_of_viaFrom_eq (heq.symm.trans hs) hs a ha)
    | none =>
        -- an endless string runs over IPA 0
        have hzero := mem_readsFrom_of_none hs (k := (-m.tf.x 1).toNat) (BitVec.isLt _)
        rw [BitVec.ofNat_toNat, BitVec.setWidth_eq, BitVec.add_neg_eq_sub, BitVec.sub_self] at hzero
        obtain ⟨x, hx⟩ := hmapped _ hzero
        exact absurd hx (h.not_mapped_zero x)
  · intro hflat
    have hbyte : ∀ a ∈ putsReads m.mem (m.tf.x 1), vmByte m a = some (m.mem a.toNat) := by
      intro a ha
      exact (h.byte_eq_iff a).mpr (hflat a ha)
    exact ⟨(viaFrom_eq_cstrFrom hbyte).symm, fun a ha => RunsVm.mapped_of_byte (hbyte a ha)⟩

/-! ## Two calls -/

/-- Storing outside the tables keeps them. -/
theorem Tables.update_of_apart {L : S2Layout} {id a : Nat} {μ : Mem} (ht : Tables L id μ)
    (ha : ∀ o, o ≠ .privPage → a < L.base o id ∨ L.base o id + 4096 ≤ a) (c : BitVec 8) :
    Tables L id (Function.update μ a c) := by
  intro o k ho hk
  rw [← ht o k ho hk]
  refine μ.entry_update_of_apart c hk ?_
  have := ha o ho
  omega

/-- VM 0 calls `HVC_PUTS` with `x1 = p`, where `c` and a NUL are stored. -/
def putsCall (p : BitVec 64) (c : BitVec 8) : Machine :=
  { ((default : Machine).setX 0 hvcPuts).setX 1 p with
    mem := Function.update (Function.update (buildTables default 0 fun _ => 0) (p.toNat + 1) 0)
      p.toNat c
    regs := Function.update (Function.update (fun _ => 0) .vtcrEl2 s2Vtcr) .vttbrEl2
      (s2Vttbr default 0 1) }

section PutsCall

variable (p : BitVec 64) (c : BitVec 8)

theorem putsCall_x1 : (putsCall p c).tf.x 1 = p := TrapFrame.x_setX_self _ _ _

theorem putsCall_runsVm (hp : p.toNat + 1 < 0x40090000 ∨ 0x4009A000 ≤ p.toNat) :
    RunsVm default 0 (putsCall p c) where
  id_lt := by decide
  vtcr := rfl
  vttbr := ⟨1, rfl⟩
  tables := by
    have hbase : ∀ o, o ≠ .privPage → 0x40090000 ≤ S2Layout.base default o 0
        ∧ S2Layout.base default o 0 + 4096 ≤ 0x4009A000 := by
      intro o _
      cases o <;> decide
    have hnul : Tables default 0
        (Function.update (buildTables default 0 fun _ => 0) (p.toNat + 1) 0) := by
      refine (buildTables_tables (by decide) _).update_of_apart ?_ 0
      intro o ho
      have := hbase o ho
      omega
    refine hnul.update_of_apart ?_ c
    intro o ho
    have := hbase o ho
    omega

theorem mem_putsCall : (putsCall p c).mem p.toNat = c := Function.update_self _ _ _

theorem mem_putsCall_nul : (putsCall p c).mem (p.toNat + 1) = 0 := by
  simp only [putsCall, Function.update_of_ne (Nat.succ_ne_self _), Function.update_self]

theorem mem_putsCall_of_ne {a : Nat} (h : a ≠ p.toNat) (h1 : a ≠ p.toNat + 1) :
    (putsCall p c).mem a = buildTables default 0 (fun _ => 0) a := by
  simp only [putsCall, Function.update_of_ne h, Function.update_of_ne h1]

theorem cstr_putsCall_nul : cstr (putsCall p 0).mem p = some [] := by
  change cstrFrom _ (2 ^ 64 - 1 + 1) p = some []
  rw [cstrFrom, if_pos (mem_putsCall p 0)]

/-- A string of one byte, and the addresses that are read for it. -/
theorem putsCall_byte (hc : c ≠ 0) (hp : p.toNat + 1 < 2 ^ 64) :
    cstr (putsCall p c).mem p = some [c] ∧ putsReads (putsCall p c).mem p = [p, p + 1] := by
  have hbyte := mem_putsCall p c
  have hnext : (p + 1).toNat = p.toNat + 1 := by
    rw [BitVec.toNat_add]
    exact Nat.mod_eq_of_lt hp
  have hnul : (putsCall p c).mem (p + 1).toNat = 0 := by
    rw [hnext]
    exact mem_putsCall_nul p c
  constructor
  · change cstrFrom _ (2 ^ 64 - 2 + 1 + 1) p = some [c]
    simp only [cstrFrom, hbyte, hnul, hc, if_false, if_true, Option.map_some]
  · change readsFrom _ (2 ^ 64 - 2 + 1 + 1) p = [p, p + 1]
    simp only [readsFrom, hbyte, hnul, hc, if_false, if_true]

end PutsCall

/-- The string "A" in RAM: it is relayed, and is what the VM sees. -/
theorem hvc_puts_flat_ram :
    handleHvc (putsCall 0x50000000 0x41)
        = .ret ((((putsCall 0x50000000 0x41).uartPuts
            "  [hypervisor relaying guest string] ").uartPutBytes [0x41]).setX 0 0)
      ∧ vmStr (putsCall 0x50000000 0x41) 0x50000000 = some [0x41]
      ∧ ∀ a ∈ putsReads (putsCall 0x50000000 0x41).mem 0x50000000,
          ∃ x, vmWalk (putsCall 0x50000000 0x41) a = .ok x := by
  obtain ⟨hputs, hflat⟩ := hvc_puts_flat default 0 (putsCall 0x50000000 0x41)
    (putsCall_runsVm _ _ (by decide)) rfl
  obtain ⟨hstr, hreads⟩ := putsCall_byte 0x50000000 0x41 (by decide) (by decide)
  rw [putsCall_x1, hstr] at hputs
  rw [putsCall_x1, hstr] at hflat
  have hram : ∀ a ∈ putsReads (putsCall 0x50000000 0x41).mem 0x50000000,
      FlatAt default 0 (putsCall 0x50000000 0x41).mem a.toNat := by
    rw [hreads]
    intro a ha
    obtain rfl | ha := List.mem_cons.mp ha
    · exact Or.inl (by decide)
    · rw [List.mem_singleton.mp ha]
      exact Or.inl (by decide)
  obtain ⟨hsame, hmapped⟩ := hflat.mpr hram
  exact ⟨hputs, hsame.symm, hmapped⟩

/-- The private page: EL2 prints the empty string that is at 0x0A000000, the
VM sees the page that `stage2_alloc_vm` seeded. -/
theorem hvc_puts_not_what_vm_sees :
    RunsVm default 0 (putsCall 0x0A000000 0) ∧ (putsCall 0x0A000000 0).tf.x 0 = hvcPuts
      ∧ (putsCall 0x0A000000 0).tf.x 1 = 0x0A000000
      ∧ handleHvc (putsCall 0x0A000000 0)
        = .ret ((((putsCall 0x0A000000 0).uartPuts
            "  [hypervisor relaying guest string] ").uartPutBytes []).setX 0 0)
      ∧ vmByte (putsCall 0x0A000000 0) 0x0A000000 = some 0x41
      ∧ vmStr (putsCall 0x0A000000 0) 0x0A000000 ≠ some [] := by
  have hrun : RunsVm default 0 (putsCall 0x0A000000 0) := putsCall_runsVm _ _ (by decide)
  have hbyte : vmByte (putsCall 0x0A000000 0) 0x0A000000 = some 0x41 := by
    rw [hrun.byte_eq]
    have hpage : (putsCall 0x0A000000 0).mem (S2Layout.base default .privPage 0) = 0x41 := by
      rw [mem_putsCall_of_ne _ _ (by decide) (by decide), buildTables, Function.update_self]
      rfl
    exact congrArg some hpage
  refine ⟨hrun, rfl, putsCall_x1 _ _, ?_, hbyte, ?_⟩
  · rw [handleHvc_puts _ rfl, putsCall_x1, cstr_putsCall_nul]
  · exact viaFrom_ne_nil hbyte (by decide) (by decide)

end ArmHyp
