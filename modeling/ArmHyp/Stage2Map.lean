import Mathlib.Tactic.IntervalCases
import ArmHyp.Stage2

/-!
# The stage-2 map

`stage2_alloc_vm` fills four tables; the walk reads them back. In between
stands `Tables`: the 2048 entries of one VM as a function of object and
index, which `buildTables` establishes and which the other VM's
`buildTables` cannot disturb. The walk over `Tables` is then computed once,
for every IPA (`walk_eq`), and everything about the map follows from that.
-/

namespace ArmHyp

/-! ## Table entries in memory -/

namespace S2Layout

variable (L : S2Layout)

/-- Entry `k` of a table of VM `id`. -/
def tab (μ : Mem) (o : S2Obj) (id k : Nat) : BitVec 64 := μ.entry (L.base o id) k

/-- A store to one table changes that entry only. -/
theorem tab_setEntry (μ : Mem) {o o' : S2Obj} {id id' i k : Nat} (v : BitVec 64)
    (hid : id < maxVms) (hid' : id' < maxVms) (hi : i < 512) (hk : k < 512) :
    L.tab (μ.setEntry (L.base o id) i v) o' id' k
      = if o' = o ∧ id' = id ∧ k = i then v else L.tab μ o' id' k := by
  by_cases hobj : (o, id) = (o', id')
  · obtain ⟨rfl, rfl⟩ := Prod.mk.injEq .. |>.mp hobj
    rw [tab, Mem.entry_setEntry]
    simp only [true_and]
    rfl
  · rw [if_neg fun h => hobj (Prod.ext h.1.symm h.2.1.symm)]
    exact μ.entry_setEntry_of_apart v hi hk (L.disjoint o id o' id' hid hid' hobj)

/-- The private page is not a table. -/
theorem tab_update_privPage (μ : Mem) {o : S2Obj} (ho : o ≠ .privPage) {id id' k : Nat}
    (c : BitVec 8) (hid : id < maxVms) (hid' : id' < maxVms) (hk : k < 512) :
    L.tab (Function.update μ (L.base .privPage id) c) o id' k = L.tab μ o id' k := by
  have hd := L.disjoint .privPage id o id' hid hid' fun h => ho (Prod.mk.inj h).1.symm
  refine μ.entry_update_of_apart c hk ?_
  unfold base
  omega

end S2Layout

/-! ## What stage2_alloc_vm builds -/

/-- The entries `stage2_alloc_vm` leaves in VM `id`'s tables. -/
def tableSpec (L : S2Layout) (id : Nat) : S2Obj → Nat → BitVec 64
  | .l1, k =>
      if k = 0 then L.addr .l2Low id ||| descTable else if k = 1 then ramDesc else 0
  | .l2Low, k =>
      if k = 0x40 then L.addr .l3Gic id ||| descTable
      else if k = 0x48 then uartDesc
      else if k = 0x50 then L.addr .l3Priv id ||| descTable
      else 0
  | .l3Priv, k => if k = 0 then L.addr .privPage id ||| pgNorm else 0
  | _, _ => 0

/-- VM `id`'s tables are as `stage2_alloc_vm` builds them. -/
def Tables (L : S2Layout) (id : Nat) (μ : Mem) : Prop :=
  ∀ o k, o ≠ .privPage → k < 512 → L.tab μ o id k = tableSpec L id o k

section Build

variable {L : S2Layout} {id : Nat}

theorem zeroTables_tab (hid : id < maxVms) {n : Nat} (hn : n ≤ 512) (μ : Mem) {o : S2Obj}
    (ho : o ≠ .privPage) {id' k : Nat} (hid' : id' < maxVms) (hk : k < 512) :
    L.tab (zeroTables L id n μ) o id' k = if id' = id ∧ k < n then 0 else L.tab μ o id' k := by
  induction n with
  | zero => simp [zeroTables]
  | succ n ih =>
      have hn' : n < 512 := by omega
      simp only [zeroTables, L.tab_setEntry _ _ hid hid' hn' hk, ih (by omega)]
      by_cases hkn : k = n
      · subst hkn
        by_cases hii : id' = id
        · cases o <;> simp_all
        · simp [hii]
      · have : k < n + 1 ↔ k < n := by omega
        simp [hkn, this]

/-- One call: the tables of `id` are built, those of the other VM are left
alone. -/
theorem buildTables_tab (hid : id < maxVms) (μ : Mem) {o : S2Obj} (ho : o ≠ .privPage)
    {id' k : Nat} (hid' : id' < maxVms) (hk : k < 512) :
    L.tab (buildTables L id μ) o id' k
      = if id' = id then tableSpec L id o k else L.tab μ o id' k := by
  have huart : l2Index uartBase = 0x48 := by decide
  have hgic : l2Index gicBase = 0x40 := by decide
  have hpriv : l2Index privIpa = 0x50 := by decide
  simp only [buildTables, huart, hgic, hpriv, L.tab_update_privPage _ ho _ hid hid' hk,
    L.tab_setEntry _ _ hid hid' (show 0 < 512 by decide) hk,
    L.tab_setEntry _ _ hid hid' (show 1 < 512 by decide) hk,
    L.tab_setEntry _ _ hid hid' (show 0x40 < 512 by decide) hk,
    L.tab_setEntry _ _ hid hid' (show 0x48 < 512 by decide) hk,
    L.tab_setEntry _ _ hid hid' (show 0x50 < 512 by decide) hk,
    zeroTables_tab hid (Nat.le_refl 512) μ ho hid' hk]
  by_cases hii : id' = id
  · cases o <;> simp only [hii, hk, tableSpec, reduceCtorEq, true_and, false_and, and_true,
      if_true, if_false]
    · split_ifs <;> first | rfl | omega
    · split_ifs <;> first | rfl | omega
  · simp [hii]

end Build

/-! ## Decoding the descriptors -/

/-- An address and low attribute bits do not overlap. -/
theorem extractLsb'_or_low {a low : BitVec 64} {s l : Nat} (hlow : low.toNat < 2 ^ s) :
    (a ||| low).extractLsb' s l = a.extractLsb' s l := by
  apply BitVec.eq_of_getLsbD_eq
  intro i hi
  have hz : low.getLsbD (s + i) = false :=
    Nat.testBit_lt_two_pow (Nat.lt_of_lt_of_le hlow (Nat.pow_le_pow_right (by decide) (by omega)))
  simp only [BitVec.getLsbD_extractLsb', BitVec.getLsbD_or, hz, Bool.or_false]

/-- The bits above 12 of a page-aligned address below 2^48. -/
theorem extractLsb'_addr {a : BitVec 64} (hal : a.toNat % 4096 = 0) (hlt : a.toNat < 2 ^ 40) :
    (a.extractLsb' 12 36).toNat * 2 ^ 12 = a.toNat := by
  rw [BitVec.extractLsb'_toNat, Nat.shiftRight_eq_div_pow]
  omega

/-- The low bits of such a descriptor are the attribute bits. -/
theorem getLsbD_addr_low {a : BitVec 64} (hal : a.toNat % 4096 = 0) {i : Nat} (hi : i < 12) :
    a.getLsbD i = false := by
  have hdvd : a.toNat = 2 ^ 12 * (a.toNat / 2 ^ 12) := by omega
  rw [BitVec.getLsbD, hdvd, Nat.testBit_two_pow_mul]
  simp [Nat.not_le.mpr hi]

/-- A block descriptor, once its fields are known. -/
theorem leaf_eq {d : BitVec 64} {r a : Nat}
    (hbase : (d.extractLsb' (12 + 9 * r) (48 - (12 + 9 * r))).toNat * 2 ^ (12 + 9 * r) = a)
    (haf : d.getLsbD 10 = true) (hlt : a < 2 ^ 40) (ipa : Nat) :
    S2.leaf 40 r d ipa = .ok
      { pa := a + ipa % 2 ^ (12 + 9 * r)
        s2ap := d.extractLsb' 6 2
        memAttr := d.extractLsb' 2 4
        xn := d.getLsbD 54 } := by
  simp only [S2.leaf, hbase, haf, Bool.true_eq_false, if_false, if_neg (Nat.not_le.mpr hlt)]

namespace S2Layout

variable (L : S2Layout) {id : Nat}

theorem tableAddr_or (hid : id < maxVms) (o : S2Obj) {low : BitVec 64} (hlow : low.toNat < 4096) :
    S2.tableAddr (L.addr o id ||| low) = L.base o id := by
  rw [S2.tableAddr, extractLsb'_or_low hlow]
  exact extractLsb'_addr (L.aligned o id hid) (L.below o id hid)

theorem extractLsb'_low (hid : id < maxVms) (o : S2Obj) (low : BitVec 64) {s l : Nat}
    (hsl : s + l ≤ 12) : (L.addr o id ||| low).extractLsb' s l = low.extractLsb' s l := by
  apply BitVec.eq_of_getLsbD_eq
  intro i hi
  have hz := getLsbD_addr_low (L.aligned o id hid) (i := s + i) (by omega)
  simp only [BitVec.getLsbD_extractLsb', BitVec.getLsbD_or, hz, Bool.false_or]

theorem getLsbD_or_low (hid : id < maxVms) (o : S2Obj) (low : BitVec 64) {i : Nat} (hi : i < 12) :
    (L.addr o id ||| low).getLsbD i = low.getLsbD i := by
  rw [BitVec.getLsbD_or, getLsbD_addr_low (L.aligned o id hid) hi, Bool.false_or]

/-- The page descriptor of the private page. -/
theorem leaf_privPage (hid : id < maxVms) (ipa : Nat) :
    S2.leaf 40 0 (L.addr .privPage id ||| pgNorm) ipa
      = .ok { pa := L.base .privPage id + ipa % 4096, s2ap := 3, memAttr := 0xF, xn := false } := by
  have hbelow : L.base .privPage id < 2 ^ 40 := L.below .privPage id hid
  have hbase : ((L.addr .privPage id ||| pgNorm).extractLsb' 12 36).toNat * 2 ^ 12
      = L.base .privPage id := L.tableAddr_or hid .privPage (by decide)
  have haf : (L.addr .privPage id ||| pgNorm).getLsbD 10 = true := by
    rw [L.getLsbD_or_low hid _ _ (by decide)]
    decide
  have hxn : (L.addr .privPage id ||| pgNorm).getLsbD 54 = false := by
    have hz : (L.addr .privPage id).getLsbD 54 = false :=
      Nat.testBit_lt_two_pow (Nat.lt_trans hbelow (by decide))
    rw [BitVec.getLsbD_or, hz]
    decide
  rw [leaf_eq (r := 0) hbase haf hbelow, hxn,
    L.extractLsb'_low hid .privPage pgNorm (show 6 + 2 ≤ 12 by decide),
    L.extractLsb'_low hid .privPage pgNorm (show 2 + 4 ≤ 12 by decide)]
  rfl

end S2Layout

/-! ## The walk -/

/-- What the tables of VM `id` are meant to map. -/
def intendedMap (L : S2Layout) (id : Nat) (ipa : Nat) : Option S2.Xlat :=
  if 0x40000000 ≤ ipa ∧ ipa < 0x80000000 then
    -- RAM: identity, Normal, executable
    some { pa := ipa, s2ap := 3, memAttr := 0xF, xn := false }
  else if 0x09000000 ≤ ipa ∧ ipa < 0x09200000 then
    -- UART: identity, Device, execute-never
    some { pa := ipa, s2ap := 3, memAttr := 0, xn := true }
  else if 0x0A000000 ≤ ipa ∧ ipa < 0x0A001000 then
    -- the VM's own page
    some { pa := L.base .privPage id + (ipa - 0x0A000000), s2ap := 3, memAttr := 0xF, xn := false }
  else none

/-- `intendedMap` as a walk result. -/
def intendedWalk (L : S2Layout) (id ipa : Nat) : Except S2.Fault S2.Xlat :=
  match intendedMap L id ipa with
  | some x => .ok x
  | none => .error .translation

theorem intendedWalk_toOption (L : S2Layout) (id ipa : Nat) :
    (intendedWalk L id ipa).toOption = intendedMap L id ipa := by
  unfold intendedWalk
  cases intendedMap L id ipa <;> rfl

section Regions

variable {L : S2Layout} {id ipa : Nat}

theorem intendedWalk_ram (h : ipa / 2 ^ 30 = 1) :
    intendedWalk L id ipa
      = .ok { pa := 0x40000000 + ipa % 2 ^ 30, s2ap := 3, memAttr := 0xF, xn := false } := by
  have hpa : 0x40000000 + ipa % 2 ^ 30 = ipa := by omega
  rw [intendedWalk, intendedMap, if_pos (by omega), hpa]

theorem intendedWalk_uart (h : ipa / 2 ^ 21 = 0x48) :
    intendedWalk L id ipa
      = .ok { pa := 0x09000000 + ipa % 2 ^ 21, s2ap := 3, memAttr := 0, xn := true } := by
  have hpa : 0x09000000 + ipa % 2 ^ 21 = ipa := by omega
  rw [intendedWalk, intendedMap, if_neg (by omega), if_pos (by omega), hpa]

theorem intendedWalk_privPage (h : ipa / 2 ^ 12 = 0xA000) :
    intendedWalk L id ipa
      = .ok { pa := L.base .privPage id + ipa % 4096, s2ap := 3, memAttr := 0xF, xn := false } := by
  have hpa : ipa - 0x0A000000 = ipa % 4096 := by omega
  rw [intendedWalk, intendedMap, if_neg (by omega), if_neg (by omega), if_pos (by omega), hpa]

theorem intendedWalk_unmapped (hram : ipa / 2 ^ 30 ≠ 1) (huart : ipa / 2 ^ 21 ≠ 0x48)
    (hpriv : ipa / 2 ^ 12 ≠ 0xA000) : intendedWalk L id ipa = .error .translation := by
  rw [intendedWalk, intendedMap, if_neg (by omega), if_neg (by omega), if_neg (by omega)]

end Regions

section Walk

variable {L : S2Layout} {id : Nat} {μ : Mem}

/-- A table descriptor leads to its table. -/
theorem lookup_descTable (hid : id < maxVms) {o : S2Obj} {ipa r a : Nat}
    (hd : μ.read64 a = L.addr o id ||| descTable) :
    S2.lookup μ 40 ipa (r + 1) a
      = S2.lookup μ 40 ipa r (L.base o id + 8 * (ipa / 2 ^ (12 + 9 * r) % 512)) := by
  have hbits : ∀ i < 2, (L.addr o id ||| descTable).getLsbD i = true := by
    intro i hi
    rw [L.getLsbD_or_low hid _ _ (by omega)]
    interval_cases i <;> decide
  have haddr : S2.tableAddr (μ.read64 a) = L.base o id := by
    rw [hd]
    exact L.tableAddr_or hid o (by decide)
  rw [S2.lookup_table, haddr]
  · rw [hd]
    exact hbits 0 (by decide)
  · rw [hd]
    exact hbits 1 (by decide)
  · rw [haddr]
    exact L.below o id hid

theorem lookup_zero {ipa r a : Nat} (hd : μ.read64 a = 0) :
    S2.lookup μ 40 ipa r a = .error .translation := by
  apply S2.lookup_invalid
  rw [hd]
  rfl

/-- Level 3 of the GIC window: nothing is mapped. -/
theorem lookup_l3Gic (ht : Tables L id μ) {ipa k : Nat} (hk : k < 512) :
    S2.lookup μ 40 ipa 0 (L.base .l3Gic id + 8 * k) = .error .translation :=
  lookup_zero (ht .l3Gic k (by decide) hk)

/-- Level 3 of the private window: one page. -/
theorem lookup_l3Priv (hid : id < maxVms) (ht : Tables L id μ) {ipa k : Nat} (hk : k < 512) :
    S2.lookup μ 40 ipa 0 (L.base .l3Priv id + 8 * k)
      = if k = 0 then
          .ok { pa := L.base .privPage id + ipa % 4096, s2ap := 3, memAttr := 0xF, xn := false }
        else .error .translation := by
  have hd : μ.read64 (L.base .l3Priv id + 8 * k)
      = if k = 0 then L.addr .privPage id ||| pgNorm else 0 := ht .l3Priv k (by decide) hk
  by_cases h0 : k = 0
  · rw [if_pos h0] at hd ⊢
    rw [S2.lookup_page, hd, L.leaf_privPage hid]
    rw [hd, L.extractLsb'_low hid .privPage pgNorm (by decide)]
    decide
  · rw [if_neg h0] at hd ⊢
    exact lookup_zero hd

/-- Level 2 below 1 GiB: the GIC table, the UART block, the private table. -/
theorem lookup_l2Low (hid : id < maxVms) (ht : Tables L id μ) {ipa : Nat} (hipa : ipa < 2 ^ 30) :
    S2.lookup μ 40 ipa 1 (L.base .l2Low id + 8 * (ipa / 2 ^ 21)) = intendedWalk L id ipa := by
  have hk : ipa / 2 ^ 21 < 512 := by omega
  have hd : μ.read64 (L.base .l2Low id + 8 * (ipa / 2 ^ 21))
      = tableSpec L id .l2Low (ipa / 2 ^ 21) := ht .l2Low _ (by decide) hk
  simp only [tableSpec] at hd
  split_ifs at hd with hgic huart hpriv
  · -- the GIC window: a table without entries
    rw [lookup_descTable hid hd, lookup_l3Gic ht (Nat.mod_lt _ (by decide))]
    exact (intendedWalk_unmapped (by omega) (by omega) (by omega)).symm
  · -- the UART block
    rw [S2.lookup_block (by rw [hd]; decide) (by rw [hd]; decide) (by decide), hd,
      intendedWalk_uart huart, leaf_eq (r := 1) (a := 0x09000000) (by decide) (by decide)
        (by decide)]
    rfl
  · -- the private window: only its first page
    rw [lookup_descTable hid hd, lookup_l3Priv hid ht (Nat.mod_lt _ (by decide))]
    split
    · rename_i h0
      exact (intendedWalk_privPage (by omega)).symm
    · rename_i h0
      exact (intendedWalk_unmapped (by omega) (by omega) (by omega)).symm
  · rw [lookup_zero hd]
    exact (intendedWalk_unmapped (by omega) huart (by omega)).symm

/-- Level 1: the low table, the RAM block. -/
theorem lookup_l1 (hid : id < maxVms) (ht : Tables L id μ) {ipa : Nat} (hipa : ipa < 2 ^ 32) :
    S2.lookup μ 40 ipa 2 (L.base .l1 id + 8 * (ipa / 2 ^ 30)) = intendedWalk L id ipa := by
  have hd : μ.read64 (L.base .l1 id + 8 * (ipa / 2 ^ 30)) = tableSpec L id .l1 (ipa / 2 ^ 30) :=
    ht .l1 _ (by decide) (by omega)
  simp only [tableSpec] at hd
  split_ifs at hd with hlow hram
  · have hidx : ipa / 2 ^ (12 + 9 * 1) % 512 = ipa / 2 ^ 21 := by omega
    rw [lookup_descTable hid hd, hidx, lookup_l2Low hid ht (by omega)]
  · rw [S2.lookup_block (by rw [hd]; decide) (by rw [hd]; decide) (by decide), hd,
      intendedWalk_ram hram, leaf_eq (r := 2) (a := 0x40000000) (by decide) (by decide)
        (by decide)]
    rfl
  · rw [lookup_zero hd]
    exact (intendedWalk_unmapped hram (by omega) (by omega)).symm

/-- The VMID does not reach into the table address, and the other way round. -/
theorem s2Vttbr_baddr (hid : id < maxVms) (vmid : BitVec 32) :
    ((s2Vttbr L id vmid).extractLsb' 0 48).toNat = L.base .l1 id := by
  have hlt := L.below .l1 id hid
  have hext : (s2Vttbr L id vmid).extractLsb' 0 48 = (L.addr .l1 id).extractLsb' 0 48 := by
    apply BitVec.eq_of_getLsbD_eq
    intro i hi
    have hz : (vmid.setWidth 64 <<< 48).getLsbD (0 + i) = false := by
      simp only [BitVec.getLsbD_shiftLeft, Nat.zero_add, hi, decide_true, Bool.not_true,
        Bool.and_false, Bool.false_and]
    simp only [s2Vttbr, BitVec.getLsbD_extractLsb', BitVec.getLsbD_or, hz, Bool.or_false]
  rw [hext, BitVec.extractLsb'_toNat, Nat.shiftRight_zero,
    Nat.mod_eq_of_lt (Nat.lt_trans hlt (by decide))]
  rfl

theorem s2Vttbr_vmid (hid : id < maxVms) (vmid : BitVec 32) :
    (s2Vttbr L id vmid).extractLsb' 48 8 = vmid.setWidth 8 := by
  have hlt := L.below .l1 id hid
  apply BitVec.eq_of_getLsbD_eq
  intro i hi
  have hz : (L.addr .l1 id).getLsbD (48 + i) = false :=
    Nat.testBit_lt_two_pow (Nat.lt_of_lt_of_le hlt (Nat.pow_le_pow_right (by decide) (by omega)))
  have h64 : 48 + i < 64 := by omega
  have hge : ¬48 + i < 48 := by omega
  have hi32 : i < 64 := by omega
  simp only [s2Vttbr, BitVec.getLsbD_extractLsb', BitVec.getLsbD_or, hz, Bool.false_or,
    BitVec.getLsbD_shiftLeft, BitVec.getLsbD_setWidth, h64, hge, hi, hi32, decide_true,
    decide_false, Bool.not_false, Bool.true_and, Nat.add_sub_cancel_left]

/-- **The walk is the intended map.** -/
theorem walk_eq (hid : id < maxVms) (ht : Tables L id μ) (vmid : BitVec 32) (ipa : Nat) :
    S2.walk s2Vtcr (s2Vttbr L id vmid) μ ipa = intendedWalk L id ipa := by
  have hbits : 64 - (s2Vtcr.extractLsb' 0 6).toNat = 32 := by decide
  have hstart : S2.startBelow (s2Vtcr.extractLsb' 6 2) = 2 := by decide
  have hpab : S2.paBits (s2Vtcr.extractLsb' 16 3) = 40 := by decide
  have hgran : s2Vtcr.extractLsb' 14 2 = 0 := by decide
  have hbase := s2Vttbr_baddr (L := L) hid vmid
  have hal := L.aligned .l1 id hid
  have halign : L.base .l1 id / 2 ^ 5 * 2 ^ 5 = L.base .l1 id := by
    unfold S2Layout.base
    omega
  simp only [S2.walk, hbits, hstart, hpab, hgran, hbase, ne_eq, not_true_eq_false, if_false,
    Nat.reduceMul, Nat.reduceAdd, Nat.reduceSub, halign]
  split
  · rename_i hle
    exact (intendedWalk_unmapped (by omega) (by omega) (by omega)).symm
  · rename_i hlt
    exact lookup_l1 hid ht (by omega)

end Walk

/-! ## Any order of calls -/

/-- A sequence of `stage2_alloc_vm(id, vmid)` calls: the values returned and
the memory after the last one. -/
def allocVms (L : S2Layout) : List (Nat × BitVec 32) → Mem → Option (List (BitVec 64) × Mem)
  | [], μ => some ([], μ)
  | (id, vmid) :: calls, μ =>
      (stage2AllocVm L id vmid μ).bind fun (vttbr, μ) =>
        (allocVms L calls μ).map fun (vttbrs, μ) => (vttbr :: vttbrs, μ)

section Calls

variable {L : S2Layout} {id id' : Nat} {μ : Mem}

theorem stage2AllocVm_eq (hid : id < maxVms) (vmid : BitVec 32) (μ : Mem) :
    stage2AllocVm L id vmid μ = some (s2Vttbr L id vmid, buildTables L id μ) :=
  if_neg (Nat.not_le.mpr hid)

theorem buildTables_tables (hid : id < maxVms) (μ : Mem) : Tables L id (buildTables L id μ) := by
  intro o k ho hk
  rw [buildTables_tab hid μ ho hid hk, if_pos rfl]

/-- Once built, tables survive every later call. -/
theorem Tables.buildTables (ht : Tables L id μ) (hid : id < maxVms) (hid' : id' < maxVms) :
    Tables L id (buildTables L id' μ) := by
  intro o k ho hk
  rw [buildTables_tab hid' μ ho hid hk]
  split
  · rename_i h
    rw [h]
  · exact ht o k ho hk

theorem allocVms_spec {calls : List (Nat × BitVec 32)} (hids : ∀ c ∈ calls, c.1 < maxVms)
    (μ : Mem) :
    ∃ μ', allocVms L calls μ = some (calls.map fun c => s2Vttbr L c.1 c.2, μ')
      ∧ (∀ c ∈ calls, Tables L c.1 μ')
      ∧ ∀ id < maxVms, Tables L id μ → Tables L id μ' := by
  induction calls generalizing μ with
  | nil => exact ⟨μ, rfl, by simp, fun _ _ ht => ht⟩
  | cons c calls ih =>
      obtain ⟨id, vmid⟩ := c
      have hid : id < maxVms := hids (id, vmid) List.mem_cons_self
      obtain ⟨μ', hrun, htab, hkeep⟩ :=
        ih (fun c hc => hids c (List.mem_cons_of_mem _ hc)) (buildTables L id μ)
      refine ⟨μ', ?_, ?_, ?_⟩
      · simp only [allocVms, stage2AllocVm_eq hid, Option.bind_some, hrun, Option.map_some,
          List.map_cons]
      · intro c hc
        rcases List.mem_cons.mp hc with rfl | hc
        · exact hkeep id hid (buildTables_tables hid μ)
        · exact htab c hc
      · intro id' hid' ht
        exact hkeep id' hid' (ht.buildTables hid' hid)

end Calls

theorem allocVms_tables {L : S2Layout} {calls : List (Nat × BitVec 32)}
    (hids : ∀ c ∈ calls, c.1 < maxVms) {μ₀ μ : Mem} {vttbrs : List (BitVec 64)}
    (hrun : allocVms L calls μ₀ = some (vttbrs, μ)) {id : Nat} {vmid : BitVec 32}
    {vttbr : BitVec 64} (hmem : ((id, vmid), vttbr) ∈ calls.zip vttbrs) :
    id < maxVms ∧ Tables L id μ ∧ vttbr = s2Vttbr L id vmid := by
  obtain ⟨μ', hrun', htab, -⟩ := allocVms_spec (L := L) hids μ₀
  rw [hrun, Option.some_inj, Prod.mk.injEq] at hrun'
  obtain ⟨rfl, rfl⟩ := hrun'
  rw [← List.map_prod_left_eq_zip] at hmem
  obtain ⟨c, hc, heq⟩ := List.mem_map.mp hmem
  obtain ⟨rfl, rfl⟩ := Prod.mk.inj heq
  exact ⟨hids (id, vmid) hc, htab (id, vmid) hc, rfl⟩

/-- **Stage-2 translation.** After any sequence of calls for ids in range,
each returned `VTTBR_EL2` translates every IPA as intended and faults
everywhere else, carries the VMID passed in, and no call for another id
changes its translation. -/
theorem stage2_translates_as_intended (L : S2Layout) (calls : List (Nat × BitVec 32))
    (hids : ∀ c ∈ calls, c.1 < maxVms) (μ₀ : Mem) :
    ∃ vttbrs μ, allocVms L calls μ₀ = some (vttbrs, μ) ∧ vttbrs.length = calls.length
      ∧ ∀ id vmid vttbr, ((id, vmid), vttbr) ∈ calls.zip vttbrs →
          (∀ ipa, (S2.walk s2Vtcr vttbr μ ipa).toOption = intendedMap L id ipa)
          ∧ (vmid.toNat < 256 → (vttbr.extractLsb' 48 8).toNat = vmid.toNat)
          ∧ ∀ id' vmid' vttbr' μ', id' ≠ id → stage2AllocVm L id' vmid' μ = some (vttbr', μ') →
              ∀ ipa, S2.walk s2Vtcr vttbr μ' ipa = S2.walk s2Vtcr vttbr μ ipa := by
  obtain ⟨μ, hrun, -, -⟩ := allocVms_spec (L := L) hids μ₀
  refine ⟨calls.map fun c => s2Vttbr L c.1 c.2, μ, hrun, List.length_map _, ?_⟩
  intro id vmid vttbr hmem
  obtain ⟨hid, ht, rfl⟩ := allocVms_tables hids hrun hmem
  refine ⟨?_, ?_, ?_⟩
  · intro ipa
    rw [walk_eq hid ht, intendedWalk_toOption]
  · intro hlt
    rw [s2Vttbr_vmid hid, BitVec.toNat_setWidth]
    exact Nat.mod_eq_of_lt hlt
  · intro id' vmid' vttbr' μ' _ halloc ipa
    have hid' : id' < maxVms := by
      by_contra hge
      rw [stage2AllocVm, if_pos (Nat.not_lt.mp hge)] at halloc
      cases halloc
    rw [stage2AllocVm_eq hid', Option.some_inj, Prod.mk.injEq] at halloc
    rw [← halloc.2, walk_eq hid ht, walk_eq hid (ht.buildTables hid hid')]

/-- Both VMs, the second one first: IPA 0x0A000010 of VM 1 is in its own page. -/
theorem stage2_translates_vm1_private :
    ∃ v₁ v₀ μ, allocVms default [(1, 2), (0, 1)] (fun _ => 0) = some ([v₁, v₀], μ)
      ∧ (S2.walk s2Vtcr v₁ μ 0x0A000010).toOption
        = some { pa := 0x40099010, s2ap := 3, memAttr := 0xF, xn := false } := by
  obtain ⟨vttbrs, μ, hrun, hlen, hall⟩ :=
    stage2_translates_as_intended default [(1, 2), (0, 1)] (by decide) fun _ => 0
  obtain ⟨v₁, v₀, rfl⟩ : ∃ v₁ v₀, vttbrs = [v₁, v₀] := by
    match vttbrs, hlen with
    | [v₁, v₀], _ => exact ⟨v₁, v₀, rfl⟩
  refine ⟨v₁, v₀, μ, hrun, ?_⟩
  rw [(hall 1 2 v₁ List.mem_cons_self).1]
  decide

/-! ## Confinement -/

/-- The linker script puts the five objects of each VM into the hypervisor's
image, `[0x40080000, __stack_top)`, which lies in RAM. -/
structure Image (L : S2Layout) where
  stackTop : Nat
  stackTop_le : stackTop ≤ 0x80000000
  objects : ∀ o id, id < maxVms → 0x40080000 ≤ L.base o id ∧ L.base o id + 4096 ≤ stackTop

/-- `pa` lies in the 4 KiB object at `base`. -/
def InPage (base pa : Nat) : Prop := base ≤ pa ∧ pa < base + 4096

instance (base pa : Nat) : Decidable (InPage base pa) := inferInstanceAs (Decidable (_ ∧ _))

theorem InPage.unique {L : S2Layout} {o o' : S2Obj} {id id' pa : Nat} (hid : id < maxVms)
    (hid' : id' < maxVms) (h : InPage (L.base o id) pa) (h' : InPage (L.base o' id') pa) :
    (o, id) = (o', id') := by
  by_contra hne
  have hd := L.disjoint o id o' id' hid hid' hne
  unfold InPage S2Layout.base at h h'
  omega

/-- The three ways an IPA is mapped. -/
theorem intendedMap_cases {L : S2Layout} {id ipa : Nat} {x : S2.Xlat}
    (h : intendedMap L id ipa = some x) :
    (x.pa = ipa ∧ 0x40000000 ≤ ipa ∧ ipa < 0x80000000)
      ∨ (x.pa = ipa ∧ 0x09000000 ≤ ipa ∧ ipa < 0x09200000)
      ∨ (InPage (L.base .privPage id) x.pa ∧ 0x0A000000 ≤ ipa ∧ ipa < 0x0A001000) := by
  unfold intendedMap at h
  split_ifs at h with hram huart hpriv
  · obtain rfl := Option.some.inj h
    exact Or.inl ⟨rfl, hram⟩
  · obtain rfl := Option.some.inj h
    exact Or.inr (Or.inl ⟨rfl, huart⟩)
  · obtain rfl := Option.some.inj h
    refine Or.inr (Or.inr ⟨⟨Nat.le_add_right _ _, ?_⟩, hpriv⟩)
    exact Nat.add_lt_add_left (by omega) _

/-- **What stage 2 confines.** All of RAM is mapped one-to-one into every VM,
so the other VM's private page, the tables and the hypervisor's image are
reachable at their own addresses. No other IPA of VM `i` reaches the other
VM's private page or any table, and none but its own private window reaches
the image. -/
theorem stage2_reaches_only_identity (L : S2Layout) (img : Image L)
    (calls : List (Nat × BitVec 32)) (hids : ∀ c ∈ calls, c.1 < maxVms) (μ₀ μ : Mem)
    (vttbrs : List (BitVec 64)) (hrun : allocVms L calls μ₀ = some (vttbrs, μ))
    (i j : Nat) (hij : i ≠ j) (hj : j < maxVms) (vmid : BitVec 32) (vttbr : BitVec 64)
    (hi : ((i, vmid), vttbr) ∈ calls.zip vttbrs) (ipa : Nat) :
    (0x40000000 ≤ ipa ∧ ipa < 0x80000000 →
      (S2.walk s2Vtcr vttbr μ ipa).toOption
        = some { pa := ipa, s2ap := 3, memAttr := 0xF, xn := false })
    ∧ ∀ x, S2.walk s2Vtcr vttbr μ ipa = .ok x →
        (InPage (L.base .privPage j) x.pa
            ∨ (∃ o id, o ≠ .privPage ∧ id < maxVms ∧ InPage (L.base o id) x.pa) →
          x.pa = ipa ∧ 0x40000000 ≤ ipa ∧ ipa < 0x80000000)
        ∧ (0x40080000 ≤ x.pa ∧ x.pa < img.stackTop →
          (x.pa = ipa ∧ 0x40000000 ≤ ipa ∧ ipa < 0x80000000)
            ∨ (InPage (L.base .privPage i) x.pa ∧ 0x0A000000 ≤ ipa ∧ ipa < 0x0A001000)) := by
  obtain ⟨hilt, ht, rfl⟩ := allocVms_tables hids hrun hi
  rw [walk_eq hilt ht]
  refine ⟨?_, ?_⟩
  · intro hram
    rw [intendedWalk_toOption, intendedMap, if_pos hram]
  · intro x hx
    have hmap : intendedMap L i ipa = some x := by
      rw [← intendedWalk_toOption, hx]
      rfl
    -- an object of the image other than VM `i`'s own page is only met in RAM
    have hobj : ∀ o id, id < maxVms → (o, id) ≠ (.privPage, i) → InPage (L.base o id) x.pa →
        x.pa = ipa ∧ 0x40000000 ≤ ipa ∧ ipa < 0x80000000 := by
      intro o id hid hne hin
      rcases intendedMap_cases hmap with hram | ⟨hpa, huart⟩ | ⟨hpriv, -⟩
      · exact hram
      · have hlo := (img.objects o id hid).1
        unfold InPage at hin
        omega
      · exact absurd (hin.unique hid hilt hpriv) hne
    refine ⟨?_, ?_⟩
    · rintro (hin | ⟨o, id, ho, hid, hin⟩)
      · exact hobj .privPage j hj (fun h => hij (Prod.mk.inj h).2.symm) hin
      · exact hobj o id hid (fun h => ho (Prod.mk.inj h).1) hin
    · intro hin
      rcases intendedMap_cases hmap with hram | ⟨hpa, huart⟩ | hpriv
      · exact Or.inl hram
      · omega
      · exact Or.inr hpriv

/-- An image that holds the default layout. -/
def Image.standard : Image default where
  stackTop := 0x400b0000
  stackTop_le := by decide
  objects := by
    intro o id hid
    unfold maxVms at hid
    obtain rfl | rfl : id = 0 ∨ id = 1 := by omega
    all_goals cases o <;> decide

/-- `sched_init` with `NVCPU = 2`. -/
theorem exists_allocBoth : ∃ μ, allocVms default [(0, 1), (1, 2)] (fun _ => 0)
      = some ([s2Vttbr default 0 1, s2Vttbr default 1 2], μ)
    ∧ Tables default 0 μ := by
  have hids : ∀ c ∈ [((0 : Nat), (1 : BitVec 32)), (1, 2)], c.1 < maxVms := by decide
  obtain ⟨μ, hrun, htab, -⟩ := allocVms_spec (L := default) hids fun _ => 0
  exact ⟨μ, hrun, htab (0, 1) List.mem_cons_self⟩

/-- Both VMs allocated: VM 0 reaches the first byte of its own level 1 table
at its identity IPA, and that is the only way. -/
theorem stage2_reaches_own_l1 :
    ∃ v₀ v₁ μ, allocVms default [(0, 1), (1, 2)] (fun _ => 0) = some ([v₀, v₁], μ)
      ∧ ∀ ipa x, S2.walk s2Vtcr v₀ μ ipa = .ok x → x.pa = 0x40090000 → ipa = 0x40090000 := by
  obtain ⟨μ, hrun, -⟩ := exists_allocBoth
  refine ⟨_, _, μ, hrun, ?_⟩
  intro ipa x hx hpa
  have h := ((stage2_reaches_only_identity default Image.standard [(0, 1), (1, 2)] (by decide)
    (fun _ => 0) μ _ hrun 0 1 (by decide) (by decide) 1 _ List.mem_cons_self ipa).2 x hx).1
    (Or.inr ⟨.l1, 0, by decide, by decide, by rw [hpa]; decide⟩)
  exact h.1 ▸ hpa

/-- Both VMs allocated: under VM 0's tables the address of VM 1's private page
translates to that page, and the address of VM 0's own level 1 table to
that table, readable and writable. -/
theorem stage2_not_confined :
    ∃ v₀ v₁ μ, allocVms default [(0, 1), (1, 2)] (fun _ => 0) = some ([v₀, v₁], μ)
      ∧ (S2.walk s2Vtcr v₀ μ (S2Layout.base default .privPage 1)).toOption
        = some { pa := S2Layout.base default .privPage 1, s2ap := 3, memAttr := 0xF, xn := false }
      ∧ (S2.walk s2Vtcr v₀ μ (S2Layout.base default .l1 0)).toOption
        = some { pa := S2Layout.base default .l1 0, s2ap := 3, memAttr := 0xF, xn := false } := by
  obtain ⟨μ, hrun, ht⟩ := exists_allocBoth
  refine ⟨_, _, μ, hrun, ?_, ?_⟩
  · rw [walk_eq (by decide) ht, intendedWalk_toOption]
    decide
  · rw [walk_eq (by decide) ht, intendedWalk_toOption]
    decide

end ArmHyp
