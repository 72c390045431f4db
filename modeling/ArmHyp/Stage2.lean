import ArmHyp.S2Walk

/-!
# Stage-2 tables (`stage2.c`)

`stage2_global_init` computes the `VTCR_EL2` value and `stage2_alloc_vm`
fills one VM's four tables and seeds its private page. The tables live in
memory at addresses the linker chooses: `S2Layout` is such a choice, with
what the `aligned(4096)` attributes and the linker guarantee as fields.
-/

namespace ArmHyp

/-! ## Descriptor bits -/

def descValid : BitVec 64 := 1#64 <<< 0
def descBlock : BitVec 64 := descValid ||| 0#64 <<< 1
def descTable : BitVec 64 := descValid ||| 1#64 <<< 1
def descPage : BitVec 64 := descValid ||| 1#64 <<< 1

def s2MemDev : BitVec 64 := 0x0#64 <<< 2
def s2MemNormal : BitVec 64 := 0xF#64 <<< 2
def s2ApRw : BitVec 64 := 3#64 <<< 6
def s2ShNsh : BitVec 64 := 0#64 <<< 8
def s2ShIsh : BitVec 64 := 3#64 <<< 8
def s2Af : BitVec 64 := 1#64 <<< 10
def s2Xn : BitVec 64 := 1#64 <<< 54

/-! ## VTCR_EL2 -/

def vtcrT0sz (n : BitVec 64) : BitVec 64 := n &&& 0x3f
def vtcrSl0L1 : BitVec 64 := 1#64 <<< 6
def vtcrIrgn0Wbwa : BitVec 64 := 1#64 <<< 8
def vtcrOrgn0Wbwa : BitVec 64 := 1#64 <<< 10
def vtcrSh0Ish : BitVec 64 := 3#64 <<< 12
def vtcrTg0_4k : BitVec 64 := 0#64 <<< 14
def vtcrPs40bit : BitVec 64 := 2#64 <<< 16

/-- The value `stage2_global_init` programs. -/
def s2Vtcr : BitVec 64 :=
  vtcrT0sz 32 ||| vtcrSl0L1 ||| vtcrIrgn0Wbwa ||| vtcrOrgn0Wbwa ||| vtcrSh0Ish ||| vtcrTg0_4k
    ||| vtcrPs40bit

/-! ## Per-VM storage -/

/-- `MAX_VMS`. -/
def maxVms : Nat := 2

/-- The five per-VM objects of `stage2.c`, 4096 bytes each. -/
inductive S2Obj where
  | l1 | l2Low | l3Gic | l3Priv | privPage
deriving DecidableEq, Repr

/-- Where the linker put `s2_l1[id]`, ..., `vm_priv_page[id]`. -/
structure S2Layout where
  addr : S2Obj → Nat → BitVec 64
  aligned : ∀ o id, id < maxVms → (addr o id).toNat % 4096 = 0
  below : ∀ o id, id < maxVms → (addr o id).toNat < 2 ^ 40
  disjoint : ∀ o id o' id', id < maxVms → id' < maxVms → (o, id) ≠ (o', id') →
    (addr o id).toNat + 4096 ≤ (addr o' id').toNat
      ∨ (addr o' id').toNat + 4096 ≤ (addr o id).toNat

namespace S2Layout

/-- Base address of an object, as memory index. -/
def base (L : S2Layout) (o : S2Obj) (id : Nat) : Nat := (L.addr o id).toNat

/-- One layout: the objects one after the other, as `stage2.c` declares them. -/
instance : Inhabited S2Layout where
  default :=
    { addr := fun o id => BitVec.ofNat 64 (0x40090000 + 0x1000 * (2 * o.ctorIdx + id % 2))
      aligned := by
        intro o id _
        cases o <;> simp only [S2Obj.ctorIdx, BitVec.toNat_ofNat] <;> omega
      below := by
        intro o id _
        cases o <;> simp only [S2Obj.ctorIdx, BitVec.toNat_ofNat] <;> omega
      disjoint := by
        intro o id o' id' hid hid' hne
        unfold maxVms at hid hid'
        have hne' : 2 * o.ctorIdx + id ≠ 2 * o'.ctorIdx + id' := by
          intro he
          apply hne
          cases o <;> cases o' <;> simp only [S2Obj.ctorIdx] at he <;> first
            | omega
            | (congr 1; omega)
        have hb : o.ctorIdx < 5 := by cases o <;> decide
        have hb' : o'.ctorIdx < 5 := by cases o' <;> decide
        simp only [BitVec.toNat_ofNat]
        omega }

end S2Layout

/-! ## stage2_alloc_vm -/

/-- `uart_base`, `gic_base` and `priv_ipa`. -/
def uartBase : BitVec 64 := 0x09000000
def gicBase : BitVec 64 := 0x08000000
def privIpa : BitVec 64 := 0x0A000000

/-- `(base >> 21) & 0x1ff`. -/
def l2Index (base : BitVec 64) : Nat := (base >>> 21 &&& 0x1ff).toNat

/-- The loop that zeroes entry `i` of all four tables, for `i < n`. -/
def zeroTables (L : S2Layout) (id : Nat) : Nat → Mem → Mem
  | 0, μ => μ
  | n + 1, μ =>
      let μ := zeroTables L id n μ
      let μ := μ.setEntry (L.base .l1 id) n 0
      let μ := μ.setEntry (L.base .l2Low id) n 0
      let μ := μ.setEntry (L.base .l3Gic id) n 0
      μ.setEntry (L.base .l3Priv id) n 0

/-- The UART block descriptor: 2 MiB, Device, execute-never. -/
def uartDesc : BitVec 64 :=
  uartBase &&& ~~~(1#64 <<< 21 - 1#64)
    ||| descBlock ||| s2Af ||| s2ShNsh ||| s2ApRw ||| s2MemDev ||| s2Xn

/-- The 1 GiB identity block for guest RAM. -/
def ramDesc : BitVec 64 :=
  0x40000000#64 ||| descBlock ||| s2Af ||| s2ShIsh ||| s2ApRw ||| s2MemNormal

/-- `pg_norm`. -/
def pgNorm : BitVec 64 := descPage ||| s2Af ||| s2ShIsh ||| s2ApRw ||| s2MemNormal

/-- The memory `stage2_alloc_vm` leaves: the tables of VM `id`, and the byte
that seeds its private page. -/
def buildTables (L : S2Layout) (id : Nat) (μ : Mem) : Mem :=
  let μ := zeroTables L id 512 μ
  let μ := μ.setEntry (L.base .l2Low id) (l2Index uartBase) uartDesc
  -- the GIC window: an empty level-3 table, so that every access faults
  let μ := μ.setEntry (L.base .l2Low id) (l2Index gicBase) (L.addr .l3Gic id ||| descTable)
  let μ := μ.setEntry (L.base .l1 id) 0 (L.addr .l2Low id ||| descTable)
  let μ := μ.setEntry (L.base .l1 id) 1 ramDesc
  let μ := μ.setEntry (L.base .l3Priv id) 0 (L.addr .privPage id ||| pgNorm)
  let μ := μ.setEntry (L.base .l2Low id) (l2Index privIpa) (L.addr .l3Priv id ||| descTable)
  Function.update μ (L.base .privPage id) (BitVec.ofNat 8 (0x41 + id))

/-- The `VTTBR_EL2` value for VM `id`. -/
def s2Vttbr (L : S2Layout) (id : Nat) (vmid : BitVec 32) : BitVec 64 :=
  L.addr .l1 id ||| vmid.setWidth 64 <<< 48

/-- `stage2_alloc_vm`: the value returned and the memory after the call, or
`none` for an out-of-range `id`, where the source spins forever. -/
def stage2AllocVm (L : S2Layout) (id : Nat) (vmid : BitVec 32) (μ : Mem) :
    Option (BitVec 64 × Mem) :=
  if maxVms ≤ id then none else some (s2Vttbr L id vmid, buildTables L id μ)

end ArmHyp
