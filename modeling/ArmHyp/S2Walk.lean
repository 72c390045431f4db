import ArmHyp.ByteMem

/-!
# The VMSAv8-64 stage-2 table walk, 4 KiB granule

The architecture's side of stage-2 translation: what the MMU does with a
`VTCR_EL2`, a `VTTBR_EL2`, the descriptors in memory and an intermediate
physical address. `VTCR_EL2` supplies the input size (`T0SZ`), the start
level (`SL0`) and the output size (`PS`); the walk then reads one
descriptor per level until it meets a block, a page or a fault.

Levels are counted by the number `r` of levels still below: a lookup with
`r` levels below resolves IPA bits `12 + 9 r` and up, so `r = 0` is level 3
and `r = 2` is level 1. No definition here refers to any particular table.
-/

namespace ArmHyp

namespace S2

inductive Fault where
  | translation
  | accessFlag
  | addressSize
  | unsupportedGranule
deriving DecidableEq, Repr

/-- A successful translation with the attributes of its leaf descriptor. -/
structure Xlat where
  pa : Nat
  /-- `S2AP`: bit 0 read, bit 1 write. -/
  s2ap : BitVec 2
  memAttr : BitVec 4
  xn : Bool
deriving DecidableEq, Repr

/-- `VTCR_EL2.PS` as a number of output address bits. -/
def paBits (ps : BitVec 3) : Nat :=
  match ps.toNat with
  | 0 => 32
  | 1 => 36
  | 2 => 40
  | 3 => 42
  | 4 => 44
  | _ => 48

/-- Levels below the start level, from `VTCR_EL2.SL0` (4 KiB granule). -/
def startBelow (sl0 : BitVec 2) : Nat :=
  match sl0.toNat with
  | 0 => 1
  | 1 => 2
  | _ => 3

/-- The next-level table address of a table descriptor, bits 47:12. -/
def tableAddr (d : BitVec 64) : Nat := (d.extractLsb' 12 36).toNat * 2 ^ 12

/-- The output of a block or page descriptor with `r` levels below it. -/
def leaf (pab r : Nat) (d : BitVec 64) (ipa : Nat) : Except Fault Xlat :=
  let shift := 12 + 9 * r
  let base := (d.extractLsb' shift (48 - shift)).toNat * 2 ^ shift
  if d.getLsbD 10 = false then .error .accessFlag
  else if 2 ^ pab ≤ base then .error .addressSize
  else .ok
    { pa := base + ipa % 2 ^ shift
      s2ap := d.extractLsb' 6 2
      memAttr := d.extractLsb' 2 4
      xn := d.getLsbD 54 }

/-- One lookup: the descriptor at address `a`, with `r` levels below. -/
def lookup (μ : Mem) (pab ipa : Nat) : Nat → Nat → Except Fault Xlat
  | 0, a =>
      let d := μ.read64 a
      if d.extractLsb' 0 2 = 3 then leaf pab 0 d ipa else .error .translation
  | r + 1, a =>
      let d := μ.read64 a
      if d.getLsbD 0 = false then .error .translation
      else if d.getLsbD 1 then
        let next := tableAddr d
        if 2 ^ pab ≤ next then .error .addressSize
        else lookup μ pab ipa r (next + 8 * (ipa / 2 ^ (12 + 9 * r) % 512))
      else if r + 1 = 3 then .error .translation   -- no level 0 blocks
      else leaf pab (r + 1) d ipa

/-- The whole walk. The initial table has one entry for each value of the
IPA bits above the start level's shift, and `VTTBR_EL2.BADDR` is aligned to
its size. -/
def walk (vtcr vttbr : BitVec 64) (μ : Mem) (ipa : Nat) : Except Fault Xlat :=
  let ipaBits := 64 - (vtcr.extractLsb' 0 6).toNat
  let r := startBelow (vtcr.extractLsb' 6 2)
  let pab := paBits (vtcr.extractLsb' 16 3)
  let shift := 12 + 9 * r
  let align := 3 + (ipaBits - shift)
  let base := (vttbr.extractLsb' 0 48).toNat / 2 ^ align * 2 ^ align
  if vtcr.extractLsb' 14 2 ≠ 0 then .error .unsupportedGranule
  else if 2 ^ ipaBits ≤ ipa then .error .translation
  else lookup μ pab ipa r (base + 8 * (ipa / 2 ^ shift))

/-! ## Lookups by descriptor kind -/

section

variable {μ : Mem} {pab ipa r a : Nat}

theorem lookup_invalid (h : (μ.read64 a).getLsbD 0 = false) :
    lookup μ pab ipa r a = .error .translation := by
  cases r with
  | zero =>
      have hne : (μ.read64 a).extractLsb' 0 2 ≠ 3 := fun h3 => by
        have hbit := congrArg (·.getLsbD 0) h3
        simp only [BitVec.getLsbD_extractLsb', Nat.zero_add, h, Bool.and_false] at hbit
        exact absurd hbit (by decide)
      simp only [lookup, if_neg hne]
  | succ r => simp only [lookup, h, if_true]

theorem lookup_table (h0 : (μ.read64 a).getLsbD 0 = true) (h1 : (μ.read64 a).getLsbD 1 = true)
    (hpa : tableAddr (μ.read64 a) < 2 ^ pab) :
    lookup μ pab ipa (r + 1) a
      = lookup μ pab ipa r (tableAddr (μ.read64 a) + 8 * (ipa / 2 ^ (12 + 9 * r) % 512)) := by
  simp only [lookup, h0, h1, if_true, Bool.true_eq_false, if_false, Nat.not_le.mpr hpa]

theorem lookup_block (h0 : (μ.read64 a).getLsbD 0 = true) (h1 : (μ.read64 a).getLsbD 1 = false)
    (hr : r + 1 ≠ 3) : lookup μ pab ipa (r + 1) a = leaf pab (r + 1) (μ.read64 a) ipa := by
  simp only [lookup, h0, h1, Bool.true_eq_false, Bool.false_eq_true, if_false, if_neg hr]

theorem lookup_page (h : (μ.read64 a).extractLsb' 0 2 = 3) :
    lookup μ pab ipa 0 a = leaf pab 0 (μ.read64 a) ipa := by
  simp only [lookup, if_pos h]

end

end S2

end ArmHyp
