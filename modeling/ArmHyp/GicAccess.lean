import Mathlib.Algebra.Group.Int.Defs
import ArmHyp.TickLive

/-!
# Accesses to the GIC window: width, extension, alignment

A guest load or store in the GIC window has a size, a register and, for a
load, an extension, all in the syndrome. `mmioWith` is such an access with
the store datum and the extension left open: the architecture's instance
takes the low bits of `Rt` and extends as the syndrome says (`refMmio`),
the one of `vgic_mmio` takes the low word and zero-extends
(`vgicMmio_eq`). The two halves of `vgic_mmio` differ in what that misses:
the distributor switches on the size, the CPU interface does not look at
it, and neither looks at the sign.

The distributor half issues the access at EL2, at the address and size the
guest chose; `mmioAccesses` lists what goes over the bus.
-/

namespace ArmHyp

open Machine

/-! ## The reference -/

/-- `ISS.SSE`: sign-extend the datum. -/
def issSse (iss : BitVec 64) : Bool := iss.getLsbD 21

/-- `ISS.SF`: the register is 64 bits wide. -/
def issSf (iss : BitVec 64) : Bool := iss.getLsbD 15

/-- Width of an access in bits. -/
def accessBits (sas : Nat) : Nat := 8 * 2 ^ sas

/-- The low `w` bits of a register as a load leaves them in `Rt`. -/
def extended (w : Nat) (sse sf : Bool) (v : BitVec 32) : BitVec 64 :=
  if sse then
    if sf then (v.setWidth w).signExtend 64 else ((v.setWidth w).signExtend 32).setWidth 64
  else (v.setWidth w).setWidth 64

/-- A load of size `sas`. -/
def Gicd.load (d : Gicd) (sas off : Nat) : BitVec 32 :=
  match sas with
  | 0 => (d.read8 off).setWidth 32
  | 1 => (d.read16 off).setWidth 32
  | _ => d.read32 off

/-- `ipa` is in the distributor's half of the window. -/
def InGicd (ipa : BitVec 64) : Prop := gicdEmuBase ≤ ipa ∧ ipa < gicdEmuLimit

instance inGicd_decidable (ipa : BitVec 64) : Decidable (InGicd ipa) :=
  inferInstanceAs (Decidable (_ ∧ _))

/-- Offsets into the two halves. -/
def gicdOff (ipa : BitVec 64) : Nat := (ipa - gicdEmuBase).toNat

def giccOff (ipa : BitVec 64) : BitVec 32 := (ipa - giccEmuBase).setWidth 32

/-- The access, with the store datum `val` and the extension `ext`. -/
def mmioWith (val : BitVec 32) (ext : BitVec 32 → BitVec 64) (ipa iss : BitVec 64)
    (m : Machine) : Machine :=
  let id := m.currentVcpu.id
  if issWnr iss then
    if InGicd ipa then { m with gicd := m.gicd.store (issSas iss) (gicdOff ipa) val }
    else m.onVgic id (writeReg (giccOff ipa) val)
  else
    let (v, m) :=
      if InGicd ipa then (m.gicd.load (issSas iss) (gicdOff ipa), m)
      else
        let (v, c) := readReg (giccOff ipa) (m.cpuIf id)
        (v, m.setCpuIf id c)
    if issSrt iss = 31 then m else m.setX (issSrt iss) (ext v)

/-- The low bits of `Rt` that a store of size `sas` supplies. -/
def storeDatum (sas : Nat) (m : Machine) (srt : Nat) : BitVec 32 :=
  ((if srt = 31 then 0 else m.tf.x srt).setWidth (accessBits sas)).setWidth 32

/-- What follows every access to the window. -/
def reasserted (m : Machine) : Machine := reassertPl011Rx (reassertHtimerPpi m)

/-- **Reference.** The access as the architecture defines it, with the
registers behaving as `read_reg`, `write_reg` and the distributor do. -/
def refMmio (ipa iss : BitVec 64) (m : Machine) : Machine :=
  reasserted (mmioWith (storeDatum (issSas iss) m (issSrt iss))
    (extended (accessBits (issSas iss)) (issSse iss) (issSf iss)) ipa iss m)

/-! ## The code -/

theorem gicdForward_eq (off sas : Nat) (wnr : Bool) (val : BitVec 32) (m : Machine) :
    gicdForward off sas wnr val m =
      if wnr then (val, { m with gicd := m.gicd.store sas off val })
      else (m.gicd.load sas off, m) := by
  rcases sas with _ | _ | sas <;> cases wnr <;> rfl

/-- `vgic_mmio` is the access with the low word of `Rt` and zero extension. -/
theorem vgicMmio_eq (m : Machine) {ipa iss : BitVec 64} (hisv : issIsv iss = true) :
    vgicMmio ipa iss m = (true, reasserted
      (mmioWith (storeVal m (issSrt iss)) (fun v => v.setWidth 64) ipa iss m)) := by
  simp only [vgicMmio, hisv, Bool.true_eq_false, if_false, mmioWith, reasserted, gicdForward_eq]
  cases issWnr iss with
  | true =>
      simp only [if_true, Bool.true_eq_false, false_and, if_false]
      by_cases hd : InGicd ipa
      · rw [if_pos hd, if_pos (show gicdEmuBase ≤ ipa ∧ ipa < gicdEmuLimit from hd)]
        rfl
      · rw [if_neg hd, if_neg (show ¬(gicdEmuBase ≤ ipa ∧ ipa < gicdEmuLimit) from hd)]
        rfl
  | false =>
      simp only [Bool.false_eq_true, if_false, true_and, ne_eq, ite_not]
      by_cases hd : InGicd ipa
      · rw [if_pos hd, if_pos (show gicdEmuBase ≤ ipa ∧ ipa < gicdEmuLimit from hd)]
        rfl
      · rw [if_neg hd, if_neg (show ¬(gicdEmuBase ≤ ipa ∧ ipa < gicdEmuLimit) from hd)]
        rfl

/-! ## Extension -/

section Extension

variable (v : BitVec 32) {w : Nat}

theorem setWidth_eq_zeroExtend_iff (hw : w ≤ 32) :
    v.setWidth 64 = (v.setWidth w).setWidth 64 ↔ v.toNat < 2 ^ w := by
  have hv : v.toNat < 2 ^ 64 := Nat.lt_of_lt_of_le v.isLt (by decide)
  have hpow : 2 ^ w ≤ 2 ^ 64 := Nat.pow_le_pow_right (by decide) (by omega)
  have hmod : v.toNat % 2 ^ w < 2 ^ 64 := Nat.lt_of_lt_of_le (Nat.mod_lt _ (Nat.two_pow_pos w)) hpow
  rw [BitVec.toNat_eq, BitVec.toNat_setWidth, BitVec.toNat_setWidth, BitVec.toNat_setWidth,
    Nat.mod_eq_of_lt hv, Nat.mod_eq_of_lt hmod, eq_comm]
  exact Nat.mod_eq_iff_lt (Nat.two_pow_pos w).ne'

theorem setWidth_eq_signExtend64_iff (hpos : 0 < w) (hw : w ≤ 32) :
    v.setWidth 64 = (v.setWidth w).signExtend 64 ↔ v.toNat < 2 ^ (w - 1) := by
  have hv : v.toNat < 2 ^ 32 := v.isLt
  have hpow : 2 ^ w ≤ 2 ^ 32 := Nat.pow_le_pow_right (by decide) hw
  have hhalf : 2 ^ w = 2 * 2 ^ (w - 1) := by
    rw [← Nat.pow_succ', Nat.succ_eq_add_one, Nat.sub_add_cancel hpos]
  have hlt : v.toNat % 2 ^ w < 2 ^ w := Nat.mod_lt _ (Nat.two_pow_pos w)
  have hmsb : (v.setWidth w).msb = true ↔ 2 ^ (w - 1) ≤ v.toNat % 2 ^ w := by
    rw [BitVec.msb_eq_decide, decide_eq_true_eq, BitVec.toNat_setWidth]
  rw [BitVec.toNat_eq, BitVec.toNat_signExtend, BitVec.toNat_setWidth, BitVec.toNat_setWidth,
    BitVec.toNat_setWidth, Nat.mod_eq_of_lt (show v.toNat < 2 ^ 64 by omega),
    Nat.mod_eq_of_lt (show v.toNat % 2 ^ w < 2 ^ 64 by omega)]
  by_cases hsign : (v.setWidth w).msb = true
  · -- the extension is above every 32-bit value
    rw [if_pos hsign]
    have hge := hmsb.mp hsign
    refine iff_of_false (by omega) fun hsmall => ?_
    rw [Nat.mod_eq_of_lt (by omega)] at hge
    omega
  · rw [if_neg hsign, Nat.add_zero]
    have hsmall : v.toNat % 2 ^ w < 2 ^ (w - 1) := Nat.lt_of_not_le fun h => hsign (hmsb.mpr h)
    constructor
    · intro h
      omega
    · intro h
      rw [Nat.mod_eq_of_lt (by omega)]

theorem setWidth_eq_signExtend32_iff (hpos : 0 < w) (hw : w ≤ 32) :
    v.setWidth 64 = ((v.setWidth w).signExtend 32).setWidth 64
      ↔ -2 ^ (w - 1) ≤ v.toInt ∧ v.toInt < 2 ^ (w - 1) := by
  have hinj : v.setWidth 64 = ((v.setWidth w).signExtend 32).setWidth 64
      ↔ v = (v.setWidth w).signExtend 32 := by
    constructor
    · intro h
      have hback := congrArg (BitVec.setWidth 32) h
      rwa [BitVec.setWidth_setWidth_of_le _ (by decide), BitVec.setWidth_setWidth_of_le _ (by decide),
        BitVec.setWidth_eq, BitVec.setWidth_eq] at hback
    · intro h
      exact congrArg (BitVec.setWidth 64) h
  have hlow : (v.setWidth w).toInt = v.toInt.bmod (2 ^ w) := by
    rw [BitVec.toInt_setWidth, BitVec.toInt_eq_toNat_bmod,
      Int.bmod_bmod_of_dvd (Nat.pow_dvd_pow 2 hw)]
  rw [hinj, ← BitVec.toInt_inj, BitVec.toInt_signExtend_of_le hw]
  constructor
  · intro h
    have hle := BitVec.le_toInt (v.setWidth w)
    have hlt := BitVec.toInt_lt (x := v.setWidth w)
    rw [← h] at hle hlt
    exact ⟨hle, hlt⟩
  · rintro ⟨hle, hlt⟩
    have hhalf : ((2 ^ w : Nat) : Int) = 2 * 2 ^ (w - 1) := by
      rw [← Int.pow_succ', Nat.sub_add_cancel hpos]
      exact Int.natCast_pow 2 w
    rw [hlow, eq_comm]
    refine Int.bmod_eq_of_le ?_ ?_
    · omega
    · omega

/-- The 32-bit value `v` is what a load of `w` bits should leave, once it is
zero-extended. -/
def Fits (w : Nat) (sse sf : Bool) (v : BitVec 32) : Prop :=
  if sse then
    if sf then v.toNat < 2 ^ (w - 1) else -2 ^ (w - 1) ≤ v.toInt ∧ v.toInt < 2 ^ (w - 1)
  else v.toNat < 2 ^ w

instance fits_decidable (w : Nat) (sse sf : Bool) : Decidable (Fits w sse sf v) :=
  inferInstanceAs (Decidable (ite _ _ _))

theorem fits_iff (sse sf : Bool) (hpos : 0 < w) (hw : w ≤ 32) :
    v.setWidth 64 = extended w sse sf v ↔ Fits w sse sf v := by
  cases sse with
  | false => exact setWidth_eq_zeroExtend_iff v hw
  | true =>
      cases sf with
      | false => exact setWidth_eq_signExtend32_iff v hpos hw
      | true => exact setWidth_eq_signExtend64_iff v hpos hw

end Extension

/-! ## Stores to the CPU interface -/

section Eoir

theorem accessBits_le {sas : Nat} (h : sas ≤ 2) : accessBits sas ≤ 32 := by
  have hpow : 2 ^ sas ≤ 2 ^ 2 := Nat.pow_le_pow_right (by decide) h
  unfold accessBits
  omega

theorem storeDatum_eq {sas : Nat} (hsas : sas ≤ 2) (m : Machine) (srt : Nat) :
    storeDatum sas m srt = ((storeVal m srt).setWidth (accessBits sas)).setWidth 32 := by
  have hw := accessBits_le hsas
  unfold storeDatum storeVal
  split
  · simp
  · rw [BitVec.setWidth_setWidth_of_le _ hw]

/-- A store of size `sas` takes the low bits of its datum. -/
theorem store_datum (d : Gicd) {sas : Nat} (hsas : sas ≤ 2) (off : Nat) (m : Machine) (srt : Nat) :
    d.store sas off (storeDatum sas m srt) = d.store sas off (storeVal m srt) := by
  rw [storeDatum_eq hsas]
  obtain rfl | rfl | rfl : sas = 0 ∨ sas = 1 ∨ sas = 2 := by omega
  · exact congrArg (d.write8 off) (by rw [BitVec.setWidth_setWidth_of_le _ (by decide)]; rfl)
  · exact congrArg (d.write16 off) (by rw [BitVec.setWidth_setWidth_of_le _ (by decide)]; rfl)
  · exact congrArg (d.write32 off) rfl

/-- `write_reg` looks at ten bits of the value, and only `GICC_EOIR` at more
than eight. -/
theorem writeReg_low10 (off val : BitVec 32) (c : CpuIf) :
    writeReg off (val &&& 0x3FF) c = writeReg off val c := by
  simp only [writeReg, BitVec.and_assoc]
  rfl

theorem writeReg_low8 {off : BitVec 32} (h : off ≠ 0x10) (val : BitVec 32) (c : CpuIf) :
    writeReg off (val &&& 0xFF) c = writeReg off val c := by
  simp only [writeReg, if_neg h, BitVec.and_assoc]
  rfl

/-- Writing INTID `n` to `GICC_EOIR` changes nothing. -/
def Vgic.EoirIdle (v : Vgic) (n : BitVec 32) : Prop :=
  (n = v.active → v.active = noIntid) ∧ ¬ v.Defers n

instance eoirIdle_decidable (v : Vgic) (n : BitVec 32) : Decidable (v.EoirIdle n) :=
  inferInstanceAs (Decidable (_ ∧ _))

theorem eoirWrite_idle {c : CpuIf} {n : BitVec 32} (h : c.v.EoirIdle n) : eoirWrite n c = c := by
  have hact : (if n = c.v.active then noIntid else c.v.active) = c.v.active := by
    split
    · rename_i hn
      exact (h.1 hn).symm
    · rfl
  simp only [eoirWrite, hact, if_neg h.2]

/-- Of two INTIDs with the same effect, one that is not the other is idle. -/
theorem EoirIdle.of_eq {c : CpuIf} {n n' : BitVec 32} (hne : n ≠ n')
    (h : eoirWrite n c = eoirWrite n' c) : c.v.EoirIdle n := by
  constructor
  · intro hn
    have hact := congrArg (fun c : CpuIf => c.v.active) h
    simp only [eoirWrite, if_pos hn] at hact
    rw [if_neg fun hn' => hne (hn.trans hn'.symm)] at hact
    exact hact.symm
  · intro hd
    have hhas := congrArg (fun c : CpuIf => c.v.hasPhysIar) h
    simp only [eoirWrite, if_pos hd] at hhas
    rw [if_neg fun hd' => hne (hd.2.symm.trans hd'.2)] at hhas
    exact hd.1 hhas.symm

theorem eoirWrite_eq_iff {c : CpuIf} {n n' : BitVec 32} :
    eoirWrite n c = eoirWrite n' c ↔ n = n' ∨ c.v.EoirIdle n ∧ c.v.EoirIdle n' := by
  constructor
  · intro h
    by_cases hne : n = n'
    · exact Or.inl hne
    · exact Or.inr ⟨EoirIdle.of_eq hne h, EoirIdle.of_eq (Ne.symm hne) h.symm⟩
  · rintro (rfl | ⟨h, h'⟩)
    · rfl
    · rw [eoirWrite_idle h, eoirWrite_idle h']

/-- A byte store of the low byte of `x` to `GICC_EOIR` does what a store of
`x` does: bits 9:8 are clear, or both INTIDs are idle. -/
def Vgic.EoirByteOk (v : Vgic) (x : BitVec 32) : Prop :=
  x &&& 0x3FF = x &&& 0xFF ∨ v.EoirIdle (x &&& 0x3FF) ∧ v.EoirIdle (x &&& 0xFF)

instance eoirByteOk_decidable (v : Vgic) (x : BitVec 32) : Decidable (v.EoirByteOk x) :=
  inferInstanceAs (Decidable (_ ∨ _))

theorem writeReg_datum_iff {sas : Nat} (hsas : sas ≤ 2) (off : BitVec 32) (m : Machine)
    (srt : Nat) (c : CpuIf) :
    writeReg off (storeVal m srt) c = writeReg off (storeDatum sas m srt) c
      ↔ (off = 0x10 → sas = 0 → c.v.EoirByteOk (storeVal m srt)) := by
  rw [storeDatum_eq hsas]
  obtain rfl | hpos : sas = 0 ∨ 0 < sas := by omega
  · have hdatum : ((storeVal m srt).setWidth (accessBits 0)).setWidth 32 = storeVal m srt &&& 0xFF :=
      BitField.low_bits_eq _ 8
    rw [hdatum]
    by_cases hoff : off = 0x10
    · subst hoff
      have hlow : storeVal m srt &&& 0xFF &&& 0x3FF = storeVal m srt &&& 0xFF := by
        rw [BitVec.and_assoc]
        rfl
      rw [writeReg_eoir_eq, writeReg_eoir_eq, hlow, eoirWrite_eq_iff]
      exact ⟨fun h _ _ => h, fun h => h rfl rfl⟩
    · exact iff_of_true (writeReg_low8 hoff _ c).symm fun h => absurd h hoff
  · refine iff_of_true ?_ fun _ h => absurd h (by omega)
    rw [← writeReg_low10 off (storeVal m srt), ← writeReg_low10 off (BitVec.setWidth 32 _)]
    refine congrArg (writeReg off · c) ?_
    obtain rfl | rfl : sas = 1 ∨ sas = 2 := by omega
    · rw [BitField.low_bits_eq _ (accessBits 1), BitVec.and_assoc]
      rfl
    · rfl

end Eoir

/-! ## When the two agree -/

/-- What the register at offset `off` of the CPU interface holds. -/
def giccContents (v : Vgic) (off : BitVec 32) : BitVec 32 :=
  if off = 0x00 then v.ctlr
  else if off = 0x04 then v.pmr
  else if off = 0x08 then v.bpr
  else if off = 0x0C ∨ off = 0x18 then lowestPending v.pendingMask
  else if off = 0xFC then 0x0200143B
  else 0

theorem readReg_contents (off : BitVec 32) (c : CpuIf) :
    (readReg off c).1 = giccContents c.v off := by
  have hpend : intidRead (MinSet.top c.v.pending) = lowestPending c.v.pendingMask :=
    (lowestPending_eq c.v.pendingMask).symm
  unfold giccContents
  by_cases hiar : off = 0x0C
  · subst hiar
    rw [readReg_iar_val, hpend]
    rfl
  by_cases hhppir : off = 0x18
  · subst hhppir
    rw [readReg_hppir, hpend]
    rfl
  simp only [readReg, hiar, hhppir, or_self, if_false, apply_ite Prod.fst]
  by_cases hrpr : off = 0x14
  · subst hrpr
    rfl
  · rw [if_neg hrpr]

/-- What the register at `ipa` holds, as a load of the syndrome's size reads it. -/
def windowContents (m : Machine) (ipa iss : BitVec 64) : BitVec 32 :=
  if InGicd ipa then m.gicd.load (issSas iss) (gicdOff ipa)
  else giccContents (m.vgics m.currentVcpu.id) (giccOff ipa)

/-- The accesses `vgic_mmio` gets right. A store: all but a byte store to
`GICC_EOIR` whose bits 9:8 matter. A load: what the register holds fits the
access. -/
def WidthOk (m : Machine) (ipa iss : BitVec 64) : Prop :=
  if issWnr iss then
    ¬ InGicd ipa → giccOff ipa = 0x10 → issSas iss = 0 →
      (m.vgics m.currentVcpu.id).EoirByteOk (storeVal m (issSrt iss))
  else
    issSrt iss = 31
      ∨ Fits (accessBits (issSas iss)) (issSse iss) (issSf iss) (windowContents m ipa iss)

instance widthOk_decidable (m : Machine) (ipa iss : BitVec 64) : Decidable (WidthOk m ipa iss) :=
  inferInstanceAs (Decidable (ite _ _ _))

theorem cpuIf_reasserted (m : Machine) (id : Nat) : (reasserted m).cpuIf id = m.cpuIf id := rfl

theorem tf_reasserted (m : Machine) : (reasserted m).tf = m.tf := rfl

section Agree

variable {m : Machine} {ipa iss : BitVec 64}

theorem mmioWith_store_iff (hsas : issSas iss ≤ 2) (hwnr : issWnr iss = true)
    (ext ext' : BitVec 32 → BitVec 64) :
    reasserted (mmioWith (storeVal m (issSrt iss)) ext ipa iss m)
        = reasserted (mmioWith (storeDatum (issSas iss) m (issSrt iss)) ext' ipa iss m)
      ↔ WidthOk m ipa iss := by
  simp only [mmioWith, WidthOk, hwnr, if_true]
  by_cases hd : InGicd ipa
  · simp only [if_pos hd, store_datum _ hsas]
    exact iff_of_true trivial fun h => absurd hd h
  · simp only [if_neg hd]
    have hiff := writeReg_datum_iff hsas (giccOff ipa) m (issSrt iss) (m.cpuIf m.currentVcpu.id)
    constructor
    · intro h _
      have hcpu := congrArg (fun m' : Machine => m'.cpuIf m.currentVcpu.id) h
      simp only [cpuIf_reasserted] at hcpu
      refine hiff.mp ?_
      simpa only [onVgic, cpuIf, setCpuIf, Function.update_self] using hcpu
    · intro h
      simp only [onVgic, hiff.mpr (h hd)]

/-- A load, apart from the extension of its result. -/
theorem mmioWith_load (m : Machine) (ipa : BitVec 64) (hwnr : issWnr iss = false) :
    ∃ m' : Machine, ∀ (val : BitVec 32) (ext : BitVec 32 → BitVec 64),
      mmioWith val ext ipa iss m
        = if issSrt iss = 31 then m' else m'.setX (issSrt iss) (ext (windowContents m ipa iss)) := by
  by_cases hd : InGicd ipa
  · refine ⟨m, fun val ext => ?_⟩
    simp only [mmioWith, hwnr, Bool.false_eq_true, if_false, if_pos hd, windowContents]
  · refine ⟨m.setCpuIf m.currentVcpu.id
      (readReg (giccOff ipa) (m.cpuIf m.currentVcpu.id)).2, fun val ext => ?_⟩
    simp only [mmioWith, hwnr, Bool.false_eq_true, if_false, if_neg hd, windowContents,
      readReg_contents]
    rfl

theorem mmioWith_load_iff (hsas : issSas iss ≤ 2) (hwnr : issWnr iss = false)
    (val val' : BitVec 32) :
    reasserted (mmioWith val (fun v => v.setWidth 64) ipa iss m)
        = reasserted (mmioWith val'
            (extended (accessBits (issSas iss)) (issSse iss) (issSf iss)) ipa iss m)
      ↔ WidthOk m ipa iss := by
  obtain ⟨m', hload⟩ := mmioWith_load m ipa hwnr
  have hw : 0 < accessBits (issSas iss) := Nat.mul_pos (by decide) (Nat.two_pow_pos _)
  rw [hload, hload, WidthOk, hwnr]
  simp only [Bool.false_eq_true, if_false]
  by_cases h31 : issSrt iss = 31
  · rw [if_pos h31, if_pos h31]
    exact iff_of_true rfl (Or.inl h31)
  · rw [if_neg h31, if_neg h31, or_iff_right h31, ← fits_iff _ _ _ hw (accessBits_le hsas)]
    constructor
    · intro h
      have hx := congrArg (fun m : Machine => m.tf.x (issSrt iss)) h
      simp only [tf_reasserted, setX, TrapFrame.x_setX_self] at hx
      exact hx
    · intro h
      rw [h]

end Agree

/-- **Width and extension.** `vgic_mmio` performs an access as the
architecture defines it exactly if `WidthOk` holds: it ignores the size in
the CPU interface and the sign everywhere. -/
theorem gic_access_width_iff (m : Machine) (ipa iss : BitVec 64) (hisv : issIsv iss = true)
    (hsas : issSas iss ≤ 2) :
    vgicMmio ipa iss m = (true, refMmio ipa iss m) ↔ WidthOk m ipa iss := by
  have hpair : vgicMmio ipa iss m = (true, refMmio ipa iss m)
      ↔ reasserted (mmioWith (storeVal m (issSrt iss)) (fun v => v.setWidth 64) ipa iss m)
        = refMmio ipa iss m := by
    rw [vgicMmio_eq m hisv, Prod.mk.injEq, and_iff_right rfl]
  rw [hpair, refMmio]
  cases hwnr : issWnr iss with
  | true => exact mmioWith_store_iff hsas hwnr _ _
  | false => exact mmioWith_load_iff hsas hwnr _ _

/-- The console interrupt has priority 0x50. -/
def consolePriority : Machine := (default : Machine).gicdWb 0x421 0x50

/-- A sign-extending byte load of `GICD_IPRIORITYR[33]`, which holds 0x50. -/
theorem gic_access_width_iff_priority :
    vgicMmio 0x08000421 0x01210000 consolePriority
        = (true, refMmio 0x08000421 0x01210000 consolePriority)
      ∧ (vgicMmio 0x08000421 0x01210000 consolePriority).2.tf.x 1 = 0x50 :=
  ⟨(gic_access_width_iff consolePriority 0x08000421 0x01210000 (by decide) (by decide)).mpr
    (by decide), by decide⟩

/-- A byte load of `GICC_IIDR` leaves the whole word in the register. -/
theorem gicc_byte_load_too_wide :
    issIsv 0x01010000 = true ∧ issSas 0x01010000 = 0 ∧ InGicWindow 0x080100FC
      ∧ (vgicMmio 0x080100FC 0x01010000 default).2.tf.x 1 = 0x0200143B
      ∧ (refMmio 0x080100FC 0x01010000 default).tf.x 1 = 0x3B
      ∧ vgicMmio 0x080100FC 0x01010000 default ≠ (true, refMmio 0x080100FC 0x01010000 default) := by
  have hcode : (vgicMmio 0x080100FC 0x01010000 default).2.tf.x 1 = 0x0200143B := by decide
  have href : (refMmio 0x080100FC 0x01010000 default).tf.x 1 = 0x3B := by decide
  refine ⟨by decide, by decide, by decide, hcode, href, ?_⟩
  intro h
  rw [h, href] at hcode
  exact absurd hcode (by decide)

/-! ## What goes over the bus -/

/-- `GICD_BASE_PA`. -/
def gicdBasePa : BitVec 64 := 0x08000000

/-- The `SAS` value of a width in bytes. -/
def sasOf (bytes : Nat) : Nat := if bytes = 1 then 0 else if bytes = 2 then 1 else 2

/-- One access of EL2 to the real distributor. -/
structure BusAccess where
  addr : BitVec 64
  /-- 1, 2 or 4. -/
  bytes : Nat
  /-- The datum of a store. -/
  store : Option (BitVec 32)

namespace BusAccess

/-- Naturally aligned, and wholly inside the distributor's 64 KiB. -/
structure Safe (a : BusAccess) : Prop where
  aligned : a.addr.toNat % a.bytes = 0
  lo : gicdBasePa.toNat ≤ a.addr.toNat
  hi : a.addr.toNat + a.bytes ≤ gicdBasePa.toNat + 0x10000

def sas (a : BusAccess) : Nat := sasOf a.bytes

def off (a : BusAccess) : Nat := (a.addr - gicdBasePa).toNat

/-- The access on the distributor: what a load reads, and the state after. -/
def read (a : BusAccess) (d : Gicd) : BitVec 32 := d.load a.sas a.off

def run (d : Gicd) (a : BusAccess) : Gicd :=
  match a.store with
  | some v => d.store a.sas a.off v
  | none => d

end BusAccess

/-- Bytes of the access `vgic_mmio` issues: its `switch (sas)` has no case
for doublewords, which fall into `default`. -/
def busBytes (sas : Nat) : Nat :=
  match sas with
  | 0 => 1
  | 1 => 2
  | _ => 4

/-- The guest's access, as `vgic_mmio` issues it. -/
def forwardedAccess (ipa iss : BitVec 64) (m : Machine) : BusAccess where
  addr := gicdBasePa + (ipa - gicdEmuBase)
  bytes := busBytes (issSas iss)
  store := if issWnr iss then some (storeVal m (issSrt iss)) else none

/-- `reassert_htimer_ppi` and `reassert_pl011_rx`. -/
def reassertAccesses : List BusAccess :=
  [⟨gicdBasePa + 0x100, 4, some (1#32 <<< irqHtimer)⟩,
    ⟨gicdBasePa + 0x104, 4, some (1#32 <<< (irqPl011 - 32))⟩,
    ⟨gicdBasePa + 0x821, 1, some 0x01⟩, ⟨gicdBasePa + 0x421, 1, some 0xA0⟩]

/-- Everything `vgic_mmio` does on the distributor for an access to it. -/
def mmioAccesses (ipa iss : BitVec 64) (m : Machine) : List BusAccess :=
  forwardedAccess ipa iss m :: reassertAccesses

theorem forwardedAccess_off (ipa iss : BitVec 64) (m : Machine) :
    (forwardedAccess ipa iss m).off = gicdOff ipa := by
  have hsub : gicdBasePa + (ipa - gicdEmuBase) - gicdBasePa = ipa - gicdEmuBase := by
    rw [BitVec.add_comm, BitVec.add_sub_cancel]
  exact congrArg BitVec.toNat hsub

/-- The width the access is issued with reads and stores what the syndrome's does. -/
theorem load_sasOf (d : Gicd) (sas off : Nat) : d.load (sasOf (busBytes sas)) off = d.load sas off := by
  rcases sas with _ | _ | sas <;> rfl

theorem store_sasOf (d : Gicd) (sas off : Nat) (v : BitVec 32) :
    d.store (sasOf (busBytes sas)) off v = d.store sas off v := by
  rcases sas with _ | _ | sas <;> rfl

theorem forwardedAccess_sas (ipa iss : BitVec 64) (m : Machine) :
    (forwardedAccess ipa iss m).sas = sasOf (busBytes (issSas iss)) := rfl

/-- The re-assertions, as stores to the distributor. -/
theorem reassertAccesses_run (d : Gicd) : reassertAccesses.foldl BusAccess.run d
    = (d.write32 gicdIsenabler (1#32 <<< irqHtimer)).pl011Stores := by
  have hword : ∀ (d : Gicd) (addr : BitVec 64) (v : BitVec 32),
      BusAccess.run d ⟨addr, 4, some v⟩ = d.write32 (addr - gicdBasePa).toNat v :=
    fun _ _ _ => rfl
  have hbyte : ∀ (d : Gicd) (addr : BitVec 64) (v : BitVec 32),
      BusAccess.run d ⟨addr, 1, some v⟩ = d.write8 (addr - gicdBasePa).toNat (v.setWidth 8) :=
    fun _ _ _ => rfl
  simp only [reassertAccesses, List.foldl_cons, List.foldl_nil, hword, hbyte]
  rfl

/-- The accesses are what happens to the distributor. -/
theorem vgicMmio_bus (m : Machine) {ipa iss : BitVec 64} (hisv : issIsv iss = true)
    (hd : InGicd ipa) :
    (vgicMmio ipa iss m).2.gicd = (mmioAccesses ipa iss m).foldl BusAccess.run m.gicd
      ∧ (issWnr iss = false → issSrt iss ≠ 31 →
          (vgicMmio ipa iss m).2.tf.x (issSrt iss)
            = ((forwardedAccess ipa iss m).read m.gicd).setWidth 64) := by
  rw [vgicMmio_eq m hisv]
  refine ⟨?_, ?_⟩
  · rw [mmioAccesses, List.foldl_cons, reassertAccesses_run]
    change ((mmioWith _ _ ipa iss m).gicd.write32 gicdIsenabler (1#32 <<< irqHtimer)).pl011Stores = _
    refine congrArg (fun d : Gicd =>
      (d.write32 gicdIsenabler (1#32 <<< irqHtimer)).pl011Stores) ?_
    cases hwnr : issWnr iss with
    | true =>
        have hstore : (forwardedAccess ipa iss m).store = some (storeVal m (issSrt iss)) := by
          simp only [forwardedAccess, hwnr, if_true]
        simp only [mmioWith, BusAccess.run, hwnr, if_true, if_pos hd, hstore, forwardedAccess_off,
          forwardedAccess_sas, store_sasOf]
    | false =>
        have hrun : BusAccess.run m.gicd (forwardedAccess ipa iss m) = m.gicd := by
          simp only [BusAccess.run, forwardedAccess, hwnr, Bool.false_eq_true, if_false]
        rw [hrun]
        simp only [mmioWith, hwnr, Bool.false_eq_true, if_false, if_pos hd]
        split <;> rfl
  · intro hwnr h31
    simp only [mmioWith, hwnr, Bool.false_eq_true, if_false, if_pos hd, if_neg h31,
      BusAccess.read, forwardedAccess_off, forwardedAccess_sas, load_sasOf, tf_reasserted, setX,
      TrapFrame.x_setX_self]

theorem busBytes_cases (sas : Nat) : busBytes sas = 1 ∨ busBytes sas = 2 ∨ busBytes sas = 4 := by
  rcases sas with _ | _ | sas
  · exact Or.inl rfl
  · exact Or.inr (Or.inl rfl)
  · exact Or.inr (Or.inr rfl)

theorem reassertAccesses_safe : ∀ a ∈ reassertAccesses, a.Safe := by
  intro a ha
  simp only [reassertAccesses, List.mem_cons, List.not_mem_nil, or_false] at ha
  obtain rfl | rfl | rfl | rfl := ha
  all_goals exact ⟨by decide, by decide, by decide⟩

/-- The forwarded access is safe exactly if the guest's is aligned. -/
theorem forwardedAccess_safe_iff (m : Machine) {ipa iss : BitVec 64} (hd : InGicd ipa) :
    (forwardedAccess ipa iss m).Safe ↔ busBytes (issSas iss) ∣ ipa.toNat := by
  have haddr : gicdBasePa + (ipa - gicdEmuBase) = ipa := by
    change gicdEmuBase + (ipa - gicdEmuBase) = ipa
    rw [BitVec.add_comm, BitVec.sub_add_cancel]
  have hlo : 0x08000000 ≤ ipa.toNat := BitVec.le_def.mp hd.1
  have hhi : ipa.toNat < 0x08010000 := BitVec.lt_def.mp hd.2
  have hbase : gicdBasePa.toNat = 0x08000000 := rfl
  rw [Nat.dvd_iff_mod_eq_zero]
  constructor
  · intro h
    have ha := h.aligned
    rwa [forwardedAccess, haddr] at ha
  · intro h
    refine ⟨?_, ?_, ?_⟩
    · rwa [forwardedAccess, haddr]
    · rw [forwardedAccess, haddr]
      exact hlo
    · rw [forwardedAccess, haddr, hbase]
      change ipa.toNat + busBytes (issSas iss) ≤ _
      obtain hb | hb | hb := busBytes_cases (issSas iss) <;> rw [hb] at h ⊢ <;> omega

/-- **Distributor accesses at EL2.** For a data abort in the distributor's
window, what `handle_stage2_abort` does to the real distributor is
`mmioAccesses`, and these are all aligned and inside the distributor exactly
if the guest's own access is aligned. -/
theorem gicd_access_safe_iff (m : Machine) (esr : BitVec 64) (hd : InGicd (faultIpaOf m))
    (hisv : issIsv (esr &&& 0x1ffffff) = true) :
    (handleStage2Abort esr m).gicd
        = (mmioAccesses (faultIpaOf m) (esr &&& 0x1ffffff) m).foldl BusAccess.run m.gicd
      ∧ ((∀ a ∈ mmioAccesses (faultIpaOf m) (esr &&& 0x1ffffff) m, a.Safe)
          ↔ busBytes (issSas (esr &&& 0x1ffffff)) ∣ (faultIpaOf m).toNat) := by
  have hwin : InGicWindow (faultIpaOf m) := ⟨hd.1, BitVec.lt_trans hd.2 (by decide)⟩
  constructor
  · rw [handleStage2Abort_window m esr hwin, gicd_skipInsn]
    exact (vgicMmio_bus m hisv hd).1
  · rw [← forwardedAccess_safe_iff m hd, mmioAccesses, List.forall_mem_cons]
    exact and_iff_left reassertAccesses_safe

theorem gicd_access_safe_iff_store :
    InGicd (faultIpaOf (entered .gicdStore))
      ∧ ∀ a ∈ mmioAccesses 0x08000104 0x01810040 (entered .gicdStore), a.Safe :=
  ⟨by decide,
    (gicd_access_safe_iff (entered .gicdStore) Trap.gicdStore.esr (by decide) (by decide)).2.mpr
      (by decide)⟩

/-- A word store to 0x08000101, from a guest that maps the GIC as Normal memory. -/
theorem gicd_access_misaligned :
    InGicd (faultIpaOf (entered (.access 0x08000101 true 0)))
      ∧ issIsv ((Trap.access 0x08000101 true 0).esr &&& 0x1ffffff) = true
      ∧ ¬ ∀ a ∈ mmioAccesses 0x08000101 ((Trap.access 0x08000101 true 0).esr &&& 0x1ffffff)
          (entered (.access 0x08000101 true 0)), a.Safe := by
  refine ⟨by decide, by decide, ?_⟩
  intro h
  have haligned := (h _ List.mem_cons_self).aligned
  exact absurd haligned (by decide)

end ArmHyp
