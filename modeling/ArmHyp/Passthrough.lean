import ArmHyp.GicAccess

/-!
# Distributor passthrough

`vgic_mmio` forwards a guest's distributor accesses and then re-asserts four
fields: the enable bits of PPI 26 and SPI 33, and the target and priority
bytes of SPI 33. A guest that never looks at those four sees the distributor
it would see without EL2: `AgreeBut` relates the two distributors, every
store keeps the relation (`AgreeBut.store`), the re-assertions keep it from
one side (`AgreeBut.reassert`), and what is read through it differs in the
four fields only (`AgreeBut.readByte`).
-/

namespace ArmHyp

open Machine

namespace Gicd

/-! ## Bits of a bank -/

/-- Bit of INTID `n` in a bank. -/
def bankBit (bank : Nat → BitVec 8) (n : Nat) : Bool := (bank (n / 8)).getLsbD (n % 8)

theorem bankBit_setBits (bank : Nat → BitVec 8) (k : Nat) (v : BitVec 8) (n : Nat) :
    bankBit (setBits bank k v) n = (bankBit bank n || (n / 8 == k && v.getLsbD (n % 8))) := by
  unfold bankBit setBits
  by_cases hk : n / 8 = k
  · rw [hk, Function.update_self, BitVec.getLsbD_or, beq_self_eq_true, Bool.true_and]
  · rw [Function.update_of_ne hk, beq_eq_false_iff_ne.mpr hk, Bool.false_and, Bool.or_false]

theorem bankBit_clearBits (bank : Nat → BitVec 8) (k : Nat) (v : BitVec 8) (n : Nat) :
    bankBit (clearBits bank k v) n = (bankBit bank n && !(n / 8 == k && v.getLsbD (n % 8))) := by
  have hlt : n % 8 < 8 := Nat.mod_lt _ (by decide)
  unfold bankBit clearBits
  by_cases hk : n / 8 = k
  · rw [hk, Function.update_self, BitVec.getLsbD_and, BitVec.getLsbD_not, decide_eq_true hlt,
      beq_self_eq_true, Bool.true_and, Bool.true_and]
  · rw [Function.update_of_ne hk, beq_eq_false_iff_ne.mpr hk, Bool.false_and, Bool.not_false,
      Bool.and_true]

/-- INTID `n` is enabled. -/
def enabled (d : Gicd) (n : Nat) : Bool := bankBit d.enable n

/-- The enable bits after a byte store: write-one-to-set, write-one-to-clear. -/
theorem enabled_writeByte (d : Gicd) (off : Nat) (v : BitVec 8) (n : Nat) :
    (d.writeByte off v).enabled n =
      if 0x100 ≤ off ∧ off < 0x180 then
        d.enabled n || (n / 8 == off - 0x100 && v.getLsbD (n % 8))
      else if 0x180 ≤ off ∧ off < 0x200 then
        d.enabled n && !(n / 8 == off - 0x180 && v.getLsbD (n % 8))
      else d.enabled n := by
  by_cases hset : 0x100 ≤ off ∧ off < 0x180
  · rw [if_pos hset, enabled, enable_writeByte_set d hset.1 hset.2, bankBit_setBits]
    rfl
  rw [if_neg hset]
  by_cases hclr : 0x180 ≤ off ∧ off < 0x200
  · have hbank : (d.writeByte off v).enable = clearBits d.enable (off - 0x180) v := by
      unfold writeByte
      iterate 4 rw [if_neg (by omega)]
      rw [if_pos hclr.2]
    rw [if_pos hclr, enabled, hbank, bankBit_clearBits]
    rfl
  · rw [if_neg hclr, enabled, enable_writeByte_of_apart d (by omega)]
    rfl

/-- Every plain byte after a byte store. -/
theorem cell_writeByte_apply (d : Gicd) (off : Nat) (v : BitVec 8) (k : Nat) :
    (d.writeByte off v).cell k = if IsCell off ∧ k = off then v else d.cell k := by
  by_cases hoff : IsCell off
  · rw [writeByte_of_isCell d hoff]
    simp only [hoff, true_and]
    exact Function.update_apply d.cell off v k
  · rw [cell_writeByte_of_not d hoff, if_neg fun h => hoff h.1]

/-! ## Agreement -/

/-- The two distributors agree but for the enable bits of PPI 26 and SPI 33
and the priority and target bytes of SPI 33. -/
structure AgreeBut (d d' : Gicd) : Prop where
  enable : ∀ n, n ≠ 26 → n ≠ 33 → d.enabled n = d'.enabled n
  pend : d.pend = d'.pend
  act : d.act = d'.act
  cell : ∀ k, k ≠ 0x400 + 33 → k ≠ 0x800 + 33 → d.cell k = d'.cell k

namespace AgreeBut

variable {d d' : Gicd}

theorem refl (d : Gicd) : AgreeBut d d := ⟨fun _ _ _ => rfl, rfl, rfl, fun _ _ _ => rfl⟩

theorem writeByte (h : AgreeBut d d') (off : Nat) (v : BitVec 8) :
    AgreeBut (d.writeByte off v) (d'.writeByte off v) where
  enable := by
    intro n h26 h33
    rw [enabled_writeByte, enabled_writeByte, h.enable n h26 h33]
  pend := by
    simp only [Gicd.writeByte, apply_ite Gicd.pend, h.pend]
  act := by
    simp only [Gicd.writeByte, apply_ite Gicd.act, h.act]
  cell := by
    intro k hpri htgt
    rw [cell_writeByte_apply, cell_writeByte_apply, h.cell k hpri htgt]

theorem writeBytes (h : AgreeBut d d') (off : Nat) (vs : List (BitVec 8)) :
    AgreeBut (d.writeBytes off vs) (d'.writeBytes off vs) := by
  induction vs generalizing d d' off with
  | nil => exact h
  | cons v vs ih => exact ih (h.writeByte off v) (off + 1)

/-- `GICD_SGIR` pends by its value alone. -/
theorem writeSgir (h : AgreeBut d d') (v : BitVec 32) :
    AgreeBut (d.writeSgir v) (d'.writeSgir v) := by
  unfold Gicd.writeSgir
  simp only
  split
  · exact ⟨h.enable, by rw [h.pend], h.act, h.cell⟩
  · exact h

/-- A guest store of any size. -/
theorem store (h : AgreeBut d d') (sas off : Nat) (val : BitVec 32) :
    AgreeBut (d.store sas off val) (d'.store sas off val) := by
  rcases sas with _ | _ | sas
  · exact h.writeByte off _
  · exact h.writeBytes off (bytes16 (val.setWidth 16))
  · change AgreeBut (d.write32 off val) (d'.write32 off val)
    by_cases hsgir : off = 0xF00
    · subst hsgir
      exact h.writeSgir val
    · rw [write32_eq d hsgir, write32_eq d' hsgir]
      exact h.writeBytes off (bytes32 val)

end AgreeBut

/-! ## The re-assertions -/

/-- `reassert_htimer_ppi` and `reassert_pl011_rx`, on the distributor. -/
def reassert (d : Gicd) : Gicd := (d.write32 gicdIsenabler (1#32 <<< irqHtimer)).pl011Stores

/-- A word with one bit set, byte by byte. -/
theorem getLsbD_storedByte_bit (off i : Nat) (hi : i < 32) (k b : Nat) (hb : b < 8) :
    (storedByte off (bytes32 (BitVec.twoPow 32 i)) k 0#8).getLsbD b
      = decide (off ≤ k ∧ 8 * (k - off) + b = i) := by
  unfold storedByte
  by_cases hk : off ≤ k
  · rw [if_pos hk]
    generalize k - off = j
    have hbyte : (bytes32 (BitVec.twoPow 32 i)).getD j 0#8
        = (BitVec.twoPow 32 i).extractLsb' (8 * j) 8 := by
      rcases j with _ | _ | _ | _ | j
      · rfl
      · rfl
      · rfl
      · rfl
      · apply BitVec.eq_of_getLsbD_eq
        intro l hl
        have hzero : (BitVec.twoPow 32 i).getLsbD (8 * (j + 1 + 1 + 1 + 1) + l) = false :=
          BitVec.getLsbD_of_ge _ _ (by omega)
        rw [BitVec.getLsbD_extractLsb', hzero, Bool.and_false]
        exact BitVec.getLsbD_zero
    rw [hbyte, BitVec.getLsbD_extractLsb', BitVec.getLsbD_twoPow, decide_eq_true hb,
      decide_eq_true hi]
    simp only [hk, true_and, Bool.true_and]
    exact decide_eq_decide.mpr eq_comm
  · rw [if_neg hk]
    simp [hk]

/-- A word store that sets one bit of `GICD_ISENABLER`. -/
theorem enabled_write32_bit (d : Gicd) {off i : Nat} (hi : i < 32) (hlo : 0x100 ≤ off)
    (hhi : off + 4 ≤ 0x180) (n : Nat) :
    (d.write32 off (BitVec.twoPow 32 i)).enabled n
      = (d.enabled n || decide (n = 8 * (off - 0x100) + i)) := by
  rw [enabled, bankBit, enable_write32_set d hlo hhi, BitVec.getLsbD_or,
    getLsbD_storedByte_bit off i hi _ _ (Nat.mod_lt _ (by decide))]
  refine congrArg _ (decide_eq_decide.mpr ?_)
  omega

theorem enabled_reassert (d : Gicd) (n : Nat) :
    d.reassert.enabled n = (d.enabled n || decide (n = 26) || decide (n = 33)) := by
  have hbytes : ∀ d : Gicd, d.pl011Stores.enabled n
      = (d.write32 0x104 (BitVec.twoPow 32 1)).enabled n := by
    intro d
    rw [enabled, pl011Stores, write8, write8, enable_writeByte_of_apart _ (by decide),
      enable_writeByte_of_apart _ (by decide)]
    rfl
  have hppi : (1#32 <<< irqHtimer) = BitVec.twoPow 32 26 := rfl
  rw [reassert, hbytes, enabled_write32_bit _ (by decide) (by decide) (by decide), hppi,
    enabled_write32_bit _ (by decide) (by decide) (by decide)]
  rfl

theorem cell_reassert (d : Gicd) (k : Nat) :
    d.reassert.cell k = if k = 0x400 + 33 then 0xA0 else if k = 0x800 + 33 then 0x01
      else d.cell k := by
  have hen : ((d.write32 gicdIsenabler (1#32 <<< irqHtimer)).write32 0x104 2).cell = d.cell := by
    rw [write32_eq _ (by decide), write32_eq _ (by decide)]
    rfl
  have hpri : IsCell 0x421 := by decide
  have htgt : IsCell 0x821 := by decide
  rw [reassert, pl011Stores, write8, write8, cell_writeByte_apply, cell_writeByte_apply, hen]
  simp only [hpri, htgt, true_and]

/-- The fields `vgic_mmio` keeps: enables of PPI 26 and SPI 33, target and
priority of SPI 33. -/
structure Reasserted (d : Gicd) : Prop where
  htimer : d.enabled 26 = true
  pl011 : d.enabled 33 = true
  target : d.readByte (0x800 + 33) = 0x01
  priority : d.readByte (0x400 + 33) = 0xA0

theorem reassert_reasserted (d : Gicd) : Reasserted d.reassert where
  htimer := by
    rw [enabled_reassert]
    simp
  pl011 := by
    rw [enabled_reassert]
    simp
  target := by
    rw [readByte_of_isCell _ (by decide), cell_reassert]
    rfl
  priority := by
    rw [readByte_of_isCell _ (by decide), cell_reassert]
    rfl

/-- Re-asserting keeps the agreement. -/
theorem AgreeBut.reassert {d d' : Gicd} (h : AgreeBut d d') : AgreeBut d.reassert d' where
  enable := by
    intro n h26 h33
    rw [enabled_reassert, decide_eq_false h26, decide_eq_false h33, Bool.or_false, Bool.or_false]
    exact h.enable n h26 h33
  pend := h.pend
  act := h.act
  cell := by
    intro k hpri htgt
    rw [cell_reassert, if_neg hpri, if_neg htgt]
    exact h.cell k hpri htgt

/-! ## What is read -/

/-- Bit `b` of the register byte at `off` belongs to a re-asserted field:
`ISENABLER` and `ICENABLER` of PPI 26 and SPI 33, `IPRIORITYR[33]`,
`ITARGETSR[33]`. -/
def ReassertedBit (off b : Nat) : Prop :=
  (off = 0x103 ∨ off = 0x183) ∧ b = 2 ∨ (off = 0x104 ∨ off = 0x184) ∧ b = 1
    ∨ off = 0x400 + 33 ∨ off = 0x800 + 33

instance reassertedBit_decidable (off b : Nat) : Decidable (ReassertedBit off b) :=
  inferInstanceAs (Decidable (_ ∨ _))

theorem enable_bit (d : Gicd) (k : Nat) {b : Nat} (hb : b < 8) :
    (d.enable k).getLsbD b = d.enabled (8 * k + b) := by
  have hdiv : (8 * k + b) / 8 = k := by omega
  have hmod : (8 * k + b) % 8 = b := by omega
  rw [enabled, bankBit, hdiv, hmod]

/-- Agreeing distributors read alike outside the re-asserted fields. -/
theorem AgreeBut.readByte {d d' : Gicd} (h : AgreeBut d d') {off b : Nat} (hb : b < 8)
    (hbit : ¬ ReassertedBit off b) :
    (d.readByte off).getLsbD b = (d'.readByte off).getLsbD b := by
  have hcell : off < 0x100 ∨ 0x400 ≤ off → (d.cell off) = d'.cell off := by
    intro _
    exact h.cell off (fun ho => hbit (by simp [ReassertedBit, ho]))
      (fun ho => hbit (by simp [ReassertedBit, ho]))
  have henable : ∀ base, base = 0x100 ∨ base = 0x180 → base ≤ off →
      (d.enable (off - base)).getLsbD b = (d'.enable (off - base)).getLsbD b := by
    intro base hbase hle
    rw [enable_bit d _ hb, enable_bit d' _ hb]
    refine h.enable _ ?_ ?_
    · intro hn
      exact hbit (Or.inl ⟨by omega, by omega⟩)
    · intro hn
      exact hbit (Or.inr (Or.inl ⟨by omega, by omega⟩))
  unfold Gicd.readByte
  by_cases h100 : off < 0x100
  · rw [if_pos h100, if_pos h100, hcell (Or.inl h100)]
  rw [if_neg h100, if_neg h100]
  by_cases h180 : off < 0x180
  · rw [if_pos h180, if_pos h180]
    exact henable 0x100 (Or.inl rfl) (by omega)
  rw [if_neg h180, if_neg h180]
  by_cases h200 : off < 0x200
  · rw [if_pos h200, if_pos h200]
    exact henable 0x180 (Or.inr rfl) (by omega)
  rw [if_neg h200, if_neg h200, h.pend, h.act]
  by_cases h400 : off < 0x400
  · simp only [h400, if_true]
  · rw [hcell (Or.inr (by omega))]

/-- The bits of a load, byte by byte. -/
theorem getLsbD_load (d : Gicd) {sas : Nat} (hsas : sas ≤ 2) (off : Nat) {i : Nat}
    (hi : i < accessBits sas) :
    (d.load sas off).getLsbD i = (d.readByte (off + i / 8)).getLsbD (i % 8) := by
  obtain rfl | rfl | rfl : sas = 0 ∨ sas = 1 ∨ sas = 2 := by omega
  · have hi : i < 8 := hi
    have hdiv : i / 8 = 0 := by omega
    have hmod : i % 8 = i := by omega
    rw [hdiv, hmod, Gicd.load, read8, BitVec.getLsbD_setWidth, decide_eq_true (by omega),
      Bool.true_and, Nat.add_zero]
  · have hi : i < 16 := hi
    rw [Gicd.load, read16, BitVec.getLsbD_setWidth, decide_eq_true (by omega), Bool.true_and,
      BitVec.getLsbD_append]
    by_cases h8 : i < 8
    · have hdiv : i / 8 = 0 := by omega
      have hmod : i % 8 = i := by omega
      rw [if_pos h8, hdiv, hmod, Nat.add_zero]
    · have hdiv : i / 8 = 1 := by omega
      have hmod : i % 8 = i - 8 := by omega
      rw [if_neg h8, hdiv, hmod]
  · have hi : i < 32 := hi
    change (d.read32 off).getLsbD i = _
    rw [read32, BitVec.getLsbD_append, BitVec.getLsbD_append, BitVec.getLsbD_append]
    have hcase : i / 8 = 0 ∧ i < 8 ∨ i / 8 = 1 ∧ i < 16 ∨ i / 8 = 2 ∧ i < 24 ∨ i / 8 = 3 := by
      omega
    obtain ⟨hdiv, h8⟩ | ⟨hdiv, h16⟩ | ⟨hdiv, h24⟩ | hdiv := hcase
    · have hmod : i % 8 = i := by omega
      rw [if_pos h8, hdiv, hmod, Nat.add_zero]
    · have hmod : i % 8 = i - 8 := by omega
      rw [if_neg (by omega), if_pos (by omega), hdiv, hmod]
    · have hmod : i % 8 = i - 8 - 8 := by omega
      rw [if_neg (by omega), if_neg (by omega), if_pos (by omega), hdiv, hmod]
    · have hmod : i % 8 = i - 8 - 8 - 8 := by omega
      rw [if_neg (by omega), if_neg (by omega), if_neg (by omega), hdiv, hmod]

end Gicd

/-! ## Sequences of accesses -/

/-- A guest's access to the GIC window: address and syndrome of the abort,
and the machine EL2 takes it on, whose distributor is not looked at. -/
structure GuestAccess where
  env : Machine
  ipa : BitVec 64
  iss : BitVec 64

namespace GuestAccess

/-- A naturally aligned, zero-extending byte, halfword or word access to the
window, with a valid syndrome. -/
structure Ok (a : GuestAccess) : Prop where
  window : InGicWindow a.ipa
  isv : issIsv a.iss = true
  sas : issSas a.iss ≤ 2
  sse : issSse a.iss = false
  aligned : 2 ^ issSas a.iss ∣ a.ipa.toNat

/-- The access, on distributor `d`. -/
def on (a : GuestAccess) (d : Gicd) : Machine := { a.env with gicd := d }

/-- The distributor after `vgic_mmio`. -/
def el2 (d : Gicd) (a : GuestAccess) : Gicd := (vgicMmio a.ipa a.iss (a.on d)).2.gicd

/-- What the register `Rt` holds after `vgic_mmio`. -/
def el2Value (d : Gicd) (a : GuestAccess) : BitVec 64 :=
  (vgicMmio a.ipa a.iss (a.on d)).2.tf.x (issSrt a.iss)

/-- The distributor after the access, made on it directly. -/
def direct (d : Gicd) (a : GuestAccess) : Gicd :=
  if InGicd a.ipa ∧ issWnr a.iss = true then
    d.store (issSas a.iss) (gicdOff a.ipa) (storeDatum (issSas a.iss) a.env (issSrt a.iss))
  else d

/-- What `Rt` holds after a load, made on the distributor directly. -/
def directValue (d : Gicd) (a : GuestAccess) : BitVec 64 :=
  extended (accessBits (issSas a.iss)) (issSse a.iss) (issSf a.iss)
    (d.load (issSas a.iss) (gicdOff a.ipa))

variable {a : GuestAccess} {d d' : Gicd}

/-- `vgic_mmio` is the direct access and the re-assertions. -/
theorem el2_eq (h : a.Ok) (d : Gicd) : el2 d a = (direct d a).reassert := by
  rw [el2, vgicMmio_gicd (a.on d) h.window h.isv]
  refine congrArg Gicd.reassert ?_
  have hgicd : InGicd a.ipa ↔ a.ipa < gicdEmuLimit := and_iff_right h.window.1
  simp only [direct, hgicd]
  split
  · rw [store_datum d h.sas]
    rfl
  · rfl

theorem el2_reasserted (h : a.Ok) (d : Gicd) : (el2 d a).Reasserted := by
  rw [el2_eq h]
  exact (direct d a).reassert_reasserted

/-- One access keeps the agreement. -/
theorem el2_agreeBut (h : a.Ok) (hd : d.AgreeBut d') : (el2 d a).AgreeBut (direct d' a) := by
  rw [el2_eq h]
  refine Gicd.AgreeBut.reassert ?_
  unfold direct
  split
  · exact hd.store _ _ _
  · exact hd

/-- A sequence of accesses keeps it. -/
theorem run_agreeBut {accs : List GuestAccess} (hok : ∀ a ∈ accs, a.Ok) (hd : d.AgreeBut d') :
    (accs.foldl el2 d).AgreeBut (accs.foldl direct d') := by
  induction accs generalizing d d' with
  | nil => exact hd
  | cons a accs ih =>
      rw [List.forall_mem_cons] at hok
      exact ih hok.2 (el2_agreeBut hok.1 hd)

/-- A load through `vgic_mmio` reads what the distributor holds. -/
theorem el2Value_eq (h : a.Ok) (hgicd : InGicd a.ipa) (hload : issWnr a.iss = false)
    (h31 : issSrt a.iss ≠ 31) (d : Gicd) :
    el2Value d a = (d.load (issSas a.iss) (gicdOff a.ipa)).setWidth 64 := by
  have hval := (vgicMmio_bus (a.on d) h.isv hgicd).2 hload h31
  rw [BusAccess.read, forwardedAccess_off, forwardedAccess_sas, load_sasOf] at hval
  exact hval

/-- Bits of a load beyond its size are zero. -/
theorem getLsbD_load_ge (d : Gicd) {sas : Nat} (hsas : sas ≤ 2) (off : Nat) {i : Nat}
    (hi : accessBits sas ≤ i) : (d.load sas off).getLsbD i = false := by
  obtain rfl | rfl | rfl : sas = 0 ∨ sas = 1 ∨ sas = 2 := by omega
  · change 8 ≤ i at hi
    rw [Gicd.load, BitVec.getLsbD_setWidth, BitVec.getLsbD_of_ge _ _ hi, Bool.and_false]
  · change 16 ≤ i at hi
    rw [Gicd.load, BitVec.getLsbD_setWidth, BitVec.getLsbD_of_ge _ _ hi, Bool.and_false]
  · exact BitVec.getLsbD_of_ge _ _ hi

/-- What a load reads, on agreeing distributors. -/
theorem values_agree (h : a.Ok) (hd : d.AgreeBut d') (hgicd : InGicd a.ipa)
    (hload : issWnr a.iss = false) (h31 : issSrt a.iss ≠ 31) {i : Nat}
    (hbit : ¬ Gicd.ReassertedBit (gicdOff a.ipa + i / 8) (i % 8)) :
    (el2Value d a).getLsbD i = (directValue d' a).getLsbD i := by
  rw [el2Value_eq h hgicd hload h31, directValue, h.sse, extended, if_neg Bool.false_ne_true,
    BitVec.getLsbD_setWidth, BitVec.getLsbD_setWidth, BitVec.getLsbD_setWidth]
  refine congrArg _ ?_
  by_cases hi : i < accessBits (issSas a.iss)
  · rw [decide_eq_true hi, Bool.true_and, Gicd.getLsbD_load d h.sas _ hi,
      Gicd.getLsbD_load d' h.sas _ hi]
    exact hd.readByte (Nat.mod_lt _ (by decide)) hbit
  · rw [decide_eq_false hi, Bool.false_and]
    exact getLsbD_load_ge d h.sas _ (Nat.le_of_not_lt hi)

end GuestAccess

open GuestAccess in
/-- **Distributor passthrough.** After any sequence of accesses, each
further access returns with the four fields set, with every other bit of the
distributor as if the whole sequence had been made on it directly, and with
the value loaded differing in those fields only. -/
theorem gicd_passthrough_transparent (d : Gicd) (accs : List GuestAccess) (a : GuestAccess)
    (hok : ∀ a ∈ accs, a.Ok) (ha : a.Ok) :
    ((accs ++ [a]).foldl el2 d).Reasserted
      ∧ ((accs ++ [a]).foldl el2 d).AgreeBut ((accs ++ [a]).foldl direct d)
      ∧ (InGicd a.ipa → issWnr a.iss = false → issSrt a.iss ≠ 31 →
          ∀ i, ¬ Gicd.ReassertedBit (gicdOff a.ipa + i / 8) (i % 8) →
            (el2Value (accs.foldl el2 d) a).getLsbD i
              = (directValue (accs.foldl direct d) a).getLsbD i) := by
  have hagree := run_agreeBut hok (Gicd.AgreeBut.refl d)
  rw [List.foldl_append, List.foldl_append]
  refine ⟨el2_reasserted ha _, el2_agreeBut ha hagree, ?_⟩
  intro hgicd hload h31 i hbit
  exact values_agree ha hagree hgicd hload h31 hbit

/-- A byte store of 0 to `ITARGETSR[33]`, which EL2 undoes, and a word load of
the register it is in: `ITARGETSR[32]` reads as it would without EL2. -/
theorem gicd_passthrough_transparent_itargetsr :
    ∃ d : Gicd, ∃ store load : GuestAccess,
      store.ipa = 0x08000821 ∧ load.ipa = 0x08000820
        ∧ (GuestAccess.el2 d store).readByte 0x821 ≠ (GuestAccess.direct d store).readByte 0x821
        ∧ (GuestAccess.el2Value (GuestAccess.el2 d store) load).getLsbD 7
          = (GuestAccess.directValue (GuestAccess.direct d store) load).getLsbD 7 := by
  have hstore : GuestAccess.Ok ⟨default, 0x08000821, 0x01010040⟩ :=
    ⟨by decide, by decide, by decide, by decide, by decide⟩
  have hload : GuestAccess.Ok ⟨default, 0x08000820, 0x01810000⟩ :=
    ⟨by decide, by decide, by decide, by decide, by decide⟩
  have h := gicd_passthrough_transparent (default : Machine).gicd
    [⟨default, 0x08000821, 0x01010040⟩] ⟨default, 0x08000820, 0x01810000⟩
    (List.forall_mem_singleton.mpr hstore) hload
  exact ⟨_, _, _, rfl, rfl, by decide, h.2.2 (by decide) (by decide) (by decide) 7 (by decide)⟩

end ArmHyp
