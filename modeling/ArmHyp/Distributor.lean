import ArmHyp.FrameEffects

/-!
# Distributor stores, byte by byte

A store of any size to the distributor is a sequence of byte stores, except
a word store to `GICD_SGIR`. `cell_writeBytes` gives every plain register
byte after such a sequence. From it follow the bytes that the three
sequences which keep SPI 33 armed leave: `pl011_rx_reassert` and
`reassert_pl011_rx`, which store bytes, and `handle_wfi`, which stores
words.
-/

namespace ArmHyp

open Machine

namespace Gicd

/-! ## Stores as bytes -/

/-- Store bytes from `off` on. -/
def writeBytes (d : Gicd) (off : Nat) : List (BitVec 8) → Gicd
  | [] => d
  | v :: vs => (d.writeByte off v).writeBytes (off + 1) vs

/-- A register byte that holds what is written to it. -/
def IsCell (off : Nat) : Prop := off < 0x4 ∨ 0xC ≤ off ∧ off < 0x100 ∨ 0x400 ≤ off ∧ off < 0xF00

instance isCell_decidable (off : Nat) : Decidable (IsCell off) :=
  inferInstanceAs (Decidable (_ ∨ _))

/-- The byte at `k` after a store of `vs` at `off`, when it was `old`. -/
def storedByte (off : Nat) (vs : List (BitVec 8)) (k : Nat) (old : BitVec 8) : BitVec 8 :=
  if off ≤ k then vs.getD (k - off) old else old

theorem writeByte_of_isCell (d : Gicd) {off : Nat} (h : IsCell off) (v : BitVec 8) :
    d.writeByte off v = { d with cell := Function.update d.cell off v } := by
  unfold writeByte
  rcases h with h | ⟨hlo, hhi⟩ | ⟨hlo, hhi⟩
  · rw [if_pos h]
  · rw [if_neg (by omega), if_neg (by omega), if_pos hhi]
  · iterate 9 rw [if_neg (by omega)]
    rw [if_pos hhi]

theorem cell_writeByte_of_not (d : Gicd) {off : Nat} (h : ¬IsCell off) (v : BitVec 8) :
    (d.writeByte off v).cell = d.cell := by
  unfold IsCell at h
  have h4 : ¬off < 0x4 := by omega
  have hcell : ¬off < 0xF00 ∨ off < 0x400 := by omega
  simp only [writeByte, apply_ite Gicd.cell, ite_self, if_neg h4]
  by_cases h12 : off < 0xC
  · rw [if_pos h12]
  · have h256 : ¬off < 0x100 := by omega
    rw [if_neg h12, if_neg h256]
    rcases hcell with hhi | hlo
    · simp only [if_neg hhi, ite_self]
    · simp only [if_pos hlo, ite_self]

theorem cell_writeByte (d : Gicd) (off : Nat) (v : BitVec 8) {k : Nat} (hk : IsCell k) :
    (d.writeByte off v).cell k = if k = off then v else d.cell k := by
  by_cases hoff : IsCell off
  · rw [writeByte_of_isCell d hoff]
    exact Function.update_apply d.cell off v k
  · have hne : k ≠ off := fun h => hoff (h ▸ hk)
    rw [cell_writeByte_of_not d hoff, if_neg hne]

/-- A plain register byte after a store. -/
theorem cell_writeBytes (d : Gicd) (off : Nat) (vs : List (BitVec 8)) {k : Nat} (hk : IsCell k) :
    (d.writeBytes off vs).cell k = storedByte off vs k (d.cell k) := by
  induction vs generalizing d off with
  | nil =>
      rw [storedByte, List.getD_nil, ite_self]
      rfl
  | cons v vs ih =>
      rw [writeBytes, ih, cell_writeByte d off v hk]
      unfold storedByte
      rcases Nat.lt_trichotomy k off with hlt | rfl | hgt
      · rw [if_neg (by omega), if_neg (by omega), if_neg (by omega)]
      · rw [if_neg (by omega), if_pos rfl, if_pos (le_refl k), Nat.sub_self, List.getD_cons_zero]
      · have hsub : k - off = k - (off + 1) + 1 := by omega
        rw [if_pos (by omega), if_neg (by omega), if_pos (by omega), hsub, List.getD_cons_succ]

/-- The bytes of a word, least significant first. -/
def bytes32 (v : BitVec 32) : List (BitVec 8) :=
  [v.extractLsb' 0 8, v.extractLsb' 8 8, v.extractLsb' 16 8, v.extractLsb' 24 8]

def bytes16 (v : BitVec 16) : List (BitVec 8) := [v.extractLsb' 0 8, v.extractLsb' 8 8]

theorem write32_eq (d : Gicd) {off : Nat} (h : off ≠ 0xF00) (v : BitVec 32) :
    d.write32 off v = d.writeBytes off (bytes32 v) := if_neg h

theorem storedByte_of_apart {off : Nat} {vs : List (BitVec 8)} {k : Nat} (old : BitVec 8)
    (h : k < off ∨ off + vs.length ≤ k) : storedByte off vs k old = old := by
  unfold storedByte
  rcases h with h | h
  · rw [if_neg (by omega)]
  · rw [if_pos (by omega), List.getD_eq_getElem?_getD, List.getElem?_eq_none (by omega)]
    rfl

/-! ## The enable bank -/

theorem enable_writeByte_set (d : Gicd) {off : Nat} (hlo : 0x100 ≤ off) (hhi : off < 0x180)
    (v : BitVec 8) : (d.writeByte off v).enable = setBits d.enable (off - 0x100) v := by
  unfold writeByte
  rw [if_neg (by omega), if_neg (by omega), if_neg (by omega), if_pos hhi]

theorem enable_writeByte_of_apart (d : Gicd) {off : Nat} (h : off < 0x100 ∨ 0x200 ≤ off)
    (v : BitVec 8) : (d.writeByte off v).enable = d.enable := by
  simp only [writeByte, apply_ite Gicd.enable, ite_self]
  rcases h with h | h
  · simp only [if_pos h, ite_self]
  · rw [if_neg (by omega : ¬off < 0x180), if_neg (by omega : ¬off < 0x200)]
    simp only [ite_self]

/-- Storing to `GICD_ISENABLER` sets the bits written and clears none. -/
theorem enable_writeBytes_set (d : Gicd) (off : Nat) (vs : List (BitVec 8)) (hlo : 0x100 ≤ off)
    (hhi : off + vs.length ≤ 0x180) (k : Nat) :
    (d.writeBytes off vs).enable k = d.enable k ||| storedByte off vs (0x100 + k) 0#8 := by
  induction vs generalizing d off with
  | nil =>
      rw [storedByte, List.getD_nil, ite_self, BitVec.or_zero]
      rfl
  | cons v vs ih =>
      rw [List.length_cons] at hhi
      rw [writeBytes, ih _ _ (by omega) (by omega),
        enable_writeByte_set d hlo (by omega), setBits, Function.update_apply]
      unfold storedByte
      rcases Nat.lt_trichotomy (0x100 + k) off with hlt | heq | hgt
      · rw [if_neg (by omega), if_neg (by omega), if_neg (by omega)]
      · subst heq
        rw [if_pos (by omega), if_neg (by omega), if_pos (le_refl _), Nat.sub_self,
          List.getD_cons_zero, BitVec.or_zero]
        rw [show 0x100 + k - 0x100 = k by omega]
      · have hsub : 0x100 + k - off = 0x100 + k - (off + 1) + 1 := by omega
        rw [if_neg (by omega), if_pos (by omega), if_pos (by omega), hsub, List.getD_cons_succ]

theorem enable_writeBytes_of_apart (d : Gicd) (off : Nat) (vs : List (BitVec 8))
    (h : off + vs.length ≤ 0x100 ∨ 0x200 ≤ off) : (d.writeBytes off vs).enable = d.enable := by
  induction vs generalizing d off with
  | nil => rfl
  | cons v vs ih =>
      rw [List.length_cons] at h
      rw [writeBytes, ih _ _ (by omega), enable_writeByte_of_apart d (by omega)]

/-! ## The sequences that arm SPI 33 -/

/-- The distributor stores of `pl011_rx_reassert` and `reassert_pl011_rx`. -/
def pl011Stores (d : Gicd) : Gicd :=
  ((d.write32 0x104 2).write8 0x821 0x01).write8 0x421 0xA0

/-- The distributor stores of `handle_wfi`. -/
def wfiStores (d : Gicd) : Gicd :=
  (((d.write32 0x104 2).write32 0x820 0x00010000).write32 0x420 0x00A00000).write32 0x280 0xFFFF

section Spi33

variable (d : Gicd)

theorem cell_write32 {off k : Nat} (hoff : off ≠ 0xF00) (hk : IsCell k) (v : BitVec 32) :
    (d.write32 off v).cell k = storedByte off (bytes32 v) k (d.cell k) := by
  rw [write32_eq d hoff, cell_writeBytes d off _ hk]

theorem cell_write32_of_apart {off k : Nat} (hoff : off ≠ 0xF00) (hk : IsCell k) (v : BitVec 32)
    (h : k < off ∨ off + 4 ≤ k) : (d.write32 off v).cell k = d.cell k := by
  rw [cell_write32 d hoff hk, storedByte_of_apart _ h]

theorem cell_pl011Stores {k : Nat} (hk : IsCell k) :
    d.pl011Stores.cell k = if k = 0x421 then 0xA0 else if k = 0x821 then 0x01 else d.cell k := by
  have hapart : k < 0x104 ∨ 0x104 + 4 ≤ k := by
    unfold IsCell at hk
    omega
  rw [pl011Stores, write8, write8, cell_writeByte _ _ _ hk, cell_writeByte _ _ _ hk,
    cell_write32_of_apart d (by decide) hk _ hapart]

theorem cell_wfiStores {k : Nat} (hk : IsCell k) :
    d.wfiStores.cell k
      = storedByte 0x420 [0, 0, 0xA0, 0] k (storedByte 0x820 [0, 0, 0x01, 0] k (d.cell k)) := by
  have hen : k < 0x104 ∨ 0x104 + 4 ≤ k := by
    unfold IsCell at hk
    omega
  have hpend : k < 0x280 ∨ 0x280 + 4 ≤ k := by
    unfold IsCell at hk
    omega
  rw [wfiStores, cell_write32_of_apart _ (by decide) hk _ hpend, cell_write32 _ (by decide) hk,
    cell_write32 _ (by decide) hk, cell_write32_of_apart _ (by decide) hk _ hen]
  rfl

theorem enable_write32_set {off : Nat} (hlo : 0x100 ≤ off) (hhi : off + 4 ≤ 0x180) (v : BitVec 32)
    (k : Nat) :
    (d.write32 off v).enable k = d.enable k ||| storedByte off (bytes32 v) (0x100 + k) 0#8 := by
  rw [write32_eq d (by omega), enable_writeBytes_set d off (bytes32 v) hlo hhi]

theorem enable_pl011Stores (k : Nat) :
    d.pl011Stores.enable k = d.enable k ||| storedByte 0x104 (bytes32 2) (0x100 + k) 0#8 := by
  rw [pl011Stores, write8, write8, enable_writeByte_of_apart _ (by decide),
    enable_writeByte_of_apart _ (by decide), enable_write32_set d (by decide) (by decide)]

theorem enable_wfiStores (k : Nat) :
    d.wfiStores.enable k = d.enable k ||| storedByte 0x104 (bytes32 2) (0x100 + k) 0#8 := by
  rw [wfiStores, write32_eq _ (by decide), enable_writeBytes_of_apart _ _ _ (by decide),
    write32_eq _ (by decide), enable_writeBytes_of_apart _ _ _ (by decide),
    write32_eq _ (by decide), enable_writeBytes_of_apart _ _ _ (by decide),
    enable_write32_set d (by decide) (by decide)]

end Spi33

theorem readByte_of_isCell (d : Gicd) {k : Nat} (h : IsCell k) : d.readByte k = d.cell k := by
  unfold readByte
  rcases h with h | ⟨hlo, hhi⟩ | ⟨hlo, hhi⟩
  · rw [if_pos (by omega)]
  · rw [if_pos hhi]
  · iterate 7 rw [if_neg (by omega)]
    rw [if_pos hhi]

end Gicd

theorem wfiPoll_gicd (m : Machine) : (wfiPoll m).gicd = m.gicd := by
  unfold wfiPoll
  simp only
  split_ifs <;> rfl

theorem handleWfi_gicd (m : Machine) : (handleWfi m).gicd = m.gicd.wfiStores :=
  wfiPoll_gicd (wfiHeartbeat m)

/-! ## What they leave -/

/-- `d'` is `d` with SPI 33 armed: enabled, targeted at CPU 0, priority
`0xA0`, and the targets and priorities that share its registers as they
were. -/
structure Spi33Armed (d d' : Gicd) : Prop where
  enabled : (d'.readByte 0x104).getLsbD 1 = true
  target : d'.readByte (0x800 + 33) = 0x01
  priority : d'.readByte (0x400 + 33) = 0xA0
  otherTargets : ∀ n ∈ [32, 34, 35], d'.readByte (0x800 + n) = d.readByte (0x800 + n)
  otherPriorities : ∀ n ∈ [32, 34, 35], d'.readByte (0x400 + n) = d.readByte (0x400 + n)

theorem readByte_pl011Stores (d : Gicd) {k : Nat} (hk : Gicd.IsCell k) (hpri : k ≠ 0x421)
    (htgt : k ≠ 0x821) : d.pl011Stores.readByte k = d.readByte k := by
  rw [Gicd.readByte_of_isCell _ hk, Gicd.readByte_of_isCell _ hk, d.cell_pl011Stores hk,
    if_neg hpri, if_neg htgt]

theorem pl011Stores_armed (d : Gicd) : Spi33Armed d d.pl011Stores where
  enabled := by
    have hen : d.pl011Stores.readByte 0x104 = d.pl011Stores.enable 4 := rfl
    rw [hen, d.enable_pl011Stores, BitVec.getLsbD_or]
    exact Bool.or_true _
  target := by
    rw [Gicd.readByte_of_isCell _ (by decide), d.cell_pl011Stores (by decide)]
    rfl
  priority := by
    rw [Gicd.readByte_of_isCell _ (by decide), d.cell_pl011Stores (by decide)]
    rfl
  otherTargets := by
    intro n hn
    simp only [List.mem_cons, List.not_mem_nil, or_false] at hn
    exact readByte_pl011Stores d (.inr (.inr (by omega))) (by omega) (by omega)
  otherPriorities := by
    intro n hn
    simp only [List.mem_cons, List.not_mem_nil, or_false] at hn
    exact readByte_pl011Stores d (.inr (.inr (by omega))) (by omega) (by omega)

/-- `handle_wfi` disarms what the comment beside it says it arms: byte lane 1
of the word it stores to `GICD_ITARGETSR8` is zero. -/
theorem wfiStores_target (d : Gicd) : d.wfiStores.readByte (0x800 + 33) = 0 := by
  rw [Gicd.readByte_of_isCell _ (by decide), d.cell_wfiStores (by decide)]
  rfl

theorem wfiStores_not_armed (d : Gicd) : ¬ Spi33Armed d d.wfiStores := by
  intro h
  have htarget := h.target
  rw [wfiStores_target] at htarget
  exact absurd htarget (by decide)

/-- **SPI 33 after a WFI.** The byte stores of the other two sequences arm
SPI 33 from every distributor state; the word stores of `handle_wfi` put
the values into the lane of INTID 34 and do so from none. -/
theorem wfi_never_arms (m : Machine) :
    ¬ Spi33Armed m.gicd (handleWfi m).gicd
      ∧ Spi33Armed m.gicd (reassertPl011Rx m).gicd
      ∧ Spi33Armed m.gicd (pl011RxReassert m).gicd := by
  rw [handleWfi_gicd]
  exact ⟨wfiStores_not_armed m.gicd, pl011Stores_armed m.gicd, pl011Stores_armed m.gicd⟩

/-- From the reset state, a WFI retargets INTID 34 and leaves 33 without a target. -/
theorem wfi_targets_spi34 :
    ¬ Spi33Armed (default : Machine).gicd (handleWfi default).gicd
      ∧ (handleWfi default).gicd.readByte (0x800 + 33) = 0
      ∧ (handleWfi default).gicd.readByte (0x800 + 34) = 0x01
      ∧ (default : Machine).gicd.readByte (0x800 + 34) = 0 := by
  rw [handleWfi_gicd]
  refine ⟨wfiStores_not_armed _, wfiStores_target _, ?_, rfl⟩
  rw [Gicd.readByte_of_isCell _ (by decide), Gicd.cell_wfiStores _ (by decide)]
  rfl

end ArmHyp
