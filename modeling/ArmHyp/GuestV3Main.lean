import ArmHyp.GuestV3Run
import ArmHyp.Overlay

/-!
# The guest as a whole

From `guest_v3_start` to the `wfe` loop (`runs_start`), and from a virtual
IRQ in the loop to the end (`runs_irq`): with `OneShot`, what the guest does
under every order of instructions and interrupts.
-/

namespace ArmHyp

namespace GuestV3

open Asm AsmSource AsmRun VirtIf

/-! ## Where things are -/

theorem codeAt_start : CodeAt image 0 (blocks startCode) := codeAt_listing (i := 0) rfl

theorem codeAt_banner : CodeAt image 0x74 (blocks bannerCode) := codeAt_listing (i := 4) rfl

theorem codeAt_irqEntry : CodeAt image 0xB4 (blocks irqEntryCode) := codeAt_listing (i := 5) rfl

theorem lookup_irqSlot : image.lookup 0xA80 = some (.ctl (.b 0xB4)) := assembled.2.2.2.2.1

/-! ## Strings -/

section Strings

variable {L : Link} {μ : WrapMem}

theorem cstrAt_of_bytes {s : List (BitVec 8)} {off : Nat} (hs : ∀ b ∈ s, b ≠ 0)
    (hend : off + s.length < size source)
    (h : ∀ k (hk : k < (s ++ [0]).length),
      μ (L.base + BitVec.ofNat 64 (off + k)) = (s ++ [0]).get ⟨k, hk⟩) :
    CStrAt L μ off s := by
  induction s generalizing off with
  | nil => exact ⟨hend, h 0 (by decide)⟩
  | cons b s ih =>
      rw [List.length_cons] at hend
      refine ⟨by omega, h 0 (by simp), hs b List.mem_cons_self, ih ?_ (by omega) ?_⟩
      · exact fun b' hb' => hs b' (List.mem_cons_of_mem b hb')
      · intro k hk
        have hnext := h (k + 1) (by simpa using hk)
        rw [show off + (k + 1) = off + 1 + k by omega] at hnext
        exact hnext

/-- The data lie one after another below the stack, with one NUL each, at the
end. -/
theorem data_wf :
    (data 0 source).Pairwise (fun d e => d.1 + d.2.length ≤ e.1)
      ∧ ∀ d ∈ data 0 source,
        d.1 + d.2.length ≤ 0x1050 ∧ d.2.dropLast.all (· != 0) = true := by
  rw [data_source]
  decide +kernel

/-- A string of the file, in memory. -/
theorem Loaded.cstrAt (h : Loaded L μ) {off : Nat} {s : String}
    (hmem : (off, asciz s) ∈ data 0 source) : CStrAt L μ off (chars s) := by
  obtain ⟨hend, hs⟩ := data_wf.2 _ hmem
  rw [asciz, List.dropLast_concat] at hs
  rw [asciz, List.length_append, List.length_singleton] at hend
  refine cstrAt_of_bytes (fun b hb => ?_) ?_ (h _ hmem)
  · exact bne_iff_ne.mp (List.all_eq_true.mp hs b hb)
  · rw [size_source]
    omega

theorem Loaded.cstrAt_banner (h : Loaded L μ) : CStrAt L μ 0x88 (chars bannerText) := by
  refine h.cstrAt ?_
  rw [data_source]
  exact .head _

theorem Loaded.cstrAt_gotIrq (h : Loaded L μ) : CStrAt L μ 0x15C (chars gotIrqText) := by
  refine h.cstrAt ?_
  rw [data_source]
  exact .tail _ (.head _)

theorem Loaded.cstrAt_done (h : Loaded L μ) : CStrAt L μ 0x170 (chars doneText) := by
  refine h.cstrAt ?_
  rw [data_source]
  exact .tail _ (.tail _ (.head _))

/-- The lengths of the texts. -/
theorem length_texts :
    (chars bannerText).length = 41 ∧ (chars gotIrqText).length = 18
      ∧ (chars doneText).length = 42 ∧ (chars badMsgText).length = 23
      ∧ (chars badEsrText).length = 11 := by
  decide +kernel

theorem length_banner : (chars bannerText).length = 41 := length_texts.1

theorem length_gotIrq : (chars gotIrqText).length = 18 := length_texts.2.1

theorem length_done : (chars doneText).length = 42 := length_texts.2.2.1

/-- A store to the stack leaves the strings alone. -/
theorem Loaded.write64 (h : Loaded L μ) {off : Nat} (hlo : 0x1050 ≤ off) (hhi : off + 8 ≤ 0x2050)
    (v : BitVec 64) : Loaded L (μ.write64 (L.base + BitVec.ofNat 64 off) v) := by
  intro d hd k hk
  have hbelow := (data_wf.2 d hd).1
  have hout : ¬(L.base + BitVec.ofNat 64 (d.1 + k) - (L.base + BitVec.ofNat 64 off)).toNat < 8 := by
    simp only [BitVec.toNat_sub, BitVec.toNat_add, BitVec.toNat_ofNat]
    omega
  rw [← h d hd k hk, WrapMem.write64, if_neg hout]

/-- The bytes of one directive, by offset. -/
def dataPatch (d : Nat × List (BitVec 8)) (a : Nat) : Option (BitVec 8) :=
  if d.1 ≤ a then d.2[a - d.1]? else none

theorem dataPatch_of_not {d : Nat × List (BitVec 8)} {a : Nat}
    (h : ¬(d.1 ≤ a ∧ a < d.1 + d.2.length)) :
    dataPatch d a = none := by
  rw [dataPatch]
  split_ifs with hle
  · exact List.getElem?_eq_none (by omega)
  · rfl

/-- Memory with the file at `L` and zeros elsewhere. -/
def fileMem (L : Link) : WrapMem := fun a =>
  overlay (fun _ => 0) ((data 0 source).map dataPatch) (a - L.base).toNat

theorem loaded_fileMem (L : Link) : Loaded L (fileMem L) := by
  intro d hd k hk
  have hback : (L.base + BitVec.ofNat 64 (d.1 + k) - L.base).toNat = d.1 + k := by
    have hend := (data_wf.2 d hd).1
    rw [BitVec.add_comm, BitVec.add_sub_cancel, BitVec.toNat_ofNat, Nat.mod_eq_of_lt (by omega)]
  have hbyte : dataPatch d (d.1 + k) = some (d.2.get ⟨k, hk⟩) := by
    rw [dataPatch, if_pos (Nat.le_add_right _ _), Nat.add_sub_cancel_left]
    exact List.getElem?_eq_getElem hk
  rw [fileMem, hback]
  refine overlay_of_mem ?_ (List.mem_map_of_mem hd) hbyte
  -- the directives do not overlap, so that only one of them has this byte
  refine List.pairwise_map.mpr (data_wf.1.imp fun {e f} hef => ?_)
  by_cases hin : e.1 ≤ d.1 + k ∧ d.1 + k < e.1 + e.2.length
  · exact .inr (dataPatch_of_not (by omega))
  · exact .inl (dataPatch_of_not hin)

end Strings

/-- A place in RAM. -/
def ramLink : Link where
  base := 0x40100000
  aligned := by decide
  ram := by
    rw [size_source]
    decide

/-! ## Up to the wait -/

/-- Handed over to the guest: at `guest_v3_start` with everything masked, and
interrupt `n` in the list register. -/
structure Fresh (L : Link) (n : BitVec 32) (c : Cpu) : Prop where
  daif : c.daif = 0xF
  loaded : Loaded L c.mem
  waiting : c.vif.Waiting n
  seen : c.seen = []

/-- In the `wfe` loop, with IRQs unmasked. -/
structure Ready (L : Link) (n : BitVec 32) (c : Cpu) : Prop where
  daif : c.daif = 0xD
  vbarEl1 : c.vbarEl1 = L.base + BitVec.ofNat 64 0x800
  sp : c.sp = L.base + BitVec.ofNat 64 0x2050
  loaded : Loaded L c.mem
  signals : c.vif.signals = true
  intid : lrVintid c.vif.lr0 = n
  idle : c.vif.active = []
  seen : c.seen = (chars bannerText).map .tx

/-- At either instruction of the loop at `off`. -/
def Looping (L : Link) (off : Nat) (P : Cpu → Prop) (s : State) : Prop :=
  At L off P s ∨ At L (off + 4) P s

theorem Looping.cpu {L : Link} {off : Nat} {P : Cpu → Prop} {s : State} (h : Looping L off P s) :
    P s.2 := by
  rcases h with ⟨c, rfl, hc⟩ | ⟨c, rfl, hc⟩ <;> exact hc

theorem quiet_of_daif {c : Cpu} (h : c.daif = 0xF) : Quiet c := by
  rw [Quiet, h]
  rfl

section Start

variable {L : Link} {n : BitVec 32} {c : Cpu}

/-- `guest_v3_banner`: it uses `x29` for its return address. -/
theorem runs_banner {r : Nat} (hc : Quiet c) (hret : c.x 30 = L.base + BitVec.ofNat 64 r)
    (hloaded : Loaded L c.mem) :
    Runs L (At L r (Sent (chars bannerText) (c.setX 29 (c.x 30)))) 176 (atOff L.base 0x74 c) := by
  obtain ⟨hops, hbl, hrest⟩ := codeAt_blocks.mp codeAt_banner
  obtain ⟨hmov, hcodeRet, -⟩ := codeAt_blocks.mp hrest
  have hstr := hloaded.cstrAt_banner
  refine ops_then (n := 174) hops rfl (by decide) hc rfl fun hq => ?_
  have hsent := ((Sent.refl (c.setX 29 (c.x 30))).setX (i := 0) (by decide)
    (L.base + BitVec.ofNat 64 0x88)).setX (i := 30) (by decide) (L.base + BitVec.ofNat 64 0x80)
  have hputs := runs_call hbl (by decide) hq (runs_puts hsent hq.setX rfl rfl hstr)
  rw [length_banner] at hputs
  refine hputs.andThen (m := 2) ?_
  rintro _ ⟨d, rfl, hd⟩
  refine ops_then (n := 1) hmov rfl (by decide) (hd.quiet hc) rfl fun hq' => ?_
  refine runs_ret hcodeRet (by decide) hq' ?_ (hd.setX (by decide) _)
  exact (hd.x 29 (by decide)).trans hret

theorem runs_start (h : Fresh L n c) :
    Runs L (Looping L 0x3C (Ready L n)) 191 (atOff L.base 0 c) := by
  obtain ⟨hops, hbl, hrest⟩ := codeAt_blocks.mp codeAt_start
  obtain ⟨-, hclr, -⟩ := codeAt_blocks.mp hrest
  have hc := quiet_of_daif h.daif
  obtain ⟨d, hrun, hdaif, hmem, hseen, hvbar, hsp, hvif⟩ : ∃ d, (isa L).ops [.adr 0 0x2050,
      .movSp 0, .adr 0 0x800, .msr .vbarEl1 0, .isb, .movImm 0 1, .msr .iccSreEl1 0, .isb,
      .movImm 0 0xFF, .msr .iccPmrEl1 0, .movImm 0 1, .msr .iccIgrpen1El1 0, .isb] c = some d
      ∧ d.daif = c.daif ∧ d.mem = c.mem ∧ d.seen = c.seen
      ∧ d.vbarEl1 = L.base + BitVec.ofNat 64 0x800 ∧ d.sp = L.base + BitVec.ofNat 64 0x2050
      ∧ d.vif = (c.vif.setPmr 0xFF).setIgrpen1 1 :=
    ⟨_, rfl, rfl, rfl, rfl, rfl, rfl, rfl⟩
  refine ops_then (n := 178) hops rfl (by decide) hc hrun fun hq => ?_
  have hbanner := runs_call hbl (by decide) hq (runs_banner hq.setX rfl (hmem.symm ▸ h.loaded))
  refine hbanner.andThen (m := 1) ?_
  rintro _ ⟨e, rfl, he⟩
  -- everything but the program counter and the mask is as `Ready` has it
  have hready : Ready L n { e with daif := e.daif &&& ~~~0x2 } :=
    { daif := by rw [he.daif]; exact (congrArg (· &&& ~~~(0x2 : BitVec 4)) (hdaif.trans h.daif))
      vbarEl1 := he.vbarEl1.trans hvbar
      sp := he.sp.trans hsp
      loaded := by
        have hmem' : e.mem = c.mem := he.mem.trans hmem
        exact hmem'.symm ▸ h.loaded
      signals := by
        have hvif' : e.vif = (c.vif.setPmr 0xFF).setIgrpen1 1 := he.vif.trans hvif
        exact hvif'.symm ▸ h.waiting.signals
      intid := by
        have hvif' : e.vif = (c.vif.setPmr 0xFF).setIgrpen1 1 := he.vif.trans hvif
        exact hvif'.symm ▸ h.waiting.intid
      idle := by
        have hvif' : e.vif = (c.vif.setPmr 0xFF).setIgrpen1 1 := he.vif.trans hvif
        exact hvif'.symm ▸ h.waiting.idle
      seen := by
        have hseen' : d.seen = [] := hseen.trans h.seen
        exact he.seen.trans (congrArg (· ++ _) hseen') }
  refine ctl_then (n := 0) (e := 0x3C) hclr (by decide) (he.quiet hq) ?_
    (.here (.inl ⟨_, rfl, hready⟩) 0)
  rw [execCtl, pc_next]
  rfl

end Start

/-! ## The interrupt -/

/-- What the guest sends for interrupt `n`: the low byte in two digits. -/
def hexByte (n : BitVec 32) : List (BitVec 8) :=
  [Machine.hexDigit (n.toNat / 16 % 16), Machine.hexDigit (n.toNat % 16)]

/-- All the guest is seen to do about interrupt `n`. -/
def handled (n : BitVec 32) : List Obs :=
  (chars bannerText).map .tx ++ [.iar (n.setWidth 64)]
    ++ (chars gotIrqText ++ hexByte n ++ [0x0A]).map .tx
    ++ [.eoir (n.setWidth 64)] ++ (chars doneText).map .tx

/-- In the last loop: everything is masked, and the interrupt is gone. -/
structure Finished (n : BitVec 32) (c : Cpu) : Prop where
  daif : c.daif = 0xF
  seen : c.seen = handled n
  state : lrState c.vif.lr0 = 0
  idle : c.vif.active = []

section Irq

variable {L : Link} {n : BitVec 32} {c : Cpu}

theorem vbar_base (L : Link) :
    (L.base + BitVec.ofNat 64 0x800) >>> 11 <<< 11 = L.base + BitVec.ofNat 64 0x800 := by
  have haligned := L.aligned
  have hram := L.ram.2
  apply BitVec.eq_of_toNat_eq
  rw [BitVec.toNat_shiftLeft, BitVec.toNat_ushiftRight, Nat.shiftRight_eq_div_pow,
    Nat.shiftLeft_eq, BitVec.toNat_add, BitVec.toNat_ofNat]
  omega

/-- With the vectors installed, an exception enters the file at its slot. -/
theorem enter_eq {s : State} (h : s.2.vbarEl1 = L.base + BitVec.ofNat 64 0x800) (k : Nat) :
    enter k s = atOff L.base (0x800 + 0x80 * k)
      { s.2 with elrEl1 := s.1, spsrEl1 := packSpsr s.2.nzcv s.2.daif, daif := 0xF } := by
  have hpc : s.2.vbarEl1 >>> 11 <<< 11 + BitVec.ofNat 64 (0x80 * k)
      = L.base + BitVec.ofNat 64 (0x800 + 0x80 * k) := by
    rw [h, vbar_base, BitVec.add_assoc, ← BitVec.ofNat_add]
  rw [enter, hpc]
  rfl

/-- What an `eret` makes of the `PSTATE` an exception saved. -/
theorem packSpsr_fields (nzcv daif : BitVec 4) : isEl1h (packSpsr nzcv daif) = true
    ∧ spsrNzcv (packSpsr nzcv daif) = nzcv ∧ spsrDaif (packSpsr nzcv daif) = daif := by
  revert nzcv daif
  decide

/-- A virtual IRQ in the loop enters the file at the IRQ slot. -/
theorem virq_ready {off : Nat} (h : Ready L n c) :
    virq (atOff L.base off c) = atOff L.base 0xA80
      { c with
        elrEl1 := L.base + BitVec.ofNat 64 off,
        spsrEl1 := packSpsr c.nzcv c.daif,
        daif := 0xF } := by
  have hmask : ¬Quiet c := by
    rw [Quiet, h.daif]
    decide
  have henter := enter_eq (L := L) (s := atOff L.base off c) h.vbarEl1 5
  simp only [virq, atOff, if_neg hmask, h.signals, if_true]
  exact henter

/-- A pair stored on the handler's frame. -/
theorem execOp_stp {t u : Fin 31} {k : Nat} (hsp : c.sp = L.base + BitVec.ofNat 64 0x2010)
    (hk : k + 16 ≤ 0x40) (hloaded : Loaded L c.mem) :
    ∃ μ, execOp L (.stp t u k) c = some { c with mem := μ } ∧ Loaded L μ := by
  have haddr : ∀ j, c.addr j = L.base + BitVec.ofNat 64 (0x2010 + j) := by
    intro j
    rw [Cpu.addr, hsp, BitVec.ofNat_add, BitVec.add_assoc]
  have hin : inFile L (sym .guestV3StackBottom) 16 (c.addr k) = true := by
    rw [haddr, sym_stackBottom]
    exact inFile_atOff _ _ (by omega) (by rw [size_source]; omega)
  refine ⟨(c.mem.write64 (c.addr k) (c.x t)).write64 (c.addr (k + 8)) (c.x u), ?_, ?_⟩
  · rw [execOp, if_pos hin]
  · rw [haddr, haddr]
    exact (hloaded.write64 (by omega) (by omega) _).write64 (by omega) (by omega) _

/-- The handler's prologue. -/
theorem ops_prologue (hsp : c.sp = L.base + BitVec.ofNat 64 0x2050) (hloaded : Loaded L c.mem) :
    ∃ μ, (isa L).ops [.subSp 64, .stp 0 1 0, .stp 2 3 16, .stp 29 30 32] c
        = some { c with sp := L.base + BitVec.ofNat 64 0x2010, mem := μ }
      ∧ Loaded L μ := by
  have hsub : c.sp - BitVec.ofNat 64 64 = L.base + BitVec.ofNat 64 0x2010 := by
    rw [hsp, show (0x2050 : Nat) = 0x2010 + 64 from rfl, BitVec.ofNat_add, ← BitVec.add_assoc,
      BitVec.add_sub_cancel]
  obtain ⟨μ, hstp, hμ⟩ := execOp_stp (t := 0) (u := 1) (k := 0)
    (c := { c with sp := L.base + BitVec.ofNat 64 0x2010 }) rfl (by decide) hloaded
  obtain ⟨μ', hstp', hμ'⟩ := execOp_stp (t := 2) (u := 3) (k := 16)
    (c := { c with sp := L.base + BitVec.ofNat 64 0x2010, mem := μ }) rfl (by decide) hμ
  obtain ⟨μ'', hstp'', hμ''⟩ := execOp_stp (t := 29) (u := 30) (k := 32)
    (c := { c with sp := L.base + BitVec.ofNat 64 0x2010, mem := μ' }) rfl (by decide) hμ'
  refine ⟨μ'', ?_, hμ''⟩
  rw [ops_cons, execOp, hsub, Option.bind_some, ops_cons, hstp, Option.bind_some, ops_cons, hstp',
    Option.bind_some, ops_single, hstp'']

section Digits

variable (n : BitVec 32)

theorem toNat_and_byte : (n.setWidth 64 &&& 0xFF).toNat = n.toNat % 256 := by
  rw [BitVec.toNat_and, BitVec.toNat_setWidth, Nat.mod_eq_of_lt (by omega)]
  exact Nat.and_two_pow_sub_one_eq_mod n.toNat 8

/-- The digits of `hexByte` as the handler computes them. -/
theorem high_digit :
    (n.setWidth 64 &&& 0xFF) >>> 4 = BitVec.ofNat 64 (n.toNat / 16 % 16) := by
  apply BitVec.eq_of_toNat_eq
  rw [BitVec.toNat_ushiftRight, toNat_and_byte, Nat.shiftRight_eq_div_pow, BitVec.toNat_ofNat]
  omega

theorem low_digit :
    n.setWidth 64 &&& 0xFF &&& 0xF = BitVec.ofNat 64 (n.toNat % 16) := by
  apply BitVec.eq_of_toNat_eq
  have hlow := Nat.and_two_pow_sub_one_eq_mod (n.toNat % 256) 4
  rw [BitVec.toNat_and, toNat_and_byte, BitVec.toNat_ofNat]
  change n.toNat % 256 &&& 15 = _ at hlow
  change n.toNat % 256 &&& 15 = _
  omega

end Digits

/-- `ICC_IAR1_EL1` is read, and compared with the spurious INTID. -/
theorem ops_readIar (L : Link) (c : Cpu) : ∃ d, (isa L).ops
      [.mrs 19 .iccIar1El1, .andImm 20 19 0xFFFFFF, .movImm 21 1023, .cmpReg 20 21] c = some d
    ∧ d.daif = c.daif ∧ d.mem = c.mem ∧ d.vif = c.vif.acknowledge.2
    ∧ d.x 19 = c.vif.acknowledge.1 ∧ d.seen = c.seen ++ [.iar c.vif.acknowledge.1]
    ∧ d.nzcv = cmpFlags (c.vif.acknowledge.1 &&& 0xFFFFFF) 1023 :=
  ⟨_, rfl, rfl, rfl, rfl, rfl, rfl, rfl⟩

/-- The entry of the handler, up to the branch that tells a spurious interrupt. -/
theorem runs_entry {C : State → Prop} {m : Nat} (hq : Quiet c)
    (hsp : c.sp = L.base + BitVec.ofNat 64 0x2050) (hloaded : Loaded L c.mem)
    (hack : c.vif.acknowledge.1 = n.setWidth 64) (hn : n.toNat < 1020)
    (hrest : ∀ d, Quiet d → d.daif = c.daif → Loaded L d.mem → d.vif = c.vif.acknowledge.2 →
      d.x 19 = n.setWidth 64 → d.seen = c.seen ++ [.iar (n.setWidth 64)] →
      Runs L C m (atOff L.base 0xD8 d)) :
    Runs L C (9 + m) (atOff L.base 0xB4 c) := by
  obtain ⟨⟨h0, h1, h2, h3, h4, h5, h6, h7, -⟩, hbeq, -⟩ := codeAt_blocks.mp codeAt_irqEntry
  obtain ⟨μ, hrun, hμ⟩ := ops_prologue hsp hloaded
  have hbound : 9 + m = 4 + (4 + (1 + m)) := by omega
  rw [hbound]
  refine ops_then (l := [_, _, _, _]) ⟨h0, h1, h2, h3, trivial⟩ rfl (by decide) hq hrun
    fun hq' => ?_
  obtain ⟨d, hrun', hdaif, hmem, hvif, h19, hseen, hflag⟩ :=
    ops_readIar L { c with sp := L.base + BitVec.ofNat 64 0x2010, mem := μ }
  rw [hack] at h19 hseen hflag
  refine ops_then (l := [_, _, _, _]) ⟨h4, h5, h6, h7, trivial⟩ rfl (by decide) hq' hrun'
    fun hq'' => ?_
  refine fall_then hbeq (by decide) hq'' ?_ (hrest d hq'' hdaif (hmem.symm ▸ hμ) hvif h19 hseen)
  have hne : n.setWidth 64 &&& 0xFFFFFF ≠ 1023 := by
    intro heq
    have hnat := congrArg BitVec.toNat heq
    rw [BitVec.toNat_and, BitVec.toNat_setWidth, Nat.mod_eq_of_lt (by omega)] at hnat
    have hlow := Nat.and_two_pow_sub_one_eq_mod n.toNat 24
    change n.toNat &&& 16777215 = 1023 at hnat
    change n.toNat &&& 16777215 = _ at hlow
    omega
  rw [execCtl, hflag, (cmpFlags_bits _ _).2, decide_eq_false hne, if_neg (by decide)]

/-- The digits and the newline, from the text to the completion. -/
theorem runs_digits {C : State → Prop} {m : Nat} (hc : Quiet c) (hn : c.x 19 = n.setWidth 64)
    (hrest : ∀ d, Quiet d → Sent (hexByte n ++ [0x0A]) (c.setX 20 (c.x 19 &&& 0xFF)) d →
      Runs L C m (atOff L.base 0xFC d)) :
    Runs L C (28 + m) (atOff L.base 0xE0 c) := by
  obtain ⟨-, -, hcode⟩ := codeAt_blocks.mp codeAt_irqEntry
  obtain ⟨-, -, hcode⟩ := codeAt_blocks.mp hcode
  obtain ⟨hhigh, hblHigh, hcode⟩ := codeAt_blocks.mp hcode
  obtain ⟨hlow, hblLow, hcode⟩ := codeAt_blocks.mp hcode
  obtain ⟨hnl, hblNl, -⟩ := codeAt_blocks.mp hcode
  have hbound : 28 + m = 2 + 10 + (1 + 10 + (1 + (1 + 3 + m))) := by omega
  have hx20 : (c.setX 20 (c.x 19 &&& 0xFF)).x 20 = n.setWidth 64 &&& 0xFF := by
    rw [← hn]
    rfl
  have hx0 : ((c.setX 20 (c.x 19 &&& 0xFF)).setX 0 ((c.x 19 &&& 0xFF) >>> 4)).x 0
      = BitVec.ofNat 64 (n.toNat / 16 % 16) := by
    rw [← high_digit, ← hn]
    rfl
  have hstart := (Sent.refl (c.setX 20 (c.x 19 &&& 0xFF))).setX (i := 0) (by decide)
    ((c.x 19 &&& 0xFF) >>> 4)
  rw [hbound]
  refine (runs_digit hhigh rfl (by decide) hblHigh hc rfl hstart (Nat.mod_lt _ (by decide))
    hx0).andThen ?_
  rintro _ ⟨d, rfl, hd⟩
  have hdx0 : d.x 20 &&& 0xF = BitVec.ofNat 64 (n.toNat % 16) := by
    rw [hd.x 20 (by decide), hx20, low_digit]
  refine (runs_digit hlow rfl (by decide) hblLow (hd.quiet hc) rfl (hd.setX (by decide) _)
    (Nat.mod_lt _ (by decide)) hdx0).andThen ?_
  rintro _ ⟨e, rfl, he⟩
  refine ops_then hnl rfl (by decide) (he.quiet hc) rfl fun hq => ?_
  refine (runs_call hblNl (by decide) hq
    (runs_putc ((he.setX (by decide) _).setX (by decide) _) hq.setX rfl)).andThen ?_
  rintro _ ⟨f, rfl, hf⟩
  exact hrest f (hf.quiet hc) hf

/-- From a virtual IRQ in the loop to the end: 385 instructions at most. -/
theorem runs_irq {off : Nat} (h : Ready L n c) (hn : n.toNat < 1020) :
    Runs L (Looping L 0x110 (Finished n)) 385 (virq (atOff L.base off c)) := by
  obtain ⟨-, -, hcode⟩ := codeAt_blocks.mp codeAt_irqEntry
  obtain ⟨hgot, hblGot, hcode⟩ := codeAt_blocks.mp hcode
  obtain ⟨-, -, hcode⟩ := codeAt_blocks.mp hcode
  obtain ⟨-, -, hcode⟩ := codeAt_blocks.mp hcode
  obtain ⟨-, -, hcode⟩ := codeAt_blocks.mp hcode
  obtain ⟨heoi, hblDone, hcode⟩ := codeAt_blocks.mp hcode
  obtain ⟨⟨hmask, -⟩, -⟩ := codeAt_blocks.mp hcode
  obtain ⟨hack, hstate, hidle⟩ := complete_acknowledge h.signals h.intid h.idle hn
  rw [virq_ready h]
  -- 1 and 9 to read the interrupt, 81 for the text, 28 for the digits, 179 and 1 for the end
  refine Within.mono (n := 1 + (9 + (1 + (1 + (4 * 18 + 7) + (28 + (3 + (1 + (4 * 42 + 7) + 1)))))))
    (by decide) ?_
  have hall : (0xF : BitVec 4).getLsbD 1 = true := rfl
  refine jump_then lookup_irqSlot (by decide) hall rfl ?_
  refine runs_entry hall h.sp h.loaded hack hn fun d hq hdaif hloaded hvif h19 hseen => ?_
  refine ops_then hgot rfl (by decide) hq rfl fun hq => ?_
  have hgot := runs_call hblGot (by decide) hq (runs_puts
    (((Sent.refl d).setX (i := 0) (by decide) _).setX (i := 30) (by decide) _) hq.setX rfl rfl
    hloaded.cstrAt_gotIrq)
  rw [length_gotIrq] at hgot
  refine hgot.andThen ?_
  rintro _ ⟨e, rfl, he⟩
  refine runs_digits (he.quiet hq) ((he.x 19 (by decide)).trans h19) fun f hq hf => ?_
  have hf19 : f.x 19 = n.setWidth 64 :=
    (hf.x 19 (by decide)).trans ((he.x 19 (by decide)).trans h19)
  have hfmem : f.mem = d.mem := hf.mem.trans he.mem
  have hfseen : f.seen = c.seen ++ [.iar (n.setWidth 64)]
      ++ (chars gotIrqText ++ hexByte n ++ [0x0A]).map .tx := by
    have hseen' : f.seen = e.seen ++ (hexByte n ++ [0x0A]).map .tx := hf.seen
    rw [hseen', he.seen, hseen]
    simp only [List.map_append, List.append_assoc, List.nil_append]
  refine ops_then heoi rfl (by decide) hq rfl fun hq => ?_
  have hdone := runs_call hblDone (by decide) hq (runs_puts
    (((Sent.refl (f.msr (f.x 19) .iccEoir1El1)).setX (i := 0) (by decide) _).setX (i := 30)
      (by decide) _) hq.setX rfl rfl (hfmem.symm ▸ hloaded.cstrAt_done))
  rw [length_done] at hdone
  refine hdone.andThen ?_
  rintro _ ⟨g, rfl, hg⟩
  have hfinished : Finished n { g with daif := g.daif ||| 0xF } :=
    { daif := by
        change g.daif ||| BitVec.allOnes 4 = BitVec.allOnes 4
        exact BitVec.or_allOnes
      seen := by
        have hgseen : g.seen = f.seen ++ [.eoir (f.x 19)] ++ (chars doneText).map .tx := hg.seen
        change g.seen = handled n
        rw [hgseen, hfseen, hf19, h.seen]
        rfl
      state := by
        have hgvif : g.vif = f.vif.complete (f.x 19) := hg.vif
        have hfvif : f.vif = c.vif.acknowledge.2 := (hf.vif.trans he.vif).trans hvif
        change lrState g.vif.lr0 = 0
        rw [hgvif, hf19, hfvif, hstate]
      idle := by
        have hgvif : g.vif = f.vif.complete (f.x 19) := hg.vif
        have hfvif : f.vif = c.vif.acknowledge.2 := (hf.vif.trans he.vif).trans hvif
        change g.vif.active = []
        rw [hgvif, hf19, hfvif, hidle] }
  refine ops_then (n := 0) (l := [_]) ⟨hmask, trivial⟩ rfl (by decide) (hg.quiet hq) rfl
    fun _ => ?_
  exact .here (.inl ⟨_, rfl, hfinished⟩) 0

end Irq

/-! ## Every order of instructions and interrupts -/

section Once

variable {L : Link} {n : BitVec 32}

/-- A `wfe` loop whose states are all in `P`. -/
theorem step_looping {P : Cpu → Prop} {off : Nat}
    (hcode : CodeAt image off (blocks (loopCode off)))
    (hlt : off + 4 < 2 ^ 64) {s : State} (hs : Looping L off P s) :
    ∃ s', step L s = some s' ∧ Looping L off P s' := by
  obtain ⟨⟨hwfe, -⟩, hb, -⟩ := codeAt_blocks.mp hcode
  rcases hs with ⟨c, rfl, hc⟩ | ⟨c, rfl, hc⟩
  · exact ⟨_, step_op (isa L) image L.base (by omega) hwfe c, .inr ⟨c, rfl, hc⟩⟩
  · exact ⟨_, step_ctl (isa L) image L.base hlt hb c, .inl ⟨c, rfl, hc⟩⟩

theorem codeAt_waitLoop : CodeAt image 0x3C (blocks (loopCode 0x3C)) := codeAt_listing (i := 1) rfl

theorem codeAt_doneLoop : CodeAt image 0x110 (blocks (loopCode 0x110)) :=
  codeAt_listing (i := 6) rfl

theorem virq_of_quiet (s : State) (h : Quiet s.2) : virq s = s := if_pos h

/-- The guest takes one interrupt. -/
theorem oneShot (hn : n.toNat < 1020) :
    OneShot (step L) virq (fun s => Quiet s.2) (Looping L 0x3C (Ready L n))
      (Looping L 0x110 (Finished n)) 385 where
  masked := virq_of_quiet
  wait := fun _ => step_looping codeAt_waitLoop (by decide)
  serve := by
    rintro _ (⟨c, rfl, hc⟩ | ⟨c, rfl, hc⟩)
    · exact runs_irq hc hn
    · exact runs_irq hc hn
  stay := by
    intro s hs
    exact ⟨quiet_of_daif hs.cpu.daif, step_looping codeAt_doneLoop (by decide) hs⟩

/-- What has been seen stays. -/
theorem execOp_seen {i : Op Nat} {c d : Cpu} (h : execOp L i c = some d) : c.seen <+: d.seen := by
  cases i with
  | msr r m =>
      obtain rfl := Option.some.inj h
      cases r with
      | iccEoir1El1 => exact List.prefix_append _ _
      | _ => exact List.prefix_refl _
  | mrs t r =>
      obtain rfl := Option.some.inj h
      cases r with
      | iccIar1El1 => exact List.prefix_append _ _
      | esrEl1 => exact List.prefix_refl _
  | strw | ldrb | stp | ldp =>
      simp only [execOp, Option.ite_none_right_eq_some, Option.some.injEq] at h
      obtain ⟨-, rfl⟩ := h
      first
      | exact List.prefix_refl _
      | exact List.prefix_append _ _
  | _ =>
      obtain rfl := Option.some.inj h
      exact List.prefix_refl _

theorem execCtl_seen {i : Ctl Nat} {pc : BitVec 64} {c : Cpu} {s : State}
    (h : execCtl L i pc c = some s) : c.seen <+: s.2.seen := by
  cases i with
  | eret =>
      simp only [execCtl, Option.ite_none_right_eq_some, Option.some.injEq] at h
      obtain ⟨-, rfl⟩ := h
      exact List.prefix_refl _
  | bEq | bHi | cbz =>
      obtain rfl := Option.some.inj h
      split <;> exact List.prefix_refl _
  | _ =>
      obtain rfl := Option.some.inj h
      exact List.prefix_refl _

theorem step_seen (s s' : State) (h : step L s = some s') : s.2.seen <+: s'.2.seen := by
  rw [step, AsmRun.step] at h
  split at h
  · obtain ⟨d, hd, rfl⟩ := Option.map_eq_some_iff.mp h
    exact execOp_seen hd
  · exact execCtl_seen h
  · cases h

end Once

end GuestV3

end ArmHyp
