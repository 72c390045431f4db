import ArmHyp.GuestV3Main

/-!
# The guest's other vectors

Every slot but the IRQ's reports its number and `ESR_EL1` and stays in a
`wfe` loop (`bad_slot_reported`), whatever the guest was doing and whatever
comes after.
-/

namespace ArmHyp

namespace GuestV3

open Asm AsmSource AsmRun

/-! ## Where things are -/

theorem codeAt_slot (k : Fin 16) (hk : k ≠ 5) : CodeAt image (0x800 + 0x80 * k.val)
    (blocks [([.movImm 21 (BitVec.ofNat 64 k.val)], .b 0xF88)]) := assembled.2.2.2.2.2.2 k hk

theorem codeAt_bad : CodeAt image 0xF88 (blocks badCode) := codeAt_listing (i := 9) rfl

theorem lookup_readEsr : image.lookup 0xFB4 = some (.op (.mrs 22 .esrEl1)) :=
  assembled.2.2.2.2.2.1

theorem codeAt_digits : CodeAt image 0xFB8 (blocks (digitBlocks esrShifts)) :=
  codeAt_listing (i := 10) rfl

theorem codeAt_last : CodeAt image 0x100C (blocks lastCode) := codeAt_listing (i := 11) rfl

/-! ## Strings -/

section Strings

variable {L : Link} {μ : WrapMem}

theorem length_badMsg : (chars badMsgText).length = 23 := length_texts.2.2.2.1

theorem length_badEsr : (chars badEsrText).length = 11 := length_texts.2.2.2.2

theorem Loaded.cstrAt_badMsg (h : Loaded L μ) : CStrAt L μ 0x1024 (chars badMsgText) := by
  refine h.cstrAt ?_
  rw [data_source]
  exact .tail _ (.tail _ (.tail _ (.head _)))

theorem Loaded.cstrAt_badEsr (h : Loaded L μ) : CStrAt L μ 0x103C (chars badEsrText) := by
  refine h.cstrAt ?_
  rw [data_source]
  exact .tail _ (.tail _ (.tail _ (.tail _ (.head _))))

end Strings

/-! ## The digits of `ESR_EL1` -/

section Digits

variable {L : Link} {c₀ c : Cpu} {out : List (BitVec 8)}

/-- Bits `sh` to `sh + 3`. -/
def digitAt (v : BitVec 64) (sh : Nat) : BitVec 8 := Machine.hexDigit (v.toNat / 2 ^ sh % 16)

theorem shifted_digit (v : BitVec 64) (sh : Nat) :
    v >>> sh &&& 0xF = BitVec.ofNat 64 (v.toNat / 2 ^ sh % 16) := by
  apply BitVec.eq_of_toNat_eq
  have hlow := Nat.and_two_pow_sub_one_eq_mod (v.toNat / 2 ^ sh) 4
  rw [BitVec.toNat_and, BitVec.toNat_ushiftRight, Nat.shiftRight_eq_div_pow, BitVec.toNat_ofNat,
    Nat.mod_eq_of_lt (by omega)]
  exact hlow

/-- One digit for each shift. -/
theorem runs_digitBlocks {shs : List Nat} {off : Nat}
    (hcode : CodeAt image off (blocks (digitBlocks shs)))
    (hlt : off + 12 * shs.length < 2 ^ 64) (h : Sent out c₀ c) (hc : Quiet c₀) {C : State → Prop}
    {m : Nat}
    (hrest : ∀ d, Sent (out ++ shs.map (digitAt (c₀.x 22))) c₀ d →
      Runs L C m (atOff L.base (off + 12 * shs.length) d)) :
    Runs L C (12 * shs.length + m) (atOff L.base off c) := by
  induction shs generalizing out off c with
  | nil =>
      rw [List.map_nil, List.append_nil] at hrest
      rw [List.length_nil, Nat.mul_zero, Nat.zero_add]
      exact hrest c h
  | cons sh shs ih =>
      rw [List.length_cons] at hlt
      obtain ⟨hops, hbl, hcode'⟩ := codeAt_blocks.mp hcode
      have hbound : 12 * (sh :: shs).length + m = 2 + 10 + (12 * shs.length + m) := by
        rw [List.length_cons]
        omega
      rw [hbound]
      have hx : c.x 22 >>> sh &&& 0xF = BitVec.ofNat 64 ((c₀.x 22).toNat / 2 ^ sh % 16) := by
        rw [h.x 22 (by decide), shifted_digit]
      have hsent := (h.setX (i := 0) (by decide) (c.x 22 >>> sh)).setX (i := 0) (by decide)
        (c.x 22 >>> sh &&& 0xF)
      have hcall := runs_digit (L := L) (e := off + 8) hops rfl (by omega) hbl (h.quiet hc) rfl
        hsent (Nat.mod_lt _ (by decide)) hx
      refine hcall.andThen ?_
      rintro _ ⟨d, rfl, hd⟩
      refine ih hcode' (by omega) hd fun e he => ?_
      have hend : off + 12 + 12 * shs.length = off + 12 * (sh :: shs).length := by
        rw [List.length_cons]
        omega
      rw [List.append_assoc] at he
      exact hend ▸ hrest e he

end Digits

/-! ## The report -/

/-- What slot `k` sends for a syndrome `v`: the slot in two digits and the low
word of the syndrome in eight. -/
def report (k : Nat) (v : BitVec 64) : List (BitVec 8) :=
  chars badMsgText ++ [Machine.hexDigit (k / 16 % 16), Machine.hexDigit (k % 16)]
    ++ chars badEsrText ++ (esrShifts ++ [0]).map (digitAt v) ++ [0x0A]

section Report

variable {L : Link} {c : Cpu}

/-- The slot number. -/
theorem slot_digits {k : Nat} (hk : k < 16) :
    BitVec.ofNat 64 k >>> 4 &&& 0xF = BitVec.ofNat 64 (k / 16 % 16)
      ∧ BitVec.ofNat 64 k &&& 0xF = BitVec.ofNat 64 (k % 16) := by
  revert k
  decide

/-- The first line of `guest_v3_bad`, up to the syndrome. -/
theorem runs_slotNumber {C : State → Prop} {k m : Nat} (hk : k < 16)
    (h21 : c.x 21 = BitVec.ofNat 64 k) (hc : Quiet c) (hloaded : Loaded L c.mem)
    (hrest : ∀ d, Sent (chars badMsgText ++ [Machine.hexDigit (k / 16 % 16),
      Machine.hexDigit (k % 16)] ++ chars badEsrText) c d → Runs L C m (atOff L.base 0xFB4 d)) :
    Runs L C (179 + m) (atOff L.base 0xF88 c) := by
  obtain ⟨hmsg, hblMsg, hcode⟩ := codeAt_blocks.mp codeAt_bad
  obtain ⟨hhigh, hblHigh, hcode⟩ := codeAt_blocks.mp hcode
  obtain ⟨hlow, hblLow, hcode⟩ := codeAt_blocks.mp hcode
  obtain ⟨hesr, hblEsr, -⟩ := codeAt_blocks.mp hcode
  have hbound : 179 + m = 1 + (1 + (4 * 23 + 7) + (3 + 10 + (2 + 10 + (1 + (1 + (4 * 11 + 7)
      + m))))) := by omega
  rw [hbound]
  refine ops_then hmsg rfl (by decide) hc rfl fun hq => ?_
  have hputs := runs_call (L := L) hblMsg (by decide) hq (runs_puts
    (((Sent.refl c).setX (i := 0) (by decide) _).setX (i := 30) (by decide) _) hq.setX rfl rfl
    hloaded.cstrAt_badMsg)
  rw [length_badMsg] at hputs
  refine hputs.andThen ?_
  rintro _ ⟨d, rfl, hd⟩
  have hdx : d.x 21 >>> 4 &&& 0xF = BitVec.ofNat 64 (k / 16 % 16) := by
    rw [hd.x 21 (by decide), h21, (slot_digits hk).1]
  have hdsent := ((hd.setX (i := 0) (by decide) (d.x 21)).setX (i := 0) (by decide)
    (d.x 21 >>> 4)).setX (i := 0) (by decide) (d.x 21 >>> 4 &&& 0xF)
  refine (runs_digit hhigh rfl (by decide) hblHigh (hd.quiet hc) rfl hdsent
    (Nat.mod_lt _ (by decide)) hdx).andThen ?_
  rintro _ ⟨e, rfl, he⟩
  have hex : e.x 21 &&& 0xF = BitVec.ofNat 64 (k % 16) := by
    rw [he.x 21 (by decide), h21, (slot_digits hk).2]
  have hesent := (he.setX (i := 0) (by decide) (e.x 21)).setX (i := 0) (by decide) (e.x 21 &&& 0xF)
  refine (runs_digit hlow rfl (by decide) hblLow (he.quiet hc) rfl hesent
    (Nat.mod_lt _ (by decide)) hex).andThen ?_
  rintro _ ⟨f, rfl, hf⟩
  have hfmem : f.mem = c.mem := hf.mem
  refine ops_then hesr rfl (by decide) (hf.quiet hc) rfl fun hq => ?_
  have hputs := runs_call (L := L) hblEsr (by decide) hq (runs_puts
    ((hf.setX (i := 0) (by decide) _).setX (i := 30) (by decide) _) hq.setX rfl rfl
    (hfmem.symm ▸ hloaded.cstrAt_badEsr))
  rw [length_badEsr] at hputs
  refine hputs.andThen ?_
  rintro _ ⟨g, rfl, hg⟩
  refine hrest g ?_
  simp only [List.nil_append, List.append_assoc, List.cons_append] at hg ⊢
  exact hg

/-- At the end of the report, for ever. -/
structure Reported (seen : List Obs) (c : Cpu) : Prop where
  daif : c.daif = 0xF
  seen : c.seen = seen

/-- The syndrome, and the loop. -/
theorem runs_syndrome (hdaif : c.daif = 0xF) :
    Runs L (Looping L 0x101C (Reported
        (c.seen ++ ((esrShifts ++ [0]).map (digitAt c.esrEl1) ++ [0x0A]).map .tx))) 101
      (atOff L.base 0xFB4 c) := by
  obtain ⟨hlast, hblLast, hcode⟩ := codeAt_blocks.mp codeAt_last
  obtain ⟨hnl, hblNl, -⟩ := codeAt_blocks.mp hcode
  have hc := quiet_of_daif hdaif
  refine ops_then (l := [_]) (n := 100) ⟨lookup_readEsr, trivial⟩ rfl (by decide) hc rfl
    fun hq => ?_
  refine runs_digitBlocks (m := 16) codeAt_digits (by decide) (Sent.refl (c.setX 22 c.esrEl1)) hq
    fun d hd => ?_
  have hdx : d.x 22 &&& 0xF = BitVec.ofNat 64 (c.esrEl1.toNat / 2 ^ 0 % 16) := by
    rw [hd.x 22 (by decide), ← shifted_digit]
    rfl
  refine (runs_digit hlast rfl (by decide) hblLast (hd.quiet hq) rfl (hd.setX (by decide) _)
    (Nat.mod_lt _ (by decide)) hdx).andThen (m := 5) ?_
  rintro _ ⟨e, rfl, he⟩
  refine ops_then (n := 4) hnl rfl (by decide) (he.quiet hq) rfl fun hq' => ?_
  refine (runs_call hblNl (by decide) hq'
    (runs_putc ((he.setX (by decide) _).setX (by decide) _) hq'.setX rfl)).andThen (m := 0) ?_
  rintro _ ⟨f, rfl, hf⟩
  refine .here (.inl ⟨f, rfl, hf.daif.trans hdaif, hf.seen.trans ?_⟩) 0
  rfl

/-- Slot `k`, from its first instruction. -/
theorem runs_slot (k : Fin 16) (hk : k ≠ 5) (hdaif : c.daif = 0xF) (hloaded : Loaded L c.mem) :
    Runs L (Looping L 0x101C (Reported (c.seen ++ (report k.val c.esrEl1).map .tx))) 282
      (atOff L.base (0x800 + 0x80 * k.val) c) := by
  obtain ⟨hmov, hb, -⟩ := codeAt_blocks.mp (codeAt_slot k hk)
  have hlt := k.isLt
  have hc := quiet_of_daif hdaif
  refine ops_then (n := 281) hmov rfl (by simp only [List.length_singleton]; omega) hc rfl
    fun hq => ?_
  refine jump_then (n := 280) hb (by simp only [List.length_singleton]; omega) hq rfl ?_
  refine runs_slotNumber (m := 101) hlt rfl hq hloaded fun d hd => ?_
  have hsyndrome := runs_syndrome (L := L) (hd.daif.trans hdaif)
  rw [hd.seen, hd.esrEl1] at hsyndrome
  simp only [report, List.map_append, List.append_assoc] at hsyndrome ⊢
  exact hsyndrome

theorem codeAt_badLoop : CodeAt image 0x101C (blocks (loopCode 0x101C)) :=
  codeAt_listing (i := 12) rfl

/-- A guest that has reported is not interrupted any more. -/
theorem oneShot_reported (seen : List Obs) (n : Nat) :
    OneShot (step L) virq (fun s => Quiet s.2) (fun _ => False)
      (Looping L 0x101C (Reported seen)) n where
  masked := virq_of_quiet
  wait := fun _ h => h.elim
  serve := fun _ h => h.elim
  stay := by
    intro s hs
    exact ⟨quiet_of_daif hs.cpu.daif, step_looping codeAt_badLoop (by decide) hs⟩

/-- A guest whose vectors and strings are in place. -/
structure Vectored (L : Link) (c : Cpu) : Prop where
  vbarEl1 : c.vbarEl1 = L.base + BitVec.ofNat 64 0x800
  loaded : Loaded L c.mem

/-- **Every slot but the IRQ's reports itself.** Whatever the guest was doing,
and whatever comes while the slot runs: the guest is never stuck, what it
sends begins the report of that slot and that syndrome, and after 282
instructions it has sent all of it and loops. -/
theorem bad_slot_reported (L : Link) (k : Fin 16) (hk : k ≠ 5) (s : State)
    (hs : Vectored L s.2) (es : List Tick) :
    ∃ t, runEvents (tick (step L) virq) (enter k.val s) es = some t
      ∧ t.2.seen <+: s.2.seen ++ (report k.val s.2.esrEl1).map .tx
      ∧ (282 ≤ es.count .insn →
        Looping L 0x101C (Reported (s.2.seen ++ (report k.val s.2.esrEl1).map .tx)) t) := by
  have hruns := runs_slot (L := L) k hk (c := { s.2 with
    elrEl1 := s.1, spsrEl1 := packSpsr s.2.nzcv s.2.daif, daif := 0xF }) rfl hs.loaded
  rw [← enter_eq hs.vbarEl1] at hruns
  obtain ⟨t, ht, hd⟩ := (oneShot_reported _ 0).ticks_after hruns es
  refine ⟨t, ht, ?_, fun hcount => ?_⟩
  · obtain ⟨_, u, -, hp, hu⟩ := hd
    exact hu.cpu.seen ▸ hp.grows step_seen
  · rw [Nat.sub_eq_zero_of_le hcount] at hd
    exact hd.reached

/-- A guest that took a data abort. -/
def abortedCpu : Cpu where
  x := fun _ => 0
  sp := 0
  nzcv := 0
  daif := 0
  elrEl1 := 0
  spsrEl1 := 0
  esrEl1 := 0x96000045
  vbarEl1 := ramLink.base + 0x800
  mem := fileMem ramLink
  vif := { hcr := 0, vmcr := 0, lr0 := 0, active := [] }
  seen := []

theorem vectored_abortedCpu : Vectored ramLink abortedCpu := by
  refine ⟨rfl, ?_⟩
  simp only [abortedCpu]
  exact loaded_fileMem ramLink

theorem bad_slot_reported_abort : ∃ t,
    runEvents (tick (step ramLink) virq) (enter 4 (0x40080000, abortedCpu))
        (.irq :: List.replicate 282 .insn) = some t
      ∧ Looping ramLink 0x101C (Reported ((report 4 0x96000045).map .tx)) t := by
  obtain ⟨t, ht, -, hdone⟩ := bad_slot_reported ramLink 4 (by decide) (0x40080000, abortedCpu)
    vectored_abortedCpu (.irq :: List.replicate 282 .insn)
  refine ⟨t, ht, hdone ?_⟩
  rw [List.count_cons_of_ne (by decide), List.count_replicate_self]

end Report

end GuestV3

end ArmHyp
