import ArmHyp.ElfLoad

/-!
# Which images stay in bounds

The loader checks the identification bytes and that each segment ends inside
guest RAM, by a sum that wraps; it never looks at the size of the file, and
it copies `p_filesz` bytes where it checked `p_memsz`. `InBounds` says of an
image, field by field and in the order the fields are read, what has to hold
for every access to stay inside the file or guest RAM.
-/

namespace ArmHyp

namespace Hvf

open Checked

/-! ## The image's fields -/

namespace ElfFile

variable (f : ElfFile)

/-- The file passes the test of its header. -/
def IsElf : Prop :=
  f.field 0 4 = elfMag ∧ f.field 4 1 = elfClass64 ∧ f.field 5 1 = elfData2Lsb
    ∧ f.field 18 2 = emAarch64

def eEntry : BitVec 64 := f.field 24 8
def ePhoff : BitVec 64 := f.field 32 8
def ePhnum : Nat := (f.field 56 2).toNat

def pType (ph : BitVec 64) : BitVec 64 := f.field ph 4
def pOffset (ph : BitVec 64) : BitVec 64 := f.field (ph + 8) 8
def pVaddr (ph : BitVec 64) : BitVec 64 := f.field (ph + 16) 8
def pPaddr (ph : BitVec 64) : BitVec 64 := f.field (ph + 24) 8
def pFilesz (ph : BitVec 64) : BitVec 64 := f.field (ph + 32) 8
def pMemsz (ph : BitVec 64) : BitVec 64 := f.field (ph + 40) 8

/-- `p_paddr`, or `p_vaddr` if that is 0. -/
def dstPa (ph : BitVec 64) : BitVec 64 := if f.pPaddr ph ≠ 0 then f.pPaddr ph else f.pVaddr ph

/-- The loader's own test. -/
def Outside (ramSize ph : BitVec 64) : Prop :=
  f.dstPa ph < guestRamBase ∨ f.dstPa ph + f.pMemsz ph > guestRamBase + ramSize

instance outside_decidable (ramSize ph : BitVec 64) : Decidable (f.Outside ramSize ph) :=
  inferInstanceAs (Decidable (_ ∨ _))

/-- The loader gives up at this program header. -/
def Rejected (ramSize ph : BitVec 64) : Prop := f.pType ph = ptLoad ∧ f.Outside ramSize ph

/-! ## What has to hold -/

/-- The identification bytes that are looked at are there. -/
def IdentInside : Prop :=
  f.Has 0 4 ∧ (f.field 0 4 = elfMag → f.Has 4 1 ∧ (f.field 4 1 = elfClass64 →
    f.Has 5 1 ∧ (f.field 5 1 = elfData2Lsb → f.Has 18 2)))

/-- The accesses for the program header at `ph`: the fields that are read, and
for a segment that passes the loader's test the bytes copied and the bytes
written. -/
def SegmentInside (ramSize ph : BitVec 64) : Prop :=
  f.Has ph 4 ∧ (f.pType ph = ptLoad →
    f.Has (ph + 24) 8 ∧ (f.pPaddr ph = 0 → f.Has (ph + 16) 8) ∧ f.Has (ph + 40) 8
      ∧ (¬ f.Outside ramSize ph →
        f.Has (ph + 8) 8 ∧ f.Has (ph + 32) 8
          ∧ InRange (f.pOffset ph) (f.pFilesz ph).toNat f.size
          ∧ InRange (f.dstPa ph - guestRamBase)
            (max (f.pFilesz ph).toNat (f.pMemsz ph).toNat) ramSize.toNat))

end ElfFile

/-- Program header `i` of the table at `ph`. -/
def phdrAt (ph : BitVec 64) (i : Nat) : BitVec 64 := ph + BitVec.ofNat 64 (56 * i)

namespace ElfFile

variable (f : ElfFile)

/-- The image stays in bounds: the header as far as it is read, and every
program header up to the one the loader rejects. -/
def InBounds (ramSize : BitVec 64) : Prop :=
  f.IdentInside ∧ (f.IsElf → f.Has 32 8 ∧ f.Has 56 2
    ∧ ∀ i < f.ePhnum, (∀ j < i, ¬ f.Rejected ramSize (phdrAt f.ePhoff j)) →
        f.SegmentInside ramSize (phdrAt f.ePhoff i))

/-! ## Single accesses -/

section Steps

variable {f} {α : Type}

theorem safe_readField_bind {off : BitVec 64} {n : Nat} {g : BitVec 64 → ElfM α} :
    Safe (f.readField off n >>= g) ↔ f.Has off n ∧ Safe (g (f.field off n)) := by
  rw [readField, safe_access_bind]
  exact and_congr_right fun h => ⟨fun hg => hg h, fun hg _ => hg⟩

theorem safe_ite_reject {c : Prop} [Decidable c] {e : ElfError} {x : ElfM α} :
    Safe (if c then .reject e else x) ↔ (¬ c → Safe x) := by
  split_ifs with h
  · exact iff_of_true (safe_reject e) fun hc => absurd h hc
  · exact ⟨fun hx _ => hx, fun hx => hx h⟩

theorem readField_of {off : BitVec 64} {n : Nat} (h : f.Has off n) :
    f.readField off n = .ok (f.field off n) := access_of h

theorem readDstPa_of {ph : BitVec 64} (hpaddr : f.Has (ph + 24) 8)
    (hvaddr : f.pPaddr ph = 0 → f.Has (ph + 16) 8) : f.readDstPa ph = .ok (f.dstPa ph) := by
  unfold readDstPa dstPa pPaddr pVaddr
  rw [readField_of hpaddr, ok_bind]
  by_cases hz : f.field (ph + 24) 8 = 0
  · rw [if_neg (not_not_intro hz), if_neg (not_not_intro hz), readField_of (hvaddr hz)]
  · rw [if_pos hz, if_pos hz]

theorem safe_readDstPa {ph : BitVec 64} :
    Safe (f.readDstPa ph) ↔ f.Has (ph + 24) 8 ∧ (f.pPaddr ph = 0 → f.Has (ph + 16) 8) := by
  unfold readDstPa pPaddr
  rw [safe_readField_bind]
  refine and_congr_right fun _ => ?_
  by_cases hz : f.field (ph + 24) 8 = 0
  · rw [if_neg (not_not_intro hz), readField, safe_access]
    exact ⟨fun h _ => h, fun h => h hz⟩
  · rw [if_pos hz]
    exact iff_of_true (safe_ok _) fun h => absurd h hz

/-- The choice between `p_paddr` and `p_vaddr`, and what follows. -/
theorem safe_readDstPa_bind {ph : BitVec 64} {g : BitVec 64 → ElfM α} :
    Safe (f.readDstPa ph >>= g)
      ↔ f.Has (ph + 24) 8 ∧ (f.pPaddr ph = 0 → f.Has (ph + 16) 8) ∧ Safe (g (f.dstPa ph)) := by
  rw [safe_bind, safe_readDstPa, and_assoc]
  refine and_congr_right fun hpaddr => and_congr_right fun hvaddr => ?_
  rw [readDstPa_of hpaddr hvaddr]
  constructor
  · intro h
    exact h _ rfl
  · rintro h a ha
    exact Checked.ok.inj ha ▸ h

theorem safe_memcpy_bind {ramSize dst src n : BitVec 64} {ram : Mem} {g : Mem → ElfM α} :
    Safe (f.memcpy ramSize dst src n ram >>= g)
      ↔ InRange src n.toNat f.size ∧ InRange dst n.toNat ramSize.toNat
        ∧ Safe (g (f.copied dst src n.toNat ram)) := by
  rw [memcpy, safe_bind, safe_access_bind, safe_access]
  constructor
  · rintro ⟨⟨hsrc, hdst⟩, hg⟩
    refine ⟨hsrc, hdst hsrc, hg _ ?_⟩
    rw [access_of hsrc, ok_bind, access_of (hdst hsrc)]
  · rintro ⟨hsrc, hdst, hg⟩
    refine ⟨⟨hsrc, fun _ => hdst⟩, ?_⟩
    intro ram' h
    rw [access_of hsrc, ok_bind, access_of hdst] at h
    exact Checked.ok.inj h ▸ hg

/-- The copy and the zeroed tail together are one range. -/
theorem ramWrites_iff {ramSize dst filesz memsz : BitVec 64} :
    InRange dst filesz.toNat ramSize.toNat
        ∧ (memsz > filesz → InRange (dst + filesz) (memsz - filesz).toNat ramSize.toNat)
      ↔ InRange dst (max filesz.toNat memsz.toNat) ramSize.toNat := by
  have hd : dst.toNat < 2 ^ 64 := dst.isLt
  have hm : memsz.toNat < 2 ^ 64 := memsz.isLt
  rw [inRange_iff ramSize.isLt, inRange_iff ramSize.isLt, inRange_iff ramSize.isLt, gt_iff_lt,
    BitVec.lt_def]
  by_cases hlt : filesz.toNat < memsz.toNat
  · have hsub : (memsz - filesz).toNat = memsz.toNat - filesz.toNat :=
      BitVec.toNat_sub_of_le (BitVec.le_def.mpr (Nat.le_of_lt hlt))
    have hadd : (dst + filesz).toNat = (dst.toNat + filesz.toNat) % 2 ^ 64 := BitVec.toNat_add _ _
    have hr : ramSize.toNat < 2 ^ 64 := ramSize.isLt
    rw [hsub, hadd, Nat.max_eq_right (Nat.le_of_lt hlt)]
    omega
  · rw [Nat.max_eq_left (Nat.le_of_not_lt hlt)]
    exact and_iff_left fun h => absurd h hlt

end Steps

/-! ## The parts of the loader -/

theorem safe_checkIdent : Safe f.checkIdent ↔ f.IdentInside := by
  simp only [checkIdent, IdentInside, safe_readField_bind, safe_ite_reject, ne_eq, not_not,
    safe_ok, implies_true, and_true]

/-- The test passes for the files it means to accept. -/
theorem checkIdent_eq_ok (h : f.IdentInside) : f.checkIdent = .ok () ↔ f.IsElf := by
  obtain ⟨hmag, hcls⟩ := h
  unfold checkIdent IsElf
  rw [readField_of hmag, ok_bind]
  by_cases h₀ : f.field 0 4 = elfMag
  · obtain ⟨hcls, hdata⟩ := hcls h₀
    rw [if_neg (not_not_intro h₀), and_iff_right h₀, readField_of hcls, ok_bind]
    by_cases h₁ : f.field 4 1 = elfClass64
    · obtain ⟨hdata, hmach⟩ := hdata h₁
      rw [if_neg (not_not_intro h₁), and_iff_right h₁, readField_of hdata, ok_bind]
      by_cases h₂ : f.field 5 1 = elfData2Lsb
      · rw [if_neg (not_not_intro h₂), and_iff_right h₂, readField_of (hmach h₂), ok_bind]
        by_cases h₃ : f.field 18 2 = emAarch64
        · rw [if_neg (not_not_intro h₃)]
          exact iff_of_true rfl h₃
        · rw [if_pos h₃]
          exact iff_of_false nofun h₃
      · rw [if_pos h₂]
        exact iff_of_false nofun fun hx => h₂ hx.1
    · rw [if_pos h₁]
      exact iff_of_false nofun fun hx => h₁ hx.1
  · rw [if_pos h₀]
    exact iff_of_false nofun fun hx => h₀ hx.1

variable (ramSize : BitVec 64)

theorem safe_placeSegment (ph dstPa memsz : BitVec 64) (ram : Mem) :
    Safe (f.placeSegment ramSize ph dstPa memsz ram)
      ↔ f.Has (ph + 8) 8 ∧ f.Has (ph + 32) 8 ∧ InRange (f.pOffset ph) (f.pFilesz ph).toNat f.size
        ∧ InRange (dstPa - guestRamBase) (max (f.pFilesz ph).toNat memsz.toNat) ramSize.toNat := by
  have htail : ∀ (dst filesz : BitVec 64) (ram : Mem),
      Safe (if memsz > filesz then memset ramSize (dst + filesz) (memsz - filesz) ram else .ok ram)
        ↔ (memsz > filesz → InRange (dst + filesz) (memsz - filesz).toNat ramSize.toNat) := by
    intro dst filesz ram
    split_ifs with hlt
    · rw [memset, safe_access]
      exact ⟨fun h _ => h, fun h => h hlt⟩
    · exact iff_of_true (safe_ok ram) fun h => absurd h hlt
  rw [placeSegment, safe_readField_bind, safe_readField_bind, safe_memcpy_bind, htail,
    ramWrites_iff]
  rfl

theorem safe_loadSegment (i : Nat) (ph : BitVec 64) (ram : Mem) :
    Safe (f.loadSegment ramSize i ph ram) ↔ f.SegmentInside ramSize ph := by
  rw [loadSegment, safe_readField_bind, SegmentInside]
  refine and_congr_right fun _ => ?_
  by_cases hload : f.pType ph = ptLoad
  · have hne : ¬ f.field ph 4 ≠ ptLoad := not_not_intro hload
    rw [if_neg hne, safe_readDstPa_bind, safe_readField_bind, safe_ite_reject, safe_placeSegment]
    exact ⟨fun h _ => h, fun h => h hload⟩
  · have hne : f.field ph 4 ≠ ptLoad := hload
    rw [if_pos hne]
    exact iff_of_true (safe_ok ram) fun h => absurd h hload

/-- What a program header that is not rejected leaves in RAM. -/
def placed (ph : BitVec 64) (ram : Mem) : Mem :=
  if f.pType ph ≠ ptLoad then ram
  else
    let dst := f.dstPa ph - guestRamBase
    let ram := f.copied dst (f.pOffset ph) (f.pFilesz ph).toNat ram
    if f.pMemsz ph > f.pFilesz ph then
      zeroed (dst + f.pFilesz ph) (f.pMemsz ph - f.pFilesz ph).toNat ram
    else ram

section Segment

variable {f ramSize} {i : Nat} {ph : BitVec 64} {ram : Mem}

theorem loadSegment_rejected (h : f.SegmentInside ramSize ph) (hrej : f.Rejected ramSize ph) :
    f.loadSegment ramSize i ph ram = .reject (.outsideRam i (f.dstPa ph) (f.pMemsz ph)) := by
  obtain ⟨htype, hload⟩ := h
  obtain ⟨hpaddr, hvaddr, hmemsz, -⟩ := hload hrej.1
  have hne : ¬ f.field ph 4 ≠ ptLoad := not_not_intro hrej.1
  rw [loadSegment, readField_of htype, ok_bind, if_neg hne, readDstPa_of hpaddr hvaddr, ok_bind,
    readField_of hmemsz, ok_bind]
  exact if_pos hrej.2

theorem loadSegment_placed (h : f.SegmentInside ramSize ph) (hrej : ¬ f.Rejected ramSize ph) :
    f.loadSegment ramSize i ph ram = .ok (f.placed ph ram) := by
  obtain ⟨htype, hload⟩ := h
  rw [loadSegment, readField_of htype, ok_bind, placed]
  by_cases hpt : f.pType ph = ptLoad
  · obtain ⟨hpaddr, hvaddr, hmemsz, hin⟩ := hload hpt
    have hout : ¬ f.Outside ramSize ph := fun ho => hrej ⟨hpt, ho⟩
    obtain ⟨hoffset, hfilesz, hsrc, hdst⟩ := hin hout
    rw [← ramWrites_iff] at hdst
    have hne : ¬ f.field ph 4 ≠ ptLoad := not_not_intro hpt
    have hcopy : f.memcpy ramSize (f.dstPa ph - guestRamBase) (f.pOffset ph) (f.pFilesz ph) ram
        = .ok (f.copied (f.dstPa ph - guestRamBase) (f.pOffset ph) (f.pFilesz ph).toNat ram) := by
      rw [memcpy, access_of hsrc, ok_bind, access_of hdst.1]
    rw [if_neg hne, readDstPa_of hpaddr hvaddr, ok_bind, readField_of hmemsz, ok_bind,
      if_neg (show ¬ (f.dstPa ph < guestRamBase
        ∨ f.dstPa ph + f.field (ph + 40) 8 > guestRamBase + ramSize) from hout),
      placeSegment, readField_of hoffset, ok_bind, readField_of hfilesz, ok_bind]
    change (f.memcpy ramSize (f.dstPa ph - guestRamBase) (f.pOffset ph) (f.pFilesz ph) ram >>= _) = _
    rw [hcopy, ok_bind, if_neg (not_not_intro hpt)]
    by_cases hlt : f.pMemsz ph > f.pFilesz ph
    · have hset := hdst.2 hlt
      simp only [if_pos hlt]
      exact (if_pos hlt).trans (access_of hset)
    · simp only [if_neg hlt]
      exact if_neg hlt
  · have hne : f.field ph 4 ≠ ptLoad := hpt
    rw [if_pos hne, if_pos hpt]

theorem not_rejected_of_ok {ram' : Mem} (h : f.loadSegment ramSize i ph ram = .ok ram') :
    f.SegmentInside ramSize ph ∧ ¬ f.Rejected ramSize ph := by
  have hsafe : Safe (f.loadSegment ramSize i ph ram) := by
    rw [h]
    exact safe_ok ram'
  have hin := (f.safe_loadSegment ramSize i ph ram).mp hsafe
  refine ⟨hin, fun hrej => ?_⟩
  rw [loadSegment_rejected hin hrej] at h
  cases h

end Segment

end ElfFile

theorem phdrAt_zero (ph : BitVec 64) : phdrAt ph 0 = ph := BitVec.add_zero ph

theorem phdrAt_succ (ph : BitVec 64) (i : Nat) : phdrAt (ph + sizeofPhdr) i = phdrAt ph (i + 1) := by
  have hmul : BitVec.ofNat 64 (56 * (i + 1)) = sizeofPhdr + BitVec.ofNat 64 (56 * i) := by
    rw [Nat.mul_succ, Nat.add_comm, BitVec.ofNat_add]
    rfl
  rw [phdrAt, phdrAt, hmul, BitVec.add_assoc]

namespace ElfFile

variable (f : ElfFile) (ramSize : BitVec 64)

/-- The loop is safe if every header is that it gets to. -/
theorem safe_loadSegments (n i : Nat) (ph : BitVec 64) (ram : Mem) :
    Safe (f.loadSegments ramSize n i ph ram)
      ↔ ∀ k < n, (∀ j < k, ¬ f.Rejected ramSize (phdrAt ph j)) →
          f.SegmentInside ramSize (phdrAt ph k) := by
  induction n generalizing i ph ram with
  | zero => exact iff_of_true (safe_ok ram) fun k hk => absurd hk (Nat.not_lt_zero k)
  | succ n ih =>
      rw [loadSegments, safe_bind, safe_loadSegment]
      constructor
      · rintro ⟨hin, hrest⟩ k hk hprev
        cases k with
        | zero =>
            rw [phdrAt_zero]
            exact hin
        | succ k =>
            have hrej : ¬ f.Rejected ramSize ph := by
              have h₀ := hprev 0 (Nat.succ_pos k)
              rwa [phdrAt_zero] at h₀
            have hsafe := hrest _ (loadSegment_placed hin hrej)
            rw [ih] at hsafe
            have hk' := hsafe k (Nat.lt_of_succ_lt_succ hk) ?_
            · rwa [phdrAt_succ] at hk'
            · intro j hj
              rw [phdrAt_succ]
              exact hprev (j + 1) (Nat.succ_lt_succ hj)
      · intro h
        refine ⟨?_, ?_⟩
        · have h₀ := h 0 (Nat.succ_pos n) fun j hj => absurd hj (Nat.not_lt_zero j)
          rwa [phdrAt_zero] at h₀
        · intro ram' hok
          rw [ih]
          intro k hk hprev
          rw [phdrAt_succ]
          refine h (k + 1) (Nat.succ_lt_succ hk) ?_
          intro j hj
          cases j with
          | zero =>
              rw [phdrAt_zero]
              exact (not_rejected_of_ok hok).2
          | succ j =>
              rw [← phdrAt_succ]
              exact hprev j (Nat.lt_of_succ_lt_succ hj)

end ElfFile

/-- **Bounds of the ELF loader.** For every file and every size of guest RAM,
the loader makes no access outside the file or guest RAM exactly if the file
is empty or its image is `InBounds`. -/
theorem elf_load_in_bounds_iff (f : ElfFile) (ramSize : BitVec 64) (ram : Mem) :
    Safe (f.loadElfInto ramSize ram) ↔ f.size = 0 ∨ f.InBounds ramSize := by
  have hmono : f.Has 32 8 → f.Has 24 8 := by
    have hlt : f.size < 2 ^ 64 := Nat.lt_trans f.size_lt (by decide)
    have h32 : (32#64).toNat = 32 := rfl
    have h24 : (24#64).toNat = 24 := rfl
    unfold ElfFile.Has
    rw [inRange_iff hlt, inRange_iff hlt, BitVec.ofNat_eq_ofNat, BitVec.ofNat_eq_ofNat, h32, h24]
    omega
  unfold ElfFile.loadElfInto
  by_cases hempty : f.size = 0
  · rw [if_pos hempty]
    exact iff_of_true (safe_reject _) (Or.inl hempty)
  rw [if_neg hempty, or_iff_right hempty, safe_bind, f.safe_checkIdent, ElfFile.InBounds]
  refine and_congr_right fun hident => ?_
  have hok := f.checkIdent_eq_ok hident
  constructor
  · intro h helf
    have hbody := h () (hok.mpr helf)
    rw [ElfFile.safe_readField_bind, ElfFile.safe_readField_bind, safe_bind,
      f.safe_loadSegments] at hbody
    exact ⟨hbody.1, hbody.2.1, hbody.2.2.1⟩
  · intro h u hcheck
    obtain ⟨hphoff, hphnum, hsegs⟩ := h (hok.mp hcheck)
    rw [ElfFile.safe_readField_bind, ElfFile.safe_readField_bind, safe_bind, f.safe_loadSegments]
    refine ⟨hphoff, hphnum, hsegs, fun ram' _ => ?_⟩
    rw [ElfFile.safe_readField_bind]
    exact ⟨hmono hphoff, safe_ok _⟩

/-! ## A small image -/

/-- The bytes of a 64-bit field. -/
def le64 (v : BitVec 64) : List (BitVec 8) := (List.range 8).map fun k => v.extractLsb' (8 * k) 8

/-- An AArch64 image with entry point 0x40080000, one `PT_LOAD` header, and
four bytes after it. -/
def oneSegment (offset vaddr paddr filesz memsz : BitVec 64) : ElfFile where
  size := 124
  byte := fun a =>
    ([0x7F, 0x45, 0x4C, 0x46, 2, 1, 1, 0, 0, 0, 0, 0, 0, 0, 0, 0, 2, 0, 0xB7, 0, 1, 0, 0, 0]
      ++ le64 0x40080000 ++ le64 64 ++ le64 0
      ++ [0, 0, 0, 0, 64, 0, 56, 0, 1, 0, 0, 0, 0, 0, 0, 0]
      ++ [1, 0, 0, 0, 5, 0, 0, 0] ++ le64 offset ++ le64 vaddr ++ le64 paddr ++ le64 filesz
      ++ le64 memsz ++ le64 4096
      ++ [0xC0, 0x03, 0x5F, 0xD6]).getD a 0
  size_lt := by decide

/-- A segment whose end wraps to 0 passes the loader's test; its tail is zeroed
at an offset far outside the 512 MiB of guest RAM. -/
theorem elf_load_wrapped_segment :
    (oneSegment 0 0 0xFFFFFFFFFFFFF000 0 0x1000).loadElfInto guestRamSize (fun _ => 0)
        = .escape (.ram 0xFFFFFFFFBFFFF000 0x1000)
      ∧ ¬ InRange 0xFFFFFFFFBFFFF000 0x1000 guestRamSize.toNat := by
  refine ⟨by rfl, by decide⟩

end Hvf

end ArmHyp
