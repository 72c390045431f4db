import Mathlib.Data.List.Range
import ArmHyp.ElfBounds
import ArmHyp.Overlay

/-!
# What is loaded

On a well-formed image every access is in bounds and no segment is rejected,
so the loop lays the segments over guest RAM one after the other
(`loadSegments_eq`). A segment is a patch: the file's bytes, then zeros. The
patches of a well-formed image are disjoint, and what RAM holds afterwards is
read off `overlay`.
-/

namespace ArmHyp

namespace Hvf

open Checked

namespace ElfFile

variable (f : ElfFile)

/-! ## Well-formed images -/

/-- Program header `i`. -/
def phdr (i : Nat) : BitVec 64 := phdrAt f.ePhoff i

/-- Address `a` is in the load range of the segment. -/
def InSegment (ph : BitVec 64) (a : Nat) : Prop :=
  (f.dstPa ph).toNat ≤ a ∧ a < (f.dstPa ph).toNat + (f.pMemsz ph).toNat

/-- A loadable segment: its bytes are in the file, and its load range is in
guest RAM. -/
structure SegmentOk (ramSize ph : BitVec 64) : Prop where
  file : ∀ k < (f.pFilesz ph).toNat, (f.pOffset ph).toNat + k < f.size
  sizes : (f.pFilesz ph).toNat ≤ (f.pMemsz ph).toNat
  lo : guestRamBase.toNat ≤ (f.dstPa ph).toNat
  hi : (f.dstPa ph).toNat + (f.pMemsz ph).toNat ≤ guestRamBase.toNat + ramSize.toNat

structure WellFormed (ramSize : BitVec 64) : Prop where
  header : 64 ≤ f.size
  elf : f.IsElf
  phentsize : f.field 54 2 = sizeofPhdr
  phdrs : ∀ i < f.ePhnum, f.ePhoff.toNat + 56 * i + 56 ≤ f.size
  segment : ∀ i < f.ePhnum, f.pType (f.phdr i) = ptLoad → f.SegmentOk ramSize (f.phdr i)
  disjoint : ∀ i j, i < j → j < f.ePhnum → f.pType (f.phdr i) = ptLoad →
    f.pType (f.phdr j) = ptLoad → ∀ a, f.InSegment (f.phdr i) a → ¬ f.InSegment (f.phdr j) a

/-! ## One segment -/

/-- Offset of the segment in guest RAM. -/
def ramOff (ph : BitVec 64) : Nat := (f.dstPa ph).toNat - guestRamBase.toNat

/-- The segment as a patch of guest RAM. -/
def segPatch (ph : BitVec 64) : Nat → Option (BitVec 8) := fun a =>
  if f.pType ph = ptLoad ∧ f.ramOff ph ≤ a ∧ a < f.ramOff ph + (f.pMemsz ph).toNat then
    some (if a - f.ramOff ph < (f.pFilesz ph).toNat
      then f.byte ((f.pOffset ph).toNat + (a - f.ramOff ph)) else 0)
  else none

section Segment

variable {f} {ramSize ph : BitVec 64}

theorem has_of_le {off : BitVec 64} {n : Nat} (h : off.toNat + n ≤ f.size) : f.Has off n :=
  (inRange_iff (Nat.lt_trans f.size_lt (by decide))).mpr (Or.inr h)

/-- A field of a program header that is inside the file. -/
theorem has_phdr_field (hph : ph.toNat + 56 ≤ f.size) (c : BitVec 64) {n : Nat}
    (hc : c.toNat + n ≤ 56) : f.Has (ph + c) n := by
  have hlt := f.size_lt
  have hadd : (ph + c).toNat = ph.toNat + c.toNat := by
    rw [BitVec.toNat_add]
    exact Nat.mod_eq_of_lt (by omega)
  exact has_of_le (by omega)

theorem SegmentOk.source (h : f.SegmentOk ramSize ph) :
    InRange (f.pOffset ph) (f.pFilesz ph).toNat f.size := by
  intro k hk
  have hin := h.file k hk
  have hlt := f.size_lt
  rwa [toNat_add_ofNat (by omega)]

theorem SegmentOk.toNat_dst (h : f.SegmentOk ramSize ph) :
    (f.dstPa ph - guestRamBase).toNat = f.ramOff ph :=
  BitVec.toNat_sub_of_le (BitVec.le_def.mpr h.lo)

/-- The loader's test lets it through. -/
theorem SegmentOk.not_outside (h : f.SegmentOk ramSize ph)
    (hram : guestRamBase.toNat + ramSize.toNat < 2 ^ 64) : ¬ f.Outside ramSize ph := by
  have hlo := h.lo
  have hhi := h.hi
  have hend : (f.dstPa ph + f.pMemsz ph).toNat = (f.dstPa ph).toNat + (f.pMemsz ph).toNat := by
    rw [BitVec.toNat_add]
    exact Nat.mod_eq_of_lt (by omega)
  have htop : (guestRamBase + ramSize).toNat = guestRamBase.toNat + ramSize.toNat := by
    rw [BitVec.toNat_add]
    exact Nat.mod_eq_of_lt hram
  rw [Outside, gt_iff_lt, BitVec.lt_def, BitVec.lt_def, hend, htop]
  omega

theorem segmentInside_of (hph : ph.toNat + 56 ≤ f.size)
    (hok : f.pType ph = ptLoad → f.SegmentOk ramSize ph) : f.SegmentInside ramSize ph := by
  refine ⟨has_of_le (by omega), fun hload => ?_⟩
  have h := hok hload
  refine ⟨has_phdr_field hph 24 (by decide), fun _ => has_phdr_field hph 16 (by decide),
    has_phdr_field hph 40 (by decide), fun _ => ⟨has_phdr_field hph 8 (by decide),
      has_phdr_field hph 32 (by decide), h.source, ?_⟩⟩
  rw [inRange_iff ramSize.isLt, h.toNat_dst, Nat.max_eq_right h.sizes, ramOff]
  have hlo := h.lo
  have hhi := h.hi
  omega

theorem segPatch_of_mem (hload : f.pType ph = ptLoad) {a : Nat}
    (hin : f.ramOff ph ≤ a ∧ a < f.ramOff ph + (f.pMemsz ph).toNat) :
    f.segPatch ph a = some (if a - f.ramOff ph < (f.pFilesz ph).toNat
      then f.byte ((f.pOffset ph).toNat + (a - f.ramOff ph)) else 0) := if_pos ⟨hload, hin⟩

theorem segPatch_of_not {a : Nat}
    (h : ¬ (f.pType ph = ptLoad ∧ f.ramOff ph ≤ a ∧ a < f.ramOff ph + (f.pMemsz ph).toNat)) :
    f.segPatch ph a = none := if_neg h

/-- Copying the bytes and zeroing the tail is laying the patch. -/
theorem placed_eq (hok : f.pType ph = ptLoad → f.SegmentOk ramSize ph) (ram : Mem) :
    f.placed ph ram = patch ram (f.segPatch ph) := by
  by_cases hload : f.pType ph = ptLoad
  · have h := hok hload
    have hlo := h.lo
    have hhi := h.hi
    have hsizes := h.sizes
    have hr : ramSize.toNat < 2 ^ 64 := ramSize.isLt
    have hdst := h.toNat_dst
    have htail : (f.dstPa ph - guestRamBase + f.pFilesz ph).toNat
        = f.ramOff ph + (f.pFilesz ph).toNat := by
      rw [BitVec.toNat_add, hdst]
      refine Nat.mod_eq_of_lt ?_
      unfold ramOff
      omega
    have hsub : f.pMemsz ph > f.pFilesz ph → (f.pMemsz ph - f.pFilesz ph).toNat
        = (f.pMemsz ph).toNat - (f.pFilesz ph).toNat := fun hgt =>
      BitVec.toNat_sub_of_le (BitVec.le_of_lt hgt)
    funext a
    by_cases hin : f.ramOff ph ≤ a ∧ a < f.ramOff ph + (f.pMemsz ph).toNat
    · rw [patch_of_some (segPatch_of_mem hload hin), placed, if_neg (not_not_intro hload)]
      by_cases hcopy : a - f.ramOff ph < (f.pFilesz ph).toNat
      · rw [if_pos hcopy]
        split_ifs with hgt
        · rw [zeroed, htail, if_neg (by omega), copied, hdst, if_pos (by omega)]
        · rw [copied, hdst, if_pos (by omega)]
      · have hgt : f.pMemsz ph > f.pFilesz ph := BitVec.lt_def.mpr (by omega)
        rw [if_neg hcopy, if_pos hgt, zeroed, htail, hsub hgt, if_pos (by omega)]
    · rw [patch_of_none (segPatch_of_not fun hx => hin hx.2), placed, if_neg (not_not_intro hload)]
      split_ifs with hgt
      · have hlt := BitVec.lt_def.mp hgt
        rw [zeroed, htail, hsub hgt, if_neg (by omega), copied, hdst, if_neg (by omega)]
      · rw [copied, hdst, if_neg (by omega)]
  · funext a
    rw [patch_of_none (segPatch_of_not fun hx => hload hx.1), placed, if_pos hload]

end Segment

/-! ## All segments -/

/-- The loop over headers that are in bounds and not rejected. -/
theorem loadSegments_eq (ramSize : BitVec 64) {n : Nat} (i : Nat) {ph : BitVec 64} (ram : Mem)
    (h : ∀ k < n, f.SegmentInside ramSize (phdrAt ph k) ∧ ¬ f.Rejected ramSize (phdrAt ph k)) :
    f.loadSegments ramSize n i ph ram
      = .ok ((List.range n).foldl (fun ram k => f.placed (phdrAt ph k) ram) ram) := by
  induction n generalizing i ph ram with
  | zero => rfl
  | succ n ih =>
      have h₀ := h 0 (Nat.succ_pos n)
      rw [phdrAt_zero] at h₀
      have hrest : ∀ k < n, f.SegmentInside ramSize (phdrAt (ph + sizeofPhdr) k)
          ∧ ¬ f.Rejected ramSize (phdrAt (ph + sizeofPhdr) k) := by
        intro k hk
        rw [phdrAt_succ]
        exact h (k + 1) (Nat.succ_lt_succ hk)
      rw [loadSegments, loadSegment_placed h₀.1 h₀.2, ok_bind, ih _ _ hrest,
        List.range_succ_eq_map, List.foldl_cons, List.foldl_map, phdrAt_zero]
      simp only [phdrAt_succ]

/-- The patches of an image. -/
def patches : List (Nat → Option (BitVec 8)) :=
  (List.range f.ePhnum).map fun k => f.segPatch (f.phdr k)

section Image

variable {f} {ramSize : BitVec 64}

theorem WellFormed.toNat_phdr (h : f.WellFormed ramSize) {i : Nat} (hi : i < f.ePhnum) :
    (f.phdr i).toNat + 56 ≤ f.size := by
  have hin := h.phdrs i hi
  have hlt := f.size_lt
  have hadd : (f.phdr i).toNat = f.ePhoff.toNat + 56 * i := toNat_add_ofNat (by omega)
  omega

/-- A field of the file header. -/
theorem WellFormed.has_header (h : f.WellFormed ramSize) (off : BitVec 64) (n : Nat)
    (hn : off.toNat + n ≤ 64) : f.Has off n := has_of_le (Nat.le_trans hn h.header)

theorem WellFormed.identInside (h : f.WellFormed ramSize) : f.IdentInside :=
  ⟨h.has_header 0 4 (by decide), fun _ => ⟨h.has_header 4 1 (by decide), fun _ =>
    ⟨h.has_header 5 1 (by decide), fun _ => h.has_header 18 2 (by decide)⟩⟩⟩

/-- Guest RAM after a well-formed image. -/
theorem WellFormed.loadElfInto_eq (h : f.WellFormed ramSize)
    (hram : guestRamBase.toNat + ramSize.toNat < 2 ^ 64) (ram : Mem) :
    f.loadElfInto ramSize ram = .ok (f.eEntry, overlay ram f.patches) := by
  have hsize := h.header
  have hseg : ∀ k < f.ePhnum, f.SegmentInside ramSize (phdrAt f.ePhoff k)
      ∧ ¬ f.Rejected ramSize (phdrAt f.ePhoff k) := by
    intro k hk
    refine ⟨segmentInside_of (h.toNat_phdr hk) (h.segment k hk), fun hrej => ?_⟩
    exact (h.segment k hk hrej.1).not_outside hram hrej.2
  have hplaced : (List.range f.ePhnum).foldl (fun ram k => f.placed (phdrAt f.ePhoff k) ram) ram
      = overlay ram f.patches := by
    rw [overlay, patches, List.foldl_map]
    refine List.foldl_ext _ _ _ ?_
    intro ram' k hk
    exact placed_eq (h.segment k (List.mem_range.mp hk)) ram'
  have hloop : f.loadSegments ramSize (f.field 56 2).toNat 0 (f.field 32 8) ram
      = .ok (overlay ram f.patches) := (f.loadSegments_eq ramSize 0 ram hseg).trans (by rw [hplaced])
  rw [loadElfInto, if_neg (by omega), (f.checkIdent_eq_ok h.identInside).mpr h.elf, ok_bind,
    readField_of (h.has_header 32 8 (by decide)), ok_bind,
    readField_of (h.has_header 56 2 (by decide)), ok_bind,
    hloop, ok_bind, readField_of (h.has_header 24 8 (by decide)), ok_bind]
  rfl

/-- At most one patch of a well-formed image is defined at an offset. -/
theorem WellFormed.patches_disjoint (h : f.WellFormed ramSize) (a : Nat) :
    f.patches.Pairwise fun p q => p a = none ∨ q a = none := by
  rw [patches, List.pairwise_map]
  refine List.pairwise_lt_range.imp_of_mem ?_
  intro i j hi hj hij
  have hj' := List.mem_range.mp hj
  by_cases hin : f.pType (f.phdr i) = ptLoad ∧ f.ramOff (f.phdr i) ≤ a
      ∧ a < f.ramOff (f.phdr i) + (f.pMemsz (f.phdr i)).toNat
  · refine Or.inr (segPatch_of_not ?_)
    rintro ⟨hload, hlo, hhi⟩
    have hi_lo := (h.segment i (List.mem_range.mp hi) hin.1).lo
    have hj_lo := (h.segment j hj' hload).lo
    unfold ramOff at hin hlo hhi
    exact h.disjoint i j hij hj' hin.1 hload (guestRamBase.toNat + a)
      ⟨by omega, by omega⟩ ⟨by omega, by omega⟩
  · exact Or.inl (segPatch_of_not hin)

end Image

end ElfFile

/-- **Loading a well-formed image.** The loader returns `e_entry`; every
segment's range of guest RAM holds its bytes from the file, followed by zeros
up to `p_memsz`; and everything else in guest RAM is as before. -/
theorem elf_load_correct (f : ElfFile) (ramSize : BitVec 64) (ram : Mem)
    (hram : guestRamBase.toNat + ramSize.toNat < 2 ^ 64) (h : f.WellFormed ramSize) :
    ∃ ram', f.loadElfInto ramSize ram = .ok (f.eEntry, ram')
      ∧ (∀ i < f.ePhnum, f.pType (f.phdr i) = ptLoad → ∀ k < (f.pMemsz (f.phdr i)).toNat,
          ram' ((f.dstPa (f.phdr i)).toNat - guestRamBase.toNat + k)
            = if k < (f.pFilesz (f.phdr i)).toNat then f.byte ((f.pOffset (f.phdr i)).toNat + k)
              else 0)
      ∧ ∀ a, (∀ i < f.ePhnum, f.pType (f.phdr i) = ptLoad →
            ¬ f.InSegment (f.phdr i) (guestRamBase.toNat + a)) → ram' a = ram a := by
  refine ⟨_, h.loadElfInto_eq hram ram, ?_, ?_⟩
  · intro i hi hload k hk
    have hmem : f.segPatch (f.phdr i) ∈ f.patches :=
      List.mem_map_of_mem (List.mem_range.mpr hi)
    have hpatch := ElfFile.segPatch_of_mem hload (a := f.ramOff (f.phdr i) + k)
      ⟨Nat.le_add_right _ _, Nat.add_lt_add_left hk _⟩
    rw [Nat.add_sub_cancel_left] at hpatch
    exact overlay_of_mem (h.patches_disjoint _) hmem hpatch
  · intro a hout
    refine overlay_of_none ?_
    intro p hp
    obtain ⟨i, hi, rfl⟩ := List.mem_map.mp hp
    refine ElfFile.segPatch_of_not ?_
    rintro ⟨hload, hlo, hhi⟩
    have hi' := List.mem_range.mp hi
    have hbase := (h.segment i hi' hload).lo
    unfold ElfFile.ramOff at hlo hhi
    exact hout i hi' hload ⟨by omega, by omega⟩

/-- An image with three program headers: a segment of four bytes and a tail of
four, placed by its `p_vaddr`; a `PT_NOTE`; and two bytes at `p_paddr`. -/
def twoSegments : ElfFile where
  size := 238
  byte := fun a =>
    ([0x7F, 0x45, 0x4C, 0x46, 2, 1, 1, 0, 0, 0, 0, 0, 0, 0, 0, 0, 2, 0, 0xB7, 0, 1, 0, 0, 0]
      ++ le64 0x40080000 ++ le64 64 ++ le64 0
      ++ [0, 0, 0, 0, 64, 0, 56, 0, 3, 0, 0, 0, 0, 0, 0, 0]
      ++ [1, 0, 0, 0, 5, 0, 0, 0] ++ le64 232 ++ le64 0x40080000 ++ le64 0 ++ le64 4 ++ le64 8
      ++ le64 4096
      ++ [4, 0, 0, 0, 4, 0, 0, 0] ++ le64 232 ++ le64 0x400A0000 ++ le64 0 ++ le64 4 ++ le64 4
      ++ le64 4
      ++ [1, 0, 0, 0, 6, 0, 0, 0] ++ le64 236 ++ le64 0 ++ le64 0x40090000 ++ le64 2 ++ le64 2
      ++ le64 4096
      ++ [0xC0, 0x03, 0x5F, 0xD6, 0xAA, 0xBB]).getD a 0
  size_lt := by decide

theorem twoSegments_wellFormed : twoSegments.WellFormed guestRamSize := by
  have hnum : twoSegments.ePhnum = 3 := by decide
  have hnote : twoSegments.pType (twoSegments.phdr 1) ≠ ptLoad := by decide
  have hcases : ∀ i < 3, i = 0 ∨ i = 1 ∨ i = 2 := by omega
  refine ⟨by decide, ⟨by decide, by decide, by decide, by decide⟩, by decide, ?_, ?_, ?_⟩
  · rw [hnum]
    decide
  · rw [hnum]
    intro i hi hload
    obtain rfl | rfl | rfl := hcases i hi
    · exact ⟨by decide, by decide, by decide, by decide⟩
    · exact absurd hload hnote
    · exact ⟨by decide, by decide, by decide, by decide⟩
  · rw [hnum]
    intro i j hij hj hi hj'
    have hend : (twoSegments.dstPa (twoSegments.phdr 0)).toNat
        + (twoSegments.pMemsz (twoSegments.phdr 0)).toNat
          ≤ (twoSegments.dstPa (twoSegments.phdr 2)).toNat := by
      decide
    obtain rfl | rfl | rfl := hcases i (by omega)
    · obtain rfl | rfl | rfl := hcases j hj
      · omega
      · exact absurd hj' hnote
      · rintro a ⟨-, hlt⟩ ⟨hle, -⟩
        omega
    · exact absurd hi hnote
    · omega

/-- Both segments are where they belong, and what the note names is not loaded. -/
theorem elf_load_correct_two_segments :
    ∃ ram', twoSegments.loadElfInto guestRamSize (fun _ => 0xFF) = .ok (0x40080000, ram')
      ∧ ram' 0x80000 = 0xC0 ∧ ram' 0x80004 = 0 ∧ ram' 0x80008 = 0xFF
      ∧ ram' 0x90001 = 0xBB ∧ ram' 0x90002 = 0xFF ∧ ram' 0xA0000 = 0xFF := by
  obtain ⟨ram', hload, hseg, hrest⟩ :=
    elf_load_correct twoSegments guestRamSize (fun _ => 0xFF) (by decide) twoSegments_wellFormed
  have hfirst := hseg 0 (by decide) (by decide)
  have hsecond := hseg 2 (by decide) (by decide)
  refine ⟨ram', hload, hfirst 0 (by decide), hfirst 4 (by decide), hrest 0x80008 ?_,
    hsecond 1 (by decide), hrest 0x90002 ?_, hrest 0xA0000 ?_⟩
  · unfold ElfFile.InSegment
    decide
  · unfold ElfFile.InSegment
    decide
  · unfold ElfFile.InSegment
    decide

end Hvf

end ArmHyp
