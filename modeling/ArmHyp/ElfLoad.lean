import ArmHyp.ByteMem
import ArmHyp.Checked
import ArmHyp.HvfHost

/-!
# The host's ELF loader (`host/hvf_main.c`)

`load_elf_into` maps the image and follows its headers with raw pointers.
`readField`, `memcpy` and `memset` are the accesses it makes, each of which
says which bytes of the file or of guest RAM it touches; what the loader
itself checks is in `checkIdent` and `loadSegment`. Pointers are offsets into
the mapping or into RAM, and wrap at `2^64`.
-/

namespace ArmHyp

namespace Hvf

/-- The file, as `mmap` shows it; `st_size` is an `off_t`. -/
structure ElfFile where
  size : Nat
  byte : Nat → BitVec 8
  size_lt : size < 2 ^ 63

/-- Why the image is rejected. -/
inductive ElfError where
  /-- "mmap elf": a mapping of length 0. -/
  | mmapFailed
  /-- "not an aarch64 ELF64 little-endian file". -/
  | notElf
  /-- "segment %u: PA 0x%llx + %llu bytes outside guest RAM". -/
  | outsideRam (i : Nat) (dstPa memsz : BitVec 64)
deriving DecidableEq

/-- An access to the file or to guest RAM. -/
inductive ElfAccess where
  | file (off : BitVec 64) (n : Nat)
  | ram (off : BitVec 64) (n : Nat)
deriving DecidableEq

abbrev ElfM := Checked ElfError ElfAccess

/-! ## Accesses -/

namespace ElfFile

variable (f : ElfFile)

/-- The `n` bytes at `off`, little-endian. -/
def le (off : Nat) : Nat → Nat
  | 0 => 0
  | n + 1 => (f.byte off).toNat + 256 * le (off + 1) n

/-- A field of `n` bytes, zero-extended. -/
def field (off : BitVec 64) (n : Nat) : BitVec 64 := BitVec.ofNat 64 (f.le off.toNat n)

/-- The field is inside the file. -/
def Has (off : BitVec 64) (n : Nat) : Prop := InRange off n f.size

instance has_decidable (off : BitVec 64) (n : Nat) : Decidable (f.Has off n) :=
  inRange_decidable off n f.size

def readField (off : BitVec 64) (n : Nat) : ElfM (BitVec 64) :=
  Checked.access (f.Has off n) (.file off n) (f.field off n)

/-- The bytes of `n` at `src` in the file, stored at `dst` in RAM. -/
def copied (dst src : BitVec 64) (n : Nat) (ram : Mem) : Mem := fun a =>
  if dst.toNat ≤ a ∧ a < dst.toNat + n then f.byte (src.toNat + (a - dst.toNat)) else ram a

def memcpy (ramSize dst src n : BitVec 64) (ram : Mem) : ElfM Mem := do
  Checked.access (InRange src n.toNat f.size) (.file src n.toNat) ()
  Checked.access (InRange dst n.toNat ramSize.toNat) (.ram dst n.toNat) (f.copied dst src n.toNat ram)

end ElfFile

def zeroed (dst : BitVec 64) (n : Nat) (ram : Mem) : Mem := fun a =>
  if dst.toNat ≤ a ∧ a < dst.toNat + n then 0 else ram a

def memset (ramSize dst n : BitVec 64) (ram : Mem) : ElfM Mem :=
  Checked.access (InRange dst n.toNat ramSize.toNat) (.ram dst n.toNat) (zeroed dst n.toNat ram)

/-! ## Fields -/

/-- `"\x7f" "ELF"` as a little-endian word, `ELFCLASS64`, `ELFDATA2LSB`,
`EM_AARCH64` and `PT_LOAD`. -/
def elfMag : BitVec 64 := 0x464C457F
def elfClass64 : BitVec 64 := 2
def elfData2Lsb : BitVec 64 := 1
def emAarch64 : BitVec 64 := 183
def ptLoad : BitVec 64 := 1

/-- `sizeof(Elf64_Phdr)`. -/
def sizeofPhdr : BitVec 64 := 56

/-! ## load_elf_into -/

namespace ElfFile

variable (f : ElfFile)

/-- The test of the file header; `||` stops at the first difference. -/
def checkIdent : ElfM Unit := do
  let mag ← f.readField 0 4
  if mag ≠ elfMag then .reject .notElf
  else do
    let cls ← f.readField 4 1
    if cls ≠ elfClass64 then .reject .notElf
    else do
      let data ← f.readField 5 1
      if data ≠ elfData2Lsb then .reject .notElf
      else do
        let machine ← f.readField 18 2
        if machine ≠ emAarch64 then .reject .notElf else .ok ()

/-- `ph->p_paddr ? ph->p_paddr : ph->p_vaddr`. -/
def readDstPa (ph : BitVec 64) : ElfM (BitVec 64) := do
  let paddr ← f.readField (ph + 24) 8
  if paddr ≠ 0 then .ok paddr else f.readField (ph + 16) 8

/-- A segment that passed the test: copy the file's bytes, zero the tail. -/
def placeSegment (ramSize ph dstPa memsz : BitVec 64) (ram : Mem) : ElfM Mem := do
  let offset ← f.readField (ph + 8) 8
  let filesz ← f.readField (ph + 32) 8
  let ram ← f.memcpy ramSize (dstPa - guestRamBase) offset filesz ram
  if memsz > filesz then memset ramSize (dstPa - guestRamBase + filesz) (memsz - filesz) ram
  else .ok ram

/-- The loop body, for program header `i` at `ph`. `p_memsz` is read on both
sides of the test, since the message prints it. -/
def loadSegment (ramSize : BitVec 64) (i : Nat) (ph : BitVec 64) (ram : Mem) : ElfM Mem := do
  let type ← f.readField ph 4
  if type ≠ ptLoad then .ok ram
  else do
    let dstPa ← f.readDstPa ph
    let memsz ← f.readField (ph + 40) 8
    if dstPa < guestRamBase ∨ dstPa + memsz > guestRamBase + ramSize then
      .reject (.outsideRam i dstPa memsz)
    else f.placeSegment ramSize ph dstPa memsz ram

/-- The loop over `n` program headers, from number `i` at `ph`. -/
def loadSegments (ramSize : BitVec 64) : Nat → Nat → BitVec 64 → Mem → ElfM Mem
  | 0, _, _, ram => .ok ram
  | n + 1, i, ph, ram => do
      let ram ← f.loadSegment ramSize i ph ram
      loadSegments ramSize n (i + 1) (ph + sizeofPhdr) ram

/-- `load_elf_into`: the entry point and guest RAM. -/
def loadElfInto (ramSize : BitVec 64) (ram : Mem) : ElfM (BitVec 64 × Mem) :=
  if f.size = 0 then .reject .mmapFailed
  else do
    f.checkIdent
    let phoff ← f.readField 32 8
    let phnum ← f.readField 56 2
    let ram ← f.loadSegments ramSize phnum.toNat 0 phoff ram
    let entry ← f.readField 24 8
    .ok (entry, ram)

end ElfFile

end Hvf

end ArmHyp
